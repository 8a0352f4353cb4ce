import JRaid.Jmd.Descriptors
import JRaid.Jmd.Persistence

/-!
# Members of one set

As long as the array has no superblock of its own, `add_new_disk` binds devices with the
superblocks that they carry. It compares the `set_uuid` of a newcomer with that of the member
bound last, but `uuid_equal` says yes in either case, so a device of another set is bound as
well. The members are of one set exactly as long as every device that is offered is
(`oneSet_of_reachable`).
-/

namespace JRaid

namespace Jmd

/-- `set_uuid`, in four words. -/
def Superblock.setUuid (sb : Superblock) : UInt32 × UInt32 × UInt32 × UInt32 :=
  (sb.setUuid0, sb.setUuid1, sb.setUuid2, sb.setUuid3)

/-- **All members belong to one array.** -/
def Jmddev.OneSet (s : Jmddev) : Prop :=
  ∀ j ∈ s.disks, ∀ k ∈ s.disks, j.sb.setUuid = k.sb.setUuid

/-- The device that the call imports, with its superblock. -/
def Jmddev.Imports (s : Jmddev) (c : AddCall) (jrdev : Rdev) : Prop :=
  ∃ imported, s.jmdImportDevice c.env c.info.dev true = .ok (.ok (jrdev, imported))

/-- A device that is of another set than some member is neither bound nor in `all_jraid_disks`
when the call has returned with the array `s'`. -/
def Jmddev.KeepsOut (s : Jmddev) (c : AddCall) (s' : Jmddev) : Prop :=
  ∀ jrdev, s.Imports c jrdev → (∃ m ∈ s.disks, m.sb.setUuid ≠ jrdev.sb.setUuid) →
    c.info.dev ∉ s'.disks.map Rdev.dev ∧ c.info.dev ∉ s'.all

/-- The device that the call imports, if any, is of the set of the member bound last. -/
def Jmddev.OffersSameSet (s : Jmddev) (c : AddCall) : Prop :=
  ∀ jrdev, s.Imports c jrdev → ∀ m ∈ s.disks.head?, m.sb.setUuid = jrdev.sb.setUuid

/-! ### What a call does -/

/-- Without an array superblock a call binds the device that it imports, and otherwise changes
nothing. -/
theorem Jmddev.addNewDisk_onDisk {s s' : Jmddev} {c : AddCall} {err : Int32} (hsb : s.sb = none)
    (h : s.addNewDisk c.env c.info = .ok (err, s')) :
    (s' = s ∧ ∀ jrdev, ¬s.Imports c jrdev) ∨
      ∃ jrdev, s.Imports c jrdev ∧ jrdev.dev = c.info.dev ∧
        s' = { s with all := c.info.dev :: s.all }.bindRdevToArray jrdev := by
  unfold addNewDisk at h
  split at h
  · -- a device that is in use is not imported
    obtain ⟨-, rfl⟩ := Prod.mk.inj (Except.ok.inj h)
    refine Or.inl ⟨rfl, fun jrdev ⟨imported, himp⟩ => ?_⟩
    exact (Jmddev.imported himp).1.fresh ‹_›
  rw [hsb] at h
  dsimp only at h
  unfold addOnDisk at h
  split at h
  · cases h
  · rename_i himp
    obtain ⟨-, rfl⟩ := Prod.mk.inj (Except.ok.inj h)
    refine Or.inl ⟨rfl, fun jrdev ⟨imported, himp'⟩ => ?_⟩
    rw [himp] at himp'
    cases himp'
  · rename_i jrdev imported himp
    obtain ⟨hnew, rfl⟩ := Jmddev.imported himp
    refine Or.inr ⟨jrdev, ⟨_, himp⟩, hnew.dev, ?_⟩
    split at h
    · exact (Prod.mk.inj (Except.ok.inj h)).2.symm
    · -- `uuid_equal` never says no
      rw [if_neg (by simp [uuidEqual])] at h
      exact (Prod.mk.inj (Except.ok.inj h)).2.symm

theorem Jmddev.oneSet_bindRdevToArray_iff {s : Jmddev} {jrdev : Rdev} (h : s.OneSet) :
    (s.bindRdevToArray jrdev).OneSet ↔ ∀ m ∈ s.disks.head?, m.sb.setUuid = jrdev.sb.setUuid := by
  constructor
  · intro hone m hm
    exact hone m (List.mem_cons_of_mem jrdev (List.mem_of_mem_head? hm)) jrdev List.mem_cons_self
  · intro hhead
    have hall : ∀ j ∈ s.disks, j.sb.setUuid = jrdev.sb.setUuid := by
      intro j hj
      obtain ⟨m, hm⟩ : ∃ m, s.disks.head? = some m :=
        Option.isSome_iff_exists.mp (List.isSome_head?.mpr (List.ne_nil_of_mem hj))
      rw [← hhead m hm]
      exact h j hj m (List.mem_of_mem_head? hm)
    have heq : ∀ j ∈ (s.bindRdevToArray jrdev).disks, j.sb.setUuid = jrdev.sb.setUuid := by
      intro j hj
      obtain rfl | hj := List.mem_cons.mp hj
      · rfl
      · exact hall j hj
    exact fun j hj k hk => (heq j hj).trans (heq k hk).symm

/-- What one call does to an array whose members are of one set. -/
theorem Jmddev.oneSet_step {s s' : Jmddev} {c : AddCall} {err : Int32} (hsb : s.sb = none)
    (hone : s.OneSet) (h : s.addNewDisk c.env c.info = .ok (err, s')) :
    s'.sb = none ∧ (s'.OneSet ∧ s.KeepsOut c s' ↔ s.OffersSameSet c) := by
  obtain ⟨rfl, hnone⟩ | ⟨jrdev, himp, hdev, rfl⟩ := addNewDisk_onDisk hsb h
  · exact ⟨hsb, iff_of_true ⟨hone, fun j hj => absurd hj (hnone j)⟩
      fun j hj => absurd hj (hnone j)⟩
  · refine ⟨hsb, ?_⟩
    have hunique : ∀ j, s.Imports c j → j = jrdev := by
      rintro j ⟨imported, hj⟩
      obtain ⟨imported', hjrdev⟩ := himp
      rw [hjrdev] at hj
      exact (Prod.mk.inj (Except.ok.inj (Except.ok.inj hj))).1.symm
    rw [oneSet_bindRdevToArray_iff (s := { s with all := c.info.dev :: s.all }) hone]
    constructor
    · rintro ⟨hhead, -⟩ j hj
      rw [hunique j hj]
      exact hhead
    · intro hoffer
      refine ⟨hoffer jrdev himp, fun j hj ⟨m, hm, hne⟩ => ?_⟩
      -- all members are of the set of the newcomer
      obtain ⟨m₀, hm₀⟩ : ∃ m, s.disks.head? = some m :=
        Option.isSome_iff_exists.mp (List.isSome_head?.mpr (List.ne_nil_of_mem hm))
      exact absurd ((hone m hm m₀ (List.mem_of_mem_head? hm₀)).trans (hoffer j hj m₀ hm₀)) hne

/-! ### Runs -/

/-- **All members belong to one array** along each run of `add_new_disk` calls, from an array
without a superblock, in which the devices that are imported are of the set of the member bound
last; and a call that imports another device binds it and ends this. -/
theorem oneSet_of_reachable {device : DevT → BlockDev} {s : Jmddev}
    (h : (addSystem (Jmddev.fresh device)).ReachableWith Jmddev.OffersSameSet s) :
    s.OneSet ∧ ∀ c s', (addSystem (Jmddev.fresh device)).step s c = .ok s' →
      (s'.OneSet ∧ s.KeepsOut c s' ↔ s.OffersSameSet c) := by
  have hinv : s.sb = none ∧ s.OneSet := by
    refine FallibleSystem.ReachableWith.invariant (I := fun s => s.sb = none ∧ s.OneSet)
      ⟨rfl, fun _ hm => absurd hm List.not_mem_nil⟩ ?_ h
    rintro s c s' ⟨hsb, hone⟩ hoffer hs
    obtain ⟨err, hadd⟩ := exists_addNewDisk_of_step hs
    obtain ⟨hsb', hiff⟩ := Jmddev.oneSet_step hsb hone hadd
    exact ⟨hsb', (hiff.mpr hoffer).1⟩
  refine ⟨hinv.2, fun c s' hs => ?_⟩
  obtain ⟨err, hadd⟩ := exists_addNewDisk_of_step hs
  exact (Jmddev.oneSet_step hinv.1 hinv.2 hadd).2

/-- Devices of 1024 sectors with plausible superblocks; their numbers are their sets. -/
def foreignDevices : DevT → BlockDev := fun dev =>
  { staleDev with word := fun i => if i = 0 then mdSbMagic else if i = 5 then dev else 0 }

/-- Two devices of one set are bound. -/
theorem oneSet_of_second : ∃ s, s.disks.length = 2 ∧ s.OneSet ∧
    ∀ c s', (addSystem (Jmddev.fresh fun _ => staleDev)).step s c = .ok s' →
      (s'.OneSet ∧ s.KeepsOut c s' ↔ s.OffersSameSet c) := by
  obtain ⟨s, hs, ⟨r, himp, hsame⟩, t, ht, hlen⟩ : ∃ s,
      (addSystem (Jmddev.fresh fun _ => staleDev)).step (Jmddev.fresh fun _ => staleDev)
          (addDisk 0 0 (by decide)) = .ok s ∧
        (∃ r, s.jmdImportDevice importAll (mkdev 8 16) true = .ok (.ok r) ∧
          s.disks.head?.map (fun m => m.sb.setUuid) = some r.1.sb.setUuid) ∧
        ∃ t, (addSystem (Jmddev.fresh fun _ => staleDev)).step s (addDisk 1 16 (by decide)) =
          .ok t ∧ t.disks.length = 2 := ⟨_, rfl, ⟨_, rfl, rfl⟩, _, rfl, rfl⟩
  have hoffer : s.OffersSameSet (addDisk 1 16 (by decide)) := by
    rintro jrdev ⟨imported, himp'⟩ m hm
    obtain rfl := Except.ok.inj (Except.ok.inj (himp.symm.trans himp'))
    rw [Option.mem_def.mp hm] at hsame
    exact Option.some.inj hsame
  exact ⟨t, hlen, oneSet_of_reachable ((Relation.ReflTransGen.single
    ⟨_, fun _ _ _ hm => absurd hm (Option.not_mem_none _), hs⟩).tail ⟨_, hoffer, ht⟩)⟩

/-- Two devices of different sets are bound. -/
theorem foreign_device_bound : ∃ s,
    (addSystem (Jmddev.fresh foreignDevices)).exec (Jmddev.fresh foreignDevices)
        [addDisk 0 0 (by decide), addDisk 1 16 (by decide)] = .ok s ∧ ¬s.OneSet := by
  have hrun : ((addSystem (Jmddev.fresh foreignDevices)).exec (Jmddev.fresh foreignDevices)
      [addDisk 0 0 (by decide), addDisk 1 16 (by decide)]).toOption.map
        (fun s => s.disks.map fun m => m.sb.setUuid) =
      some [(mkdev 8 16, 0, 0, 0), (mkdev 8 0, 0, 0, 0)] := rfl
  obtain ⟨s, hexec, hdisks⟩ := FallibleSystem.exists_exec hrun
  refine ⟨s, hexec, fun hone => ?_⟩
  have hall : ∀ u ∈ s.disks.map fun m => m.sb.setUuid,
      ∀ v ∈ s.disks.map fun m => m.sb.setUuid, u = v := by
    intro u hu v hv
    obtain ⟨j, hj, rfl⟩ := List.mem_map.mp hu
    obtain ⟨k, hk, rfl⟩ := List.mem_map.mp hv
    exact hone j hj k hk
  rw [hdisks] at hall
  have heq := hall _ List.mem_cons_self _ (List.mem_cons_of_mem _ List.mem_cons_self)
  exact absurd (Prod.mk.inj heq).1 (by decide)

end Jmd

end JRaid
