import JRaid.Jmd.Descriptors
import JRaid.Jmd.Table

/-!
# The disk counters

`remove_descriptor` sets back the counters of the superblock, which one depending on the state of
the descriptor. They were set by `set_array_info` from what the caller says, and `add_new_disk`,
which enters the descriptors, does not count them. When `analyze_sbs` drops descriptors a counter
wraps around exactly if more descriptors that it counts are dropped than it holds
(`counters_never_wrap_iff`).
-/

namespace JRaid

namespace Jmd

/-! ### Which counters go down -/

/-- The counters that `remove_descriptor` sets back. -/
inductive Counter
  | nrDisks
  | workingDisks
  | failedDisks
  | spareDisks
  deriving DecidableEq, Repr

/-- The value of a counter. -/
def Superblock.counter (sb : Superblock) : Counter → UInt32
  | .nrDisks => sb.nrDisks
  | .workingDisks => sb.workingDisks
  | .failedDisks => sb.failedDisks
  | .spareDisks => sb.spareDisks

/-- The counters of a descriptor, by its state. -/
def Disk.CountedBy (d : Disk) : Counter → Prop
  | .nrDisks => True
  | .workingDisks => d.active = true ∨ d.spare = true
  | .failedDisks => d.active = false ∧ d.spare = false
  | .spareDisks => d.active = false ∧ d.spare = true

instance (d : Disk) : (k : Counter) → Decidable (d.CountedBy k)
  | .nrDisks => inferInstanceAs (Decidable True)
  | .workingDisks => inferInstanceAs (Decidable (_ ∨ _))
  | .failedDisks => inferInstanceAs (Decidable (_ ∧ _))
  | .spareDisks => inferInstanceAs (Decidable (_ ∧ _))

/-- `remove_descriptor` sets back the counters of the descriptor by one. -/
theorem Superblock.counter_removeDescriptor (sb : Superblock) (i : Fin mdSbDisks) (k : Counter) :
    (sb.removeDescriptor i).counter k =
      if (sb.disks i).CountedBy k then sb.counter k - 1 else sb.counter k := by
  unfold removeDescriptor
  dsimp only
  cases hactive : (sb.disks i).active with
  | true => cases k <;> simp [counter, Disk.CountedBy, hactive, setDisk]
  | false =>
    cases hspare : (sb.disks i).spare with
    | true => cases k <;> simp [counter, Disk.CountedBy, hactive, hspare, setDisk]
    | false => cases k <;> simp [counter, Disk.CountedBy, hactive, hspare, setDisk]

/-! ### When a counter wraps -/

section

variable (disks : List Rdev) (k : Counter)

/-- In the loop over the descriptors `l` the counter is never 0 when it is set back. -/
def Superblock.NeverWraps : List (Fin mdSbDisks) → Superblock → Prop
  | [], _ => True
  | i :: l, sb => ((sb.disks i).Dropped disks → (sb.disks i).CountedBy k → sb.counter k ≠ 0) ∧
      NeverWraps l (Superblock.dropDescriptor disks sb i)

/-- The number of descriptors in `l` that are dropped and that the counter counts. -/
def Superblock.dropped (sb : Superblock) (l : List (Fin mdSbDisks)) : ℕ :=
  l.countP fun i => decide ((sb.disks i).Dropped disks ∧ (sb.disks i).CountedBy k)

variable {disks k}

/-- Dropping one descriptor does not change how many of the others are dropped. -/
theorem Superblock.dropped_dropDescriptor {sb : Superblock} {i : Fin mdSbDisks}
    {l : List (Fin mdSbDisks)} (hi : i ∉ l) :
    (Superblock.dropDescriptor disks sb i).dropped disks k l = sb.dropped disks k l := by
  refine List.countP_congr fun j hj => ?_
  have hji : j ≠ i := fun h => hi (h ▸ hj)
  rw [dropDescriptor_eq]
  split
  · rw [disks_removeDescriptor, Function.update_of_ne hji]
  · rfl

/-- There is room for one more step if the counter can be set back. -/
theorem succ_le_toNat_iff {x : UInt32} {n : ℕ} : n + 1 ≤ x.toNat ↔ x ≠ 0 ∧ n ≤ (x - 1).toNat := by
  have hx := x.toNat_lt
  rw [ne_eq, ← UInt32.toNat_inj, UInt32.toNat_sub, UInt32.toNat_zero, UInt32.toNat_one]
  omega

/-- **A loop that sets a counter back never wraps it** exactly if the counter is large enough for
all of its steps. -/
theorem Superblock.neverWraps_iff {sb : Superblock} {l : List (Fin mdSbDisks)} (h : l.Nodup) :
    Superblock.NeverWraps disks k l sb ↔ sb.dropped disks k l ≤ (sb.counter k).toNat := by
  induction l generalizing sb with
  | nil => exact iff_of_true trivial (Nat.zero_le _)
  | cons i l ih =>
    obtain ⟨hi, hl⟩ := List.nodup_cons.mp h
    rw [NeverWraps, ih hl, dropped_dropDescriptor hi, dropDescriptor_eq, dropped, dropped,
      List.countP_cons]
    by_cases hdrop : (sb.disks i).Dropped disks
    · rw [if_pos hdrop, counter_removeDescriptor]
      by_cases hcount : (sb.disks i).CountedBy k
      · rw [if_pos hcount, if_pos (decide_eq_true ⟨hdrop, hcount⟩), succ_le_toNat_iff]
        exact and_congr_left fun _ => ⟨fun hne => hne hdrop hcount, fun hne _ _ => hne⟩
      · simp [hcount]
    · simp [hdrop]

end

/-! ### What the loop starts from -/

/-- The superblock and the members with which the loop over the descriptors starts, if
`analyze_sbs` comes to it. -/
def Jmddev.dropInput (s : Jmddev) (alloc : Bool) : Option (Superblock × List Rdev) :=
  match s.adopt alloc with
  | .ok (some (sb, disks)) =>
    match renamePass sb disks with
    | .ok (true, sb, disks) => some (sb, disks)
    | _ => none
  | _ => none

theorem Jmddev.of_dropInput {s : Jmddev} {alloc : Bool} {sb : Superblock} {disks : List Rdev}
    (h : s.dropInput alloc = some (sb, disks)) :
    ∃ adopted, s.adopt alloc = .ok (some adopted) ∧
      renamePass adopted.1 adopted.2 = .ok (true, sb, disks) := by
  unfold dropInput at h
  split at h
  · rename_i sb₀ disks₀ hadopt
    split at h
    · rename_i hrename
      obtain ⟨rfl, rfl⟩ := Prod.mk.inj (Option.some.inj h)
      exact ⟨_, hadopt, hrename⟩
    · cases h
  · cases h

/-- What `analyze_sbs` makes of them. -/
theorem Jmddev.analyzeSbs_of_dropInput {s : Jmddev} {alloc : Bool} {sb : Superblock}
    {disks : List Rdev} (h : s.dropInput alloc = some (sb, disks)) : ∃ err,
      s.analyzeSbs alloc =
        .ok (err, { s with sb := some (sb.dropDescriptors disks), disks := disks }) := by
  obtain ⟨adopted, hadopt, hrename⟩ := of_dropInput h
  rw [analyzeSbs, hadopt]
  dsimp only
  rw [hrename]
  exact ⟨_, rfl⟩

/-! ### The counters are those of the caller -/

/-- The counters that `set_array_info` is told. -/
def JmdArrayInfo.counter (info : JmdArrayInfo) : Counter → UInt32
  | .nrDisks => info.nrDisks.toUInt32
  | .workingDisks => info.workingDisks.toUInt32
  | .failedDisks => info.failedDisks.toUInt32
  | .spareDisks => info.spareDisks.toUInt32

theorem Superblock.counter_setInfo (sb : Superblock) (env : ArrayInfoEnv) (info : JmdArrayInfo) :
    (sb.setInfo env info).counter = info.counter := by
  funext k
  cases k <;> rfl

theorem Superblock.counter_setDisk (sb : Superblock) (i : Fin mdSbDisks) (d : Disk) :
    (sb.setDisk i d).counter = sb.counter := by
  funext k
  cases k <;> rfl

theorem Superblock.counter_takeSize (sb : Superblock) (size : UInt32) :
    (sb.takeSize size).counter = sb.counter := by
  unfold takeSize
  split
  · funext k
    cases k <;> rfl
  · rfl

theorem Rdev.counter_syncSb (sb : Superblock) {jrdev : Rdev} (h : jrdev.faulty = false) :
    (jrdev.syncSb sb).sb.counter = sb.counter := by
  obtain ⟨d, c, hsb⟩ := jrdev.syncSb_sb sb h
  rw [hsb]
  funext k
  cases k <;> rfl

theorem Rdev.counter_age (jrdev : Rdev) : jrdev.age.sb.counter = jrdev.sb.counter := by
  unfold age
  split
  · change jrdev.sb.uncountEvent.counter = jrdev.sb.counter
    unfold Superblock.uncountEvent
    dsimp only
    split <;> funext k <;> cases k <;> rfl
  · rfl

/-- The array superblock and the copies of all members hold the counters `c`. -/
structure Jmddev.HoldsCounters (s : Jmddev) (c : Counter → UInt32) : Prop where
  sb : ∃ sb, s.sb = some sb ∧ sb.counter = c
  members : ∀ m ∈ s.disks, m.faulty = false ∧ m.sb.counter = c

/-- After `sync_sbs` all copies hold the counters of the array. -/
theorem holdsCounters_syncSbs {s : Jmddev} {sb : Superblock} {disks : List Rdev}
    {c : Counter → UInt32} (hsb : s.sb = some sb) (hc : sb.counter = c)
    (hdisks : s.disks = syncSbs sb disks) (hup : ∀ m ∈ disks, m.faulty = false) :
    s.HoldsCounters c := by
  refine ⟨⟨sb, hsb, hc⟩, fun m hm => ?_⟩
  rw [hdisks] at hm
  obtain ⟨j, hj, rfl⟩ := List.mem_map.mp hm
  exact ⟨(j.syncSb_same sb).faulty.trans (hup j hj), (j.counter_syncSb sb (hup j hj)).trans hc⟩

theorem Jmddev.HoldsCounters.addNewDisk {s s' : Jmddev} {c : Counter → UInt32}
    {env : ImportEnv} {info : JmdDiskInfo} {err : Int32} (h : s.HoldsCounters c)
    (hadd : s.AddOutcome env info err s') : s'.HoldsCounters c := by
  obtain ⟨sb₀, hsb₀, hc⟩ := h.sb
  have hassign : ∀ {sb : Superblock} (i : Fin mdSbDisks), s.sb = some sb →
      (sb.assign i info).counter = c := fun i hsb => by
    rw [← Option.some.inj (hsb₀.symm.trans hsb)]
    exact (sb₀.counter_setDisk i _).trans hc
  have hup : ∀ m ∈ s.disks, m.faulty = false := fun m hm => (h.members m hm).1
  cases hadd with
  | known => exact h
  | noSuperblock => exact h
  | onDisk hsb => exact absurd (hsb.symm.trans hsb₀) (by simp)
  | noSlot => exact h
  | notImported hall sb hsb hnr hlt => exact ⟨⟨_, rfl, hassign _ hsb⟩, h.members⟩
  | faulty hall sb hsb hnr hlt =>
    exact holdsCounters_syncSbs rfl (hassign _ hsb) rfl hup
  | bound hall sb hsb hnr hlt hinfo jrdev himp =>
    obtain ⟨size, sbOffset, hbound⟩ := exists_bindImported
      { s with sb := some (sb.assign ⟨_, hlt⟩ info), all := info.dev :: s.all }
      (sb.assign ⟨_, hlt⟩ info) { jrdev with oldDev := info.dev, descNr := info.number }
    rw [hbound]
    refine holdsCounters_syncSbs rfl ((Superblock.counter_takeSize _ size).trans (hassign _ hsb))
      rfl fun m hm => ?_
    obtain rfl | hm := List.mem_cons.mp hm
    · exact himp.faulty
    · exact hup m hm

theorem holdsCounters_of_reachable {device : DevT → BlockDev} {env : ArrayInfoEnv}
    {info : JmdArrayInfo} {s : Jmddev} (h : (addSystem (setArray device env info)).Reachable s) :
    s.HoldsCounters info.counter := by
  refine h.invariant (I := fun s => s.HoldsCounters info.counter) ?_ fun s c s' _ hs hstep => ?_
  · exact ⟨⟨_, rfl, Superblock.counter_setInfo _ _ info⟩, fun m hm => absurd hm List.not_mem_nil⟩
  · obtain ⟨err, hadd⟩ := exists_addNewDisk_of_step hstep
    exact hs.addNewDisk (Jmddev.addOutcome hadd)

/-- The loop over the descriptors starts with the counters of the members. -/
theorem Jmddev.HoldsCounters.dropInput {s : Jmddev} {c : Counter → UInt32}
    (h : s.HoldsCounters c) {alloc : Bool} {sb : Superblock} {disks : List Rdev}
    (hin : s.dropInput alloc = some (sb, disks)) : sb.counter = c := by
  obtain ⟨adopted, hadopt, hrename⟩ := of_dropInput hin
  obtain ⟨-, f, hf, hfsb, -⟩ := of_adopt hadopt
  obtain ⟨m, hm, rfl⟩ := List.mem_map.mp (mem_of_freshest hf)
  have hkeep : sb.counter = adopted.1.counter :=
    renamePass_induct (motive := fun sb _ _ sb' _ => sb'.counter = sb.counter)
      (fun _ => rfl) (fun _ _ _ => rfl)
      (fun sb _ _ i _ _ _ _ _ ih => ih.trans (sb.counter_setDisk i _))
      (fun _ _ _ _ _ _ _ ih => ih) hrename
  rw [hkeep, hfsb, m.counter_age]
  exact (h.members m hm).2

/-- **When the disk counters never wrap.** For every array that `set_array_info` and calls of
`add_new_disk`, whether they succeed or fail, have made, the loop of `analyze_sbs` that removes
descriptors sets no counter below 0 exactly if for each counter `set_array_info` was told at least
the number of descriptors that are removed and counted by it. -/
theorem counters_never_wrap_iff {device : DevT → BlockDev} {env : ArrayInfoEnv}
    {info : JmdArrayInfo} {s : Jmddev} (h : (addSystem (setArray device env info)).Reachable s)
    (alloc : Bool) :
    (∀ sb disks, s.dropInput alloc = some (sb, disks) →
        ∀ k, Superblock.NeverWraps disks k (List.finRange mdSbDisks) sb) ↔
      ∀ sb disks, s.dropInput alloc = some (sb, disks) →
        ∀ k, sb.dropped disks k (List.finRange mdSbDisks) ≤ (info.counter k).toNat := by
  refine forall₃_congr fun sb disks hin => forall_congr' fun k => ?_
  rw [Superblock.neverWraps_iff (List.nodup_finRange mdSbDisks),
    (holdsCounters_of_reachable h).dropInput hin]

/-- The device for number 0 cannot be claimed. -/
def addBusy : AddCall := ⟨⟨0, 8, 0, 0, 0⟩, { importAll with lock := false }, fun _ => rfl⟩

/-- What the loop that removes descriptors starts with when the second device has been added. -/
private theorem exists_busy : ∃ s sb disks,
    (addSystem threeDisks).exec threeDisks [addBusy, addDisk 1 16 (by decide)] = .ok s ∧
      s.dropInput true = some (sb, disks) ∧
      sb.dropped disks .spareDisks (List.finRange mdSbDisks) = 1 ∧
      sb.counter .spareDisks = 0 := by
  have hrun : ((addSystem threeDisks).exec threeDisks
      [addBusy, addDisk 1 16 (by decide)]).toOption.map
        (fun s => (s.dropInput true).map fun r =>
          (r.1.dropped r.2 .spareDisks (List.finRange mdSbDisks), r.1.counter .spareDisks)) =
      some (some (1, 0)) := by decide
  obtain ⟨s, hexec, hin⟩ := FallibleSystem.exists_exec hrun
  obtain ⟨⟨sb, disks⟩, hin, hcounts⟩ := Option.map_eq_some_iff.mp hin
  obtain ⟨hdropped, hcounter⟩ := Prod.mk.inj hcounts
  exact ⟨s, sb, disks, hexec, hin, hdropped, hcounter⟩

theorem counters_never_wrap_iff_busy : ∃ s sb disks,
    (addSystem threeDisks).exec threeDisks [addBusy, addDisk 1 16 (by decide)] = .ok s ∧
      s.dropInput true = some (sb, disks) ∧
      sb.dropped disks .spareDisks (List.finRange mdSbDisks) = 1 ∧
      ¬∀ sb disks, s.dropInput true = some (sb, disks) →
        ∀ k, Superblock.NeverWraps disks k (List.finRange mdSbDisks) sb := by
  obtain ⟨s, sb, disks, hexec, hin, hdropped, -⟩ := exists_busy
  have hs : (addSystem threeDisks).Reachable s := FallibleSystem.reachable_of_exec hexec
  refine ⟨s, sb, disks, hexec, hin, hdropped, fun hnever => ?_⟩
  have hle := (counters_never_wrap_iff hs true).mp hnever sb disks hin .spareDisks
  rw [hdropped] at hle
  exact absurd hle (by decide)

/-- The first of two devices cannot be claimed, but its descriptor has been entered. It is a spare
one, and is removed when the counters of spare and of working disks are 0. -/
theorem spare_counter_wraps : ∃ s sb disks,
    (addSystem threeDisks).exec threeDisks [addBusy, addDisk 1 16 (by decide)] = .ok s ∧
      s.dropInput true = some (sb, disks) ∧
      ¬Superblock.NeverWraps disks .spareDisks (List.finRange mdSbDisks) sb := by
  obtain ⟨s, sb, disks, hexec, hin, hdropped, hcounter⟩ := exists_busy
  refine ⟨s, sb, disks, hexec, hin, ?_⟩
  rw [Superblock.neverWraps_iff (List.nodup_finRange mdSbDisks), hdropped, hcounter]
  decide

end Jmd

end JRaid
