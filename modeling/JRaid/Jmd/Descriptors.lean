import JRaid.ForMathlib.FallibleSystem
import JRaid.Jmd.AddNewDisk

/-!
# The descriptors of the members

A member should have a descriptor of its own: the one that its `desc_nr` names carries its
device number, and no other member names it (`Jmddev.OwnsDescriptors`).

`add_new_disk` writes the descriptor that the caller has chosen before it knows whether the
device can be imported, and without a look at the member that may sit there. When
`sync_sbs` follows, every member looks for its device number in the table, so the members own
their descriptors exactly if the table still has an entry for each (`syncSbs_owns_iff`).
Along any run of calls they do as long as no call hits a descriptor that is in use, unless
the member in it has a second entry to move to (`ownsDescriptors_of_reachable`).
-/

namespace JRaid

namespace Jmd

/-! ### Owning a descriptor -/

/-- The descriptor that the member names carries its device number. -/
def Superblock.Owned (sb : Superblock) (jrdev : Rdev) : Prop :=
  ∃ i, descIndex jrdev.descNr = some i ∧ (sb.disks i).dev = jrdev.dev

/-- **Every member owns its descriptor.** -/
def Jmddev.OwnsDescriptors (jmddev : Jmddev) : Prop :=
  (jmddev.disks.map Rdev.descNr).Nodup ∧
    ∀ sb, jmddev.sb = some sb → ∀ jrdev ∈ jmddev.disks, sb.Owned jrdev

/-- A descriptor that carries a device number is numbered by its place. -/
def Superblock.Numbered (sb : Superblock) : Prop :=
  ∀ i : Fin mdSbDisks, (sb.disks i).dev ≠ 0 → (sb.disks i).number.toNat = i

/-- An array whose superblock is set, as `add_new_disk` keeps it. -/
structure Jmddev.Tidy (jmddev : Jmddev) : Prop where
  sb : jmddev.sb.isSome
  numbered : ∀ sb, jmddev.sb = some sb → sb.Numbered
  all : ∀ jrdev ∈ jmddev.disks, jrdev.dev ∈ jmddev.all
  nodup : (jmddev.disks.map Rdev.dev).Nodup
  dev : ∀ jrdev ∈ jmddev.disks, jrdev.dev ≠ 0
  up : ∀ jrdev ∈ jmddev.disks, jrdev.faulty = false

/-- Members that own descriptors and have different devices have different numbers. -/
theorem nodup_descNr {sb : Superblock} {disks : List Rdev} (hdev : (disks.map Rdev.dev).Nodup)
    (h : ∀ jrdev ∈ disks, sb.Owned jrdev) : (disks.map Rdev.descNr).Nodup := by
  refine List.Nodup.map_on (fun a ha b hb hab => ?_) (List.Nodup.of_map _ hdev)
  obtain ⟨i, hi, hai⟩ := h a ha
  obtain ⟨j, hj, hbj⟩ := h b hb
  obtain rfl : i = j := Option.some.inj (hi.symm.trans ((congrArg descIndex hab).trans hj))
  exact List.inj_on_of_nodup_map hdev ha hb (hai.symm.trans hbj)

theorem Jmddev.ownsDescriptors_iff (jmddev : Jmddev) {sb : Superblock}
    (hsb : jmddev.sb = some sb) (hdev : (jmddev.disks.map Rdev.dev).Nodup) :
    jmddev.OwnsDescriptors ↔ ∀ jrdev ∈ jmddev.disks, sb.Owned jrdev := by
  constructor
  · exact fun h => h.2 sb hsb
  · intro h
    refine ⟨nodup_descNr hdev h, fun sb' hsb' => ?_⟩
    obtain rfl : sb = sb' := Option.some.inj (hsb.symm.trans hsb')
    exact h

/-! ### `sync_sbs` -/

/-- After `sync_sbs` a member owns its descriptor exactly if the table has an entry for it. -/
theorem Superblock.owned_syncSb_iff {sb : Superblock} (hsb : sb.Numbered) {jrdev : Rdev}
    (hup : jrdev.faulty = false) (hdev : jrdev.dev ≠ 0) :
    sb.Owned (jrdev.syncSb sb) ↔ ∃ i, (sb.disks i).dev = jrdev.dev := by
  constructor
  · rintro ⟨i, -, hi⟩
    exact ⟨i, hi.trans (jrdev.syncSb_dev sb)⟩
  · rintro ⟨j, hj⟩
    obtain ⟨i, hi⟩ := exists_findDisk hj
    have hidev := dev_of_findDisk hi
    have hnum : (sb.disks i).number.toNat = i := hsb i (hidev ▸ hdev)
    refine ⟨i, ?_, by rw [jrdev.syncSb_dev, hidev]⟩
    rw [jrdev.syncSb_descNr hup hi]
    exact descIndex_eq_some_iff.mpr (by rwa [UInt32.toUInt32_toInt32])

/-- **After `sync_sbs`** with members of different devices, none of them faulty: the array is
tidy, and the members own their descriptors exactly if the table has an entry for each. -/
theorem Jmddev.tidy_syncSbs (jmddev : Jmddev) {sb : Superblock} {disks : List Rdev}
    (hsb : jmddev.sb = some sb) (hdisks : jmddev.disks = syncSbs sb disks) (hnum : sb.Numbered)
    (hall : ∀ jrdev ∈ disks, jrdev.dev ∈ jmddev.all) (hnodup : (disks.map Rdev.dev).Nodup)
    (hdev : ∀ jrdev ∈ disks, jrdev.dev ≠ 0) (hup : ∀ jrdev ∈ disks, jrdev.faulty = false) :
    jmddev.Tidy ∧
      (jmddev.OwnsDescriptors ↔ ∀ jrdev ∈ disks, ∃ j, (sb.disks j).dev = jrdev.dev) := by
  have hmem : ∀ {p : Rdev → Prop}, (∀ jrdev ∈ jmddev.disks, p jrdev) ↔
      ∀ jrdev ∈ disks, p (jrdev.syncSb sb) := by
    rw [hdisks, syncSbs]
    exact List.forall_mem_map
  have hnodup' : (jmddev.disks.map Rdev.dev).Nodup := by rwa [hdisks, map_dev_syncSbs]
  refine ⟨⟨hsb ▸ rfl, fun sb' hsb' => ?_, ?_, hnodup', ?_, ?_⟩, ?_⟩
  · obtain rfl : sb = sb' := Option.some.inj (hsb.symm.trans hsb')
    exact hnum
  · exact hmem.mpr fun jrdev h => (jrdev.syncSb_dev sb).symm ▸ hall jrdev h
  · exact hmem.mpr fun jrdev h => (jrdev.syncSb_dev sb).symm ▸ hdev jrdev h
  · exact hmem.mpr fun jrdev h => (jrdev.syncSb_same sb).faulty.trans (hup jrdev h)
  · rw [jmddev.ownsDescriptors_iff hsb hnodup', hmem]
    exact forall₂_congr fun jrdev h => Superblock.owned_syncSb_iff hnum (hup jrdev h) (hdev jrdev h)

/-! ### Writing a descriptor -/

theorem Superblock.dev_assign_self (sb : Superblock) (i : Fin mdSbDisks) (info : JmdDiskInfo) :
    ((sb.assign i info).disks i).dev = info.dev := by
  rw [assign, setDisk]
  simp only [Function.update_self]
  rfl

theorem Superblock.disks_assign_of_ne (sb : Superblock) {i j : Fin mdSbDisks}
    (info : JmdDiskInfo) (h : j ≠ i) : (sb.assign i info).disks j = sb.disks j :=
  Function.update_of_ne h _ _

@[simp]
theorem Superblock.disks_takeSize (sb : Superblock) (size : UInt32) :
    (sb.takeSize size).disks = sb.disks := by
  unfold takeSize
  split <;> rfl

theorem Superblock.Numbered.assign {sb : Superblock} (h : sb.Numbered) (info : JmdDiskInfo)
    (hlt : info.number.toUInt32.toNat < mdSbDisks) : (sb.assign ⟨_, hlt⟩ info).Numbered := by
  intro j hj
  by_cases hji : j = ⟨_, hlt⟩
  · subst hji
    rw [Superblock.assign, setDisk]
    simp only [Function.update_self]
    rfl
  · rw [sb.disks_assign_of_ne info hji] at hj ⊢
    exact h j hj

theorem Superblock.Numbered.takeSize {sb : Superblock} (h : sb.Numbered) (size : UInt32) :
    (sb.takeSize size).Numbered := by
  rwa [Numbered, disks_takeSize]

/-- Writing a descriptor for a new device takes it from the member that owns it, if there is
one. -/
theorem Superblock.owned_assign_iff {sb : Superblock} {jrdev : Rdev} {info : JmdDiskInfo}
    {i : Fin mdSbDisks} (hown : sb.Owned jrdev) (hne : info.dev ≠ jrdev.dev) :
    (sb.assign i info).Owned jrdev ↔ descIndex jrdev.descNr ≠ some i := by
  obtain ⟨j, hj, hdev⟩ := hown
  constructor
  · rintro ⟨k, hk, hkdev⟩ hi
    obtain rfl : i = k := Option.some.inj (hi.symm.trans hk)
    exact hne ((sb.dev_assign_self i info).symm.trans hkdev)
  · intro hi
    have hji : j ≠ i := fun h => hi (h ▸ hj)
    exact ⟨j, hj, by rwa [sb.disks_assign_of_ne info hji]⟩

/-- The table then still has an entry for that member if there was a second one. -/
theorem Superblock.exists_dev_assign_iff {sb : Superblock} {jrdev : Rdev} {info : JmdDiskInfo}
    {i : Fin mdSbDisks} (hown : sb.Owned jrdev) (hne : info.dev ≠ jrdev.dev) :
    (∃ j, ((sb.assign i info).disks j).dev = jrdev.dev) ↔
      (descIndex jrdev.descNr = some i → ∃ j, j ≠ i ∧ (sb.disks j).dev = jrdev.dev) := by
  constructor
  · rintro ⟨j, hj⟩ -
    have hji : j ≠ i := by
      rintro rfl
      exact hne ((sb.dev_assign_self j info).symm.trans hj)
    exact ⟨j, hji, by rwa [sb.disks_assign_of_ne info hji] at hj⟩
  · intro h
    by_cases hi : descIndex jrdev.descNr = some i
    · obtain ⟨j, hji, hj⟩ := h hi
      exact ⟨j, by rwa [sb.disks_assign_of_ne info hji]⟩
    · obtain ⟨j, hj, hdev⟩ := hown
      have hji : j ≠ i := fun h => hi (h ▸ hj)
      exact ⟨j, by rwa [sb.disks_assign_of_ne info hji]⟩

/-! ### Calls of `add_new_disk` -/

/-- A call of `add_new_disk`, with what the kernel answers. There is no block device with the
number `MKDEV(0, 0)`, so a claim of it fails. -/
structure AddCall where
  info : JmdDiskInfo
  env : ImportEnv
  noDevice : info.dev = 0 → env.lock = false

/-- The runs of `add_new_disk` from the array `jmddev`. -/
def addSystem (jmddev : Jmddev) : FallibleSystem Jmddev AddCall Fault where
  init := jmddev
  step s c := (s.addNewDisk c.env c.info).map Prod.snd

/-- A step of such a run is a call that returns. -/
theorem exists_addNewDisk_of_step {s₀ s s' : Jmddev} {c : AddCall}
    (h : (addSystem s₀).step s c = .ok s') : ∃ err, s.addNewDisk c.env c.info = .ok (err, s') := by
  obtain ⟨r, hr, rfl⟩ := Except.exists_of_map_eq_ok h
  exact ⟨r.1, hr⟩

/-- The call leaves every member a descriptor: it is refused before a descriptor is written; or no
member has the number it is for; or it comes to `sync_sbs`, and the member with this number has a
second descriptor. -/
def Jmddev.SparesDescriptors (jmddev : Jmddev) (c : AddCall) : Prop :=
  c.info.dev ∈ jmddev.all ∨
  (∃ sb, jmddev.sb = some sb ∧ sb.nrDisks ≤ c.info.number.toUInt32) ∨
  (∀ jrdev ∈ jmddev.disks, jrdev.descNr ≠ c.info.number) ∨
  ((c.info.faulty = true ∨ c.env.opens = true) ∧ ∀ sb, jmddev.sb = some sb →
    ∀ jrdev ∈ jmddev.disks, jrdev.descNr = c.info.number →
      ∃ j : Fin mdSbDisks, (j : ℕ) ≠ c.info.number.toUInt32.toNat ∧ (sb.disks j).dev = jrdev.dev)

theorem descIndex_eq_some_iff_eq {nr nr' : Int32} (h : nr'.toUInt32.toNat < mdSbDisks) :
    descIndex nr = some ⟨_, h⟩ ↔ nr = nr' := by
  rw [descIndex_eq_some_iff, UInt32.toNat_inj]
  exact ⟨fun h => by simpa using congrArg UInt32.toInt32 h, fun h => h ▸ rfl⟩

/-- A call that writes a descriptor spares those in use exactly if, when it comes to `sync_sbs`,
each member has an entry left, and otherwise if none had the number. -/
theorem Jmddev.sparesDescriptors_iff {jmddev : Jmddev} {c : AddCall} {sb : Superblock}
    (hsb : jmddev.sb = some sb) (hall : c.info.dev ∉ jmddev.all)
    (hnr : c.info.number.toUInt32 < sb.nrDisks) :
    jmddev.SparesDescriptors c ↔ (∀ jrdev ∈ jmddev.disks, jrdev.descNr ≠ c.info.number) ∨
      ((c.info.faulty = true ∨ c.env.opens = true) ∧
        ∀ jrdev ∈ jmddev.disks, jrdev.descNr = c.info.number →
          ∃ j : Fin mdSbDisks,
            (j : ℕ) ≠ c.info.number.toUInt32.toNat ∧ (sb.disks j).dev = jrdev.dev) := by
  have hnoslot : ¬ ∃ sb, jmddev.sb = some sb ∧ sb.nrDisks ≤ c.info.number.toUInt32 := by
    rintro ⟨sb', hsb', hle⟩
    obtain rfl : sb = sb' := Option.some.inj (hsb.symm.trans hsb')
    exact UInt32.not_le.mpr hnr hle
  rw [SparesDescriptors, or_iff_right hall, or_iff_right hnoslot]
  refine or_congr_right (and_congr_right fun _ => ⟨fun h => h sb hsb, fun h sb' hsb' => ?_⟩)
  obtain rfl : sb = sb' := Option.some.inj (hsb.symm.trans hsb')
  exact h

/-- When `sync_sbs` follows, each member has an entry left exactly if those with the number of the
call have a second one. -/
theorem Jmddev.forall_entry_iff {jmddev : Jmddev} {sb : Superblock} {info : JmdDiskInfo}
    (hown : jmddev.OwnsDescriptors) (hsb : jmddev.sb = some sb)
    (hne : ∀ jrdev ∈ jmddev.disks, info.dev ≠ jrdev.dev)
    (hlt : info.number.toUInt32.toNat < mdSbDisks) {q : Prop} (hq : q) :
    (∀ jrdev ∈ jmddev.disks, ∃ j, ((sb.assign ⟨_, hlt⟩ info).disks j).dev = jrdev.dev) ↔
      (∀ jrdev ∈ jmddev.disks, jrdev.descNr ≠ info.number) ∨
        (q ∧ ∀ jrdev ∈ jmddev.disks, jrdev.descNr = info.number →
          ∃ j : Fin mdSbDisks,
            (j : ℕ) ≠ info.number.toUInt32.toNat ∧ (sb.disks j).dev = jrdev.dev) := by
  have hentry : ∀ jrdev ∈ jmddev.disks,
      (∃ j, ((sb.assign ⟨_, hlt⟩ info).disks j).dev = jrdev.dev) ↔
        (jrdev.descNr = info.number → ∃ j : Fin mdSbDisks,
          (j : ℕ) ≠ info.number.toUInt32.toNat ∧ (sb.disks j).dev = jrdev.dev) := by
    intro jrdev hm
    rw [Superblock.exists_dev_assign_iff (hown.2 sb hsb jrdev hm) (hne jrdev hm),
      descIndex_eq_some_iff_eq]
    simp only [ne_eq, Fin.ext_iff]
  rw [forall₂_congr hentry]
  constructor
  · exact fun h => Or.inr ⟨hq, h⟩
  · rintro (h | ⟨-, h⟩) jrdev hm heq
    · exact absurd heq (h jrdev hm)
    · exact h jrdev hm heq

/-- **One call of `add_new_disk`**: a tidy array stays tidy, and its members still own their
descriptors exactly if the call spares them. -/
theorem Jmddev.Tidy.step {jmddev jmddev' : Jmddev} {c : AddCall} {err : Int32} (h : jmddev.Tidy)
    (hown : jmddev.OwnsDescriptors)
    (hstep : jmddev.addNewDisk c.env c.info = .ok (err, jmddev')) :
    jmddev'.Tidy ∧ (jmddev'.OwnsDescriptors ↔ jmddev.SparesDescriptors c) := by
  have hnone : jmddev.sb ≠ none := Option.isSome_iff_ne_none.mp h.sb
  have hne : c.info.dev ∉ jmddev.all → ∀ jrdev ∈ jmddev.disks, c.info.dev ≠ jrdev.dev :=
    fun hall jrdev hm heq => hall (heq ▸ h.all jrdev hm)
  cases addOutcome hstep with
  | known hall => exact ⟨h, iff_of_true hown (Or.inl hall)⟩
  | noSuperblock _ hsb => exact absurd hsb hnone
  | onDisk hsb => exact absurd hsb hnone
  | noSlot _ sb hsb hnr => exact ⟨h, iff_of_true hown (Or.inr (Or.inl ⟨sb, hsb, hnr⟩))⟩
  | notImported hall sb hsb hnr hlt hup hopens =>
    -- the descriptor has been written, and no `sync_sbs` follows
    refine ⟨⟨rfl, fun sb' hsb' => ?_, h.all, h.nodup, h.dev, h.up⟩, ?_⟩
    · obtain rfl := Option.some.inj hsb'
      exact (h.numbered sb hsb).assign c.info hlt
    · refine (ownsDescriptors_iff { jmddev with
        sb := some (sb.assign ⟨_, hlt⟩ c.info) } rfl h.nodup).trans ?_
      rw [sparesDescriptors_iff hsb hall hnr, hup, hopens]
      simp only [Bool.false_eq_true, or_self, false_and, or_false]
      refine forall₂_congr fun jrdev hm => ?_
      rw [Superblock.owned_assign_iff (hown.2 sb hsb jrdev hm) (hne hall jrdev hm), ne_eq,
        descIndex_eq_some_iff_eq]
  | faulty hall sb hsb hnr hlt hdown =>
    obtain ⟨htidy, hiff⟩ := tidy_syncSbs { jmddev with
        sb := some (sb.assign ⟨_, hlt⟩ c.info)
        disks := syncSbs (sb.assign ⟨_, hlt⟩ c.info) jmddev.disks }
      rfl rfl ((h.numbered sb hsb).assign c.info hlt) h.all h.nodup h.dev h.up
    refine ⟨htidy, hiff.trans ?_⟩
    rw [sparesDescriptors_iff hsb hall hnr, hdown]
    exact forall_entry_iff hown hsb (hne hall) hlt (Or.inl rfl)
  | bound hall sb hsb hnr hlt hup jrdev himp =>
    obtain ⟨size, sbOffset, heq⟩ := Jmddev.exists_bindImported { jmddev with
        sb := some (sb.assign ⟨_, hlt⟩ c.info)
        all := c.info.dev :: jmddev.all } (sb.assign ⟨_, hlt⟩ c.info)
      { jrdev with oldDev := c.info.dev, descNr := c.info.number }
    rw [heq]
    have hfresh : c.info.dev ∉ jmddev.disks.map Rdev.dev := by
      rintro hmem
      obtain ⟨m, hm, hdev⟩ := List.mem_map.mp hmem
      exact hne hall m hm hdev.symm
    -- there is no device 0 that could have been claimed
    have hdev0 : c.info.dev ≠ 0 := by
      intro hzero
      have hopens := himp.opens
      rw [ImportEnv.opens, c.noDevice hzero, Bool.and_false] at hopens
      cases hopens
    obtain ⟨htidy, hiff⟩ := tidy_syncSbs { jmddev with
        all := c.info.dev :: jmddev.all
        sb := some ((sb.assign ⟨_, hlt⟩ c.info).takeSize size)
        nbDev := jmddev.nbDev + 1
        disks := syncSbs ((sb.assign ⟨_, hlt⟩ c.info).takeSize size)
          ({ jrdev with oldDev := c.info.dev, descNr := c.info.number, sbOffset := sbOffset } ::
            jmddev.disks) }
      rfl rfl (((h.numbered sb hsb).assign c.info hlt).takeSize size)
      (List.forall_mem_cons.mpr ⟨himp.dev ▸ List.mem_cons_self,
        fun m hm => List.mem_cons_of_mem _ (h.all m hm)⟩)
      (List.nodup_cons.mpr ⟨by rwa [himp.dev], h.nodup⟩)
      (List.forall_mem_cons.mpr ⟨by rwa [himp.dev], h.dev⟩)
      (List.forall_mem_cons.mpr ⟨himp.faulty, h.up⟩)
    refine ⟨htidy, hiff.trans ?_⟩
    rw [sparesDescriptors_iff hsb hall hnr, himp.opens,
      ← forall_entry_iff hown hsb (hne hall) hlt (Or.inr rfl), Superblock.disks_takeSize,
      List.forall_mem_cons]
    refine and_iff_right ⟨⟨_, hlt⟩, ?_⟩
    rw [Superblock.dev_assign_self]
    exact himp.dev.symm

/-! ### Runs -/

/-- An array for which `set_array_info` has just been called. -/
def setArray (device : DevT → BlockDev) (env : ArrayInfoEnv) (info : JmdArrayInfo) : Jmddev :=
  ((Jmddev.fresh device).setArrayInfo { env with sb := true } info).2

theorem tidy_setArray (device : DevT → BlockDev) (env : ArrayInfoEnv) (info : JmdArrayInfo) :
    (setArray device env info).Tidy ∧ (setArray device env info).OwnsDescriptors := by
  have hnil : ∀ {p : Rdev → Prop}, ∀ jrdev ∈ (setArray device env info).disks, p jrdev :=
    fun jrdev hm => absurd hm List.not_mem_nil
  refine ⟨⟨rfl, fun sb hsb i hi => ?_, hnil, List.nodup_nil, hnil, hnil⟩, List.nodup_nil,
    fun _ _ => hnil⟩
  obtain rfl := Option.some.inj hsb
  exact absurd (show mkdev 0 0 = 0 by decide) hi

/-- **Every member owns its descriptor** along each run of `add_new_disk` calls that spare the
descriptors in use; and a call that does not spare them ends this. -/
theorem ownsDescriptors_of_reachable {device : DevT → BlockDev} {env : ArrayInfoEnv}
    {info : JmdArrayInfo} {jmddev : Jmddev}
    (h : (addSystem (setArray device env info)).ReachableWith Jmddev.SparesDescriptors jmddev) :
    jmddev.OwnsDescriptors ∧ ∀ c jmddev',
      (addSystem (setArray device env info)).step jmddev c = .ok jmddev' →
        (jmddev'.OwnsDescriptors ↔ jmddev.SparesDescriptors c) := by
  have hinv : jmddev.Tidy ∧ jmddev.OwnsDescriptors := by
    refine FallibleSystem.ReachableWith.invariant (I := fun s => s.Tidy ∧ s.OwnsDescriptors)
      (tidy_setArray device env info) ?_ h
    rintro s c s' ⟨htidy, hown⟩ hspare hs
    obtain ⟨err, hadd⟩ := exists_addNewDisk_of_step hs
    obtain ⟨htidy', hiff⟩ := htidy.step hown hadd
    exact ⟨htidy', hiff.mpr hspare⟩
  refine ⟨hinv.2, fun c s' hs => ?_⟩
  obtain ⟨err, hadd⟩ := exists_addNewDisk_of_step hs
  exact (hinv.1.step hinv.2 hadd).2

/-! ### Two devices for one number -/

/-- A device of the driver with major number 8, for the number `number`. -/
def addDisk (number minor : Int32) (h : mkdev 8 minor.toUInt32 ≠ 0) : AddCall :=
  ⟨⟨number, 8, minor, number, 0⟩, importAll, fun hzero => absurd hzero h⟩

/-- An array of three disks, none of them added yet; the devices have 2048 sectors. -/
def threeDisks : Jmddev :=
  setArray (fun _ => ⟨2048, by decide, fun _ => 0⟩) ⟨true, 0, 0, 0, 0, 0⟩ arrayInfoInit

/-- Two devices are added, for two numbers. -/
theorem ownsDescriptors_of_second : ∃ jmddev, jmddev.disks.map Rdev.descNr = [1, 0] ∧
    jmddev.OwnsDescriptors ∧ ∀ c jmddev', (addSystem threeDisks).step jmddev c = .ok jmddev' →
      (jmddev'.OwnsDescriptors ↔ jmddev.SparesDescriptors c) := by
  obtain ⟨s, hs, hnr, t, ht, hnr'⟩ : ∃ s,
      (addSystem threeDisks).step threeDisks (addDisk 0 0 (by decide)) = .ok s ∧
        s.disks.map Rdev.descNr = [0] ∧ ∃ t,
          (addSystem threeDisks).step s (addDisk 1 16 (by decide)) = .ok t ∧
            t.disks.map Rdev.descNr = [1, 0] := ⟨_, rfl, rfl, _, rfl, rfl⟩
  have hfree : ∀ jrdev ∈ s.disks, jrdev.descNr ≠ 1 := fun jrdev hm heq => by
    have hmem := List.mem_map_of_mem (f := Rdev.descNr) hm
    rw [hnr, heq] at hmem
    exact absurd hmem (by decide)
  exact ⟨t, hnr', ownsDescriptors_of_reachable ((Relation.ReflTransGen.single
    ⟨_, Or.inr (Or.inr (Or.inl fun _ hm => absurd hm List.not_mem_nil)), hs⟩).tail
      ⟨_, Or.inr (Or.inr (Or.inl hfree)), ht⟩)⟩

/-- Two devices are added for number 0. Both are bound with `desc_nr` 0, and the first has lost
its descriptor. -/
theorem descriptor_reused : ∃ jmddev,
    (addSystem threeDisks).exec (addSystem threeDisks).init
        [addDisk 0 0 (by decide), addDisk 0 16 (by decide)] = .ok jmddev ∧
      ¬ jmddev.OwnsDescriptors := by
  have hrun : ((addSystem threeDisks).exec (addSystem threeDisks).init
      [addDisk 0 0 (by decide), addDisk 0 16 (by decide)]).toOption.map
        (fun s => s.disks.map Rdev.descNr) = some [0, 0] := rfl
  obtain ⟨jmddev, hexec, hdesc⟩ := FallibleSystem.exists_exec hrun
  refine ⟨jmddev, hexec, fun hown => ?_⟩
  have hnodup := hown.1
  rw [hdesc] at hnodup
  exact absurd hnodup (by decide)

end Jmd

end JRaid
