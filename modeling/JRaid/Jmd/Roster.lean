import JRaid.Jmd.DeviceSize
import JRaid.Jmd.FailedStart
import JRaid.Jmd.Indices
import JRaid.Jmd.Mapping
import JRaid.Jmd.UpdatePass
import Mathlib.Order.Bounds.Basic

/-!
# Arrays that are ready to start

What a sequence of `add_store` calls is for is a `Roster`: it says which device has which disk
number. An array is `Staffed` with a roster if its descriptor table and its members say the same.

A start looks at much else, and each of its steps can give up or leave a table. It does neither with
an array that is staffed and at most one disk short: unless the kernel refuses something, the array
runs, and the slots of its configuration hold what the roster says
(`Jmddev.Staffed.doJmdRun`).
-/

namespace JRaid

namespace Jmd

variable {device : DevT → BlockDev} {n : ℕ}

/-! ### Rosters -/

/-- Which device has which disk number in an array of `n` disks: different devices, each with room
for a chunk in front of its superblock. -/
@[ext]
structure Roster (device : DevT → BlockDev) (n : ℕ) where
  dev : Fin mdSbDisks → Option DevT
  lt : ∀ i d, dev i = some d → (i : ℕ) < n
  ne_zero : ∀ i, dev i ≠ some 0
  inj : ∀ i j d, dev i = some d → dev j = some d → i = j
  room : ∀ i d, dev i = some d → 64 ≤ (device d).usable.toNat

/-- What the disks of a roster offer to the array. -/
def Roster.sizes (r : Roster device n) : Set ℕ :=
  {x | ∃ i d, r.dev i = some d ∧ (device d).usable.toNat = x}

/-- The configuration of an array whose disks are those of a roster. -/
def Roster.conf (r : Roster device n) : JRaid5Conf where
  chunkSize := 32 * 1024
  level := 5
  algorithm := 0
  raidDisks := Int32.ofNat n
  bufferSize := 4096
  disks i := if h : i < mdSbDisks then ⟨(r.dev ⟨i, h⟩).map fun dev => ⟨dev.toNat⟩⟩ else ⟨none⟩

/-- A descriptor says which device has the number `i`, if there is one. -/
structure Disk.Records (desc : Disk) (i : ℕ) (owner : Option DevT) : Prop where
  faulty : desc.faulty = false
  free : owner = none → desc.dev = 0
  dev : ∀ d, owner = some d → desc.dev = d
  number : ∀ d, owner = some d → desc.number.toNat = i
  raidDisk : ∀ d, owner = some d → desc.raidDisk.toNat = i

/-- The descriptor table says what the roster says. -/
def Superblock.Lists (sb : Superblock) (r : Roster device n) : Prop :=
  ∀ i, (sb.disks i).Records i (r.dev i)

namespace Superblock.Lists

variable {sb : Superblock} {r : Roster device n}

/-- A descriptor with a device is that of a disk in the roster. -/
theorem dev_eq_iff (h : sb.Lists r) {i : Fin mdSbDisks} {d : DevT} (hd : d ≠ 0) :
    (sb.disks i).dev = d ↔ r.dev i = some d := by
  refine ⟨fun hi => ?_, (h i).dev d⟩
  cases hr : r.dev i with
  | none => exact absurd (hi.symm.trans ((h i).free hr)) hd
  | some d' => rw [← hi, (h i).dev d' hr]

/-- The search for a device finds its descriptor. -/
theorem findDisk (h : sb.Lists r) {i : Fin mdSbDisks} {d : DevT} (hi : r.dev i = some d) :
    sb.findDisk d = some i := by
  have hd : d ≠ 0 := fun h0 => r.ne_zero i (h0 ▸ hi)
  obtain ⟨j, hj⟩ := Superblock.exists_findDisk ((h i).dev d hi)
  rw [hj, r.inj j i d ((h.dev_eq_iff hd).mp (Superblock.dev_of_findDisk hj)) hi]

theorem descIndex_number (h : sb.Lists r) {i : Fin mdSbDisks} {d : DevT}
    (hi : r.dev i = some d) : descIndex (sb.disks i).number.toInt32 = some i := by
  rw [descIndex_eq_some_iff, UInt32.toUInt32_toInt32]
  exact (h i).number d hi

/-- The table is all that counts. -/
theorem congr {sb' : Superblock} (h : sb.Lists r) (heq : sb'.disks = sb.disks) : sb'.Lists r :=
  fun i => heq ▸ h i

end Superblock.Lists

/-! ### The members of a roster -/

/-- The members are those of the roster, and each names its descriptor. -/
structure Roster.Mans (r : Roster device n) (disks : List Rdev) : Prop where
  named : ∀ m ∈ disks, ∃ i, descIndex m.descNr = some i ∧ r.dev i = some m.dev
  present : ∀ i d, r.dev i = some d → ∃ m ∈ disks, m.dev = d
  nodup : (disks.map Rdev.dev).Nodup

namespace Roster.Mans

variable {r : Roster device n} {disks : List Rdev}

/-- Only the device numbers and the descriptors that the members name count. -/
theorem congr {disks' : List Rdev} (h : r.Mans disks)
    (hsame : disks'.map Rdev.standing = disks.map Rdev.standing) : r.Mans disks' := by
  have hdev : ∀ l : List Rdev, l.map Rdev.dev = (l.map Rdev.standing).map Prod.fst := by
    intro l
    rw [List.map_map]
    rfl
  have hlist : disks'.map Rdev.dev = disks.map Rdev.dev := by rw [hdev, hdev, hsame]
  refine ⟨fun m' hm' => ?_, fun i d hi => ?_, hlist ▸ h.nodup⟩
  · obtain ⟨m, hm, heq⟩ := List.mem_map.mp (hsame ▸ List.mem_map_of_mem hm')
    obtain ⟨i, hi, hdev⟩ := h.named m hm
    rw [show m.descNr = m'.descNr from congrArg (fun p => p.2.1) heq] at hi
    rw [show m.dev = m'.dev from congrArg Prod.fst heq] at hdev
    exact ⟨i, hi, hdev⟩
  · obtain ⟨m, hm, rfl⟩ := h.present i d hi
    obtain ⟨m', hm', heq⟩ := List.mem_map.mp (hsame.symm ▸ List.mem_map_of_mem hm)
    exact ⟨m', hm', congrArg Prod.fst heq⟩

/-- The devices of the members are those of the roster. -/
theorem mem_iff (h : r.Mans disks) (d : DevT) :
    d ∈ disks.map Rdev.dev ↔ ∃ i, r.dev i = some d := by
  constructor
  · intro hd
    obtain ⟨m, hm, rfl⟩ := List.mem_map.mp hd
    obtain ⟨i, -, hi⟩ := h.named m hm
    exact ⟨i, hi⟩
  · rintro ⟨i, hi⟩
    obtain ⟨m, hm, rfl⟩ := h.present i d hi
    exact List.mem_map_of_mem hm

/-- No two members name the same descriptor. -/
theorem eq_of_named (h : r.Mans disks) {m m' : Rdev} {i : Fin mdSbDisks} (hm : m ∈ disks)
    (hm' : m' ∈ disks) (hi : descIndex m.descNr = some i) (hi' : descIndex m'.descNr = some i) :
    m = m' := by
  obtain ⟨j, hj, hdev⟩ := h.named m hm
  obtain ⟨j', hj', hdev'⟩ := h.named m' hm'
  obtain rfl : i = j := Option.some.inj (hi.symm.trans hj)
  obtain rfl : i = j' := Option.some.inj (hi'.symm.trans hj')
  exact List.inj_on_of_nodup_map h.nodup hm hm' (Option.some.inj (hdev.symm.trans hdev'))

theorem nodup_descNr (h : r.Mans disks) : (disks.map Rdev.descNr).Nodup := by
  refine List.Nodup.map_on (fun m hm m' hm' heq => ?_) (h.nodup.of_map _)
  obtain ⟨i, hi, -⟩ := h.named m hm
  exact h.eq_of_named hm hm' hi (heq ▸ hi)

end Roster.Mans

/-! ### The slots of a roster -/

/-- The superblock of an array of `n` disks that lists a roster. -/
structure Superblock.Sets (sb : Superblock) (r : Roster device n) : Prop where
  info : sb.shape.FromInfo
  raidDisks : sb.raidDisks.toNat = n
  le : n ≤ mdSbDisks
  lists : sb.Lists r

namespace Superblock.Sets

variable {sb : Superblock} {r : Roster device n}

/-- A member goes to the slot with its number. -/
theorem slotOf (h : sb.Sets r) {m : Rdev} {i : Fin mdSbDisks} (hi : descIndex m.descNr = some i)
    (hdev : r.dev i = some m.dev) : sb.slotOf m = some i := by
  have hraid := (h.lists i).raidDisk _ hdev
  refine Superblock.slotOf_eq_some_iff.mpr ⟨i, hi, ?_, hraid⟩
  rw [UInt32.le_iff_toNat_le, hraid, h.raidDisks]
  exact (r.lt i _ hdev).le

variable {disks : List Rdev}

/-- Each member gets a slot of its own. -/
theorem card_taken (h : sb.Sets r) (hmans : r.Mans disks) :
    (sb.taken disks).card = disks.length := by
  refine FirstClaim.card_held_of_nodup (fun m hm => ?_)
    (List.Nodup.map_on ?_ (hmans.nodup.of_map _))
  · obtain ⟨i, hi, hdev⟩ := hmans.named m hm
    exact Option.isSome_iff_exists.mpr ⟨i, h.slotOf hi hdev⟩
  · intro m hm m' hm' heq
    obtain ⟨i, hi, hdev⟩ := hmans.named m hm
    obtain ⟨i', hi', hdev'⟩ := hmans.named m' hm'
    rw [h.slotOf hi hdev, h.slotOf hi' hdev'] at heq
    obtain rfl : i = i' := Option.some.inj heq
    exact hmans.eq_of_named hm hm' hi hi'

/-- The tests of `jraid5_run` are passed if at most one disk is missing. -/
theorem accepted (h : sb.Sets r) (hmans : r.Mans disks) (hlen : n ≤ disks.length + 1) :
    sb.Accepted disks := by
  have hcard := h.card_taken hmans
  have hle : disks.length ≤ 27 := hcard ▸ sb.card_taken_le disks
  have hn : n ≤ 27 := h.le
  refine ⟨?_, ?_, ?_⟩
  · rw [show sb.chunkSize = 32 * 1024 from h.info.chunkSize]
    decide
  · rw [show sb.layout = 0 from h.info.layout]
    decide
  · have hraid : sb.raidDisks.toInt32.toInt = n := by
      rw [toInt_toInt32 (by rw [h.raidDisks]; omega), h.raidDisks]
    rw [hcard, Int32.lt_iff_toInt_lt, Int32.toInt_sub, hraid,
      Int32.toInt_ofNat_of_lt (by omega), Int.bmod_eq_of_le (by omega) (by omega)]
    change ¬ (1 : ℤ) < _
    omega

/-- The two loops of `jraid5_run` come to their end. -/
theorem exists_fillSlots (h : sb.Sets r) {s : Jmddev} (hmans : r.Mans s.disks) :
    ∃ st, s.fillSlots sb = .ok st := by
  have hplace : ∀ m ∈ s.disks, sb.HasPlace m.descNr := by
    intro m hm
    obtain ⟨i, hi, hdev⟩ := hmans.named m hm
    exact ⟨i, hi, fun _ => ((h.lists i).raidDisk _ hdev).trans_lt i.isLt⟩
  obtain ⟨-, hno⟩ | ⟨hst, -⟩ := s.fillSlots_cases sb
  · -- no descriptor is faulty
    refine absurd ⟨hplace, fun i hdown => ?_⟩ hno
    rw [(h.lists i).faulty] at hdown
    cases hdown
  · exact hst

/-- The slots hold what the roster says. -/
theorem jrdev_slots (h : sb.Sets r) {s : Jmddev} (hmans : r.Mans s.disks) {st : RunState}
    (hfill : s.fillSlots sb = .ok st) (k : Fin mdSbDisks) : (st.slots k).jrdev = r.dev k := by
  cases hk : r.dev k with
  | none =>
    by_contra hne
    obtain ⟨dev, hjrdev⟩ := Option.ne_none_iff_exists'.mp hne
    obtain ⟨m, hm, -, hslot⟩ := Jmddev.exists_occupant hfill hjrdev
    obtain ⟨i, hi, hdev⟩ := hmans.named m hm
    obtain rfl : i = k := Option.some.inj ((h.slotOf hi hdev).symm.trans hslot)
    exact absurd (hk.symm.trans hdev) (by simp)
  | some d =>
    obtain ⟨m, hm, rfl⟩ := hmans.present k d hk
    obtain ⟨i, hi, hdev⟩ := hmans.named m hm
    obtain rfl := r.inj i k m.dev hdev hk
    -- nobody else claims the slot
    obtain ⟨m', hm'⟩ := FirstClaim.exists_holder hm (h.slotOf hi hdev)
    obtain ⟨i', hi', hdev'⟩ := hmans.named m' (FirstClaim.mem_of_holder hm')
    obtain rfl : i' = i :=
      Option.some.inj ((h.slotOf hi' hdev').symm.trans (FirstClaim.key_of_holder hm'))
    obtain rfl := hmans.eq_of_named hm (FirstClaim.mem_of_holder hm') hi hi'
    rw [(Jmddev.filled hfill).slot _ m _ hm' hi]
    rfl

/-- The configuration is that of the roster. -/
theorem conf_eq (h : sb.Sets r) {s : Jmddev} (hmans : r.Mans s.disks) {st : RunState}
    (hfill : s.fillSlots sb = .ok st) : st.conf = r.conf := by
  have hshape := (Jmddev.filled hfill).shape
  have hof : ∀ {β : Type} (f : Shape → β), f st.sb.shape = f sb.shape := fun f => congrArg f hshape
  have hraid : st.sb.raidDisks.toInt32 = Int32.ofNat n := by
    rw [show st.sb.raidDisks = sb.raidDisks from hof Shape.raidDisks, ← h.raidDisks,
      ← UInt32.toInt32_ofNat', UInt32.ofNat_toNat]
  rw [RunState.conf, Roster.conf, hraid,
    show st.sb.chunkSize = 32 * 1024 from (hof Shape.chunkSize).trans h.info.chunkSize,
    show st.sb.level = 5 from (hof Shape.level).trans h.info.level,
    show st.sb.layout = 0 from (hof Shape.layout).trans h.info.layout]
  simp only [h.jrdev_slots hmans hfill]
  rfl

end Superblock.Sets

/-! ### `jraid5_run` succeeds -/

/-- The kernel grants what a start asks for. The superblocks may be written or not. -/
structure RunEnv.Grants (env : RunEnv) : Prop where
  raid5 : env.raid5 = true
  conf : env.conf = true
  hashtbl : env.hashtbl = true
  thread : env.thread = true
  stripes : env.stripes = true
  resyncThread : env.resyncThread = true

/-- What follows the loops of `jraid5_run` succeeds if the tests are passed, the kernel grants what
is asked for, and the slots exist. -/
theorem RunState.exists_finish {st : RunState} {env : RunEnv} (hpasses : st.Passes)
    (hgrants : env.Grants) (hle : st.sb.raidDisks.toNat ≤ mdSbDisks) :
    ∃ st', st.finish env = .ok (0, st') := by
  have hclean : ∀ p : Prop, ∀ [Decidable p], ∃ st', (if p then
      { st with sb := st.sb.clearClean } else st).markInSync = .ok st' := by
    intro p _
    split
    · exact ⟨_, if_neg (Nat.not_lt.mpr hle)⟩
    · exact ⟨_, if_neg (Nat.not_lt.mpr hle)⟩
  unfold finish
  dsimp only
  rw [ite_passes, if_pos hpasses, hgrants.thread, hgrants.stripes, Bool.not_true,
    if_neg Bool.false_ne_true, if_neg Bool.false_ne_true]
  obtain ⟨st', hmark⟩ := hclean (¬ st.workingDisks.toUInt32 ≠ st.sb.raidDisks ∧ st.sb.clean = true)
  rw [hmark]
  exact ⟨_, if_neg fun hno => absurd (hgrants.resyncThread.symm.trans hno.2.2) (by decide)⟩

/-- **`jraid5_run` starts an array that is manned** and at most one disk short. -/
theorem Superblock.Sets.jraid5Run {sb : Superblock} {r : Roster device n} (h : sb.Sets r)
    {s : Jmddev} (hmans : r.Mans s.disks) (hlen : n ≤ s.disks.length + 1) {env : RunEnv}
    (hgrants : env.Grants) :
    ∃ s', s.jraid5Run sb env = .ok (0, s') ∧ s'.conf = some r.conf := by
  obtain ⟨st, hfill⟩ := h.exists_fillSlots hmans
  have hf := Jmddev.filled hfill
  obtain ⟨st', hst'⟩ := RunState.exists_finish (hf.passes_iff.mpr (h.accepted hmans hlen)) hgrants
    (by rw [hf.raidDisks, h.raidDisks]; exact h.le)
  have hrun : s.runState sb env = .ok (0, st') := by
    rw [Jmddev.runState, hfill]
    exact hst'
  obtain ⟨s', hs'⟩ :=
    Jmddev.exists_jraid5Run (Or.inl h.info.level) hgrants.conf hgrants.hashtbl hrun
  obtain ⟨st₁, hst₁, -, hconf⟩ := Jmddev.exists_runState hs'
  obtain rfl : st' = st₁ := (Prod.mk.inj (Except.ok.inj (hrun.symm.trans hst₁))).2
  refine ⟨s', hs', ?_⟩
  rw [hconf, (RunState.finished hst').conf, h.conf_eq hmans hfill]

/-! ### `device_size_calculation` succeeds -/

/-- The loop over the members comes to its end if each of them offers a chunk. -/
theorem sizePass_of_le {size : DevT → UInt64} {chunkSize : UInt32} {disks : List Rdev}
    (h : ∀ m ∈ disks, (chunkSize / 512).toUInt64 ≤ size m.dev) :
    (sizePass size chunkSize disks).1 = true := by
  induction disks with
  | nil => rfl
  | cons m rest ih =>
    have hrest := ih fun m' hm' => h m' (List.mem_cons_of_mem _ hm')
    rw [sizePass]
    split
    · exact hrest
    · dsimp only
      rw [if_neg (UInt64.not_lt.mpr (h m List.mem_cons_self))]
      exact hrest

/-- On level 5 nothing else can fail. -/
theorem Jmddev.deviceSizeCalculation_of_le {s : Jmddev} {sb : Superblock} (hlevel : sb.level = 5)
    (h : ∀ m ∈ s.disks, s.AcceptsSize sb m.dev) : (s.deviceSizeCalculation sb).1 = 0 := by
  have hdata : sb.dataDisks = some (sb.raidDisks.toInt32 - 1, false) := by
    rw [Superblock.dataDisks, hlevel]
    rfl
  unfold deviceSizeCalculation
  dsimp only
  rw [sizePass_of_le h, hdata, if_neg (by decide)]

/-! ### `analyze_sbs` succeeds -/

/-- A member as `sync_sbs` leaves it: its copy is the array superblock and verifies. It has the
device number that it was imported with. -/
structure Rdev.Synced (m : Rdev) (sb : Superblock) : Prop where
  copy : ∃ d c, m.sb = { sb with thisDisk := d, sbCsum := c }
  verifies : m.page.calcSbCsum = m.sb.sbCsum
  oldDev : m.oldDev = m.dev

theorem Rdev.synced_syncSb (sb : Superblock) {m : Rdev} (hup : m.faulty = false)
    (hold : m.oldDev = m.dev) : (m.syncSb sb).Synced sb where
  copy := m.syncSb_sb sb hup
  verifies := m.syncSb_verifies sb hup
  oldDev := by rw [(m.syncSb_same sb).oldDev, (m.syncSb_same sb).dev, hold]

/-- Members that verify keep their counters. -/
theorem map_age_of_verifies {disks : List Rdev}
    (h : ∀ m ∈ disks, m.page.calcSbCsum = m.sb.sbCsum) : disks.map Rdev.age = disks :=
  (List.map_congr_left fun m hm => Rdev.age_of_verifies (h m hm)).trans (List.map_id _)

/-- The renaming pass does nothing if nobody has moved. -/
theorem renamePass_of_settled {sb : Superblock} {disks : List Rdev}
    (h : ∀ m ∈ disks, m.faulty = false ∧ ¬ m.Moved sb) :
    renamePass sb disks = .ok (true, sb, disks) := by
  induction disks with
  | nil => rfl
  | cons m rest ih =>
    obtain ⟨hup, hmoved⟩ := h m List.mem_cons_self
    rw [renamePass, if_neg (by simp [hup]), if_neg hmoved,
      ih fun m' hm' => h m' (List.mem_cons_of_mem _ hm')]
    rfl

/-- The loop that drops descriptors does nothing if there is none to drop. -/
theorem Superblock.dropDescriptors_of_not_dropped {sb : Superblock} {disks : List Rdev}
    (h : ∀ i, ¬ (sb.disks i).Dropped disks) : sb.dropDescriptors disks = sb :=
  List.foldl_fixed' (fun i => by rw [dropDescriptor_eq, if_neg (h i)]) _

/-- An array that does not run yet and is manned as a roster says. -/
structure Jmddev.Staffed (s : Jmddev) (sb : Superblock) (r : Roster device n) : Prop where
  device : s.device = device
  pers : s.pers = false
  conf : s.conf = none
  nbDev : s.nbDev = s.disks.length
  /-- no other device is in use -/
  all : ∀ dev ∈ s.all, ∃ i, r.dev i = some dev
  sized : s.Sized sb
  sets : sb.Sets r
  nrDisks : sb.nrDisks.toNat = n
  check : sb.check = 0
  version : sb.majorVersion = mdMajorVersion ∧ sb.minorVersion ≤ mdMinorVersion
  mans : r.Mans s.disks
  synced : ∀ m ∈ s.disks, m.Synced sb

namespace Jmddev.Staffed

variable {s : Jmddev} {sb : Superblock} {r : Roster device n}

/-- The copy of a member sets the same roster. -/
theorem copy (h : s.Staffed sb r) {m : Rdev} (hm : m ∈ s.disks) (jmdSize : Int32) :
    { s with jmdSize := jmdSize, sb := some m.sb }.Staffed m.sb r := by
  obtain ⟨d, c, hcopy⟩ := (h.synced m hm).copy
  have hsized := h.sized
  have hsets := h.sets
  refine ⟨h.device, h.pers, h.conf, h.nbDev, h.all, ?_, ?_, ?_, ?_, ?_, h.mans, fun m' hm' => ?_⟩
  · rw [hcopy]
    exact ⟨hsized.chunkSectors, rfl, hsized.info, hsized.seated, hsized.size⟩
  · rw [hcopy]
    exact ⟨hsets.info, hsets.raidDisks, hsets.le, hsets.lists.congr rfl⟩
  · rw [hcopy]
    exact h.nrDisks
  · rw [hcopy]
    exact h.check
  · rw [hcopy]
    exact h.version
  · obtain ⟨d', c', hcopy'⟩ := (h.synced m' hm').copy
    refine ⟨⟨d', c', ?_⟩, (h.synced m' hm').verifies, (h.synced m' hm').oldDev⟩
    rw [hcopy', hcopy]

/-- The members pass the tests of `check_disk_sb`. -/
theorem checked (h : s.Staffed sb r) {m : Rdev} (hm : m ∈ s.disks) :
    m.faulty = false ∧ m.checkDiskSb = 0 := by
  obtain ⟨d, c, hcopy⟩ := (h.synced m hm).copy
  refine ⟨(h.sized.seated m hm).faulty, ?_⟩
  rw [Rdev.checkDiskSb, hcopy]
  exact h.check

/-- The table fits the members. -/
theorem fits (h : s.Staffed sb r) : sb.Fits s.disks := by
  refine ⟨fun i hi => ⟨(h.sets.lists i).faulty, ?_⟩, fun m hm => ?_, h.mans.nodup_descNr,
    h.mans.nodup, h.version⟩
  · cases hr : r.dev i with
    | none => exact absurd ((h.sets.lists i).free hr) hi
    | some d =>
      obtain ⟨m, hm, rfl⟩ := h.mans.present i d hr
      rw [(h.sets.lists i).dev _ hr]
      exact List.mem_map_of_mem hm
  · obtain ⟨i, hi, -⟩ := h.mans.named m hm
    rintro hminus
    rw [hminus] at hi
    cases hi

/-- None of the descriptors is dropped. -/
theorem not_dropped (h : s.Staffed sb r) (i : Fin mdSbDisks) :
    ¬ (sb.disks i).Dropped s.disks := by
  rintro (⟨hfaulty, -⟩ | ⟨-, hdev, hnamed⟩)
  · exact absurd ((h.sets.lists i).faulty.symm.trans hfaulty) (by decide)
  · refine hnamed ?_
    cases hr : r.dev i with
    | none => exact absurd ((h.sets.lists i).free hr) hdev
    | some d =>
      obtain ⟨m, hm, rfl⟩ := h.mans.present i d hr
      obtain ⟨j, hj, hdev'⟩ := h.mans.named m hm
      obtain rfl := r.inj i j m.dev hr hdev'
      refine ⟨m, hm, UInt32.toNat_inj.mp ?_⟩
      rw [descIndex_eq_some_iff.mp hj, (h.sets.lists _).number _ hr]

/-- **`analyze_sbs` adopts the copy of a member** and changes nothing else. -/
theorem analyzeSbs (h : s.Staffed sb r) (hne : s.disks ≠ []) (alloc : Bool) :
    ∃ m ∈ s.disks, { s with jmdSize := 0 }.analyzeSbs alloc =
      .ok (0, { s with jmdSize := 0, sb := some m.sb }) := by
  have halloc : allocArraySb s.sb alloc ≠ none := by
    rw [h.sized.superblock]
    exact Option.some_ne_none sb
  obtain ⟨m, hm, -, hadopt⟩ :=
    @exists_adopt { s with jmdSize := 0 } alloc hne (fun m hm => h.checked hm) halloc
  have hverifies := fun m hm => (h.synced m hm).verifies
  rw [map_age_of_verifies hverifies, Rdev.age_of_verifies (hverifies m hm)] at hadopt
  have hcopy := h.copy hm 0
  have hsettled : ∀ m' ∈ s.disks, m'.faulty = false ∧ ¬ m'.Moved m.sb := fun m' hm' =>
    ⟨(h.checked hm').1, fun hmoved => hmoved.1 (h.synced m' hm').oldDev.symm⟩
  refine ⟨m, hm, ?_⟩
  unfold Jmddev.analyzeSbs
  rw [hadopt]
  dsimp only
  rw [renamePass_of_settled hsettled]
  dsimp only
  rw [Superblock.dropDescriptors_of_not_dropped hcopy.not_dropped, if_pos hcopy.fits]

/-- The component size of a staffed array is the least that its disks offer. -/
theorem isLeast_size (h : s.Staffed sb r) (hne : s.disks ≠ []) :
    IsLeast r.sizes sb.size.toNat := by
  have hmem : ∀ x, x ∈ s.usableSizes ↔ x ∈ r.sizes := by
    intro x
    rw [usableSizes, List.mem_map, h.device]
    constructor
    · rintro ⟨d, hd, hx⟩
      obtain ⟨i, hi⟩ := (h.mans.mem_iff d).mp hd
      exact ⟨i, d, hi, hx⟩
    · rintro ⟨i, d, hi, hx⟩
      exact ⟨d, (h.mans.mem_iff d).mpr ⟨i, hi⟩, hx⟩
  have hzero : 0 ∉ s.usableSizes := by
    intro h0
    obtain ⟨i, d, hi, hx⟩ := (hmem 0).mp h0
    have hroom := r.room i d hi
    omega
  have hsizes : s.usableSizes ≠ [] := by
    rw [usableSizes]
    exact fun hnil => hne (List.map_eq_nil_iff.mp (List.map_eq_nil_iff.mp hnil))
  obtain ⟨hleast, hle⟩ := runningMin_spec hzero hsizes
  rw [h.sized.size]
  exact ⟨(hmem _).mp hleast, fun x hx => hle x ((hmem x).mpr hx)⟩

theorem publish (h : s.Staffed sb r) (totalNum : Int32) :
    (s.publish totalNum).Staffed sb r :=
  ⟨h.device, h.pers, h.conf, h.nbDev, h.all, h.sized.publish totalNum, h.sets, h.nrDisks, h.check,
    h.version, h.mans, h.synced⟩

/-- Each member offers a chunk. -/
theorem acceptsSize (h : s.Staffed sb r) {m : Rdev} (hm : m ∈ s.disks) :
    s.AcceptsSize sb m.dev := by
  obtain ⟨i, -, hdev⟩ := h.mans.named m hm
  rw [Jmddev.AcceptsSize, calcDevSize_of_mem h.sized.superblock (List.mem_map_of_mem hm),
    h.sized.info.usableSize, show sb.chunkSize = 32 * 1024 from h.sized.info.chunkSize, h.device,
    UInt64.le_iff_toNat_le]
  exact r.room i _ hdev

theorem checkGeometry (h : s.Staffed sb r) {env : RunEnv} (hgrants : env.Grants) :
    sb.checkGeometry env = true := by
  rw [Superblock.checkGeometry, hgrants.raid5,
    show sb.chunkSize = 32 * 1024 from h.sized.info.chunkSize,
    show sb.level = 5 from h.sized.info.level]
  decide

/-- The rest of a start after the analysis. -/
theorem startPers (h : s.Staffed sb r) (hlen : n ≤ s.disks.length + 1) {env : RunEnv}
    (hgrants : env.Grants) :
    ∃ s', s.startPers sb env = .ok (0, s') ∧ s'.pers = true ∧ s'.conf = some r.conf := by
  have hlevel : sb.level = 5 := h.sized.info.level
  have hsize := deviceSizeCalculation_of_le hlevel fun m hm => h.acceptsSize hm
  obtain ⟨⟨err, s₁⟩, hsized⟩ : ∃ r, s.deviceSizeCalculation sb = r := ⟨_, rfl⟩
  rw [hsized] at hsize
  obtain rfl : err = 0 := hsize
  obtain ⟨disks, jmdSize, rfl, hmap, -⟩ := deviceSizeCalculation_cases hsized
  have hmans : r.Mans disks := h.mans.congr (hmap fun _ _ => rfl)
  have hcount : n ≤ disks.length + 1 := by
    rwa [show disks.length = s.disks.length by
      simpa using congrArg List.length (hmap Rdev.sizeless_seat)]
  -- the personality starts the array
  obtain ⟨s₂, hrun, hconf⟩ := h.sets.jraid5Run (s := { s with
    disks := disks, jmdSize := jmdSize, pers := true }) hmans hcount hgrants
  obtain ⟨sb₂, conf, rfl, -⟩ := jraid5Run_cases (by exact h.sized.superblock) hrun
  -- and the superblocks are written
  obtain ⟨p, -, hupdate⟩ := @updatePasses_eq_passes { s with
    disks := disks, jmdSize := jmdSize, pers := true, sb := some sb₂.clearClean, conf := conf }
    sb₂.clearClean env.update 99 rfl
  obtain ⟨sb₃, disks₃, device₃, hp, -⟩ := jmdUpdateSb_cases hupdate
  unfold Jmddev.startPers
  rw [hsized]
  dsimp only
  rw [if_neg (by decide), hrun]
  dsimp only [Option.map]
  rw [if_neg (by decide), jmdUpdateSb, hupdate]
  exact ⟨_, rfl, by rw [hp], by rw [hp]; exact hconf⟩

/-- **A staffed array starts** if at most one disk is missing and the kernel grants what the start
asks for: its configuration is that of the roster. -/
theorem doJmdRun (h : s.Staffed sb r) (hne : s.disks ≠ []) (hlen : n ≤ s.disks.length + 1)
    {env : RunEnv} (hgrants : env.Grants) :
    ∃ s', s.doJmdRun env = .ok (0, s') ∧ s'.pers = true ∧ s'.conf = some r.conf ∧
      s.Steady s' := by
  obtain ⟨m, hm, hanalyze⟩ := h.analyzeSbs hne env.sb
  have hcopy := h.copy hm 0
  obtain ⟨s', hstart, hpers, hconf⟩ := hcopy.startPers hlen hgrants
  have hnb : s.nbDev ≠ 0 := by
    rw [h.nbDev]
    exact fun h0 => hne (List.eq_nil_of_length_eq_zero h0)
  have hrun : s.doJmdRun env = .ok (0, s') := by
    rw [Jmddev.doJmdRun, if_neg hnb, if_neg (by simp [h.pers]), hanalyze]
    dsimp only
    rw [if_neg (by decide), hcopy.checkGeometry hgrants]
    exact hstart
  refine ⟨s', hrun, hpers, hconf, ?_⟩
  cases runOutcome hrun with
  | refused => exact absurd (h.pers.symm.trans hpers) (by decide)
  | gaveUp => exact absurd (h.pers.symm.trans hpers) (by decide)
  | analyzed _ f ha => exact ha.steady

end Jmddev.Staffed

end Jmd

end JRaid
