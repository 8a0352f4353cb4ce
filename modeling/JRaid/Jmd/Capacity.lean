import JRaid.Jmd.Supplied
import Mathlib.Tactic.Ring

/-!
# The published capacity and the members

Three functions have to agree on how much of each member an array uses. `add_new_disk` keeps the
smallest usable size of the members in `sb->size`, `jmddev_size` publishes a capacity that it
computes from this size and from the number of members, and `jraid5_compute_sector` spreads the
logical sectors over `raid_disks - 1` data disks. The mapped sectors stay inside the component
size exactly if what is published fits in the rows of `raid_disks - 1` chunks that the smallest
member has room for (`Jmddev.CapacityFits`, `capacity_iff`); this is so if there are no more
members than disks (`Jmddev.capacityFits_of_le`).

An array to which `set_array_info` could not give a superblock takes its members with their own
ones and adopts one of these. Its first member has `sb_offset` 0, so nothing fits in front of it.
-/

namespace JRaid

namespace Jmd

/-! ### Bounds -/

/-- The smallest usable size of the members. -/
def Jmddev.smallest (s : Jmddev) : ℕ := s.usableSizes.min?.getD 0

/-- The logical sectors that are published are mapped to sectors below the component size, and the
component size ends in front of the superblock of each member. -/
structure Jmddev.InBounds (s : Jmddev) (sb : Superblock) (conf : JRaid5Conf) : Prop where
  mapped : ∀ r pd, r < s.arraySectors → (conf.mapSector r pd).newSector < sb.size.toUInt64
  reserved : ∀ jrdev ∈ s.disks, sb.size.toUInt64 ≤ jrdev.sbOffset

/-- What the array has to be like when it is started. A chunk has 64 sectors; the capacity is
counted in units of 16384 sectors for every 32768 of the smallest member. -/
def Jmddev.CapacityFits (s : Jmddev) : Prop :=
  if s.chunkSectors = 0 then
    ∃ f, freshest (s.disks.map Rdev.age) = some f ∧ f.sb.size = 0
  else
    ∃ sb, s.sb = some sb ∧
      s.smallest / 32768 * 256 * s.nbDev ≤ s.smallest / 64 * (sb.raidDisks.toNat - 1)

/-- There is room if there are no more members than disks. -/
theorem Jmddev.capacityFits_of_le {s : Jmddev} {sb : Superblock} (hchunk : s.chunkSectors ≠ 0)
    (hsb : s.sb = some sb) (h2 : 2 ≤ sb.raidDisks.toNat) (hle : s.nbDev ≤ sb.raidDisks.toNat) :
    s.CapacityFits := by
  have hhalf : s.smallest / 32768 * 512 ≤ s.smallest / 64 := by omega
  rw [CapacityFits, if_neg hchunk]
  refine ⟨sb, hsb, ?_⟩
  calc s.smallest / 32768 * 256 * s.nbDev
      ≤ s.smallest / 32768 * 256 * (2 * (sb.raidDisks.toNat - 1)) :=
        Nat.mul_le_mul_left _ (by omega)
    _ = s.smallest / 32768 * 512 * (sb.raidDisks.toNat - 1) := by ring
    _ ≤ s.smallest / 64 * (sb.raidDisks.toNat - 1) := Nat.mul_le_mul_right _ hhalf

/-! ### What is published -/

/-- Without a chunk size nothing is published. -/
theorem Jmddev.jmddevSize_of_zero {s : Jmddev} (h : s.chunkSectors = 0) (jraidDisks : Int32) :
    s.jmddevSize jraidDisks = 0 := by
  have hmask : ~~~(ulong 0 - 1) = 0 := by decide
  unfold jmddevSize
  rw [h]
  split
  · rfl
  · dsimp only
    rw [hmask, UInt64.and_zero, UInt64.zero_mul]

/-- **The capacity that `add_store` publishes** for `n` members. -/
theorem Jmddev.toNat_jmddevSize {s : Jmddev} {sb : Superblock} {totalNum : Int32} {n : ℕ}
    (hchunk : s.chunkSectors = infoChunkSectors) (hsb : s.sb = some sb)
    (hn : (n : ℤ) = totalNum.toInt) :
    (s.jmddevSize (totalNum + 1)).toNat = sb.size.toNat / 32768 * 16384 * n := by
  have hmask : (~~~(ulong infoChunkSectors - 1)).toNat = 2 ^ 64 - 2 ^ 14 := by decide
  have hsize : (sb.size / 2).toUInt64.toNat = sb.size.toNat / 2 := rfl
  have htotal : totalNum + 1 - 1 = totalNum := by simp
  have hlt : n < 2 ^ 31 := by
    have := totalNum.toInt_lt
    omega
  have hsize' := sb.size.toNat_lt
  have hbound : sb.size.toNat / 32768 * 16384 * n < 2 ^ 31 * 2 ^ 31 :=
    Nat.mul_lt_mul_of_lt_of_lt (by omega) hlt
  unfold jmddevSize
  rw [hsb, hchunk]
  dsimp only
  rw [UInt64.toNat_mul, UInt64.toNat_and, hmask, hsize, htotal, toNat_ulong_of_toInt hn.symm,
    land_two_pow_sub_two_pow _ (by decide)]
  have hround : sb.size.toNat / 2 % 2 ^ 64 / 2 ^ 14 * 2 ^ 14 = sb.size.toNat / 32768 * 16384 := by
    omega
  rw [hround]
  exact Nat.mod_eq_of_lt (by omega)

/-! ### Starting the array -/

/-- **When a sized array starts, its component size is the smallest usable size**: a device that
offers nothing keeps it from starting. -/
theorem Jmddev.Sized.started {s s' : Jmddev} {sb : Superblock} {f : Rdev} (h : s.Sized sb)
    (hs : s.Sound) (ha : s.Analyzed s' f) (hrun : s'.pers = true) :
    sb.size.toNat = s.smallest ∧ s.smallest ∈ s.usableSizes ∧
      ∀ size ∈ s.usableSizes, s.smallest ≤ size := by
  have hshape := h.shape_freshest ha
  have hchunk : f.sb.chunkSize = 32 * 1024 := (congrArg Shape.chunkSize hshape).trans
    h.info.chunkSize
  have hzero : 0 ∉ s.usableSizes := by
    intro hmem
    -- a member of usable size 0 has no size yet, so `device_size_calculation` looks at it
    obtain ⟨dev, hdev, husable⟩ := List.mem_map.mp hmem
    obtain ⟨m, hm, rfl⟩ := List.mem_map.mp hdev
    have hsize : m.size = 0 := (h.seated m hm).size.elim id fun heq =>
      heq.trans (UInt64.toNat_inj.mp husable)
    have hle := (ha.started hrun).1 m hm hsize
    rw [hshape, h.info.usableSize, hchunk, UInt64.le_iff_toNat_le, husable] at hle
    exact absurd hle (by decide)
  have hne : s.usableSizes ≠ [] := by
    intro hnil
    have hlen := congrArg List.length hnil
    rw [usableSizes, List.length_map, List.length_map, ← hs.nbDev] at hlen
    exact ha.nbDev hlen
  have hsmallest : s.smallest = runningMin s.usableSizes := by
    rw [smallest, min?_eq_some_runningMin hzero hne, Option.getD_some]
  rw [h.size, hsmallest]
  exact ⟨rfl, runningMin_spec hzero hne⟩

/-- The configuration of a sized array: chunks of 64 sectors, and the layout that
`set_array_info` gives. -/
theorem Shape.FromInfo.conf {shape : Shape} {conf : JRaid5Conf} (h : shape.FromInfo)
    (hconf : shape.Configures conf) (hlt : shape.raidDisks.toNat < 2 ^ 31) :
    conf.SupportedLayout ∧ conf.sectorsPerChunk = 64 ∧
      conf.numDisks = shape.raidDisks.toNat := by
  refine ⟨Or.inr ⟨?_, Or.inl ?_⟩, ?_, ?_⟩
  · rw [hconf.level, h.level]
    rfl
  · rw [hconf.algorithm, h.layout]
    rfl
  · rw [JRaid5Conf.sectorsPerChunk, hconf.chunkSize, h.chunkSize]
    decide
  · rw [JRaid5Conf.numDisks, hconf.raidDisks, Int32.toNatClampNeg, toInt_toInt32 hlt,
      Int.toNat_natCast]

/-- The first of the two bounds, for a component size of whole chunks. -/
theorem mapped_iff {conf : JRaid5Conf} {arraySectors : UInt64} {size n : ℕ}
    (hl : conf.SupportedLayout) (hspc : conf.sectorsPerChunk = 64) (h2 : 2 ≤ conf.numDisks)
    (hdvd : 64 ∣ size) (hsectors : arraySectors.toNat = size / 32768 * 16384 * n) :
    (∀ r pd, r < arraySectors → (conf.mapSector r pd).newSector.toNat < size) ↔
      size / 32768 * 256 * n ≤ size / 64 * (conf.numDisks - 1) := by
  have hrows : size / 64 * conf.sectorsPerChunk = size := by rw [hspc, Nat.div_mul_cancel hdvd]
  have hpublished : size / 32768 * 16384 * n = size / 32768 * 256 * n * 64 := by ring
  have hiff := conf.forall_newSector_lt_iff hl h2 (hspc ▸ by decide) arraySectors (size / 64)
  rw [hrows, hsectors, hspc, hpublished, Nat.mul_le_mul_right_iff (by decide)] at hiff
  exact hiff

/-- A sized array uses less of its members than lies in front of their superblocks. -/
theorem Jmddev.Sized.smallest_le {s : Jmddev} {sb : Superblock} (h : s.Sized sb)
    (hle : ∀ size ∈ s.usableSizes, s.smallest ≤ size) {p : DevT × UInt64}
    (hp : p ∈ s.disks.map Rdev.seat) : s.smallest ≤ p.2.toNat := by
  obtain ⟨m, hm, rfl⟩ := List.mem_map.mp hp
  have hoffset : m.seat.2 = mdNewSizeBlocks (s.device m.dev).sectors := (h.seated m hm).sbOffset
  rw [hoffset]
  exact (hle _ (List.mem_map_of_mem (List.mem_map_of_mem hm))).trans (s.device m.dev).usable_le

/-- The capacity of a sized array is in bounds exactly if it fits. -/
theorem Jmddev.Sized.inBounds_iff {s s' : Jmddev} {sb sb' : Superblock} {f : Rdev}
    {conf : JRaid5Conf} {totalNum : Int32} (h : s.Sized sb) (hs : s.Sound)
    (hcount : (s.nbDev : ℤ) = totalNum.toInt) (ha : (s.publish totalNum).Analyzed s' f)
    (hrun : s'.pers = true) (hshape' : sb'.shape = f.sb.shape)
    (hconf : f.sb.shape.Configures conf) (h2 : 2 ≤ sb'.raidDisks.toNat)
    (h27 : sb'.raidDisks.toNat ≤ mdSbDisks) : s'.InBounds sb' conf ↔ s.CapacityFits := by
  have hpublished := h.publish totalNum
  obtain ⟨hsize, hmem, hle⟩ : sb.size.toNat = s.smallest ∧ s.smallest ∈ s.usableSizes ∧
      ∀ size ∈ s.usableSizes, s.smallest ≤ size :=
    hpublished.started ⟨hs.nbDev, hs.check, hs.running⟩ ha hrun
  have hshape := hpublished.shape_freshest ha
  have heq : sb'.shape = sb.shape := hshape'.trans hshape
  have hraid : sb'.raidDisks = sb.raidDisks := congrArg Shape.raidDisks heq
  have hsize' : sb'.size.toUInt64.toNat = s.smallest := by
    rw [UInt32.toNat_toUInt64, show sb'.size = sb.size from congrArg Shape.size heq, hsize]
  rw [hraid] at h2 h27
  obtain ⟨hl, hspc, hnum⟩ := h.info.conf (hshape ▸ hconf) (h27.trans_lt (by decide))
  have hnum : conf.numDisks = sb.raidDisks.toNat := hnum
  have hdvd : 64 ∣ s.smallest := by
    obtain ⟨dev, -, hdev⟩ := List.mem_map.mp hmem
    exact hdev ▸ BlockDev.dvd_usable _
  have hsectors : s'.arraySectors.toNat = s.smallest / 32768 * 16384 * s.nbDev := by
    rw [ha.steady.arraySectors, ← hsize]
    exact toNat_jmddevSize h.chunkSectors h.superblock hcount
  have hmapped := mapped_iff hl hspc (hnum.symm ▸ h2) hdvd hsectors
  have hreserved : ∀ jrdev ∈ s'.disks, sb'.size.toUInt64 ≤ jrdev.sbOffset := by
    intro jrdev hm
    rw [UInt64.le_iff_toNat_le, hsize']
    exact h.smallest_le hle (ha.steady.seat ▸ List.mem_map_of_mem hm :
      jrdev.seat ∈ s.disks.map Rdev.seat)
  -- the second bound always holds, so all depends on the first
  rw [CapacityFits, if_neg (by rw [h.chunkSectors]; decide)]
  constructor
  · intro hin
    refine ⟨sb, h.superblock, hnum ▸ hmapped.mp fun r pd hr => ?_⟩
    exact hsize' ▸ UInt64.lt_iff_toNat_lt.mp (hin.mapped r pd hr)
  · rintro ⟨sb₁, hsb₁, hfits⟩
    obtain rfl : sb = sb₁ := Option.some.inj (h.superblock.symm.trans hsb₁)
    refine ⟨fun r pd hr => UInt64.lt_iff_toNat_lt.mpr ?_, hreserved⟩
    rw [hsize']
    exact hmapped.mpr (hnum ▸ hfits) r pd hr

/-- The first member of an array without array information has its superblock at sector 0. -/
theorem Jmddev.Analyzed.inBounds_iff_of_onDisk {s s' : Jmddev} {sb : Superblock} {f : Rdev}
    {conf : JRaid5Conf} {totalNum : Int32} (ha : (s.publish totalNum).Analyzed s' f)
    (hchunk : s.chunkSectors = 0) (hfirst : ∃ p ∈ s.disks.map Rdev.seat, p.2 = 0)
    (hshape : sb.shape = f.sb.shape) : s'.InBounds sb conf ↔ s.CapacityFits := by
  have hsize : sb.size = f.sb.size := congrArg Shape.size hshape
  rw [CapacityFits, if_pos hchunk]
  constructor
  · intro hin
    refine ⟨f, ha.freshest, ?_⟩
    obtain ⟨p, hp, hzero⟩ := hfirst
    obtain ⟨m, hm, rfl⟩ := List.mem_map.mp (ha.steady.seat.symm ▸ hp : p ∈ s'.disks.map Rdev.seat)
    have hle := hin.reserved m hm
    rw [show m.sbOffset = 0 from hzero, UInt64.le_iff_toNat_le, UInt32.toNat_toUInt64] at hle
    rw [← hsize]
    exact UInt32.toNat_inj.mp (Nat.le_zero.mp hle)
  · -- the chunk size is 0, so nothing is published
    rintro ⟨f', hf', hzero⟩
    obtain rfl : f = f' := Option.some.inj (ha.freshest.symm.trans hf')
    have hnone : s'.arraySectors = 0 :=
      ha.steady.arraySectors.trans (jmddevSize_of_zero hchunk _)
    refine ⟨fun r pd hr => ?_, fun jrdev _ => ?_⟩
    · rw [hnone] at hr
      exact absurd hr UInt64.not_lt_zero
    · rw [hsize, hzero]
      exact UInt64.zero_le

/-- The array that `add_store` starts has gone through `do_jmd_run`. -/
theorem Jmddev.doJmdRun_of_addStore {s s₁ s' : Jmddev} {call : AddStoreCall} {ret : Int64}
    {bdev : Int32 × Int32} (hgranted : call.env.granted = true) (hbdev : call.env.bdev = some bdev)
    (hmember : s.addMember call bdev = .ok s₁) (hcount : (s₁.nbDev : ℤ) = call.totalNum.toInt)
    (h : s.addStore call = .ok (ret, s')) :
    ∃ err, (s₁.publish call.totalNum).doJmdRun call.env.run = .ok (err, s') := by
  obtain ⟨⟨hdtdev, harray⟩, hinfo⟩ : (call.env.dtdev = true ∧ call.env.arrayInfo = true) ∧
      call.env.info = true := by
    simpa [AddStoreEnv.granted] using hgranted
  unfold addStore at h
  simp only [hdtdev, harray, hinfo, Bool.not_true, Bool.false_eq_true, if_false, hbdev, hmember,
    if_pos hcount] at h
  split at h
  · cases h
  · rename_i err s₂ hrun
    obtain ⟨-, rfl⟩ := Prod.mk.inj (Except.ok.inj h)
    exact ⟨err, hrun⟩

/-- A call of `add_store` that starts the array: `s₁` is the array when the device has been added,
and `f` the member whose superblock it adopts. -/
structure Jmddev.Starts (s : Jmddev) (call : AddStoreCall) (s' : Jmddev) (bdev : Int32 × Int32)
    (s₁ : Jmddev) (f : Rdev) : Prop where
  device : call.env.bdev = some bdev
  member : s.addMember call bdev = .ok s₁
  count : (s₁.nbDev : ℤ) = call.totalNum.toInt
  sound : s₁.Sound
  supplied : s₁.Supplied
  run : ∃ err, (s₁.publish call.totalNum).doJmdRun call.env.run = .ok (err, s')
  analyzed : (s₁.publish call.totalNum).Analyzed s' f

/-- An array that a call has made run was complete when its device had been added. -/
theorem Jmddev.exists_starts {device : DevT → BlockDev} {s s' : Jmddev} {call : AddStoreCall}
    {ret : Int64} (hs : (addStoreSystem device).Reachable s) (hstop : s.pers = false)
    (h : s.addStore call = .ok (ret, s')) (hrun : s'.pers = true) :
    ∃ bdev s₁ f, s.Starts call s' bdev s₁ f := by
  have hno : ∀ {p : Prop}, s'.pers = false → p := fun hfalse =>
    absurd (hfalse.symm.trans hrun) (by decide)
  have hsound := Sound.of_reachable hs
  cases storeOutcome h with
  | noMemory => exact hno hstop
  | added _ bdev _ _ err hadd => exact hno (hadd.pers_eq.trans hstop)
  | complete hgranted bdev hbdev s₁ _ hmember err hadd hcount hout =>
    have hstop₁ : s₁.pers = false := hadd.pers_eq.trans hstop
    cases hout with
    | refused => exact hno hstop₁
    | gaveUp => exact hno hstop₁
    | analyzed _ f ha =>
      exact ⟨bdev, s₁, f, hbdev, hmember, hcount, (hsound.setArrayInfo call).addNewDisk hadd,
        (Supplied.of_reachable hs hstop).addMember hsound hadd,
        doJmdRun_of_addStore hgranted hbdev hmember hcount h, ha⟩

/-- **When the published capacity fits the members.** Let `call` be the call of a run of
`add_store` that starts the array, and `s₁` what the array is like when the device has been
added. -/
theorem capacity_iff {device : DevT → BlockDev} {s s' : Jmddev} {call : AddStoreCall}
    {ret : Int64} {sb : Superblock} {conf : JRaid5Conf}
    (hs : (addStoreSystem device).Reachable s) (hstop : s.pers = false)
    (h : s.addStore call = .ok (ret, s')) (hrun : s'.pers = true) (hsb : s'.sb = some sb)
    (hconf : s'.conf = some conf) (h2 : 2 ≤ sb.raidDisks.toNat)
    (h27 : sb.raidDisks.toNat ≤ mdSbDisks) :
    ∃ bdev s₁, call.env.bdev = some bdev ∧ s.addMember call bdev = .ok s₁ ∧
      (s'.InBounds sb conf ↔ s₁.CapacityFits) := by
  obtain ⟨bdev, s₁, f, hstart⟩ := Jmddev.exists_starts hs hstop h hrun
  refine ⟨bdev, s₁, hstart.device, hstart.member, ?_⟩
  have ha := hstart.analyzed
  obtain ⟨sb', hsb', hshape⟩ := ha.sb
  obtain rfl : sb = sb' := Option.some.inj (hsb.symm.trans hsb')
  obtain ⟨-, conf', hconf', hconfigures⟩ := ha.started hrun
  obtain rfl : conf = conf' := Option.some.inj (hconf.symm.trans hconf')
  cases hstart.supplied with
  | onDisk hchunk _ hfirst =>
    exact ha.inBounds_iff_of_onDisk hchunk (hfirst ha.nbDev) hshape
  | info sb₁ h₁ =>
    exact h₁.inBounds_iff hstart.sound hstart.count ha hrun hshape hconfigures h2 h27

/-! ### Three members for two disks -/

/-- Devices of 32896 sectors: 32768 of them are in front of the superblock. -/
def tightDevices : DevT → BlockDev := fun _ => ⟨32896, by decide, fun _ => 0⟩

/-- A call for a device for which there is no page, so that it is not imported. -/
def pagelessCall (totalNum jrdevNum minor : Int32) : AddStoreCall :=
  { addCall totalNum jrdevNum minor with
    env := { (addCall totalNum jrdevNum minor).env with add := { importAll with page := none } } }

/-- The array, the superblock and the configuration after a call that starts the array. -/
def Jmddev.startedBy (s : Jmddev) (call : AddStoreCall) :
    Option (Jmddev × Superblock × JRaid5Conf) :=
  match s.addStore call with
  | .error _ => none
  | .ok (_, s') =>
    match s'.sb, s'.conf with
    | some sb, some conf => if !s.pers && s'.pers then some (s', sb, conf) else none
    | _, _ => none

theorem Jmddev.of_startedBy {s s' : Jmddev} {call : AddStoreCall} {sb : Superblock}
    {conf : JRaid5Conf} (h : s.startedBy call = some (s', sb, conf)) :
    s.pers = false ∧ (∃ ret, s.addStore call = .ok (ret, s')) ∧ s'.pers = true ∧
      s'.sb = some sb ∧ s'.conf = some conf := by
  unfold startedBy at h
  split at h
  · cases h
  rename_i ret s₁ hcall
  split at h
  · rename_i sb₁ conf₁ hsb hconf
    split at h
    · rename_i hpers
      obtain ⟨rfl, rfl, rfl⟩ : s₁ = s' ∧ sb₁ = sb ∧ conf₁ = conf := by simpa using h
      obtain ⟨hstop, hrun⟩ : s.pers = false ∧ s₁.pers = true := by simpa using hpers
      exact ⟨hstop, ⟨ret, hcall⟩, hrun, hsb, hconf⟩
    · cases h
  · cases h

/-- A schedule and a call that starts the array, as far as `f` shows what it has become. -/
theorem exists_startedBy_view {β : Type} {device : DevT → BlockDev} {calls : List AddStoreCall}
    {call : AddStoreCall} {f : Jmddev × Superblock × JRaid5Conf → β} {b : β}
    (h : ((addStoreSystem device).exec (addStoreSystem device).init calls).toOption.map
        (fun s => (s.startedBy call).map f) = some (some b)) :
    ∃ s s' ret sb conf, (addStoreSystem device).Reachable s ∧ s.pers = false ∧
      s.addStore call = .ok (ret, s') ∧ s'.pers = true ∧ s'.sb = some sb ∧ s'.conf = some conf ∧
        f (s', sb, conf) = b := by
  obtain ⟨s, hexec, hshow⟩ := FallibleSystem.exists_exec h
  obtain ⟨⟨s', sb, conf⟩, hstart, hview⟩ := Option.map_eq_some_iff.mp hshow
  obtain ⟨hstop, ⟨ret, hcall⟩, hrun, hsb, hconf⟩ := Jmddev.of_startedBy hstart
  exact ⟨s, s', ret, sb, conf, FallibleSystem.reachable_of_exec hexec, hstop, hcall, hrun, hsb,
    hconf, hview⟩

/-- Its capacity, the component size, the number of disks, and where a logical sector is
mapped. -/
theorem exists_startedBy {device : DevT → BlockDev} {calls : List AddStoreCall}
    {call : AddStoreCall} {sector capacity newSector : UInt64} {size raidDisks : UInt32}
    (h : ((addStoreSystem device).exec (addStoreSystem device).init calls).toOption.map
        (fun s => (s.startedBy call).map fun r => (r.1.arraySectors, r.2.1.size, r.2.1.raidDisks,
          (r.2.2.mapSector sector 0).newSector)) =
      some (some (capacity, size, raidDisks, newSector))) :
    ∃ s s' ret sb conf, (addStoreSystem device).Reachable s ∧ s.pers = false ∧
      s.addStore call = .ok (ret, s') ∧ s'.pers = true ∧ s'.sb = some sb ∧ s'.conf = some conf ∧
        s'.arraySectors = capacity ∧ sb.size = size ∧ sb.raidDisks = raidDisks ∧
          (conf.mapSector sector 0).newSector = newSector := by
  obtain ⟨s, s', ret, sb, conf, hs, hstop, hcall, hrun, hsb, hconf, hview⟩ :=
    exists_startedBy_view h
  obtain ⟨hcapacity, hsize, hraid, hnew⟩ : s'.arraySectors = capacity ∧ sb.size = size ∧
      sb.raidDisks = raidDisks ∧ (conf.mapSector sector 0).newSector = newSector := by
    simpa using hview
  exact ⟨s, s', ret, sb, conf, hs, hstop, hcall, hrun, hsb, hconf, hcapacity, hsize, hraid, hnew⟩

/-- Three members for three disks. -/
theorem capacity_iff_three : ∃ s s' ret sb conf, (addStoreSystem tightDevices).Reachable s ∧
    s.pers = false ∧ s.addStore (addCall 3 2 32) = .ok (ret, s') ∧ s'.pers = true ∧
      s'.sb = some sb ∧ s'.conf = some conf ∧ 2 ≤ sb.raidDisks.toNat ∧
        sb.raidDisks.toNat ≤ mdSbDisks ∧
          ∃ bdev s₁, (addCall 3 2 32).env.bdev = some bdev ∧
            s.addMember (addCall 3 2 32) bdev = .ok s₁ ∧
              (s'.InBounds sb conf ↔ s₁.CapacityFits) := by
  obtain ⟨s, s', ret, sb, conf, hs, hstop, hcall, hrun, hsb, hconf, -, -, hraid, -⟩ :=
    @exists_startedBy tightDevices [addCall 3 0 0, addCall 3 1 16] (addCall 3 2 32) 0 49152 0
      32768 3 (by decide +kernel)
  have h2 : 2 ≤ sb.raidDisks.toNat := by rw [hraid]; decide
  have h27 : sb.raidDisks.toNat ≤ mdSbDisks := by rw [hraid]; decide
  exact ⟨s, s', ret, sb, conf, hs, hstop, hcall, hrun, hsb, hconf, h2, h27,
    capacity_iff hs hstop hcall hrun hsb hconf h2 h27⟩

/-- There is no page for device 32 when it is announced as number 2 of three disks, so only its
descriptor is entered. It is then bound as number 0 of two disks; with the descriptor from the first
call it makes room for two more members. The last published sector, 49151, is mapped to sector 49151
of a member, past its superblock at 32768. -/
theorem capacity_past_members : ∃ s s' call ret sb conf,
    (addStoreSystem tightDevices).Reachable s ∧ s.pers = false ∧
      s.addStore call = .ok (ret, s') ∧ s'.pers = true ∧ s'.sb = some sb ∧ s'.conf = some conf ∧
        2 ≤ sb.raidDisks.toNat ∧ sb.raidDisks.toNat ≤ mdSbDisks ∧ ¬ s'.InBounds sb conf := by
  obtain ⟨s, s', ret, sb, conf, hs, hstop, hcall, hrun, hsb, hconf, hcapacity, hsize, hraid,
      hnew⟩ :=
    @exists_startedBy tightDevices [pagelessCall 3 2 32, addCall 2 0 32, addCall 3 0 0]
      (addCall 3 1 16) 49151 49152 49151 32768 2 (by decide +kernel)
  have h2 : 2 ≤ sb.raidDisks.toNat := by rw [hraid]; decide
  have h27 : sb.raidDisks.toNat ≤ mdSbDisks := by rw [hraid]; decide
  refine ⟨s, s', _, ret, sb, conf, hs, hstop, hcall, hrun, hsb, hconf, h2, h27, fun hin => ?_⟩
  have hmapped := hin.mapped 49151 0 (by rw [hcapacity]; decide)
  rw [hnew, hsize] at hmapped
  exact absurd hmapped (by decide)

end Jmd

end JRaid
