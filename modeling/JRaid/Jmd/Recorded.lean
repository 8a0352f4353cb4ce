import JRaid.Jmd.Capacity
import JRaid.Jmd.Mapping
import Mathlib.Tactic.Linarith

/-!
# The capacity that is recorded

The capacity of an array is computed twice. `jmddev_size` publishes half of the component size, in
whole chunks of 16384, for each member that `add_store` counts. `device_size_calculation` leaves
the whole component size for each of the `raid_disks - 1` data disks in `jmd_size`, and
`do_jmd_run` records twice as much in `jmd_hd_struct`, computed in an `int`. The two agree only if
there are four times as many members as data disks, or more (`capacities_agree_iff`).
-/

namespace JRaid

namespace Jmd

/-! ### What is recorded -/

/-- `nr_sects`, as it comes from the component size and the number of disks. -/
def recordedSectors (size raidDisks : UInt32) : UInt64 :=
  ulong ((size * (raidDisks.toInt32 - 1).toUInt32).toInt32 <<< 1)

theorem toInt_shiftLeft_one {x : Int32} {m : ℕ} (hx : x.toInt = m) (h : 2 * m < 2 ^ 31) :
    (x <<< 1).toInt = (2 * m : ℕ) := by
  have hshift : (x <<< 1).toBitVec = x.toBitVec <<< 1 := by
    rw [Int32.toBitVec_shiftLeft]
    rfl
  have hval : x.toBitVec.toNat = m := toNat_toUInt32_of_toInt hx
  have hdouble : (x.toBitVec <<< 1).toNat = 2 * m := by
    rw [BitVec.toNat_shiftLeft, hval, Nat.shiftLeft_eq, Nat.mod_eq_of_lt (by omega)]
    omega
  rw [← Int32.toInt_toBitVec, hshift, BitVec.toInt_eq_toNat_of_lt (by omega), hdouble]

/-- Without overflow it is twice the component size for each data disk. -/
theorem toNat_recordedSectors {size raidDisks : UInt32} (h1 : 1 ≤ raidDisks.toNat)
    (h : 2 * (size.toNat * (raidDisks.toNat - 1)) < 2 ^ 31) :
    (recordedSectors size raidDisks).toNat = 2 * (size.toNat * (raidDisks.toNat - 1)) := by
  have hdata : (raidDisks.toInt32 - 1).toUInt32.toNat = raidDisks.toNat - 1 := by
    have hsub : (raidDisks.toInt32 - 1).toUInt32 = raidDisks - 1 := rfl
    exact hsub ▸ UInt32.toNat_sub_of_le raidDisks 1 (UInt32.le_iff_toNat_le.mpr h1)
  have hmul : (size * (raidDisks.toInt32 - 1).toUInt32).toNat =
      size.toNat * (raidDisks.toNat - 1) := by
    rw [UInt32.toNat_mul, hdata, Nat.mod_eq_of_lt (by omega)]
  refine toNat_ulong_of_toInt (toInt_shiftLeft_one ?_ h)
  rw [toInt_toInt32 (by omega), hmul]

/-- On the levels 4 and 5 `jmd_size` becomes the component size for each data disk. -/
theorem Jmddev.jmdSize_deviceSizeCalculation {s s' : Jmddev} {sb : Superblock}
    (hlevel : sb.level = 4 ∨ sb.level = 5) (hzero : s.jmdSize = 0)
    (h : s.deviceSizeCalculation sb = (0, s')) :
    s'.jmdSize = (sb.size * (sb.raidDisks.toInt32 - 1).toUInt32).toInt32 := by
  have hdata : sb.dataDisks = some (sb.raidDisks.toInt32 - 1, false) := by
    unfold Superblock.dataDisks
    rcases hlevel with h | h
    · rw [h]
      rfl
    · rw [h]
      rfl
  unfold deviceSizeCalculation at h
  dsimp only at h
  split at h
  · exact absurd (Prod.mk.inj h).1 (by decide)
  rw [hdata] at h
  dsimp only at h
  simp only [Bool.false_eq_true, if_false, if_pos hzero] at h
  rw [← (Prod.mk.inj h).2]

/-- What is recorded once the checks have passed. -/
theorem Jmddev.nrSects_of_startPers {s s' : Jmddev} {sb : Superblock} {env : RunEnv}
    {err : Int32} (hsb : s.sb = some sb) (hstop : s.pers = false) (hzero : s.jmdSize = 0)
    (hlevel : sb.level = 4 ∨ sb.level = 5) (h : s.startPers sb env = .ok (err, s'))
    (hrun : s'.pers = true) : s'.nrSects = recordedSectors sb.size sb.raidDisks := by
  unfold startPers at h
  dsimp only at h
  obtain ⟨⟨serr, s₁⟩, hsized⟩ : ∃ r, s.deviceSizeCalculation sb = r := ⟨_, rfl⟩
  rw [hsized] at h
  have hkept := deviceSizeCalculation_cases hsized
  split at h
  · -- the array still has no personality
    obtain ⟨-, rfl⟩ := Prod.mk.inj (Except.ok.inj h)
    obtain ⟨_, _, rfl, -⟩ := hkept
    exact absurd (hstop.symm.trans hrun) (by decide)
  rename_i hserr
  obtain rfl : serr = 0 := not_not.mp hserr
  have hsize := jmdSize_deviceSizeCalculation hlevel hzero hsized
  obtain ⟨disks, jmdSize, rfl, -⟩ := hkept
  split at h
  · cases h
  rename_i hrun5
  obtain ⟨sb₂, conf, rfl, -, -⟩ := jraid5Run_cases (by exact hsb) hrun5
  split at h
  · obtain ⟨-, rfl⟩ := Prod.mk.inj (Except.ok.inj h)
    exact absurd hrun Bool.false_ne_true
  split at h
  · cases h
  rename_i hupdate
  obtain ⟨_, _, _, rfl, -⟩ := jmdUpdateSb_cases hupdate
  obtain ⟨-, rfl⟩ := Prod.mk.inj (Except.ok.inj h)
  rw [recordedSectors, ← hsize]

/-- What an array that has been started records. -/
theorem Jmddev.nrSects_of_doJmdRun {s s' : Jmddev} {env : RunEnv} {err : Int32}
    (hstop : s.pers = false) (h : s.doJmdRun env = .ok (err, s')) (hrun : s'.pers = true) :
    ∃ sb, s'.sb = some sb ∧ s'.nrSects = recordedSectors sb.size sb.raidDisks := by
  obtain ⟨-, rfl, -⟩ | ⟨-, -, aerr, s₁, hanalyze, hrest⟩ := doJmdRun_cases h
  · exact absurd (hstop.symm.trans hrun) (by decide)
  have hkept : s₁.pers = false ∧ s₁.jmdSize = 0 := by
    obtain ⟨-, rfl⟩ | ⟨_, _, _, -, -, -, -, rfl⟩ := analyzeSbs_cases hanalyze
    · exact ⟨hstop, rfl⟩
    · exact ⟨hstop, rfl⟩
  obtain ⟨-, rfl⟩ | ⟨-, sb, hsb, hcheck, h⟩ := hrest
  · exact absurd (hkept.1.symm.trans hrun) (by decide)
  have hlevel := (Superblock.of_checkGeometry hcheck).1
  obtain ⟨-, ⟨sb', hsb', hshape⟩, -⟩ := startPers_cases hsb hkept.1 h
  refine ⟨sb', hsb', ?_⟩
  rw [show sb'.size = sb.size from congrArg Shape.size hshape,
    show sb'.raidDisks = sb.raidDisks from congrArg Shape.raidDisks hshape]
  exact nrSects_of_startPers hsb hkept.1 hkept.2 hlevel h hrun

/-! ### Where the two capacities agree -/

/-- The capacity that is published for `n` members is the one that is recorded, and no value on
the way is too large for its type. -/
structure Jmddev.CapacitiesAgree (s : Jmddev) (sb : Superblock) (n : ℕ) : Prop where
  eq : s.capacity = s.nrSects
  /-- `total_num + 1`, an `int` -/
  jraidDisks : n + 1 < 2 ^ 31
  /-- the result of `jmddev_size`, a `sector_t` -/
  sectors : sb.size.toNat / 2 * n < 2 ^ 64
  /-- `data_disks`, an `int` -/
  dataDisks : sb.raidDisks.toNat - 1 < 2 ^ 31
  /-- `jmd_size`, an `int` -/
  jmdSize : sb.size.toNat * (sb.raidDisks.toNat - 1) < 2 ^ 31
  /-- `jmd_size << 1`, an `int` -/
  nrSects : 2 * (sb.size.toNat * (sb.raidDisks.toNat - 1)) < 2 ^ 31

/-- When they agree for `n` members: the members beyond four for each data disk make up for the
sectors beyond the last multiple of 32768. -/
structure Superblock.SameCapacity (sb : Superblock) (chunkSectors : Int32) (n : ℕ) : Prop where
  members : sb.size = 0 ∨ chunkSectors ≠ 0 ∧ 4 * (sb.raidDisks.toNat - 1) ≤ n ∧
    sb.size.toNat % 32768 * (sb.raidDisks.toNat - 1) =
      sb.size.toNat / 32768 * 8192 * (n - 4 * (sb.raidDisks.toNat - 1))
  jraidDisks : n + 1 < 2 ^ 31
  dataDisks : sb.raidDisks.toNat - 1 < 2 ^ 31
  nrSects : 2 * (sb.size.toNat * (sb.raidDisks.toNat - 1)) < 2 ^ 31

/-- The array is such that the capacities will agree when it is started. -/
def Jmddev.SameCapacity (s : Jmddev) : Prop :=
  ∃ f, freshest (s.disks.map Rdev.age) = some f ∧ f.sb.SameCapacity s.chunkSectors s.nbDev

theorem published_eq_recorded_iff {size n d : ℕ} (hd : 1 ≤ d) :
    size / 32768 * 16384 * n = 2 * (size * d) ↔
      size = 0 ∨ 4 * d ≤ n ∧ size % 32768 * d = size / 32768 * 8192 * (n - 4 * d) := by
  have hsplit : size * d = 32768 * (size / 32768 * d) + size % 32768 * d := by
    conv_lhs => rw [← Nat.div_add_mod size 32768]
    ring
  constructor
  · intro h
    refine (Nat.eq_zero_or_pos size).imp id fun hpos => ?_
    -- with fewer members even the whole multiples of 32768 count for less
    have hle : 4 * d ≤ n := by
      by_contra hlt
      have hmul := Nat.mul_le_mul_left (size / 32768 * 16384) (show n + 1 ≤ 4 * d by omega)
      have hrest := Nat.zero_le (size % 32768 * d)
      have hwhole : size / 32768 = 0 := Nat.le_zero.mp (by linarith)
      simp only [hwhole, Nat.zero_mul] at h
      have hrecorded := Nat.mul_pos hpos hd
      omega
    obtain ⟨e, rfl⟩ := Nat.exists_eq_add_of_le hle
    refine ⟨hle, ?_⟩
    rw [Nat.add_sub_cancel_left]
    linarith
  · rintro (rfl | ⟨hle, h⟩)
    · simp
    · obtain ⟨e, rfl⟩ := Nat.exists_eq_add_of_le hle
      rw [Nat.add_sub_cancel_left] at h
      rw [hsplit, h]
      ring

/-- The values of an array that starts, in terms of the state before. -/
theorem Superblock.sameCapacity_iff {sb : Superblock} {s' : Jmddev} {chunkSectors : Int32} {n : ℕ}
    (h2 : 2 ≤ sb.raidDisks.toNat) (hrecorded : s'.nrSects = recordedSectors sb.size sb.raidDisks)
    (hcapacity : s'.capacity.toNat =
      if chunkSectors = 0 then 0 else sb.size.toNat / 32768 * 16384 * n) :
    s'.CapacitiesAgree sb n ↔ sb.SameCapacity chunkSectors n := by
  have hd : 1 ≤ sb.raidDisks.toNat - 1 := by omega
  have hzero : sb.size = 0 ↔ sb.size.toNat = 0 := by rw [← UInt32.toNat_inj, UInt32.toNat_zero]
  -- without overflow the two capacities are numbers
  have heq : 2 * (sb.size.toNat * (sb.raidDisks.toNat - 1)) < 2 ^ 31 →
      (s'.capacity = s'.nrSects ↔ sb.size = 0 ∨ chunkSectors ≠ 0 ∧
        4 * (sb.raidDisks.toNat - 1) ≤ n ∧ sb.size.toNat % 32768 * (sb.raidDisks.toNat - 1) =
          sb.size.toNat / 32768 * 8192 * (n - 4 * (sb.raidDisks.toNat - 1))) := by
    intro hlt
    rw [← UInt64.toNat_inj, hcapacity, hrecorded, toNat_recordedSectors (by omega) hlt, hzero]
    by_cases hchunk : chunkSectors = 0
    · rw [if_pos hchunk]
      simp only [hchunk, ne_eq, not_true_eq_false, false_and, or_false]
      constructor
      · intro h
        have hproduct : sb.size.toNat * (sb.raidDisks.toNat - 1) = 0 := by omega
        exact (Nat.mul_eq_zero.mp hproduct).resolve_right (by omega)
      · intro h
        rw [h, Nat.zero_mul]
    · rw [if_neg hchunk, published_eq_recorded_iff hd]
      simp only [hchunk, ne_eq, not_false_eq_true, true_and]
  constructor
  · intro h
    exact ⟨(heq h.nrSects).mp h.eq, h.jraidDisks, h.dataDisks, h.nrSects⟩
  · intro h
    refine ⟨(heq h.nrSects).mpr h.members, h.jraidDisks, ?_, h.dataDisks, ?_, h.nrSects⟩
    · have hsize := sb.size.toNat_lt
      exact (Nat.mul_lt_mul_of_lt_of_lt (show sb.size.toNat / 2 < 2 ^ 31 by omega)
        (show n < 2 ^ 31 by have := h.jraidDisks; omega)).trans_le (by decide)
    · have := h.nrSects
      omega

/-- **When the two capacities agree.** Let `call` be the call of a run of `add_store` that starts
the array, and `s₁` what the array is like when the device has been added. -/
theorem capacities_agree_iff {device : DevT → BlockDev} {s s' : Jmddev} {call : AddStoreCall}
    {ret : Int64} {sb : Superblock} (hs : (addStoreSystem device).Reachable s)
    (hstop : s.pers = false) (h : s.addStore call = .ok (ret, s')) (hrun : s'.pers = true)
    (hsb : s'.sb = some sb) (h2 : 2 ≤ sb.raidDisks.toNat) :
    ∃ bdev s₁, call.env.bdev = some bdev ∧ s.addMember call bdev = .ok s₁ ∧
      (s'.CapacitiesAgree sb s₁.nbDev ↔ s₁.SameCapacity) := by
  obtain ⟨bdev, s₁, f, hstart⟩ := Jmddev.exists_starts hs hstop h hrun
  refine ⟨bdev, s₁, hstart.device, hstart.member, ?_⟩
  obtain ⟨err, hdo⟩ := hstart.run
  have ha := hstart.analyzed
  obtain ⟨sb', hsb', hrecorded⟩ := Jmddev.nrSects_of_doJmdRun ha.pers hdo hrun
  obtain rfl : sb = sb' := Option.some.inj (hsb.symm.trans hsb')
  obtain ⟨sb', hsb', hshape⟩ := ha.sb
  obtain rfl : sb = sb' := Option.some.inj (hsb.symm.trans hsb')
  have hsize : sb.size = f.sb.size := congrArg Shape.size hshape
  have hraid : sb.raidDisks = f.sb.raidDisks := congrArg Shape.raidDisks hshape
  have hpublished : s'.capacity.toNat = if s₁.chunkSectors = 0 then 0
      else sb.size.toNat / 32768 * 16384 * s₁.nbDev := by
    rw [ha.steady.capacity]
    cases hstart.supplied with
    | onDisk hchunk =>
      rw [if_pos hchunk, Jmddev.publish, Jmddev.jmddevSize_of_zero hchunk]
      rfl
    | info sb₁ h₁ =>
      have hshape₁ := (h₁.publish call.totalNum).shape_freshest ha
      rw [if_neg (by rw [h₁.chunkSectors]; decide), hsize,
        show f.sb.size = sb₁.size from congrArg Shape.size hshape₁]
      exact Jmddev.toNat_jmddevSize h₁.chunkSectors h₁.superblock hstart.count
  have hiff := Superblock.sameCapacity_iff (n := s₁.nbDev) h2 hrecorded hpublished
  refine hiff.trans ⟨fun h => ⟨f, ha.freshest, ?_⟩, ?_⟩
  · exact ⟨hsize ▸ hraid ▸ h.members, h.jraidDisks, hraid ▸ h.dataDisks,
      hsize ▸ hraid ▸ h.nrSects⟩
  · rintro ⟨f', hf', h⟩
    obtain rfl : f = f' := Option.some.inj (ha.freshest.symm.trans hf')
    exact ⟨hsize.symm ▸ hraid.symm ▸ h.members, h.jraidDisks, hraid.symm ▸ h.dataDisks,
      hsize.symm ▸ hraid.symm ▸ h.nrSects⟩

/-- They do not agree where `add_store` counts no more members than there are disks. -/
theorem Superblock.not_sameCapacity_of_le {sb : Superblock} {chunkSectors : Int32} {n : ℕ}
    (hsize : sb.size ≠ 0) (h2 : 2 ≤ sb.raidDisks.toNat) (hle : n ≤ sb.raidDisks.toNat) :
    ¬ sb.SameCapacity chunkSectors n := by
  intro h
  obtain hzero | ⟨-, hmany, -⟩ := h.members
  · exact hsize hzero
  · omega

/-! ### Three disks of 32768 sectors -/

/-- The third of three members starts an array on `tightDevices`. -/
theorem tightDevices_started : ∃ s s' ret sb, (addStoreSystem tightDevices).Reachable s ∧
    s.pers = false ∧ s.addStore (addCall 3 2 32) = .ok (ret, s') ∧ s'.pers = true ∧
      s'.sb = some sb ∧ sb.raidDisks = 3 ∧ s'.capacity = 49152 ∧ s'.nrSects = 131072 := by
  have hrun : ((addStoreSystem tightDevices).exec (addStoreSystem tightDevices).init
      [addCall 3 0 0, addCall 3 1 16]).toOption.map (fun s => (s.startedBy (addCall 3 2 32)).map
        fun r => (r.2.1.raidDisks, r.1.capacity, r.1.nrSects)) =
      some (some (3, 49152, 131072)) := by
    decide +kernel
  obtain ⟨s, s', ret, sb, conf, hs, hstop, hcall, hpers, hsb, -, hview⟩ :=
    exists_startedBy_view hrun
  obtain ⟨hraid, hcapacity, hrecorded⟩ : sb.raidDisks = 3 ∧ s'.capacity = 49152 ∧
      s'.nrSects = 131072 := by
    simpa using hview
  exact ⟨s, s', ret, sb, hs, hstop, hcall, hpers, hsb, hraid, hcapacity, hrecorded⟩

theorem capacities_agree_iff_three : ∃ s s' ret sb, (addStoreSystem tightDevices).Reachable s ∧
    s.pers = false ∧ s.addStore (addCall 3 2 32) = .ok (ret, s') ∧ s'.pers = true ∧
      s'.sb = some sb ∧ 2 ≤ sb.raidDisks.toNat ∧
        ∃ bdev s₁, (addCall 3 2 32).env.bdev = some bdev ∧
          s.addMember (addCall 3 2 32) bdev = .ok s₁ ∧
            (s'.CapacitiesAgree sb s₁.nbDev ↔ s₁.SameCapacity) := by
  obtain ⟨s, s', ret, sb, hs, hstop, hcall, hrun, hsb, hraid, -⟩ := tightDevices_started
  have h2 : 2 ≤ sb.raidDisks.toNat := by rw [hraid]; decide
  exact ⟨s, s', ret, sb, hs, hstop, hcall, hrun, hsb, h2,
    capacities_agree_iff hs hstop hcall hrun hsb h2⟩

/-- The array publishes three times 16384 sectors and records four times 32768. -/
theorem capacities_differ : ∃ s s' ret sb, (addStoreSystem tightDevices).Reachable s ∧
    s.pers = false ∧ s.addStore (addCall 3 2 32) = .ok (ret, s') ∧ s'.pers = true ∧
      s'.sb = some sb ∧ 2 ≤ sb.raidDisks.toNat ∧ ∀ n, ¬ s'.CapacitiesAgree sb n := by
  obtain ⟨s, s', ret, sb, hs, hstop, hcall, hrun, hsb, hraid, hcapacity, hrecorded⟩ :=
    tightDevices_started
  refine ⟨s, s', ret, sb, hs, hstop, hcall, hrun, hsb, by rw [hraid]; decide, fun n h => ?_⟩
  have heq := h.eq
  rw [hcapacity, hrecorded] at heq
  exact absurd heq (by decide)

end Jmd

end JRaid
