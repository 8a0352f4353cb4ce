import JRaid.CInt
import JRaid.ForMathlib.RowLayout
import Mathlib.Tactic.Set

/-!
# The sector map of the array

`jraid5ComputeSector` maps a logical sector to a member disk, a sector on it and the
parity disk of the row, for level 4 and for the four rotating layouts of level 5. Called
with the array's own `raid_disks`, and for a supported layout, it refines the abstract
layout `JRaid5Conf.layout` (`toNat_mapSector`): no intermediate value leaves its C type.
The logical sectors of any number of rows therefore fill the data places of these rows
exactly once.
-/

namespace JRaid

/-! ### The configuration -/

def algorithmLeftAsymmetric : Int32 := 0
def algorithmRightAsymmetric : Int32 := 1
def algorithmLeftSymmetric : Int32 := 2
def algorithmRightSymmetric : Int32 := 3

/-- A member device of the array: its block device. -/
structure JmdRdev where
  bdev : ℕ
  deriving DecidableEq, Repr

/-- A slot of the member table: the device in it, if there is one. -/
structure DiskInfo where
  jrdev : Option JmdRdev
  deriving DecidableEq, Repr

/-- The part of `struct jraid5_conf` that does not change while the array runs. -/
structure JRaid5Conf where
  chunkSize : Int32
  level : Int32
  algorithm : Int32
  raidDisks : Int32
  bufferSize : Int32
  disks : ℕ → DiskInfo

namespace JRaid5Conf

variable (conf : JRaid5Conf)

/-- The number of disks as a natural number. -/
def numDisks : ℕ := conf.raidDisks.toNatClampNeg

/-- The number of sectors in a chunk as a natural number. -/
def sectorsPerChunk : ℕ := (conf.chunkSize >>> 9).toNatClampNeg

/-- The algorithms that `jraid5ComputeSector` knows. -/
def SupportedAlgorithm : Prop :=
  conf.algorithm = algorithmLeftAsymmetric ∨ conf.algorithm = algorithmRightAsymmetric ∨
    conf.algorithm = algorithmLeftSymmetric ∨ conf.algorithm = algorithmRightSymmetric

/-- The layouts that assign a parity disk: level 4, or level 5 with a known algorithm. -/
def SupportedLayout : Prop := conf.level = 4 ∨ (conf.level = 5 ∧ conf.SupportedAlgorithm)

theorem numDisks_lt : conf.numDisks < 2 ^ 31 := Int32.toNatClampNeg_lt _

theorem sectorsPerChunk_lt : conf.sectorsPerChunk < 2 ^ 31 := Int32.toNatClampNeg_lt _

end JRaid5Conf

/-! ### `jraid5_compute_sector` -/

/-- What `jraid5_compute_sector` returns, in its value and through its two pointers. -/
@[ext]
structure Place where
  newSector : UInt64
  ddIdx : UInt32
  pdIdx : UInt32
  deriving DecidableEq, Repr

/-- The level test and the `switch` of `jraid5_compute_sector`: from the row `stripe` and
the number `ddIdx` of the data chunk in it to the data disk and the parity disk. The
`default` branch leaves `*pd_idx` as the caller had it. -/
def JRaid5Conf.diskIndices (conf : JRaid5Conf) (stripe : UInt64)
    (raidDisks dataDisks ddIdx pdIdx : UInt32) : UInt32 × UInt32 :=
  if conf.level = 4 then (ddIdx, dataDisks)
  else if conf.algorithm = algorithmLeftAsymmetric then
    let pdIdx := (dataDisks.toUInt64 - stripe % raidDisks.toUInt64).toUInt32
    (if pdIdx ≤ ddIdx then ddIdx + 1 else ddIdx, pdIdx)
  else if conf.algorithm = algorithmRightAsymmetric then
    let pdIdx := (stripe % raidDisks.toUInt64).toUInt32
    (if pdIdx ≤ ddIdx then ddIdx + 1 else ddIdx, pdIdx)
  else if conf.algorithm = algorithmLeftSymmetric then
    let pdIdx := (dataDisks.toUInt64 - stripe % raidDisks.toUInt64).toUInt32
    ((pdIdx + 1 + ddIdx) % raidDisks, pdIdx)
  else if conf.algorithm = algorithmRightSymmetric then
    let pdIdx := (stripe % raidDisks.toUInt64).toUInt32
    ((pdIdx + 1 + ddIdx) % raidDisks, pdIdx)
  else (ddIdx, pdIdx)

/-- `jraid5_compute_sector`; `pdIdx` is what `*pd_idx` holds before the call. -/
def jraid5ComputeSector (rSector : UInt64) (raidDisks dataDisks pdIdx : UInt32)
    (conf : JRaid5Conf) : Place :=
  let sectorsPerChunk := conf.chunkSize >>> 9
  let chunkNumber := rSector / ulong sectorsPerChunk
  let chunkOffset := (rSector % ulong sectorsPerChunk).toUInt32
  let stripe := chunkNumber / dataDisks.toUInt64
  let ddIdx := (chunkNumber % dataDisks.toUInt64).toUInt32
  let idx := conf.diskIndices stripe raidDisks dataDisks ddIdx pdIdx
  ⟨stripe * ulong sectorsPerChunk + chunkOffset.toUInt64, idx.1, idx.2⟩

/-- `jraid5_compute_sector` with the disk counts its callers pass: `raid_disks` of the
array and one less. -/
def JRaid5Conf.mapSector (conf : JRaid5Conf) (rSector : UInt64) (pdIdx : UInt32) : Place :=
  jraid5ComputeSector rSector conf.raidDisks.toUInt32 (conf.raidDisks.toUInt32 - 1) pdIdx conf

/-! ### The abstract layout -/

namespace JRaid5Conf

variable (conf : JRaid5Conf)

/-- The parity disk of a row. -/
def parityDisk (k : ℕ) : ℕ :=
  if conf.level = 4 then conf.numDisks - 1
  else if conf.algorithm = algorithmLeftAsymmetric ∨ conf.algorithm = algorithmLeftSymmetric then
    conf.numDisks - 1 - k % conf.numDisks
  else k % conf.numDisks

variable {conf}

theorem parityDisk_lt (hn : 2 ≤ conf.numDisks) (k : ℕ) : conf.parityDisk k < conf.numDisks := by
  have := Nat.mod_lt k (show 0 < conf.numDisks by omega)
  unfold parityDisk
  split_ifs <;> omega

variable (conf)

/-- The row layout that the level and the algorithm of the array stand for. -/
def layout (hn : 2 ≤ conf.numDisks) : RowLayout conf.numDisks :=
  if conf.level = 4 ∨ conf.algorithm = algorithmLeftAsymmetric ∨
      conf.algorithm = algorithmRightAsymmetric then
    RowLayout.skip conf.parityDisk (parityDisk_lt hn)
  else RowLayout.wrap conf.parityDisk (parityDisk_lt hn)

variable {conf}

@[simp]
theorem layout_parity (hn : 2 ≤ conf.numDisks) : (conf.layout hn).parity = conf.parityDisk := by
  unfold layout
  split_ifs <;> rfl

theorem parityDisk_left (h4 : conf.level ≠ 4)
    (h : conf.algorithm = algorithmLeftAsymmetric ∨ conf.algorithm = algorithmLeftSymmetric)
    (k : ℕ) : conf.parityDisk k = conf.numDisks - 1 - k % conf.numDisks := by
  rw [parityDisk, if_neg h4, if_pos h]

theorem parityDisk_right (h4 : conf.level ≠ 4)
    (h : conf.algorithm = algorithmRightAsymmetric ∨ conf.algorithm = algorithmRightSymmetric)
    (k : ℕ) : conf.parityDisk k = k % conf.numDisks := by
  rw [parityDisk, if_neg h4, if_neg]
  rcases h with h | h <;> rw [h] <;> decide

theorem layout_asymmetric (hn : 2 ≤ conf.numDisks)
    (h : conf.level = 4 ∨ conf.algorithm = algorithmLeftAsymmetric ∨
      conf.algorithm = algorithmRightAsymmetric) :
    conf.layout hn = RowLayout.skip conf.parityDisk (parityDisk_lt hn) :=
  if_pos h

theorem layout_symmetric (hn : 2 ≤ conf.numDisks) (h4 : conf.level ≠ 4)
    (h : conf.algorithm = algorithmLeftSymmetric ∨ conf.algorithm = algorithmRightSymmetric) :
    conf.layout hn = RowLayout.wrap conf.parityDisk (parityDisk_lt hn) := by
  refine if_neg ?_
  simp only [h4, false_or]
  rcases h with h | h <;> rw [h] <;> decide

/-! ### The refinement -/

/-- The left layouts: an unsigned subtraction that does not wrap. -/
private theorem toNat_left {n : ℕ} (stripe : UInt64) {raidDisks dataDisks : UInt32} (hn : 0 < n)
    (hr : raidDisks.toNat = n) (hd : dataDisks.toNat = n - 1) :
    (dataDisks.toUInt64 - stripe % raidDisks.toUInt64).toUInt32.toNat =
      n - 1 - stripe.toNat % n := by
  have hlt := raidDisks.toNat_lt
  have hmod : stripe.toNat % n < n := Nat.mod_lt _ hn
  have hle : stripe % raidDisks.toUInt64 ≤ dataDisks.toUInt64 := by
    rw [UInt64.le_iff_toNat_le, UInt64.toNat_mod, UInt32.toNat_toUInt64, UInt32.toNat_toUInt64,
      hr, hd]
    omega
  rw [UInt64.toNat_toUInt32, UInt64.toNat_sub_of_le _ _ hle, UInt64.toNat_mod,
    UInt32.toNat_toUInt64, UInt32.toNat_toUInt64, hr, hd]
  exact Nat.mod_eq_of_lt (by omega)

/-- The right layouts: a remainder that fits in 32 bits. -/
private theorem toNat_right {n : ℕ} (stripe : UInt64) {raidDisks : UInt32} (hn : 0 < n)
    (hr : raidDisks.toNat = n) :
    (stripe % raidDisks.toUInt64).toUInt32.toNat = stripe.toNat % n := by
  have hlt := raidDisks.toNat_lt
  have hmod : stripe.toNat % n < n := Nat.mod_lt _ hn
  rw [UInt64.toNat_toUInt32, UInt64.toNat_mod, UInt32.toNat_toUInt64, hr]
  exact Nat.mod_eq_of_lt (by omega)

/-- The asymmetric layouts step over the parity disk. -/
private theorem toNat_skip {n : ℕ} {ddIdx pdIdx : UInt32} (hn : n < 2 ^ 31)
    (hdd : ddIdx.toNat < n - 1) :
    (if pdIdx ≤ ddIdx then ddIdx + 1 else ddIdx).toNat =
      if pdIdx.toNat ≤ ddIdx.toNat then ddIdx.toNat + 1 else ddIdx.toNat := by
  simp only [UInt32.le_iff_toNat_le]
  split_ifs
  · rw [UInt32.toNat_add]
    exact Nat.mod_eq_of_lt (by simp only [UInt32.reduceToNat]; omega)
  · rfl

/-- The symmetric layouts wrap around: the sum stays below `2 ^ 32`. -/
private theorem toNat_wrap {n : ℕ} {raidDisks ddIdx pdIdx : UInt32} (hn : n < 2 ^ 31)
    (hr : raidDisks.toNat = n) (hdd : ddIdx.toNat < n - 1) (hpd : pdIdx.toNat < n) :
    ((pdIdx + 1 + ddIdx) % raidDisks).toNat = (pdIdx.toNat + 1 + ddIdx.toNat) % n := by
  have h1 : (pdIdx + 1 + ddIdx).toNat = pdIdx.toNat + 1 + ddIdx.toNat := by
    simp only [UInt32.toNat_add, UInt32.reduceToNat]
    omega
  rw [UInt32.toNat_mod, h1, hr]

/-- The `switch` picks the data disk and the parity disk of the abstract layout. -/
theorem toNat_diskIndices (hl : conf.SupportedLayout) (hn : 2 ≤ conf.numDisks) (stripe : UInt64)
    {raidDisks dataDisks ddIdx : UInt32} (pdIdx : UInt32) (hr : raidDisks.toNat = conf.numDisks)
    (hd : dataDisks.toNat = conf.numDisks - 1) (hdd : ddIdx.toNat < conf.numDisks - 1) :
    let idx := conf.diskIndices stripe raidDisks dataDisks ddIdx pdIdx
    idx.1.toNat = (conf.layout hn).disk stripe.toNat ddIdx.toNat ∧
      idx.2.toNat = conf.parityDisk stripe.toNat := by
  have hlt := conf.numDisks_lt
  have hpos : 0 < conf.numDisks := by omega
  have hleft := toNat_left stripe hpos hr hd
  have hright := toNat_right stripe hpos hr
  have hmod : stripe.toNat % conf.numDisks < conf.numDisks := Nat.mod_lt _ hpos
  by_cases h4 : conf.level = 4
  · have hpd : conf.parityDisk stripe.toNat = conf.numDisks - 1 := if_pos h4
    simp only [diskIndices, if_pos h4, layout_asymmetric hn (Or.inl h4), RowLayout.skip]
    exact ⟨by rw [if_neg (by omega)], by rw [hpd, hd]⟩
  · obtain h | h | h | h := (hl.resolve_left h4).2
    · simp only [diskIndices, if_neg h4, if_pos h,
        layout_asymmetric hn (Or.inr (Or.inl h)), RowLayout.skip]
      rw [toNat_skip hlt hdd, hleft, parityDisk_left h4 (Or.inl h)]
      exact ⟨rfl, rfl⟩
    · have h0 : conf.algorithm ≠ algorithmLeftAsymmetric := by rw [h]; decide
      simp only [diskIndices, if_neg h4, if_neg h0, if_pos h,
        layout_asymmetric hn (Or.inr (Or.inr h)), RowLayout.skip]
      rw [toNat_skip hlt hdd, hright, parityDisk_right h4 (Or.inl h)]
      exact ⟨rfl, rfl⟩
    · have h0 : conf.algorithm ≠ algorithmLeftAsymmetric := by rw [h]; decide
      have h1 : conf.algorithm ≠ algorithmRightAsymmetric := by rw [h]; decide
      simp only [diskIndices, if_neg h4, if_neg h0, if_neg h1, if_pos h,
        layout_symmetric hn h4 (Or.inl h), RowLayout.wrap]
      rw [toNat_wrap hlt hr hdd (by omega), hleft, parityDisk_left h4 (Or.inr h)]
      exact ⟨rfl, rfl⟩
    · have h0 : conf.algorithm ≠ algorithmLeftAsymmetric := by rw [h]; decide
      have h1 : conf.algorithm ≠ algorithmRightAsymmetric := by rw [h]; decide
      have h2 : conf.algorithm ≠ algorithmLeftSymmetric := by rw [h]; decide
      simp only [diskIndices, if_neg h4, if_neg h0, if_neg h1, if_neg h2, if_pos h,
        layout_symmetric hn h4 (Or.inr h), RowLayout.wrap]
      rw [toNat_wrap hlt hr hdd (by omega), hright, parityDisk_right h4 (Or.inr h)]
      exact ⟨rfl, rfl⟩

theorem toNat_raidDisks (hn : 2 ≤ conf.numDisks) :
    conf.raidDisks.toUInt32.toNat = conf.numDisks :=
  toNat_toUInt32 (nonneg_of_toNatClampNeg_pos (by rw [numDisks] at hn; omega))

theorem toNat_dataDisks (hn : 2 ≤ conf.numDisks) :
    (conf.raidDisks.toUInt32 - 1).toNat = conf.numDisks - 1 := by
  have h := toNat_raidDisks hn
  have hle : 1 ≤ conf.raidDisks.toUInt32 := by
    rw [UInt32.le_iff_toNat_le, h]
    simp only [UInt32.reduceToNat]
    omega
  rw [UInt32.toNat_sub_of_le _ _ hle, h]
  rfl

theorem toNat_sectorsPerChunk (hc : 0 < conf.sectorsPerChunk) :
    (ulong (conf.chunkSize >>> 9)).toNat = conf.sectorsPerChunk :=
  toNat_ulong (nonneg_of_toNatClampNeg_pos hc)

/-- **The sector map refines the abstract layout.** -/
theorem toNat_mapSector (hl : conf.SupportedLayout) (hn : 2 ≤ conf.numDisks)
    (hc : 0 < conf.sectorsPerChunk) (r : UInt64) (pd : UInt32) :
    (conf.mapSector r pd).ddIdx.toNat =
        ((conf.layout hn).place conf.sectorsPerChunk r.toNat).1 ∧
      (conf.mapSector r pd).newSector.toNat =
        ((conf.layout hn).place conf.sectorsPerChunk r.toNat).2 ∧
      (conf.mapSector r pd).pdIdx.toNat =
        conf.parityDisk ((conf.mapSector r pd).newSector.toNat / conf.sectorsPerChunk) := by
  have hn31 := conf.numDisks_lt
  have hc31 := conf.sectorsPerChunk_lt
  have hspc := toNat_sectorsPerChunk hc
  have hdata := toNat_dataDisks hn
  set spc := ulong (conf.chunkSize >>> 9) with hspc_def
  have hstripe : (r / spc / (conf.raidDisks.toUInt32 - 1).toUInt64).toNat =
      r.toNat / conf.sectorsPerChunk / (conf.numDisks - 1) := by
    rw [UInt64.toNat_div, UInt64.toNat_div, UInt32.toNat_toUInt64, hdata, hspc]
  have hdlt : r.toNat / conf.sectorsPerChunk % (conf.numDisks - 1) < conf.numDisks - 1 :=
    Nat.mod_lt _ (by omega)
  have hdd : (r / spc % (conf.raidDisks.toUInt32 - 1).toUInt64).toUInt32.toNat =
      r.toNat / conf.sectorsPerChunk % (conf.numDisks - 1) := by
    rw [UInt64.toNat_toUInt32, UInt64.toNat_mod, UInt64.toNat_div, UInt32.toNat_toUInt64, hdata,
      hspc]
    exact Nat.mod_eq_of_lt (by omega)
  have holt : r.toNat % conf.sectorsPerChunk < conf.sectorsPerChunk := Nat.mod_lt _ hc
  have hoff : (r % spc).toUInt32.toUInt64.toNat = r.toNat % conf.sectorsPerChunk := by
    rw [UInt32.toNat_toUInt64, UInt64.toNat_toUInt32, UInt64.toNat_mod, hspc]
    exact Nat.mod_eq_of_lt (by omega)
  obtain ⟨h1, h2⟩ := toNat_diskIndices hl hn (r / spc / (conf.raidDisks.toUInt32 - 1).toUInt64) pd
    (toNat_raidDisks hn) hdata (hdd.trans_lt hdlt)
  rw [hdd, hstripe] at h1
  rw [hstripe] at h2
  have hnew : (conf.mapSector r pd).newSector.toNat =
      ((conf.layout hn).place conf.sectorsPerChunk r.toNat).2 := by
    -- the row's first sector and the offset in the chunk stay below the logical sector
    have hle : r.toNat / conf.sectorsPerChunk / (conf.numDisks - 1) * conf.sectorsPerChunk ≤
        r.toNat / conf.sectorsPerChunk * conf.sectorsPerChunk :=
      Nat.mul_le_mul_right _ (Nat.div_le_self _ _)
    have hr := Nat.div_add_mod' r.toNat conf.sectorsPerChunk
    have hr64 := r.toNat_lt
    change (r / spc / (conf.raidDisks.toUInt32 - 1).toUInt64 * spc +
      (r % spc).toUInt32.toUInt64).toNat = _
    rw [UInt64.toNat_add, UInt64.toNat_mul, hstripe, hspc, hoff, RowLayout.place,
      Nat.mod_eq_of_lt (by omega : r.toNat / conf.sectorsPerChunk / (conf.numDisks - 1) *
        conf.sectorsPerChunk < 2 ^ 64)]
    exact Nat.mod_eq_of_lt (by omega)
  refine ⟨h1, hnew, ?_⟩
  rw [hnew, (RowLayout.place_row hc r.toNat).1]
  exact h2

/-- Logical sectors that map to one place are the same. -/
theorem mapSector_inj (hl : conf.SupportedLayout) (hn : 2 ≤ conf.numDisks)
    (hc : 0 < conf.sectorsPerChunk) {r r' : UInt64} (pd pd' : UInt32)
    (hnew : (conf.mapSector r pd).newSector = (conf.mapSector r' pd').newSector)
    (hdd : (conf.mapSector r pd).ddIdx.toNat = (conf.mapSector r' pd').ddIdx.toNat) : r = r' := by
  obtain ⟨h1, h2, -⟩ := toNat_mapSector hl hn hc r pd
  obtain ⟨h1', h2', -⟩ := toNat_mapSector hl hn hc r' pd'
  have hback := fun r => RowLayout.logical_place (L := conf.layout hn) hn hc r
  refine UInt64.toNat_inj.mp ?_
  rw [← hback r.toNat, ← hback r'.toNat, ← h1, ← h2, ← h1', ← h2', hnew, hdd]

/-- The logical sectors below `R` are mapped to the first `k` rows exactly if these rows have room
for them. -/
theorem forall_newSector_lt_iff (hl : conf.SupportedLayout) (hn : 2 ≤ conf.numDisks)
    (hc : 0 < conf.sectorsPerChunk) (R : UInt64) (k : ℕ) :
    (∀ r pd, r < R → (conf.mapSector r pd).newSector.toNat < k * conf.sectorsPerChunk) ↔
      R.toNat ≤ k * (conf.numDisks - 1) * conf.sectorsPerChunk := by
  have hrow : ∀ r pd, (conf.mapSector r pd).newSector.toNat < k * conf.sectorsPerChunk ↔
      r.toNat < k * (conf.numDisks - 1) * conf.sectorsPerChunk := by
    intro r pd
    rw [(toNat_mapSector hl hn hc r pd).2.1]
    exact RowLayout.place_lt_rows_iff (L := conf.layout hn) hn hc k r.toNat
  constructor
  · intro h
    by_contra hlt
    have hlt := Nat.lt_of_not_le hlt
    -- the first sector that the rows have no room for
    have hval : (UInt64.ofNat (k * (conf.numDisks - 1) * conf.sectorsPerChunk)).toNat =
        k * (conf.numDisks - 1) * conf.sectorsPerChunk :=
      UInt64.toNat_ofNat_of_lt' (hlt.trans R.toNat_lt)
    have hfirst := (hrow _ 0).mp (h _ 0 (UInt64.lt_iff_toNat_lt.mpr (hval.trans_lt hlt)))
    rw [hval] at hfirst
    exact Nat.lt_irrefl _ hfirst
  · intro h r pd hr
    exact (hrow r pd).mpr ((UInt64.lt_iff_toNat_lt.mp hr).trans_le h)

/-- **The sector map fills the rows exactly once.** The logical sectors of any number `R`
of rows are in bijection with the places of these rows that do not hold parity; the data
disk is never the parity disk, both are disks of the array, and the parity disk depends on
the row of the new sector alone. -/
theorem mapSector_bijOn_dataPlaces (conf : JRaid5Conf) (hl : conf.SupportedLayout)
    (hn : 2 ≤ conf.numDisks) (hc : 1 ≤ conf.sectorsPerChunk) (pd : UInt32) (R : ℕ)
    (hR : R * (conf.numDisks - 1) * conf.sectorsPerChunk < 2 ^ 64) :
    Set.BijOn
        (fun r => ((conf.mapSector r pd).ddIdx.toNat, (conf.mapSector r pd).newSector.toNat))
        {r : UInt64 | r.toNat < R * (conf.numDisks - 1) * conf.sectorsPerChunk}
        {p | p.1 < conf.numDisks ∧ p.2 < R * conf.sectorsPerChunk ∧
          p.1 ≠ conf.parityDisk (p.2 / conf.sectorsPerChunk)} ∧
      ∀ r : UInt64, r.toNat < R * (conf.numDisks - 1) * conf.sectorsPerChunk →
        (conf.mapSector r pd).ddIdx ≠ (conf.mapSector r pd).pdIdx ∧
        (conf.mapSector r pd).ddIdx.toNat < conf.numDisks ∧
        (conf.mapSector r pd).pdIdx.toNat < conf.numDisks ∧
        (conf.mapSector r pd).pdIdx.toNat =
          conf.parityDisk ((conf.mapSector r pd).newSector.toNat / conf.sectorsPerChunk) := by
  have hplace : ∀ r : UInt64,
      ((conf.mapSector r pd).ddIdx.toNat, (conf.mapSector r pd).newSector.toNat) =
        (conf.layout hn).place conf.sectorsPerChunk r.toNat := fun r =>
    Prod.ext (toNat_mapSector hl hn hc r pd).1 (toNat_mapSector hl hn hc r pd).2.1
  have hdata : {p : ℕ × ℕ | p.1 < conf.numDisks ∧ p.2 < R * conf.sectorsPerChunk ∧
      p.1 ≠ conf.parityDisk (p.2 / conf.sectorsPerChunk)} =
      (conf.layout hn).dataPlaces conf.sectorsPerChunk R := by
    rw [RowLayout.dataPlaces, layout_parity]
  constructor
  · have hbij : Set.BijOn UInt64.toNat {r | r.toNat < R * (conf.numDisks - 1) *
        conf.sectorsPerChunk} {r | r < R * (conf.numDisks - 1) * conf.sectorsPerChunk} := by
      refine ⟨fun r hr => hr, fun r _ r' _ h => UInt64.toNat_inj.mp h, fun m hm => ?_⟩
      have hm64 : m < 2 ^ 64 := lt_trans hm hR
      have hval : (UInt64.ofNat m).toNat = m := UInt64.toNat_ofNat_of_lt' hm64
      exact ⟨UInt64.ofNat m, by change (UInt64.ofNat m).toNat < _; rwa [hval], hval⟩
    rw [hdata, funext hplace]
    exact (RowLayout.bijOn_place hn hc R).comp hbij
  · intro r _
    obtain ⟨hdd, hnew, hpd⟩ := toNat_mapSector hl hn hc r pd
    have hne : (conf.mapSector r pd).ddIdx.toNat ≠ (conf.mapSector r pd).pdIdx.toNat := by
      have := RowLayout.place_ne_parity (L := conf.layout hn) hn hc r.toNat
      rwa [layout_parity, ← hnew, ← hdd, ← hpd] at this
    exact ⟨fun h => hne (congrArg _ h), hdd.trans_lt (RowLayout.place_lt hn _),
      hpd.trans_lt (parityDisk_lt hn _), hpd⟩

/-- Two rows of a left-symmetric array of three disks with chunks of eight sectors. -/
theorem mapSector_bijOn_dataPlaces_three :
    let conf : JRaid5Conf := ⟨4096, 5, algorithmLeftSymmetric, 3, 4096, fun _ => ⟨none⟩⟩
    Set.BijOn
        (fun r => ((conf.mapSector r 0).ddIdx.toNat, (conf.mapSector r 0).newSector.toNat))
        {r : UInt64 | r.toNat < 2 * (conf.numDisks - 1) * conf.sectorsPerChunk}
        {p | p.1 < conf.numDisks ∧ p.2 < 2 * conf.sectorsPerChunk ∧
          p.1 ≠ conf.parityDisk (p.2 / conf.sectorsPerChunk)} :=
  (mapSector_bijOn_dataPlaces ⟨4096, 5, algorithmLeftSymmetric, 3, 4096, fun _ => ⟨none⟩⟩
    (Or.inr ⟨rfl, Or.inr (Or.inr (Or.inl rfl))⟩) (by decide) (by decide) 0 2 (by decide)).1

end JRaid5Conf

end JRaid
