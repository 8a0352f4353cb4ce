import JRaid.Geometry.ComputeSector
import Mathlib.Algebra.Group.Int.Defs

/-!
# The inverse of the sector map

`computeBlocknr` recovers the logical sector of a block of a cached stripe from the
stripe's sector, its parity disk and the index of the block. It undoes the shift of the
data index by a `switch` of its own, without a case for level 4, and holds the chunk
number in an `int`. As long as that `int` does not overflow, it is the two-sided inverse
of `jraid5ComputeSector`, and its own check of the result never fails.
-/

namespace JRaid

namespace JRaid5Conf

variable (conf : JRaid5Conf)

/-- The `switch` of `compute_blocknr`: from the index of a disk to the number of its data
chunk in the row. -/
def dataIndex (pdIdx i : Int32) : Int32 :=
  if conf.algorithm = algorithmLeftAsymmetric ∨ conf.algorithm = algorithmRightAsymmetric then
    if pdIdx < i then i - 1 else i
  else if conf.algorithm = algorithmLeftSymmetric ∨ conf.algorithm = algorithmRightSymmetric then
    (if i < pdIdx then i + conf.raidDisks else i) - (pdIdx + 1)
  else i

/-- `chunk_number` of `compute_blocknr`, an `int`. -/
def chunkNumber (sector : UInt64) (pdIdx i : Int32) : Int32 :=
  int32OfULong (sector / ulong (conf.chunkSize >>> 9) * ulong (conf.raidDisks - 1) +
    ulong (conf.dataIndex pdIdx i))

/-- `r_sector` of `compute_blocknr`. -/
def blocknrSector (sector : UInt64) (pdIdx i : Int32) : UInt64 :=
  ulong (conf.chunkNumber sector pdIdx i) * ulong (conf.chunkSize >>> 9) +
    ulong (int32OfULong (sector % ulong (conf.chunkSize >>> 9)))

/-- The check `compute_blocknr` makes of its result; when it fails, the function prints
"map not correct". -/
def MapCorrect (sector : UInt64) (pdIdx i : Int32) (dummy : UInt32) : Prop :=
  let check := conf.mapSector (conf.blocknrSector sector pdIdx i) dummy
  check.newSector = sector ∧ check.ddIdx.toInt32 = i ∧ check.pdIdx.toInt32 = pdIdx

instance (sector : UInt64) (pdIdx i : Int32) (dummy : UInt32) :
    Decidable (conf.MapCorrect sector pdIdx i dummy) :=
  inferInstanceAs (Decidable (_ ∧ _ ∧ _))

/-- `compute_blocknr` on a stripe with the given sector and parity disk; `dummy` is what
its uninitialised `dummy2` holds. -/
def computeBlocknr (sector : UInt64) (pdIdx i : Int32) (dummy : UInt32) : UInt64 :=
  if conf.MapCorrect sector pdIdx i dummy then conf.blocknrSector sector pdIdx i else 0

variable {conf}

/-! ### The shift is undone -/

/-- Wrapping `int` arithmetic is exact when its result is in range, even where an
intermediate sum is not. -/
private theorem toInt_add_sub {x y z : Int32} {v : ℤ} (h : x.toInt + y.toInt - z.toInt = v)
    (hlo : -2 ^ 31 ≤ v) (hhi : v < 2 ^ 31) : (x + y - z).toInt = v := by
  rw [Int32.toInt_sub, Int32.toInt_add, Int.bmod_sub_bmod, h]
  exact Int.bmod_eq_of_le (by omega) (by omega)

private theorem toInt_sub {x z : Int32} {v : ℤ} (h : x.toInt - z.toInt = v)
    (hlo : -2 ^ 31 ≤ v) (hhi : v < 2 ^ 31) : (x - z).toInt = v := by
  rw [Int32.toInt_sub, h]
  exact Int.bmod_eq_of_le (by omega) (by omega)

/-- The shift of the asymmetric layouts. -/
private theorem toInt_unskip {n p d : ℕ} {pdIdx i : Int32} (hn : n < 2 ^ 31)
    (hpd : pdIdx.toInt = p) (hi : i.toInt = d) (hd : d < n) :
    (if pdIdx < i then i - 1 else i).toInt = (if p < d then d - 1 else d : ℕ) := by
  have hiff : pdIdx < i ↔ p < d := by rw [Int32.lt_iff_toInt_lt, hpd, hi]; omega
  simp only [hiff]
  split_ifs
  · exact toInt_sub (by rw [hi]; simp only [Int32.reduceToInt]; omega) (by omega) (by omega)
  · exact hi

/-- The wrap of the symmetric layouts. -/
private theorem toInt_unwrap {n p d : ℕ} {pdIdx i raidDisks : Int32} (hn : n < 2 ^ 31)
    (hr : raidDisks.toInt = n) (hpd : pdIdx.toInt = p) (hi : i.toInt = d) (hp : p < n)
    (hd : d < n) (hne : d ≠ p) :
    ((if i < pdIdx then i + raidDisks else i) - (pdIdx + 1)).toInt =
      (if d < p then d + n - (p + 1) else d - (p + 1) : ℕ) := by
  have hiff : i < pdIdx ↔ d < p := by rw [Int32.lt_iff_toInt_lt, hpd, hi]; omega
  have hone : (pdIdx + 1).toInt = p + 1 := by
    rw [Int32.toInt_add, hpd]
    exact Int.bmod_eq_of_le (by simp only [Int32.reduceToInt]; omega)
      (by simp only [Int32.reduceToInt]; omega)
  simp only [hiff]
  split_ifs
  · exact toInt_add_sub (by rw [hi, hr, hone]; omega) (by omega) (by omega)
  · exact toInt_sub (by rw [hi, hone]; omega) (by omega) (by omega)

/-- The `switch` numbers the data chunks as the abstract layout does. On level 4 the parity
disk is the last one, and each of the four branches leaves the index alone. -/
theorem toInt_dataIndex (ha : conf.SupportedAlgorithm) (hn : 2 ≤ conf.numDisks)
    {pdIdx i : Int32} {k d : ℕ} (hpd : pdIdx.toInt = conf.parityDisk k)
    (hi : i.toInt = d) (hd : d < conf.numDisks) (hne : d ≠ conf.parityDisk k) :
    (conf.dataIndex pdIdx i).toInt = (conf.layout hn).index k d := by
  have hlt := conf.numDisks_lt
  have hplt := parityDisk_lt hn k
  have hrd : conf.raidDisks.toInt = conf.numDisks :=
    toInt_eq_toNatClampNeg (nonneg_of_toNatClampNeg_pos (by rw [numDisks] at hn; omega))
  by_cases hasym : conf.algorithm = algorithmLeftAsymmetric ∨
      conf.algorithm = algorithmRightAsymmetric
  · rw [dataIndex, if_pos hasym, layout_asymmetric hn (Or.inr hasym),
      toInt_unskip hlt hpd hi hd]
    rfl
  · have hsym : conf.algorithm = algorithmLeftSymmetric ∨
        conf.algorithm = algorithmRightSymmetric := by
      obtain h | h | h := ha
      · exact absurd (Or.inl h) hasym
      · exact absurd (Or.inr h) hasym
      · exact h
    rw [dataIndex, if_neg hasym, if_pos hsym, toInt_unwrap hlt hrd hpd hi hplt hd hne]
    by_cases h4 : conf.level = 4
    · have hp : conf.parityDisk k = conf.numDisks - 1 := if_pos h4
      rw [layout_asymmetric hn (Or.inl h4), RowLayout.skip]
      simp only
      rw [if_pos (by omega), if_neg (by omega)]
      omega
    · rw [layout_symmetric hn h4 hsym]
      rfl

/-! ### The refinement -/

theorem toInt_raidDisks (hn : 2 ≤ conf.numDisks) : conf.raidDisks.toInt = conf.numDisks :=
  toInt_eq_toNatClampNeg (nonneg_of_toNatClampNeg_pos (by rw [numDisks] at hn; omega))

/-- The sum that `chunk_number` truncates is the chunk number of the abstract layout. -/
private theorem toNat_chunkSum (ha : conf.SupportedAlgorithm) (hn : 2 ≤ conf.numDisks)
    (hc : 1 ≤ conf.sectorsPerChunk) {sector : UInt64} {pdIdx i : Int32} {d : ℕ}
    (hpd : pdIdx.toInt = conf.parityDisk (sector.toNat / conf.sectorsPerChunk))
    (hi : i.toInt = d) (hd : d < conf.numDisks)
    (hne : d ≠ conf.parityDisk (sector.toNat / conf.sectorsPerChunk))
    (hchunk : (conf.layout hn).chunk (sector.toNat / conf.sectorsPerChunk) d < 2 ^ 64) :
    (sector / ulong (conf.chunkSize >>> 9) * ulong (conf.raidDisks - 1) +
      ulong (conf.dataIndex pdIdx i)).toNat =
      (conf.layout hn).chunk (sector.toNat / conf.sectorsPerChunk) d := by
  have hidx := toNat_ulong_of_toInt (toInt_dataIndex ha hn hpd hi hd hne)
  have hn31 := conf.numDisks_lt
  have hdata : (conf.raidDisks - 1).toInt = (conf.numDisks - 1 : ℕ) :=
    toInt_sub (by rw [toInt_raidDisks hn]; simp only [Int32.reduceToInt]; omega) (by omega)
      (by omega)
  have hle : sector.toNat / conf.sectorsPerChunk * (conf.numDisks - 1) ≤
      (conf.layout hn).chunk (sector.toNat / conf.sectorsPerChunk) d := Nat.le_add_right _ _
  rw [UInt64.toNat_add, UInt64.toNat_mul, UInt64.toNat_div, toNat_sectorsPerChunk hc,
    toNat_ulong_of_toInt hdata, hidx, Nat.mod_eq_of_lt (by omega : _ * _ < 2 ^ 64)]
  exact Nat.mod_eq_of_lt hchunk

/-- `chunk_number` is the chunk number of the abstract layout when that fits in an `int`. -/
theorem toInt_chunkNumber (ha : conf.SupportedAlgorithm) (hn : 2 ≤ conf.numDisks)
    (hc : 1 ≤ conf.sectorsPerChunk) {sector : UInt64} {pdIdx i : Int32} {d : ℕ}
    (hpd : pdIdx.toInt = conf.parityDisk (sector.toNat / conf.sectorsPerChunk))
    (hi : i.toInt = d) (hd : d < conf.numDisks)
    (hne : d ≠ conf.parityDisk (sector.toNat / conf.sectorsPerChunk))
    (hchunk : (conf.layout hn).chunk (sector.toNat / conf.sectorsPerChunk) d < 2 ^ 31) :
    (conf.chunkNumber sector pdIdx i).toInt =
      (conf.layout hn).chunk (sector.toNat / conf.sectorsPerChunk) d := by
  have hsum := toNat_chunkSum ha hn hc hpd hi hd hne (lt_trans hchunk (by omega))
  rw [chunkNumber, toInt_int32OfULong (hsum.trans_lt hchunk), hsum]

/-- **`compute_blocknr` refines the inverse of the abstract layout** on chunk numbers that
fit in its `int`. -/
theorem toNat_blocknrSector (ha : conf.SupportedAlgorithm) (hn : 2 ≤ conf.numDisks)
    (hc : 1 ≤ conf.sectorsPerChunk) {sector : UInt64} {pdIdx i : Int32} {d : ℕ}
    (hpd : pdIdx.toInt = conf.parityDisk (sector.toNat / conf.sectorsPerChunk))
    (hi : i.toInt = d) (hd : d < conf.numDisks)
    (hne : d ≠ conf.parityDisk (sector.toNat / conf.sectorsPerChunk))
    (hchunk : (conf.layout hn).chunk (sector.toNat / conf.sectorsPerChunk) d < 2 ^ 31) :
    (conf.blocknrSector sector pdIdx i).toNat =
      (conf.layout hn).logical conf.sectorsPerChunk d sector.toNat := by
  have hc31 := conf.sectorsPerChunk_lt
  have holt : sector.toNat % conf.sectorsPerChunk < conf.sectorsPerChunk := Nat.mod_lt _ hc
  have hoff : (sector % ulong (conf.chunkSize >>> 9)).toNat =
      sector.toNat % conf.sectorsPerChunk := by
    rw [UInt64.toNat_mod, toNat_sectorsPerChunk hc]
  have hoff' := toNat_ulong_of_toInt (toInt_int32OfULong (by rw [hoff]; omega))
  have hmul : (conf.layout hn).chunk (sector.toNat / conf.sectorsPerChunk) d *
      conf.sectorsPerChunk < 2 ^ 31 * 2 ^ 31 := Nat.mul_lt_mul'' hchunk hc31
  rw [blocknrSector, UInt64.toNat_add, UInt64.toNat_mul,
    toNat_ulong_of_toInt (toInt_chunkNumber ha hn hc hpd hi hd hne hchunk),
    toNat_sectorsPerChunk hc, hoff', hoff, RowLayout.logical,
    Nat.mod_eq_of_lt (by omega : _ * _ < 2 ^ 64)]
  exact Nat.mod_eq_of_lt (by omega)

/-! ### The two round trips -/

/-- From a data place whose chunk number fits in an `int`, `compute_blocknr` finds a
logical sector that maps back to the place, and its check accepts it. -/
theorem mapSector_computeBlocknr (hl : conf.level = 4 ∨ conf.level = 5)
    (ha : conf.SupportedAlgorithm) (hn : 2 ≤ conf.numDisks) (hc : 1 ≤ conf.sectorsPerChunk)
    (dummy pd : UInt32) {sector : UInt64} {pdIdx i : Int32} {d : ℕ}
    (hpd : pdIdx.toInt = conf.parityDisk (sector.toNat / conf.sectorsPerChunk))
    (hi : i.toInt = d) (hd : d < conf.numDisks)
    (hne : d ≠ conf.parityDisk (sector.toNat / conf.sectorsPerChunk))
    (hchunk : (conf.layout hn).chunk (sector.toNat / conf.sectorsPerChunk) d < 2 ^ 31) :
    conf.mapSector (conf.computeBlocknr sector pdIdx i dummy) pd =
        ⟨sector, i.toUInt32, pdIdx.toUInt32⟩ ∧
      conf.MapCorrect sector pdIdx i dummy := by
  have hls : conf.SupportedLayout := hl.imp id fun h => ⟨h, ha⟩
  have hr := toNat_blocknrSector ha hn hc hpd hi hd hne hchunk
  have hmap : ∀ pd, conf.mapSector (conf.blocknrSector sector pdIdx i) pd =
      ⟨sector, i.toUInt32, pdIdx.toUInt32⟩ := by
    intro pd
    obtain ⟨hdd, hnew, hpar⟩ := toNat_mapSector hls hn hc (conf.blocknrSector sector pdIdx i) pd
    rw [hr, RowLayout.place_logical hc hd (by rwa [layout_parity])] at hdd hnew
    rw [hnew] at hpar
    refine Place.ext (UInt64.toNat_inj.mp hnew) (UInt32.toNat_inj.mp ?_) (UInt32.toNat_inj.mp ?_)
    · rw [hdd, toNat_toUInt32_of_toInt hi]
    · rw [hpar, toNat_toUInt32_of_toInt hpd]
  have hcorrect : conf.MapCorrect sector pdIdx i dummy := by
    rw [MapCorrect, hmap]
    exact ⟨rfl, Int32.toInt32_toUInt32 i, Int32.toInt32_toUInt32 pdIdx⟩
  rw [computeBlocknr, if_pos hcorrect]
  exact ⟨hmap pd, hcorrect⟩

/-- From a data place whose chunk number overflows the `int` once, `compute_blocknr` never finds
the logical sector that maps to the place. -/
theorem mapSector_computeBlocknr_ne (hl : conf.SupportedLayout) (ha : conf.SupportedAlgorithm)
    (hn : 2 ≤ conf.numDisks) (hc : 1 ≤ conf.sectorsPerChunk)
    (dummy pd : UInt32) {sector : UInt64} {pdIdx i : Int32} {d : ℕ}
    (hpd : pdIdx.toInt = conf.parityDisk (sector.toNat / conf.sectorsPerChunk))
    (hi : i.toInt = d) (hd : d < conf.numDisks)
    (hne : d ≠ conf.parityDisk (sector.toNat / conf.sectorsPerChunk))
    (hlo : 2 ^ 31 ≤ (conf.layout hn).chunk (sector.toNat / conf.sectorsPerChunk) d)
    (hhi : (conf.layout hn).chunk (sector.toNat / conf.sectorsPerChunk) d < 2 ^ 32) :
    ¬((conf.mapSector (conf.computeBlocknr sector pdIdx i dummy) pd).newSector = sector ∧
      (conf.mapSector (conf.computeBlocknr sector pdIdx i dummy) pd).ddIdx.toNat = d) := by
  rintro ⟨hsector, hdisk⟩
  set k := (conf.layout hn).chunk (sector.toNat / conf.sectorsPerChunk) d with hk
  have hc31 := conf.sectorsPerChunk_lt
  have holt : sector.toNat % conf.sectorsPerChunk < conf.sectorsPerChunk := Nat.mod_lt _ hc
  -- the only logical sector that maps to the place
  have hback : (conf.computeBlocknr sector pdIdx i dummy).toNat =
      k * conf.sectorsPerChunk + sector.toNat % conf.sectorsPerChunk := by
    obtain ⟨hdd, hnew, -⟩ := toNat_mapSector hl hn hc (conf.computeBlocknr sector pdIdx i dummy) pd
    have hlogical := RowLayout.logical_place (L := conf.layout hn) hn hc
      (conf.computeBlocknr sector pdIdx i dummy).toNat
    rw [← hdd, ← hnew, hsector, hdisk] at hlogical
    exact hlogical.symm
  have hmul : k * conf.sectorsPerChunk < 2 ^ 32 * 2 ^ 31 := Nat.mul_lt_mul'' hhi hc31
  have hpos : 0 < k * conf.sectorsPerChunk := Nat.mul_pos (by omega) hc
  rw [computeBlocknr] at hback
  split_ifs at hback
  · have hsum := toNat_chunkSum ha hn hc hpd hi hd hne (by omega)
    have hneg := toNat_ulong_int32OfULong (hlo.trans_eq hsum.symm) (hsum.trans_lt hhi)
    have hoff : (ulong (int32OfULong (sector % ulong (conf.chunkSize >>> 9)))).toNat =
        sector.toNat % conf.sectorsPerChunk := by
      rw [toNat_ulong_of_toInt (toInt_int32OfULong _), UInt64.toNat_mod, toNat_sectorsPerChunk hc]
      rw [UInt64.toNat_mod, toNat_sectorsPerChunk hc]
      omega
    rw [blocknrSector, UInt64.toNat_add, UInt64.toNat_mul, toNat_sectorsPerChunk hc, hoff,
      chunkNumber, hneg, hsum, ← hk, Nat.add_mul] at hback
    -- the two differ by `2 ^ 32` chunks, which is no multiple of `2 ^ 64`
    omega
  · simp only [UInt64.toNat_zero] at hback
    omega

/-- **`compute_blocknr` is the two-sided inverse of `jraid5_compute_sector`** on chunk
numbers that fit in an `int`, and never takes its "map not correct" exit there. -/
theorem computeBlocknr_inverse (conf : JRaid5Conf) (hl : conf.level = 4 ∨ conf.level = 5)
    (ha : conf.SupportedAlgorithm) (hn : 2 ≤ conf.numDisks) (hc : 1 ≤ conf.sectorsPerChunk)
    (dummy pd : UInt32) :
    (∀ r : UInt64, r.toNat / conf.sectorsPerChunk < 2 ^ 31 →
      let p := conf.mapSector r pd
      conf.computeBlocknr p.newSector p.pdIdx.toInt32 p.ddIdx.toInt32 dummy = r) ∧
    (∀ (sector : UInt64) (pdIdx i : Int32),
      pdIdx.toInt = conf.parityDisk (sector.toNat / conf.sectorsPerChunk) →
      0 ≤ i.toInt → i.toInt < conf.numDisks → i ≠ pdIdx →
      (conf.layout hn).chunk (sector.toNat / conf.sectorsPerChunk) i.toInt.toNat < 2 ^ 31 →
      conf.mapSector (conf.computeBlocknr sector pdIdx i dummy) pd =
          ⟨sector, i.toUInt32, pdIdx.toUInt32⟩ ∧
        conf.MapCorrect sector pdIdx i dummy) := by
  have hls : conf.SupportedLayout := hl.imp id fun h => ⟨h, ha⟩
  have hn31 := conf.numDisks_lt
  constructor
  · intro r hr
    dsimp only
    obtain ⟨hdd, hnew, hpar⟩ := toNat_mapSector hls hn hc r pd
    have hlt := RowLayout.place_lt (L := conf.layout hn) (c := conf.sectorsPerChunk) hn r.toNat
    have hplt := parityDisk_lt hn ((conf.mapSector r pd).newSector.toNat / conf.sectorsPerChunk)
    have hi : (conf.mapSector r pd).ddIdx.toInt32.toInt =
        (((conf.layout hn).place conf.sectorsPerChunk r.toNat).1 : ℕ) := by
      rw [toInt_toInt32 (by rw [hdd]; omega), hdd]
    have hpd : (conf.mapSector r pd).pdIdx.toInt32.toInt =
        (conf.parityDisk ((conf.mapSector r pd).newSector.toNat / conf.sectorsPerChunk) : ℕ) := by
      rw [toInt_toInt32 (by rw [hpar]; omega), hpar]
    have hne : ((conf.layout hn).place conf.sectorsPerChunk r.toNat).1 ≠
        conf.parityDisk ((conf.mapSector r pd).newSector.toNat / conf.sectorsPerChunk) := by
      have := RowLayout.place_ne_parity (L := conf.layout hn) hn hc r.toNat
      rwa [layout_parity, ← hnew] at this
    have hchunk : (conf.layout hn).chunk
        ((conf.mapSector r pd).newSector.toNat / conf.sectorsPerChunk)
        ((conf.layout hn).place conf.sectorsPerChunk r.toNat).1 =
        r.toNat / conf.sectorsPerChunk := by
      rw [hnew]
      exact RowLayout.chunk_place hn hc r.toNat
    have hback := toNat_blocknrSector ha hn hc hpd hi hlt hne (hchunk.trans_lt hr)
    have hok := (mapSector_computeBlocknr hl ha hn hc dummy pd hpd hi hlt hne
      (hchunk.trans_lt hr)).2
    rw [computeBlocknr, if_pos hok]
    refine UInt64.toNat_inj.mp (hback.trans ?_)
    rw [hnew]
    exact RowLayout.logical_place hn hc r.toNat
  · intro sector pdIdx i hpd h0 hlt hne hchunk
    refine mapSector_computeBlocknr hl ha hn hc dummy pd hpd (Int.toNat_of_nonneg h0).symm
      (by omega) (fun h => hne (Int32.toInt_inj.mp ?_)) hchunk
    rw [hpd, ← h, Int.toNat_of_nonneg h0]

/-- Both round trips on a right-asymmetric array of four disks: logical sector 100, and
sector 9 of disk 2 in a row whose parity is on disk 1. -/
theorem computeBlocknr_inverse_four :
    let conf : JRaid5Conf := ⟨4096, 5, algorithmRightAsymmetric, 4, 4096, fun _ => ⟨none⟩⟩
    conf.computeBlocknr (conf.mapSector 100 0).newSector (conf.mapSector 100 0).pdIdx.toInt32
        (conf.mapSector 100 0).ddIdx.toInt32 0 = 100 ∧
      conf.mapSector (conf.computeBlocknr 9 1 2 0) 0 = ⟨9, 2, 1⟩ := by
  have h := computeBlocknr_inverse
    ⟨4096, 5, algorithmRightAsymmetric, 4, 4096, fun _ => ⟨none⟩⟩ (Or.inr rfl)
    (Or.inr (Or.inl rfl)) (by decide) (by decide) 0 0
  exact ⟨h.1 100 (by decide),
    (h.2 9 1 2 (by decide) (by decide) (by decide) (by decide) (by decide)).1⟩

end JRaid5Conf

end JRaid
