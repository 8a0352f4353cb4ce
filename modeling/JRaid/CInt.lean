import Mathlib.Algebra.Group.Nat.Defs

/-!
# Conversions between C integer types

The driver is compiled for a 64-bit kernel: `int` is a signed 32-bit type, `unsigned int`
an unsigned one, `unsigned long` and `sector_t` are unsigned 64-bit types. The first three
are `Int32`, `UInt32` and `UInt64`, whose operations wrap as the kernel's do
(`-fno-strict-overflow`); the two conversions between a signed 32-bit and an unsigned
64-bit operand are named here.
-/

namespace JRaid

/-- `int` converted to `unsigned long` (sign extension). -/
def ulong (x : Int32) : UInt64 := x.toInt64.toUInt64

/-- `unsigned long` converted to `int` (truncation). -/
def int32OfULong (x : UInt64) : Int32 := x.toUInt32.toInt32

theorem toNat_ulong {x : Int32} (h : 0 ≤ x) : (ulong x).toNat = x.toNatClampNeg := by
  rw [ulong, Int64.toNat_toUInt64_of_le, Int32.toNatClampNeg_toInt64]
  exact Int32.toInt64_le (a := 0) |>.mpr h

theorem toNat_toUInt32 {x : Int32} (h : 0 ≤ x) : x.toUInt32.toNat = x.toNatClampNeg :=
  Int32.toNat_toUInt32_of_le h

theorem toInt_eq_toNatClampNeg {x : Int32} (h : 0 ≤ x) : x.toInt = x.toNatClampNeg := by
  have := Int32.le_iff_toInt_le.mp h
  rw [Int32.toNatClampNeg, Int.toNat_of_nonneg this]

theorem nonneg_of_toNatClampNeg_pos {x : Int32} (h : 0 < x.toNatClampNeg) : 0 ≤ x :=
  Int32.le_of_lt ((Int32.toNatClampNeg_pos_iff x).mp h)

/-- An unsigned value below `2 ^ 31` is the same as an `int`. -/
theorem toInt_toInt32 {x : UInt32} (h : x.toNat < 2 ^ 31) : x.toInt32.toInt = x.toNat := by
  have : x.toInt32.toInt = x.toBitVec.toInt := rfl
  rw [this, BitVec.toInt_eq_toNat_of_lt (by rw [UInt32.toNat_toBitVec]; omega),
    UInt32.toNat_toBitVec]

/-- Truncation keeps the values below `2 ^ 31`. -/
theorem toInt_int32OfULong {x : UInt64} (h : x.toNat < 2 ^ 31) :
    (int32OfULong x).toInt = x.toNat := by
  have hx : x.toUInt32.toNat = x.toNat := by
    rw [UInt64.toNat_toUInt32, Nat.mod_eq_of_lt (by omega)]
  rw [int32OfULong, toInt_toInt32 (by omega), hx]

/-- Truncation makes the values from `2 ^ 31` on negative, and sign extension then fills the
upper half. -/
theorem toNat_ulong_int32OfULong {x : UInt64} (hlo : 2 ^ 31 ≤ x.toNat) (hhi : x.toNat < 2 ^ 32) :
    (ulong (int32OfULong x)).toNat = x.toNat + (2 ^ 64 - 2 ^ 32) := by
  have hx : x.toUInt32.toBitVec.toNat = x.toNat := by
    rw [UInt32.toNat_toBitVec, UInt64.toNat_toUInt32, Nat.mod_eq_of_lt hhi]
  have hmsb : x.toUInt32.toBitVec.msb = true := by
    rw [BitVec.msb_eq_true_iff_two_mul_ge, hx]
    omega
  have hval : (ulong (int32OfULong x)).toNat = (x.toUInt32.toBitVec.signExtend 64).toNat := rfl
  rw [hval, BitVec.toNat_signExtend, hmsb, BitVec.toNat_setWidth, hx, if_pos rfl,
    Nat.mod_eq_of_lt (by omega)]

/-- Truncation, for every value. -/
theorem toInt_int32OfULong_eq_bmod (x : UInt64) :
    (int32OfULong x).toInt = (x.toNat : ℤ).bmod (2 ^ 32) := by
  have h : (int32OfULong x).toInt = (x.toBitVec.setWidth 32).toInt := rfl
  rw [h, BitVec.toInt_setWidth]
  rfl

/-- Sign extension, for every value. -/
theorem toNat_ulong_eq_emod (x : Int32) : ((ulong x).toNat : ℤ) = x.toInt % (2 ^ 64 : ℕ) := by
  have h : (ulong x).toNat = (x.toBitVec.signExtend 64).toNat := rfl
  have hx : x.toInt = x.toBitVec.toInt := rfl
  rw [h, hx, ← BitVec.toInt_signExtend_of_le (v := 64) (by decide), BitVec.toInt_eq_toNat_bmod]
  have := (x.toBitVec.signExtend 64).isLt
  simp only [Int.bmod_def]
  omega

/-- Masking with the bits from `k` up to `n` rounds down to a multiple of `2 ^ k`, below
`2 ^ n`. -/
theorem land_two_pow_sub_two_pow (x : ℕ) {k n : ℕ} (h : k ≤ n) :
    x &&& (2 ^ n - 2 ^ k) = x % 2 ^ n / 2 ^ k * 2 ^ k := by
  have hmask : 2 ^ n - 2 ^ k = (2 ^ (n - k) - 1) * 2 ^ k := by
    rw [Nat.sub_mul, ← Nat.pow_add, Nat.sub_add_cancel h, Nat.one_mul]
  refine Nat.eq_of_testBit_eq fun i => ?_
  rw [Nat.testBit_and, hmask, Nat.testBit_mul_two_pow, Nat.testBit_mul_two_pow,
    Nat.testBit_two_pow_sub_one, Nat.testBit_div_two_pow, Nat.testBit_mod_two_pow]
  by_cases hk : k ≤ i
  · have hiff : i - k < n - k ↔ i < n := by omega
    simp [hk, hiff, Bool.and_comm]
  · simp [hk]

/-- An `int` that holds a natural number converts to the same `unsigned long`. -/
theorem toNat_ulong_of_toInt {x : Int32} {m : ℕ} (h : x.toInt = m) : (ulong x).toNat = m := by
  have hx : 0 ≤ x := by rw [Int32.le_iff_toInt_le, h]; exact Int.natCast_nonneg m
  rw [toNat_ulong hx, Int32.toNatClampNeg, h, Int.toNat_natCast]

theorem toNat_toUInt32_of_toInt {x : Int32} {m : ℕ} (h : x.toInt = m) : x.toUInt32.toNat = m := by
  have hx : 0 ≤ x := by rw [Int32.le_iff_toInt_le, h]; exact Int.natCast_nonneg m
  rw [toNat_toUInt32 hx, Int32.toNatClampNeg, h, Int.toNat_natCast]

end JRaid
