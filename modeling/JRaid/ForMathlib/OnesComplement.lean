import Mathlib.Algebra.BigOperators.Group.List.Basic
import Mathlib.Data.Nat.ModEq

/-!
# Ones'-complement sums

The sum of 32-bit words in ones'-complement arithmetic: the carry out of the top bit of an
addition is added to the sum (`addCarry`). Modulo `2 ^ 32 - 1` it is the sum of the words
(`onesSum_modEq`), and of the two representatives of zero it is 0 only if all words are 0
(`onesSum_eq_zero_iff`). So two sums of words that are not all 0 agree exactly if the sums
of the words agree modulo `2 ^ 32 - 1` (`onesSum_eq_iff`).
-/

namespace OnesComplement

/-- Addition with the carry brought round. -/
def addCarry (a b : UInt32) : UInt32 := if a + b < a then a + b + 1 else a + b

/-- The sum of a list of words. -/
def onesSum (l : List UInt32) : UInt32 := l.foldl addCarry 0

/-- The sum of a list of words as a natural number. -/
def natSum (l : List UInt32) : ℕ := (l.map UInt32.toNat).sum

@[simp]
theorem natSum_nil : natSum [] = 0 := rfl

@[simp]
theorem natSum_cons (a : UInt32) (l : List UInt32) : natSum (a :: l) = a.toNat + natSum l := by
  simp [natSum]

@[simp]
theorem natSum_append (l l' : List UInt32) : natSum (l ++ l') = natSum l + natSum l' := by
  simp [natSum]

/-- The sum has no carry, or the carry is added to it. -/
private theorem toNat_addCarry (a b : UInt32) :
    (a.toNat + b.toNat < 2 ^ 32 ∧ (addCarry a b).toNat = a.toNat + b.toNat) ∨
      (2 ^ 32 ≤ a.toNat + b.toNat ∧ (addCarry a b).toNat = a.toNat + b.toNat - (2 ^ 32 - 1)) := by
  have ha := a.toNat_lt
  have hb := b.toNat_lt
  have hadd : (a + b).toNat = (a.toNat + b.toNat) % 2 ^ 32 := UInt32.toNat_add a b
  rw [addCarry]
  simp only [UInt32.lt_iff_toNat_lt, hadd]
  rcases Nat.lt_or_ge (a.toNat + b.toNat) (2 ^ 32) with hlt | hge
  · refine Or.inl ⟨hlt, ?_⟩
    rw [if_neg (by omega), hadd]
    exact Nat.mod_eq_of_lt hlt
  · refine Or.inr ⟨hge, ?_⟩
    rw [if_pos (by omega), UInt32.toNat_add, hadd, UInt32.toNat_one]
    omega

/-- Modulo `2 ^ 32 - 1` the carry does not matter. -/
theorem addCarry_modEq (a b : UInt32) :
    (addCarry a b).toNat ≡ a.toNat + b.toNat [MOD 2 ^ 32 - 1] := by
  obtain ⟨-, h⟩ | ⟨hge, h⟩ := toNat_addCarry a b
  · rw [h]
  · rw [h]
    refine (Nat.modEq_iff_dvd' (by omega)).mpr ⟨1, ?_⟩
    omega

/-- A sum is 0 only if both summands are. -/
theorem addCarry_eq_zero_iff (a b : UInt32) : addCarry a b = 0 ↔ a = 0 ∧ b = 0 := by
  simp only [← UInt32.toNat_inj, UInt32.toNat_zero]
  obtain ⟨-, h⟩ | ⟨hge, h⟩ := toNat_addCarry a b
  · omega
  · omega

private theorem foldl_addCarry_modEq (l : List UInt32) (a : UInt32) :
    (l.foldl addCarry a).toNat ≡ a.toNat + natSum l [MOD 2 ^ 32 - 1] := by
  induction l generalizing a with
  | nil => rfl
  | cons b l ih =>
    rw [List.foldl_cons, natSum_cons, ← Nat.add_assoc]
    exact (ih (addCarry a b)).trans ((addCarry_modEq a b).add_right _)

private theorem foldl_addCarry_eq_zero_iff (l : List UInt32) (a : UInt32) :
    l.foldl addCarry a = 0 ↔ a = 0 ∧ ∀ b ∈ l, b = 0 := by
  induction l generalizing a with
  | nil => simp
  | cons b l ih =>
    rw [List.foldl_cons, ih, addCarry_eq_zero_iff, and_assoc]
    simp

/-- **The sum modulo `2 ^ 32 - 1`** is that of the words. -/
theorem onesSum_modEq (l : List UInt32) : (onesSum l).toNat ≡ natSum l [MOD 2 ^ 32 - 1] := by
  have h := foldl_addCarry_modEq l 0
  rwa [UInt32.toNat_zero, Nat.zero_add] at h

/-- The sum is 0 only if all words are. -/
theorem onesSum_eq_zero_iff (l : List UInt32) : onesSum l = 0 ↔ ∀ b ∈ l, b = 0 := by
  rw [onesSum, foldl_addCarry_eq_zero_iff]
  simp

/-- **When two sums agree**, for words that are not all 0. -/
theorem onesSum_eq_iff {l l' : List UInt32} (h : ∃ b ∈ l, b ≠ 0) (h' : ∃ b ∈ l', b ≠ 0) :
    onesSum l = onesSum l' ↔ natSum l ≡ natSum l' [MOD 2 ^ 32 - 1] := by
  have pos : ∀ {l : List UInt32}, (∃ b ∈ l, b ≠ 0) → (onesSum l).toNat ≠ 0 := by
    rintro l ⟨b, hb, hne⟩ hz
    exact hne ((onesSum_eq_zero_iff l).mp (UInt32.toNat_inj.mp hz) b hb)
  have hlt := (onesSum l).toNat_lt
  have hlt' := (onesSum l').toNat_lt
  have hpos := pos h
  have hpos' := pos h'
  constructor
  · intro heq
    exact (onesSum_modEq l).symm.trans (heq ▸ onesSum_modEq l')
  · intro hmod
    have hsum := (onesSum_modEq l).trans (hmod.trans (onesSum_modEq l').symm)
    refine UInt32.toNat_inj.mp ?_
    -- both lie between 1 and `2 ^ 32 - 1`
    unfold Nat.ModEq at hsum
    omega

end OnesComplement
