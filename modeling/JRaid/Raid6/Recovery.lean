import JRaid.ForMathlib.SelfInverseFold
import Mathlib.Data.Nat.Bitwise

/-!
# Recovery with the second parity

`algorithm.c` tries out the two parities of RAID 6 over the field of 16 elements: `P` is the XOR of
the data, and `Q` the XOR of the products of the data with coefficients. A lost datum and a lost `P`
are to be recovered from `Q`.

The product of two numbers is looked up by their logarithms, which the code combines by XOR and not
by addition modulo 15. XOR undoes itself, so the quotient still gives back what has been multiplied,
unless the combined logarithm is 15: the reduction modulo 15 then makes 0 of it, and nothing is left
of the datum. So the recovery succeeds exactly if the logarithms of the lost datum and its
coefficient do not add up to 15 (`restores_iff`).
-/

namespace JRaid

namespace Raid6

/-- The arrays `log` and `alog`. -/
structure GaloisTable where
  log : List ℕ
  alog : List ℕ
  deriving DecidableEq

/-- A pass of the loop of `generate_Galois_table`. An access out of bounds yields `none`. -/
def galoisPass (t : GaloisTable) (i : ℕ) : Option GaloisTable := do
  let prev ← t.alog[i - 1]?
  let alogData := prev * 2
  let alogData := if alogData &&& 16 ≠ 0 then alogData ^^^ 19 else alogData
  if i < t.alog.length ∧ alogData < t.log.length then
    some ⟨t.log.set alogData i, t.alog.set i alogData⟩
  else none

/-- `generate_Galois_table`, from arrays of zeros. -/
def generateGaloisTable : Option GaloisTable :=
  (List.range' 1 14).foldlM galoisPass ⟨List.replicate 16 0, (List.replicate 16 0).set 0 1⟩

/-- `Galois_mutipile`. -/
def galoisMutipile (t : GaloisTable) (a b : ℕ) : Option ℕ := do
  let la ← t.log[a]?
  let lb ← t.log[b]?
  t.alog[(la ^^^ lb) % 15]?

/-- `Galois_division`. -/
def galoisDivision (t : GaloisTable) (a b : ℕ) : Option ℕ := do
  let la ← t.log[a]?
  let lb ← t.log[b]?
  t.alog[((la ^^^ lb) + 15) % 15]?

/-! ### `main` -/

variable {num : ℕ}

/-- The first loop of `main`: `P` and `Q`. -/
def parities (t : GaloisTable) (D K : Fin num → ℕ) : Option (ℕ × ℕ) :=
  (List.finRange num).foldlM (fun s i => do
    let product ← galoisMutipile t (D i) (K i)
    some (s.1 ^^^ D i, s.2 ^^^ product)) (0, 0)

/-- The second loop: the products of the others are combined in the place of the lost datum. -/
def othersPass (t : GaloisTable) (K : Fin num → ℕ) (T : Fin num) (D : Fin num → ℕ) (i : Fin num) :
    Option (Fin num → ℕ) :=
  if i = T then some D
  else do
    let product ← galoisMutipile t (D i) (K i)
    some (Function.update D T (D T ^^^ product))

/-- The recovery steps, from the data without the lost one: the data and `P`. -/
def recover (t : GaloisTable) (D K : Fin num → ℕ) (T : Fin num) (Q : ℕ) :
    Option ((Fin num → ℕ) × ℕ) := do
  let D ← (List.finRange num).foldlM (othersPass t K T) D
  let D := Function.update D T (D T ^^^ Q)
  let quotient ← galoisDivision t (D T) (K T)
  let D := Function.update D T quotient
  some (D, (List.finRange num).foldl (fun P i => P ^^^ D i) 0)

/-- `main` for the data `D`, the coefficients `K` and the lost position `T`: the original `P`, and
the data and `P` after the recovery. -/
def mainRun (D K : Fin num → ℕ) (T : Fin num) : Option (ℕ × (Fin num → ℕ) × ℕ) := do
  let t ← generateGaloisTable
  let r ← parities t D K
  let r' ← recover t (Function.update D T 0) K T r.2
  some (r.1, r'.1, r'.2)

/-- The lost datum and the lost `P` are restored. -/
def Restores (D K : Fin num → ℕ) (T : Fin num) : Prop :=
  ∃ P D' P', mainRun D K T = some (P, D', P') ∧ D' T = D T ∧ P' = P

/-! ### The tables -/

/-- The tables that `generate_Galois_table` makes. -/
def galoisTable : GaloisTable where
  log := [0, 0, 1, 4, 2, 8, 5, 10, 3, 14, 9, 7, 6, 13, 11, 12]
  alog := [1, 2, 4, 8, 3, 6, 12, 11, 5, 10, 7, 14, 15, 13, 9, 0]

theorem generateGaloisTable_eq : generateGaloisTable = some galoisTable := by decide

/-- The logarithm of a number. -/
def galoisLog (a : ℕ) : ℕ := galoisTable.log.getD a 0

/-- The product of two numbers. -/
def product (a b : ℕ) : ℕ := (galoisMutipile galoisTable a b).getD 0

theorem galoisMutipile_eq : ∀ a ≤ 15, ∀ b ≤ 15,
    galoisMutipile galoisTable a b = some (product a b) := by decide

/-- The quotient of two numbers. -/
def quotient (a b : ℕ) : ℕ := (galoisDivision galoisTable a b).getD 0

theorem galoisDivision_product : ∀ d ≤ 15, ∀ k ≤ 15,
    galoisDivision galoisTable (product d k) k = some (quotient (product d k) k) := by decide

/-- **When a quotient undoes a product.** -/
theorem quotient_product_iff : ∀ d ≤ 15, ∀ k ≤ 15, 1 ≤ d →
    (quotient (product d k) k = d ↔ galoisLog d + galoisLog k ≠ 15) := by decide

/-! ### The loops -/

/-- The data are not zero, and all numbers are below 16. -/
structure InRange (D K : Fin num → ℕ) : Prop where
  pos : ∀ i, 1 ≤ D i
  data : ∀ i, D i ≤ 15
  coeff : ∀ i, K i ≤ 15

variable {D K : Fin num → ℕ}

/-- What the first loop computes. -/
theorem parities_eq (h : InRange D K) : parities galoisTable D K = some
    ((List.finRange num).foldl (fun P i => P ^^^ D i) 0,
      (List.finRange num).foldl (fun Q i => Q ^^^ product (D i) (K i)) 0) := by
  suffices hloop : ∀ (l : List (Fin num)) (s : ℕ × ℕ), l.foldlM (fun s i => do
      let product ← galoisMutipile galoisTable (D i) (K i)
      some (s.1 ^^^ D i, s.2 ^^^ product)) s =
        some (l.foldl (fun P i => P ^^^ D i) s.1,
          l.foldl (fun Q i => Q ^^^ product (D i) (K i)) s.2) from hloop _ (0, 0)
  intro l s
  induction l generalizing s with
  | nil => rfl
  | cons i l ih =>
    rw [List.foldlM_cons, galoisMutipile_eq _ (h.data i) _ (h.coeff i)]
    exact ih _

/-- What the second loop computes in the place of the lost datum. -/
theorem others_eq (h : InRange D K) (T : Fin num) (x : ℕ) (l : List (Fin num)) :
    l.foldlM (othersPass galoisTable K T) (Function.update D T x) =
      some (Function.update D T
        (l.foldl (fun x i => if i = T then x else x ^^^ product (D i) (K i)) x)) := by
  induction l generalizing x with
  | nil => rfl
  | cons i l ih =>
    rw [List.foldlM_cons, List.foldl_cons, othersPass]
    by_cases hi : i = T
    · rw [if_pos hi, if_pos hi]
      exact ih x
    · rw [if_neg hi, if_neg hi, Function.update_of_ne hi,
        galoisMutipile_eq _ (h.data i) _ (h.coeff i), ← ih]
      simp only [Option.bind_eq_bind, Option.bind_some, Function.update_self,
        Function.update_idem]

/-- **What `main` computes** in the place of the lost datum: the quotient of its product. -/
theorem mainRun_eq (h : InRange D K) (T : Fin num) :
    let D' := Function.update D T (quotient (product (D T) (K T)) (K T))
    mainRun D K T = some ((List.finRange num).foldl (fun P i => P ^^^ D i) 0, D',
      (List.finRange num).foldl (fun P i => P ^^^ D' i) 0) := by
  have hmissing : (List.finRange num).foldl
        (fun x i => if i = T then x else x ^^^ product (D i) (K i)) 0 ^^^
      (List.finRange num).foldl (fun Q i => Q ^^^ product (D i) (K i)) 0 = product (D T) (K T) := by
    have hfold := SelfInverseFold.op_foldl_skip (fun a b : ℕ => a ^^^ b)
      Nat.xor_xor_cancel_right (fun i => product (D i) (K i)) T (List.nodup_finRange num) 0 0
    rw [if_pos (List.mem_finRange T), Nat.xor_self, Nat.zero_xor] at hfold
    exact hfold
  rw [mainRun, generateGaloisTable_eq]
  simp only [Option.bind_eq_bind, Option.bind_some, parities_eq h, recover, others_eq h,
    Function.update_self, Function.update_idem, hmissing,
    galoisDivision_product _ (h.data T) _ (h.coeff T)]

/-- If the quotient is the datum, `P` is restored with it. -/
theorem restores_of_quotient (h : InRange D K) {T : Fin num}
    (hquotient : quotient (product (D T) (K T)) (K T) = D T) : Restores D K T := by
  refine ⟨_, _, _, mainRun_eq h T, ?_, ?_⟩
  · rw [Function.update_self, hquotient]
  · rw [hquotient, Function.update_eq_self]

/-- **When the lost datum and `P` are restored**: exactly if the logarithms of the datum and its
coefficient do not add up to 15. -/
theorem restores_iff (h : InRange D K) (T : Fin num) :
    Restores D K T ↔ galoisLog (D T) + galoisLog (K T) ≠ 15 := by
  rw [← quotient_product_iff _ (h.data T) _ (h.coeff T) (h.pos T)]
  constructor
  · rintro ⟨P, D', P', hrun, hdatum, -⟩
    rw [mainRun_eq h] at hrun
    obtain ⟨-, rfl, -⟩ := by simpa using hrun
    rwa [Function.update_self] at hdatum
  · exact restores_of_quotient h

/-- Four disks, the last of which is lost, as in `main`. The last datum and coefficient are `d` and
`k`, the others 1. -/
def lastOf (x : ℕ) (i : Fin 4) : ℕ := if i = 3 then x else 1

theorem restores_iff_four :
    Restores (lastOf 2) (lastOf 4) 3 ↔ galoisLog (lastOf 2 3) + galoisLog (lastOf 4 3) ≠ 15 :=
  restores_iff ⟨by decide, by decide, by decide⟩ 3

/-- The numbers 2 and 9, with the logarithms 1 and 14: the product is 1, which divided by 9 is 9. -/
theorem not_restores_two : InRange (lastOf 2) (lastOf 9) ∧ (∀ i, 1 ≤ lastOf 9 i) ∧
    ¬ Restores (lastOf 2) (lastOf 9) 3 := by
  refine ⟨⟨by decide, by decide, by decide⟩, by decide, ?_⟩
  rintro ⟨P, D', P', hrun, hdatum, -⟩
  have hlast : (mainRun (lastOf 2) (lastOf 9) 3).map (fun r => r.2.1 3) = some 9 := by decide
  rw [hrun] at hlast
  have hnine : D' 3 = 9 := Option.some.inj hlast
  exact absurd (hnine.symm.trans hdatum) (by decide)

theorem galoisLog_lt : ∀ a ≤ 15, galoisLog a < 15 := by decide

/-- `main` itself sets the coefficient of the lost datum to 0, and does not meet the defect. -/
theorem restores_of_coeff_zero (h : InRange D K) {T : Fin num} (hT : K T = 0) :
    Restores D K T := by
  refine restores_of_quotient h ((quotient_product_iff _ (h.data T) _ (h.coeff T) (h.pos T)).mpr ?_)
  rw [hT]
  exact (galoisLog_lt _ (h.data T)).ne

end Raid6

end JRaid
