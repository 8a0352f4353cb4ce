import Mathlib.Data.List.Nodup
import Mathlib.Tactic.SplitIfs

/-!
# Folds of an operation that undoes itself

A commutative operation such as XOR that undoes itself: to combine with `x` twice changes nothing.
If one entry of a list has been left out of a fold, the fold of the others and the fold of all make
up the missing entry (`op_foldl_skip`, `op_foldl_eraseIdx`). This is how a parity brings back what
has been lost.
-/

namespace SelfInverseFold

variable {α ι : Type*} (op : α → α → α) [Std.Associative op] [Std.Commutative op]

/-- Something that is combined with both sides cancels. -/
theorem op_op_cancel (hcancel : ∀ a x, op (op a x) x = a) (a b x : α) :
    op (op a x) (op b x) = op a b := by
  calc op (op a x) (op b x) = op (op (op a b) x) x := by ac_rfl
    _ = op a b := hcancel _ x

variable [DecidableEq ι]

/-- **The missing entry.** The fold that leaves out `t` and the fold of everything differ by the
entry at `t`. -/
theorem op_foldl_skip (hcancel : ∀ a x, op (op a x) x = a) (f : ι → α) (t : ι) {l : List ι}
    (hnodup : l.Nodup) (a b : α) :
    op (l.foldl (fun a i => if i = t then a else op a (f i)) a)
        (l.foldl (fun a i => op a (f i)) b) =
      if t ∈ l then op (op a b) (f t) else op a b := by
  induction l generalizing a b with
  | nil => rfl
  | cons i l ih =>
    obtain ⟨hi, hnodup⟩ := List.nodup_cons.mp hnodup
    rw [List.foldl_cons, List.foldl_cons]
    by_cases hit : i = t
    · subst hit
      rw [if_pos rfl, ih hnodup, if_neg hi, if_pos List.mem_cons_self]
      ac_rfl
    · rw [if_neg hit, ih hnodup, op_op_cancel op hcancel]
      simp only [List.mem_cons, Ne.symm hit, false_or]

/-- A fold from somewhere else. -/
theorem foldl_op (a b : α) (l : List α) : l.foldl op (op a b) = op (l.foldl op a) b := by
  rw [@Std.Commutative.comm _ op _ a b, List.foldl_assoc]
  exact Std.Commutative.comm _ _

/-- An entry that is left out of a fold can be combined with it afterwards. -/
theorem op_foldl_eraseIdx {x : α} {t : ℕ} {l : List α} (h : l[t]? = some x) (a : α) :
    op ((l.eraseIdx t).foldl op a) x = l.foldl op a := by
  induction l generalizing t a with
  | nil => cases h
  | cons y l ih =>
    cases t with
    | zero =>
      obtain rfl : y = x := by simpa using h
      exact (foldl_op op a y l).symm
    | succ t => exact ih (by simpa using h) (op a y)

end SelfInverseFold
