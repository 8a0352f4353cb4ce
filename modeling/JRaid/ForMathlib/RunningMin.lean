import Mathlib.Data.List.Defs
import Mathlib.Order.Lattice
import Mathlib.Order.MinMax

/-!
# A running minimum for which zero means unset

A program that keeps the smallest of the values it meets often starts from 0 and lets any value
replace a 0. As long as no value is 0 itself this computes the minimum
(`min?_eq_some_runningMin`); a 0 that is met is forgotten at the next value.
-/

variable {α : Type*} [LinearOrder α] [Zero α]

/-- Take a value into a running minimum. -/
def takeMin (x acc : α) : α := if acc = 0 ∨ x < acc then x else acc

/-- The running minimum of a list, whose last element is the first value met. -/
def runningMin (l : List α) : α := l.foldr takeMin 0

@[simp]
theorem runningMin_nil : runningMin ([] : List α) = 0 := rfl

@[simp]
theorem runningMin_cons (x : α) (l : List α) : runningMin (x :: l) = takeMin x (runningMin l) :=
  rfl

@[simp]
theorem takeMin_zero (x : α) : takeMin x 0 = x := if_pos (Or.inl rfl)

theorem takeMin_of_ne_zero (x : α) {acc : α} (h : acc ≠ 0) : takeMin x acc = min x acc := by
  unfold takeMin
  rcases lt_or_ge x acc with hlt | hge
  · rw [if_pos (Or.inr hlt), min_eq_left hlt.le]
  · rw [if_neg (not_or.mpr ⟨h, not_lt.mpr hge⟩), min_eq_right hge]

/-- **The running minimum of values that are not zero** is one of them, and the smallest. -/
theorem runningMin_spec {l : List α} (h : 0 ∉ l) (hne : l ≠ []) :
    runningMin l ∈ l ∧ ∀ x ∈ l, runningMin l ≤ x := by
  induction l with
  | nil => exact absurd rfl hne
  | cons x l ih =>
    have hl : 0 ∉ l := List.not_mem_of_not_mem_cons h
    rw [runningMin_cons]
    rcases eq_or_ne l [] with rfl | hl'
    · simp
    obtain ⟨hmem, hle⟩ := ih hl hl'
    have hacc : runningMin l ≠ 0 := fun h0 => hl (h0 ▸ hmem)
    rw [takeMin_of_ne_zero x hacc]
    constructor
    · rcases min_choice x (runningMin l) with hmin | hmin
      · rw [hmin]
        exact List.mem_cons_self
      · rw [hmin]
        exact List.mem_cons_of_mem x hmem
    · intro y hy
      rcases List.mem_cons.mp hy with rfl | hy
      · exact min_le_left y (runningMin l)
      · exact (min_le_right x (runningMin l)).trans (hle y hy)

theorem min?_eq_some_runningMin {l : List α} (h : 0 ∉ l) (hne : l ≠ []) :
    l.min? = some (runningMin l) :=
  List.min?_eq_some_iff.mpr (runningMin_spec h hne)

/-- A value comes into the minimum of a list, which is 0 if there is none. -/
theorem getD_min?_cons (x : α) (l : List α) :
    (x :: l).min?.getD 0 = if l = [] then x else min x (l.min?.getD 0) := by
  split
  · subst l
    rfl
  · obtain ⟨m, hm⟩ := Option.ne_none_iff_exists'.mp (mt List.min?_eq_none_iff.mp ‹_›)
    rw [List.min?_cons, hm]
    rfl
