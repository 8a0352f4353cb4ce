import Mathlib.Algebra.Order.SuccPred
import Mathlib.Data.Finset.Sort

/-!
# Walking over a finite set in order

`s.sortedFrom pos` lists the elements of a finite set from `pos` on, in increasing order. A walk
over the set that goes on behind the last element it has come to (`sortedFrom_split`) misses nothing
and comes to nothing twice, wherever it pauses; what it has not come to lies behind that element
(`add_one_le_of_sortedFrom`).
-/

namespace Finset

variable {κ : Type*} [LinearOrder κ] {s t : Finset κ} {pos i : κ} {l l₁ l₂ : List κ}

/-- The elements from `pos` on, in increasing order. -/
def sortedFrom (s : Finset κ) (pos : κ) : List κ := (s.filter (pos ≤ ·)).sort (· ≤ ·)

theorem mem_sortedFrom : i ∈ s.sortedFrom pos ↔ i ∈ s ∧ pos ≤ i := by
  rw [sortedFrom, mem_sort, mem_filter]

theorem pairwise_sortedFrom (s : Finset κ) (pos : κ) : (s.sortedFrom pos).Pairwise (· < ·) :=
  (sortedLT_sort _).pairwise

/-- There is only one such list. -/
theorem eq_sortedFrom (hl : l.Pairwise (· < ·)) (h : ∀ i, i ∈ l ↔ i ∈ s ∧ pos ≤ i) :
    l = s.sortedFrom pos :=
  hl.eq_of_mem_iff (pairwise_sortedFrom s pos) fun i => (h i).trans mem_sortedFrom.symm

/-- A walk that begins before all elements comes to all of them. -/
theorem length_sortedFrom (h : ∀ i ∈ s, pos ≤ i) : (s.sortedFrom pos).length = s.card := by
  rw [sortedFrom, length_sort, filter_true_of_mem h]

variable [Add κ] [One κ] [SuccAddOrder κ] [NoMaxOrder κ]

/-- **Going on behind an element**: what is left of the walk is the walk from there. -/
theorem sortedFrom_split (h : s.sortedFrom pos = l₁ ++ i :: l₂) : l₂ = s.sortedFrom (i + 1) := by
  have hsorted := h ▸ pairwise_sortedFrom s pos
  obtain ⟨-, htail, hbefore⟩ := List.pairwise_append.mp hsorted
  obtain ⟨hi, hl₂⟩ := List.pairwise_cons.mp htail
  refine eq_sortedFrom hl₂ fun j => ?_
  have hmem : j ∈ l₁ ++ i :: l₂ ↔ j ∈ s ∧ pos ≤ j := h ▸ mem_sortedFrom
  rw [Order.add_one_le_iff]
  constructor
  · intro hj
    exact ⟨(hmem.mp (List.mem_append_right _ (List.mem_cons_of_mem _ hj))).1, hi j hj⟩
  · rintro ⟨hjs, hij⟩
    have hpos : pos ≤ i :=
      (mem_sortedFrom.mp (h ▸ List.mem_append_right l₁ List.mem_cons_self)).2
    rcases List.mem_append.mp (hmem.mpr ⟨hjs, hpos.trans hij.le⟩) with hj | hj
    · exact absurd hij (hbefore j hj i List.mem_cons_self).asymm
    · exact (List.mem_cons.mp hj).resolve_left hij.ne'

/-- What the walk has not come to by then lies behind. -/
theorem add_one_le_of_sortedFrom (h : s.sortedFrom pos = l₁ ++ i :: l₂) {j : κ} (hj : j ∈ s)
    (hpos : pos ≤ j) (hnew : j ∉ l₁ ++ [i]) : i + 1 ≤ j := by
  have hmem : j ∈ (l₁ ++ [i]) ++ l₂ := by
    rw [List.append_assoc, List.singleton_append, ← h]
    exact mem_sortedFrom.mpr ⟨hj, hpos⟩
  have hrest : j ∈ l₂ := (List.mem_append.mp hmem).resolve_left hnew
  exact (mem_sortedFrom.mp (sortedFrom_split h ▸ hrest)).2

end Finset
