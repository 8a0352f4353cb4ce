import Mathlib.Data.List.Perm.Basic
import Mathlib.Order.CompletePartialOrder
import Mathlib.Order.Interval.Set.Disjoint

/-!
# Ordered lists of disjoint intervals

The entries of a list stand for half-open intervals. A list that is in the order of the left
ends and whose intervals are disjoint (`Laid`) takes a new entry by a walk from the left
(`place`), which looks for an overlap with one test on the entries that start before the new
one and with another test on the first entry that does not. The two tests find every overlap
(`place_eq_none_iff`), and what the walk builds is laid again (`laid_of_place`).
-/

namespace IntervalList

variable {ι α : Type*} [LinearOrder α] (lo hi : ι → α)

/-- The entries are in the order of their left ends, and their intervals are disjoint. -/
structure Laid (l : List ι) : Prop where
  sorted : l.Pairwise fun a b => lo a ≤ lo b
  disjoint : l.Pairwise fun a b => Disjoint (Set.Ico (lo a) (hi a)) (Set.Ico (lo b) (hi b))

/-- The walk that links `x` into its place, or `none` where it meets an overlap. -/
def place (x : ι) : List ι → Option (List ι)
  | [] => some [x]
  | a :: l =>
    if lo a < lo x then
      if lo x < hi a then none else (place x l).map (a :: ·)
    else if lo a < hi x then none
    else some (x :: a :: l)

variable {lo hi} {l l' : List ι} {a b x : ι}

theorem disjoint_iff (ha : lo a < hi a) (hb : lo b < hi b) :
    Disjoint (Set.Ico (lo a) (hi a)) (Set.Ico (lo b) (hi b)) ↔ hi a ≤ lo b ∨ hi b ≤ lo a := by
  rw [Set.Ico_disjoint_Ico, min_le_iff, le_max_iff, le_max_iff]
  constructor
  · rintro ((h | h) | (h | h))
    · exact absurd h (not_le_of_gt ha)
    · exact Or.inl h
    · exact Or.inr h
    · exact absurd h (not_le_of_gt hb)
  · rintro (h | h)
    · exact Or.inl (Or.inr h)
    · exact Or.inr (Or.inl h)

/-- Of two intervals in order, the second starts where the first one ends or further on. -/
theorem disjoint_iff_of_le (hle : lo a ≤ lo b) (ha : lo a < hi a) (hb : lo b < hi b) :
    Disjoint (Set.Ico (lo a) (hi a)) (Set.Ico (lo b) (hi b)) ↔ hi a ≤ lo b := by
  rw [disjoint_iff ha hb]
  exact or_iff_left fun h => not_le_of_gt hb (h.trans hle)

theorem Laid.of_cons (h : Laid lo hi (a :: l)) : Laid lo hi l :=
  ⟨h.sorted.of_cons, h.disjoint.of_cons⟩

theorem laid_cons_iff : Laid lo hi (a :: l) ↔
    (∀ b ∈ l, lo a ≤ lo b ∧ Disjoint (Set.Ico (lo a) (hi a)) (Set.Ico (lo b) (hi b))) ∧
      Laid lo hi l := by
  constructor
  · intro h
    have hs := List.pairwise_cons.mp h.sorted
    have hd := List.pairwise_cons.mp h.disjoint
    exact ⟨fun b hb => ⟨hs.1 b hb, hd.1 b hb⟩, h.of_cons⟩
  · rintro ⟨ha, hl⟩
    exact ⟨List.pairwise_cons.mpr ⟨fun b hb => (ha b hb).1, hl.sorted⟩,
      List.pairwise_cons.mpr ⟨fun b hb => (ha b hb).2, hl.disjoint⟩⟩

/-- The walk keeps the entries and adds the new one. -/
theorem perm_of_place (h : place lo hi x l = some l') : l'.Perm (x :: l) := by
  induction l generalizing l' with
  | nil =>
    obtain rfl := Option.some.inj h
    exact List.Perm.refl _
  | cons a l ih =>
    rw [place] at h
    split_ifs at h
    · obtain ⟨l₁, hl₁, rfl⟩ := Option.map_eq_some_iff.mp h
      exact ((ih hl₁).cons a).trans (List.Perm.swap x a l)
    · obtain rfl := Option.some.inj h
      exact List.Perm.refl _

/-- **The walk stops exactly at an overlap.** The entries left of the new one are tested one by
one; of those from its place on only the first is, since the others start further right. -/
theorem place_eq_none_iff (hx : lo x < hi x) (hne : ∀ b ∈ l, lo b < hi b) (h : Laid lo hi l) :
    place lo hi x l = none ↔
      ∃ b ∈ l, ¬Disjoint (Set.Ico (lo b) (hi b)) (Set.Ico (lo x) (hi x)) := by
  induction l with
  | nil => simp [place]
  | cons a l ih =>
    have ha := hne a List.mem_cons_self
    have hne' : ∀ b ∈ l, lo b < hi b := fun b hb => hne b (List.mem_cons_of_mem a hb)
    rw [place, List.exists_mem_cons_iff]
    split_ifs with hlt hleft hright
    · have : ¬Disjoint (Set.Ico (lo a) (hi a)) (Set.Ico (lo x) (hi x)) := by
        rw [disjoint_iff_of_le hlt.le ha hx]
        exact not_le_of_gt hleft
      simp [this]
    · have : Disjoint (Set.Ico (lo a) (hi a)) (Set.Ico (lo x) (hi x)) := by
        rw [disjoint_iff_of_le hlt.le ha hx]
        exact le_of_not_gt hleft
      rw [Option.map_eq_none_iff, ih hne' h.of_cons]
      simp [this]
    · have : ¬Disjoint (Set.Ico (lo a) (hi a)) (Set.Ico (lo x) (hi x)) := by
        rw [disjoint_comm, disjoint_iff_of_le (le_of_not_gt hlt) hx ha]
        exact not_le_of_gt hright
      simp [this]
    · -- the first entry from the place on is past the new one, and so are those behind it
      have hpast : ∀ b ∈ a :: l, hi x ≤ lo b := by
        intro b hb
        obtain rfl | hb := List.mem_cons.mp hb
        · exact le_of_not_gt hright
        · exact (le_of_not_gt hright).trans (((laid_cons_iff.mp h).1 b hb).1)
      have hdis : ∀ b ∈ a :: l, Disjoint (Set.Ico (lo b) (hi b)) (Set.Ico (lo x) (hi x)) :=
        fun b hb => (disjoint_iff (hne b hb) hx).mpr (Or.inr (hpast b hb))
      constructor
      · exact False.elim
      · rintro (hmeet | ⟨b, hb, hmeet⟩)
        · exact hmeet (hdis a List.mem_cons_self)
        · exact hmeet (hdis b (List.mem_cons_of_mem a hb))

/-- On an ordered list the walk keeps every relation that holds between the new entry and each
entry it is linked behind or in front of. -/
theorem pairwise_of_place {R : ι → ι → Prop} (hsort : l.Pairwise fun a b => lo a ≤ lo b)
    (h : l.Pairwise R) (hbehind : ∀ a ∈ l, lo a ≤ lo x → hi a ≤ lo x → R a x)
    (hfront : ∀ b ∈ l, lo x ≤ lo b → hi x ≤ lo b → R x b) (hl' : place lo hi x l = some l') :
    l'.Pairwise R := by
  induction l generalizing l' with
  | nil =>
    obtain rfl := Option.some.inj hl'
    exact List.pairwise_singleton _ _
  | cons a l ih =>
    obtain ⟨hsa, hsl⟩ := List.pairwise_cons.mp hsort
    obtain ⟨hra, hrl⟩ := List.pairwise_cons.mp h
    rw [place] at hl'
    split_ifs at hl' with hlt hleft hright
    · obtain ⟨l₁, hl₁, rfl⟩ := Option.map_eq_some_iff.mp hl'
      have htail := ih hsl hrl (fun b hb => hbehind b (List.mem_cons_of_mem a hb))
        (fun b hb => hfront b (List.mem_cons_of_mem a hb)) hl₁
      refine List.pairwise_cons.mpr ⟨fun b hb => ?_, htail⟩
      obtain rfl | hb := List.mem_cons.mp ((perm_of_place hl₁).mem_iff.mp hb)
      · exact hbehind a List.mem_cons_self hlt.le (le_of_not_gt hleft)
      · exact hra b hb
    · -- linked before `a`, the new entry is in front of everything from `a` on
      obtain rfl := Option.some.inj hl'
      refine List.pairwise_cons.mpr ⟨fun b hb => ?_, h⟩
      have hab : lo a ≤ lo b := by
        obtain rfl | hb := List.mem_cons.mp hb
        · exact le_rfl
        · exact hsa b hb
      exact hfront b hb ((le_of_not_gt hlt).trans hab) ((le_of_not_gt hright).trans hab)

/-- The walk keeps the order of the left ends. -/
theorem sorted_of_place (h : l.Pairwise fun a b => lo a ≤ lo b) (hl' : place lo hi x l = some l') :
    l'.Pairwise fun a b => lo a ≤ lo b :=
  pairwise_of_place h h (fun _ _ hle _ => hle) (fun _ _ hle _ => hle) hl'

/-- **The walk leaves an ordered list of disjoint intervals.** -/
theorem laid_of_place (hx : lo x < hi x) (hne : ∀ b ∈ l, lo b < hi b) (h : Laid lo hi l)
    (hl' : place lo hi x l = some l') : Laid lo hi l' where
  sorted := sorted_of_place h.sorted hl'
  disjoint := pairwise_of_place h.sorted h.disjoint
    (fun a ha hle hend => (disjoint_iff_of_le hle (hne a ha) hx).mpr hend)
    (fun b hb hle hend => (disjoint_iff_of_le hle hx (hne b hb)).mpr hend) hl'

/-! ### Sweeping -/

variable (lo hi) in

/-- How far the intervals of a list cover the line from `x` on: an entry that starts no later
than the point reached takes it to its end. The sweep stops at `e`, and before the first entry
that starts further on. -/
def sweep (e : α) : α → List ι → α
  | x, [] => x
  | x, a :: l => if x < e ∧ lo a ≤ x then sweep e (max x (hi a)) l else x

/-- **The sweep reaches `e` exactly if the intervals leave no gap before it.** -/
theorem le_sweep_iff (h : l.Pairwise fun a b => lo a ≤ lo b) (e x : α) :
    e ≤ sweep lo hi e x l ↔ Set.Ico x e ⊆ ⋃ b ∈ l, Set.Ico (lo b) (hi b) := by
  simp only [Set.subset_def, Set.mem_iUnion, Set.mem_Ico, exists_prop]
  induction l generalizing x with
  | nil =>
    refine ⟨fun hle y hy => absurd (hle.trans hy.1) (not_le_of_gt hy.2), fun hcover => ?_⟩
    by_contra hlt
    obtain ⟨b, hb, -⟩ := hcover x ⟨le_rfl, lt_of_not_ge hlt⟩
    exact List.not_mem_nil hb
  | cons a l ih =>
    obtain ⟨ha, hl⟩ := List.pairwise_cons.mp h
    rw [sweep]
    split_ifs with hstart
    · rw [ih hl]
      constructor
      · intro hcover y hy
        rcases lt_or_ge y (hi a) with hlt | hge
        · exact ⟨a, List.mem_cons_self, hstart.2.trans hy.1, hlt⟩
        · obtain ⟨b, hb, hmem⟩ := hcover y ⟨max_le hy.1 hge, hy.2⟩
          exact ⟨b, List.mem_cons_of_mem a hb, hmem⟩
      · intro hcover y hy
        obtain ⟨b, hb, hmem⟩ := hcover y ⟨(le_max_left _ _).trans hy.1, hy.2⟩
        obtain rfl | hb := List.mem_cons.mp hb
        · exact absurd hmem.2 (not_lt_of_ge ((le_max_right _ _).trans hy.1))
        · exact ⟨b, hb, hmem⟩
    · rcases lt_or_ge x e with hlt | hge
      · -- the sweep stands before a gap that begins at `x`
        have hgap : x < lo a := lt_of_not_ge fun hle => hstart ⟨hlt, hle⟩
        refine iff_of_false (not_le_of_gt hlt) fun hcover => ?_
        obtain ⟨b, hb, hmem⟩ := hcover x ⟨le_rfl, hlt⟩
        obtain rfl | hb := List.mem_cons.mp hb
        · exact not_le_of_gt hgap hmem.1
        · exact not_le_of_gt (hgap.trans_le (ha b hb)) hmem.1
      · exact iff_of_true hge fun y hy => absurd (hge.trans hy.1) (not_le_of_gt hy.2)

end IntervalList
