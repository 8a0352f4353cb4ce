import Mathlib.Data.List.Basic
import Mathlib.Data.List.Nodup
import Mathlib.Logic.Function.Basic

/-!
# Circular lists

A doubly linked list in the style of the Linux `list_head`: the list is a ring of nodes one of
which, the head, stands for no element. `NodeRing m head l` says that the pointers `m` lead from the
head through the nodes of `l` in their order and back to the head, and the same way backwards. It is
stated for the places between two neighbours (`NodeRing.link`): wherever the list is split in two,
the last node before the place and the first node behind it point at each other, and the head is
both where there is none.

A node is linked in behind another one (`Links.linkAfter`). It is taken out by its neighbours
(`Links.unlink`), which leaves its own pointers as they are.
-/

/-- The pointers of the nodes. -/
@[ext]
structure Links (ν : Type*) where
  next : ν → ν
  prev : ν → ν

namespace Links

variable {ν : Type*} [DecidableEq ν]

/-- Link `x` in behind `a`. -/
def linkAfter (m : Links ν) (a x : ν) : Links ν where
  next := Function.update (Function.update m.next x (m.next a)) a x
  prev := Function.update (Function.update m.prev (m.next a) x) x a

/-- Take `x` out: its neighbours point at each other. -/
def unlink (m : Links ν) (x : ν) : Links ν where
  next := Function.update m.next (m.prev x) (m.next x)
  prev := Function.update m.prev (m.next x) (m.prev x)

/-- Set the pointers of `x` itself. -/
def setNode (m : Links ν) (x n p : ν) : Links ν where
  next := Function.update m.next x n
  prev := Function.update m.prev x p

theorem setNode_setNode (m : Links ν) (x n p n' p' : ν) :
    (m.setNode x n p).setNode x n' p' = m.setNode x n' p' := by
  simp only [setNode, Function.update_idem]

end Links

/-- The pointers lead from the head through the nodes of the list and back, in both directions. -/
structure NodeRing {ν : Type*} (m : Links ν) (head : ν) (l : List ν) : Prop where
  link : ∀ l₁ l₂, l = l₁ ++ l₂ →
    m.next (l₁.getLastD head) = l₂.headD head ∧ m.prev (l₂.headD head) = l₁.getLastD head
  nodup : (head :: l).Nodup

namespace NodeRing

variable {ν : Type*} {m m' : Links ν} {head x : ν} {l l₁ l₂ : List ν}

theorem headD_mem (l : List ν) (head : ν) : l.headD head ∈ head :: l := by
  cases l with
  | nil => exact List.mem_cons_self
  | cons a l => exact List.mem_cons_of_mem _ List.mem_cons_self

theorem getLastD_append_cons (l₁ l₂ : List ν) (x head : ν) :
    (l₁ ++ x :: l₂).getLastD head = l₂.getLastD x := by
  simp only [List.getLastD_eq_getLast?, List.getLast?_append, List.getLast?_cons,
    Option.some_or, Option.getD_some]

/-- Different places have different nodes before them. -/
theorem getLastD_ne (h : (head :: (l₁ ++ x :: l₂)).Nodup) :
    l₁.getLastD head ≠ (l₁ ++ x :: l₂).getLastD head := by
  have hapart := (List.nodup_append.mp (show (head :: l₁ ++ x :: l₂).Nodup from h)).2.2
  rw [getLastD_append_cons]
  exact hapart _ List.getLastD_mem_cons _ List.getLastD_mem_cons

/-- Different places have different nodes behind them. -/
theorem headD_ne (h : (head :: (x :: l₁ ++ l₂)).Nodup) : l₂.headD head ≠ x := by
  obtain ⟨hhead, hnodup⟩ := List.nodup_cons.mp h
  rcases List.mem_cons.mp (headD_mem l₂ head) with hhd | hmem
  · rw [hhd]
    exact fun heq => hhead (heq ▸ List.mem_cons_self)
  · exact fun heq => (List.nodup_cons.mp hnodup).1 (heq ▸ List.mem_append_right l₁ hmem)

/-- The head is not one of its nodes. -/
theorem head_notMem (h : NodeRing m head l) : head ∉ l := (List.nodup_cons.mp h.nodup).1

/-- The first node. -/
theorem next_head (h : NodeRing m head l) : m.next head = l.headD head := (h.link [] l rfl).1

/-- The node behind a node. -/
theorem next_eq (h : NodeRing m head (l₁ ++ x :: l₂)) : m.next x = l₂.headD head := by
  have := (h.link (l₁ ++ [x]) l₂ (by simp)).1
  rwa [List.getLastD_concat] at this

/-- The node before a node. -/
theorem prev_eq (h : NodeRing m head (l₁ ++ x :: l₂)) : m.prev x = l₁.getLastD head :=
  (h.link l₁ (x :: l₂) rfl).2

/-- The node behind a place points back over it. -/
theorem prev_headD (h : NodeRing m head (l₁ ++ l₂)) : m.prev (l₂.headD head) = l₁.getLastD head :=
  (h.link l₁ l₂ rfl).2

/-- A ring reads the pointers of its own nodes only. -/
theorem congr (h : NodeRing m head l)
    (hsame : ∀ y ∈ head :: l, m'.next y = m.next y ∧ m'.prev y = m.prev y) :
    NodeRing m' head l where
  link l₁ l₂ hl := by
    have hlast : l₁.getLastD head ∈ head :: l :=
      List.cons_subset_cons head (hl ▸ List.subset_append_left l₁ l₂) List.getLastD_mem_cons
    have hfirst : l₂.headD head ∈ head :: l :=
      List.cons_subset_cons head (hl ▸ List.subset_append_right l₁ l₂) (headD_mem l₂ head)
    rw [(hsame _ hlast).1, (hsame _ hfirst).2]
    exact h.link l₁ l₂ hl
  nodup := h.nodup

variable [DecidableEq ν]

/-- A head that points at itself. -/
theorem nil (m : Links ν) (head : ν) : NodeRing (m.setNode head head head) head [] where
  link l₁ l₂ hl := by
    obtain ⟨rfl, rfl⟩ := List.append_eq_nil_iff.mp hl.symm
    exact ⟨Function.update_self .., Function.update_self ..⟩
  nodup := List.nodup_singleton head

/-- **Linking a node in** behind the head puts it in front of the others. -/
theorem linkAfter (h : NodeRing m head l) (hx : x ∉ head :: l) :
    NodeRing (m.linkAfter head x) head (x :: l) where
  link a b hab := by
    have hhead : x ≠ head := fun hxh => hx (hxh ▸ List.mem_cons_self)
    have hl : ∀ y ∈ l, y ≠ x := fun y hy hyx => hx (hyx ▸ List.mem_cons_of_mem _ hy)
    have hfirst : ∀ b, b ⊆ l → b.headD head ≠ x := fun b hb hbx => by
      rcases List.mem_cons.mp (headD_mem b head) with hhd | hmem
      · exact hhead (hbx.symm.trans hhd)
      · exact hl _ (hb hmem) hbx
    rw [Links.linkAfter, h.next_head]
    dsimp only
    cases a with
    | nil =>
      obtain rfl : x :: l = b := hab
      exact ⟨Function.update_self .., Function.update_self ..⟩
    | cons y a =>
      obtain ⟨rfl, hsplit⟩ := List.cons.inj hab
      obtain rfl : l = a ++ b := hsplit
      rw [List.getLastD_cons]
      cases a with
      | nil =>
        rw [List.nil_append] at hfirst ⊢
        rw [List.getLastD_nil, Function.update_of_ne hhead, Function.update_self,
          Function.update_of_ne (hfirst b (List.Subset.refl b)), Function.update_self]
        exact ⟨rfl, rfl⟩
      | cons y a =>
        -- a place between two of the others
        have hmem : a.getLastD y ∈ y :: a ++ b :=
          List.mem_append_left b List.getLastD_mem_cons
        have hlast : a.getLastD y ≠ head := fun heq => h.head_notMem (heq ▸ hmem)
        have hy : b.headD head ≠ y := headD_ne h.nodup
        have hlink := h.link (y :: a) b rfl
        rw [List.getLastD_cons] at hlink ⊢
        rw [Function.update_of_ne hlast, Function.update_of_ne (hl _ hmem),
          Function.update_of_ne (hfirst b (List.subset_append_right _ b)), List.cons_append,
          List.headD_cons, Function.update_of_ne hy]
        exact hlink
  nodup := by
    obtain ⟨hhead, hl⟩ := not_or.mp (mt List.mem_cons.mpr hx)
    obtain ⟨hnot, hnodup⟩ := List.nodup_cons.mp h.nodup
    refine List.nodup_cons.mpr ⟨?_, List.nodup_cons.mpr ⟨hl, hnodup⟩⟩
    exact fun hmem => (List.mem_cons.mp hmem).elim (fun heq => hhead heq.symm) hnot

/-- The pointers of a node outside do not matter. -/
theorem setNode (h : NodeRing m head l) (hx : x ∉ head :: l) (n p : ν) :
    NodeRing (m.setNode x n p) head l :=
  h.congr fun y hy =>
    have hyx : y ≠ x := fun hyx => hx (hyx ▸ hy)
    ⟨Function.update_of_ne hyx .., Function.update_of_ne hyx ..⟩

/-- **Taking a node out** leaves the ring of the others. -/
theorem unlink (h : NodeRing m head (l₁ ++ x :: l₂)) : NodeRing (m.unlink x) head (l₁ ++ l₂) where
  link a b hab := by
    have hnext : (m.unlink x).next = Function.update m.next (l₁.getLastD head) (l₂.headD head) := by
      rw [Links.unlink, h.next_eq, h.prev_eq]
    have hprev : (m.unlink x).prev = Function.update m.prev (l₂.headD head) (l₁.getLastD head) := by
      rw [Links.unlink, h.next_eq, h.prev_eq]
    rw [hnext, hprev]
    obtain ⟨c, rfl, rfl⟩ | ⟨c, rfl, rfl⟩ := List.append_eq_append_iff.mp hab
    · cases c with
      | nil =>
        rw [List.append_nil, List.nil_append]
        exact ⟨Function.update_self .., Function.update_self ..⟩
      | cons y c =>
        -- a place behind the node, and not the one next to it
        have hlast := (getLastD_ne (h.nodup.sublist (by simp)) :
          l₁.getLastD head ≠ (l₁ ++ y :: c).getLastD head).symm
        have hnodup : (head :: (y :: c ++ b)).Nodup := h.nodup.sublist (by simp)
        have hfirst := headD_ne hnodup
        have hlink := h.link (l₁ ++ x :: y :: c) b (by simp)
        rw [getLastD_append_cons, List.getLastD_cons] at hlink
        rw [Function.update_of_ne hlast, List.cons_append, List.headD_cons,
          Function.update_of_ne hfirst, getLastD_append_cons]
        exact hlink
    · cases c with
      | nil =>
        rw [List.append_nil, List.nil_append]
        exact ⟨Function.update_self .., Function.update_self ..⟩
      | cons y c =>
        -- a place before the node, and not the one next to it
        have hlast : a.getLastD head ≠ (a ++ y :: c).getLastD head :=
          getLastD_ne (h.nodup.sublist (by simp))
        have hnodup : (head :: (y :: c ++ l₂)).Nodup := h.nodup.sublist (by simp)
        have hfirst := (headD_ne hnodup).symm
        have hlink := h.link a (y :: c ++ x :: l₂) (by simp)
        rw [List.cons_append, List.headD_cons] at hlink
        rw [Function.update_of_ne hlast, List.cons_append, List.headD_cons,
          Function.update_of_ne hfirst]
        exact hlink
  nodup := h.nodup.sublist (by simp)

end NodeRing
