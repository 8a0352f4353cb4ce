import Mathlib.Data.Fintype.Card
import Mathlib.Algebra.BigOperators.Group.Finset.Basic
import Mathlib.Algebra.BigOperators.Group.Finset.Piecewise

/-!
# Pools of reference-counted objects

A `RefPool` manages a fixed set of objects by reference counts. An object that nobody
refers to is on one of two lists: the work list if it is marked, the free list if it is
not; a counter keeps the number of objects that are not free. `RefPool.Wf refs p` states
this for the true number of references `refs`, and every operation of a pool preserves it:
dropping a reference (`put`), taking another one (`hold`), taking one to an object found
otherwise (`claim`), taking the first object of either list (`takeFree`, `takeWork`) and
marking an object that is referred to (`mark`).

The references are often held by a finite family of owners, one object at most for each;
`card_filter_update` counts them after one owner has moved on.
-/

/-! ### Counting owners -/

/-- Changing one value of a function changes the number of points that satisfy a predicate
by the old and the new value there. -/
theorem card_filter_update {τ α : Type*} [Fintype τ] [DecidableEq τ] (f : τ → α) (t : τ) (v : α)
    (p : α → Prop) [DecidablePred p] :
    (Finset.univ.filter fun u => p (Function.update f t v u)).card + (if p (f t) then 1 else 0) =
      (Finset.univ.filter fun u => p (f u)).card + if p v then 1 else 0 := by
  simp only [Finset.card_filter]
  rw [← Finset.add_sum_erase _ _ (Finset.mem_univ t), ← Finset.add_sum_erase _
    (fun u => if p (f u) then 1 else 0) (Finset.mem_univ t), Function.update_self]
  have hrest : ∑ u ∈ Finset.univ.erase t, (if p (Function.update f t v u) then 1 else 0) =
      ∑ u ∈ Finset.univ.erase t, if p (f u) then 1 else 0 :=
    Finset.sum_congr rfl fun u hu => by rw [Function.update_of_ne (Finset.ne_of_mem_erase hu)]
  rw [hrest]
  omega

/-! ### Pools -/

/-- The bookkeeping of a pool of objects. -/
@[ext]
structure RefPool (α : Type*) where
  /-- the reference counts -/
  count : α → ℤ
  /-- the marks -/
  marked : α → Bool
  /-- the unmarked objects that nobody refers to -/
  free : List α
  /-- the marked objects that nobody refers to -/
  work : List α
  /-- the number of objects that are not free -/
  live : ℤ

namespace RefPool

variable {α : Type*}

/-- A pool is well formed for the numbers `refs` of references that are really held. -/
structure Wf [Fintype α] (refs : α → ℕ) (p : RefPool α) : Prop where
  count_eq : ∀ x, p.count x = refs x
  free_nodup : p.free.Nodup
  work_nodup : p.work.Nodup
  mem_free : ∀ x, x ∈ p.free ↔ refs x = 0 ∧ p.marked x = false
  mem_work : ∀ x, x ∈ p.work ↔ refs x = 0 ∧ p.marked x = true
  live_eq : p.live + p.free.length = Fintype.card α

namespace Wf

variable [Fintype α] {refs refs' : α → ℕ} {p : RefPool α}

theorem congr (h : p.Wf refs) (he : ∀ x, refs' x = refs x) : p.Wf refs' := by
  obtain rfl : refs' = refs := funext he
  exact h

theorem not_mem_of_refs (h : p.Wf refs) {x : α} (hx : refs x ≠ 0) : x ∉ p.free ∧ x ∉ p.work :=
  ⟨fun hf => hx ((h.mem_free x).mp hf).1, fun hw => hx ((h.mem_work x).mp hw).1⟩

/-- An object without references is on exactly one of the lists. -/
theorem mem_of_refs_eq_zero (h : p.Wf refs) {x : α} (hx : refs x = 0) :
    (x ∈ p.free ↔ p.marked x = false) ∧ (x ∈ p.work ↔ p.marked x = true) := by
  simp [h.mem_free, h.mem_work, hx]

/-- The counter is the number of objects that are not free. -/
theorem live_eq_card [DecidableEq α] (h : p.Wf refs) :
    p.live = (Finset.univ.filter fun x => x ∉ p.free).card := by
  have hfree : (Finset.univ.filter fun x => x ∈ p.free).card = p.free.length := by
    rw [← List.toFinset_card_of_nodup h.free_nodup]
    congr 1
    ext x
    simp
  have hsum := Finset.card_filter_add_card_filter_not (s := Finset.univ) (fun x => x ∈ p.free)
  rw [hfree, Finset.card_univ] at hsum
  have := h.live_eq
  omega

/-- A pool with an object that is not free has a positive counter. -/
theorem live_pos [DecidableEq α] (h : p.Wf refs) {x : α} (hx : x ∉ p.free) : 0 < p.live := by
  rw [h.live_eq_card]
  exact_mod_cast Finset.card_pos.mpr ⟨x, by simpa using hx⟩

end Wf

/-! ### The operations -/

section Operations

variable [DecidableEq α]

/-- Take a reference to an object that is referred to already. -/
def hold (p : RefPool α) (x : α) : RefPool α :=
  { p with count := Function.update p.count x (p.count x + 1) }

/-- Drop a reference; an object that loses the last one goes to the end of its list. -/
def put (p : RefPool α) (x : α) : RefPool α :=
  let p := { p with count := Function.update p.count x (p.count x - 1) }
  if p.count x = 0 then
    if p.marked x then { p with work := p.work ++ [x] }
    else { p with free := p.free ++ [x], live := p.live - 1 }
  else p

/-- Take a reference to an object wherever it is: an idle object leaves its list. -/
def claim (p : RefPool α) (x : α) : RefPool α :=
  let p := if p.count x = 0 then
      { p with
        live := if p.marked x then p.live else p.live + 1
        free := p.free.erase x
        work := p.work.erase x }
    else p
  p.hold x

/-- Take a reference to the first free object, and drop its mark. -/
def takeFree (p : RefPool α) (x : α) : RefPool α :=
  { p with
    free := p.free.tail
    live := p.live + 1
    marked := Function.update p.marked x false }.hold x

/-- Take a reference to the first object of the work list. -/
def takeWork (p : RefPool α) (x : α) : RefPool α :=
  { p with work := p.work.tail }.hold x

/-- Mark an object. -/
def mark (p : RefPool α) (x : α) : RefPool α :=
  { p with marked := Function.update p.marked x true }

@[simp]
theorem hold_count (p : RefPool α) (x y : α) :
    (p.hold x).count y = if y = x then p.count x + 1 else p.count y := by
  simp [hold, Function.update_apply]

/-- Dropping and taking references leaves the marks alone. -/
theorem marked_put (p : RefPool α) (x : α) : (p.put x).marked = p.marked := by
  unfold put
  dsimp only
  split_ifs <;> rfl

theorem marked_claim (p : RefPool α) (x : α) : (p.claim x).marked = p.marked := by
  unfold claim
  dsimp only
  split_ifs <;> rfl

/-- Taking a reference puts nothing on the work list. -/
theorem work_claim_sublist (p : RefPool α) (x : α) : (p.claim x).work.Sublist p.work := by
  unfold claim
  dsimp only
  split_ifs
  · exact List.erase_sublist
  · exact List.erase_sublist
  · exact List.Sublist.refl _

theorem put_of_ne (p : RefPool α) {x : α} (h : p.count x - 1 ≠ 0) :
    p.put x = { p with count := Function.update p.count x (p.count x - 1) } := by
  simp [put, h]

theorem put_marked (p : RefPool α) {x : α} (h : p.count x - 1 = 0) (hm : p.marked x = true) :
    p.put x = { p with
      count := Function.update p.count x (p.count x - 1)
      work := p.work ++ [x] } := by
  simp [put, h, hm]

theorem put_unmarked (p : RefPool α) {x : α} (h : p.count x - 1 = 0) (hm : p.marked x = false) :
    p.put x = { p with
      count := Function.update p.count x (p.count x - 1)
      free := p.free ++ [x]
      live := p.live - 1 } := by
  simp [put, h, hm]

namespace Wf

variable {refs refs' : α → ℕ} {p : RefPool α} {x : α}

/-- Appending an object that nobody refers to any more keeps a list exact. -/
private theorem mem_append_iff {l : List α} {b : Bool} (hx : refs x ≠ 0) (hx' : refs' x = 0)
    (hne : ∀ y, y ≠ x → refs' y = refs y) (hm : p.marked x = b)
    (hl : ∀ y, y ∈ l ↔ refs y = 0 ∧ p.marked y = b) (y : α) :
    y ∈ l ++ [x] ↔ refs' y = 0 ∧ p.marked y = b := by
  rw [List.mem_append, List.mem_singleton, hl]
  by_cases hy : y = x
  · subst hy
    simp [hx', hm]
  · simp [hy, hne y hy]

/-- A list stays exact when the references of an object that is not on it change. -/
private theorem mem_iff_of_ne {l : List α} {b : Bool} (hx : x ∉ l)
    (hx' : ¬(refs' x = 0 ∧ p.marked x = b)) (hne : ∀ y, y ≠ x → refs' y = refs y)
    (hl : ∀ y, y ∈ l ↔ refs y = 0 ∧ p.marked y = b) (y : α) :
    y ∈ l ↔ refs' y = 0 ∧ p.marked y = b := by
  by_cases hy : y = x
  · subst hy
    exact iff_of_false hx hx'
  · rw [hl, hne y hy]

variable [Fintype α]

theorem hold (h : p.Wf refs) (hx : refs x ≠ 0) (hx' : refs' x = refs x + 1)
    (hne : ∀ y, y ≠ x → refs' y = refs y) : (p.hold x).Wf refs' := by
  obtain ⟨hf, hw⟩ := h.not_mem_of_refs hx
  refine ⟨fun y => ?_, h.free_nodup, h.work_nodup, ?_, ?_, h.live_eq⟩
  · by_cases hy : y = x
    · subst hy
      simp [h.count_eq, hx']
    · simp [hy, h.count_eq, hne y hy]
  · exact mem_iff_of_ne hf (by omega) hne h.mem_free
  · exact mem_iff_of_ne hw (by omega) hne h.mem_work

theorem put (h : p.Wf refs) (hx : refs x = refs' x + 1) (hne : ∀ y, y ≠ x → refs' y = refs y) :
    (p.put x).Wf refs' := by
  have hx0 : refs x ≠ 0 := by omega
  obtain ⟨hf, hw⟩ := h.not_mem_of_refs hx0
  have hcount : ∀ y, Function.update p.count x (p.count x - 1) y = refs' y := fun y => by
    by_cases hy : y = x
    · subst hy
      rw [Function.update_self, h.count_eq, hx]
      push_cast
      omega
    · rw [Function.update_of_ne hy, h.count_eq, hne y hy]
  have hlast : p.count x - 1 = 0 ↔ refs' x = 0 := by
    rw [h.count_eq, hx]
    push_cast
    omega
  by_cases h0 : refs' x = 0
  · cases hm : p.marked x with
    | true =>
      rw [put_marked p (hlast.mpr h0) hm]
      refine ⟨hcount, h.free_nodup, ?_, ?_, mem_append_iff hx0 h0 hne hm h.mem_work, h.live_eq⟩
      · exact List.nodup_append.mpr ⟨h.work_nodup, List.nodup_singleton x,
          fun y hy z hz e => hw (by rwa [← List.mem_singleton.mp hz, ← e])⟩
      · exact mem_iff_of_ne hf (by simp [hm]) hne h.mem_free
    | false =>
      rw [put_unmarked p (hlast.mpr h0) hm]
      refine ⟨hcount, ?_, h.work_nodup, mem_append_iff hx0 h0 hne hm h.mem_free, ?_, ?_⟩
      · exact List.nodup_append.mpr ⟨h.free_nodup, List.nodup_singleton x,
          fun y hy z hz e => hf (by rwa [← List.mem_singleton.mp hz, ← e])⟩
      · exact mem_iff_of_ne hw (by simp [hm]) hne h.mem_work
      · have := h.live_eq
        simp only [List.length_append, List.length_singleton]
        push_cast
        omega
  · rw [put_of_ne p (fun e => h0 (hlast.mp e))]
    exact ⟨hcount, h.free_nodup, h.work_nodup, mem_iff_of_ne hf (by omega) hne h.mem_free,
      mem_iff_of_ne hw (by omega) hne h.mem_work, h.live_eq⟩

/-- Taking an idle object off its list and referring to it. -/
private theorem remove {free work : List α} {live : ℤ} {marked : α → Bool} (h : p.Wf refs)
    (hx' : refs' x = 1) (hx : refs x = 0) (hne : ∀ y, y ≠ x → refs' y = refs y)
    (hfree : free = p.free.erase x) (hwork : work = p.work.erase x)
    (hmarked : ∀ y, y ≠ x → marked y = p.marked y)
    (hlive : live + free.length = Fintype.card α) :
    (RefPool.hold ⟨p.count, marked, free, work, live⟩ x).Wf refs' := by
  subst hfree hwork
  refine ⟨fun y => ?_, h.free_nodup.erase x, h.work_nodup.erase x, fun y => ?_, fun y => ?_, hlive⟩
  · by_cases hy : y = x
    · subst hy
      simp [h.count_eq, hx, hx']
    · simp [hy, h.count_eq, hne y hy]
  · change y ∈ p.free.erase x ↔ refs' y = 0 ∧ marked y = false
    rw [h.free_nodup.mem_erase_iff, h.mem_free]
    by_cases hy : y = x
    · simp [hy, hx']
    · simp [hy, hne y hy, hmarked y hy]
  · change y ∈ p.work.erase x ↔ refs' y = 0 ∧ marked y = true
    rw [h.work_nodup.mem_erase_iff, h.mem_work]
    by_cases hy : y = x
    · simp [hy, hx']
    · simp [hy, hne y hy, hmarked y hy]

theorem claim (h : p.Wf refs) (hx' : refs' x = refs x + 1)
    (hne : ∀ y, y ≠ x → refs' y = refs y) : (p.claim x).Wf refs' := by
  have hcount : p.count x = 0 ↔ refs x = 0 := by rw [h.count_eq]; omega
  unfold RefPool.claim
  by_cases hx : refs x = 0
  · rw [if_pos (hcount.mpr hx)]
    refine h.remove (by omega) hx hne rfl rfl (fun _ _ => rfl) ?_
    have := h.live_eq
    cases hm : p.marked x with
    | true =>
      have hf : x ∉ p.free := fun hf => by simpa [hm] using (h.mem_free x).mp hf
      rw [List.erase_of_not_mem hf]
      simpa using h.live_eq
    | false =>
      have hf : x ∈ p.free := (h.mem_free x).mpr ⟨hx, hm⟩
      have hpos := List.length_pos_of_mem hf
      rw [List.length_erase_of_mem hf]
      simp only [Bool.false_eq_true, if_false]
      omega
  · rw [if_neg (hcount.not.mpr hx)]
    exact h.hold hx hx' hne

theorem takeFree {rest : List α} (h : p.Wf refs) (hf : p.free = x :: rest)
    (hx' : refs' x = refs x + 1) (hne : ∀ y, y ≠ x → refs' y = refs y) :
    (p.takeFree x).Wf refs' := by
  obtain ⟨hx, hm⟩ := (h.mem_free x).mp (hf ▸ List.mem_cons_self)
  have hw : x ∉ p.work := fun hw => by simpa [hm] using (h.mem_work x).mp hw
  refine h.remove (by omega) hx hne ?_ (List.erase_of_not_mem hw).symm
    (fun y hy => Function.update_of_ne hy _ _) ?_
  · rw [hf, List.tail_cons, List.erase_cons_head]
  · have := h.live_eq
    rw [hf, List.length_cons] at this
    rw [hf, List.tail_cons]
    push_cast at this
    omega

theorem takeWork {rest : List α} (h : p.Wf refs) (hw : p.work = x :: rest)
    (hx' : refs' x = refs x + 1) (hne : ∀ y, y ≠ x → refs' y = refs y) :
    (p.takeWork x).Wf refs' := by
  obtain ⟨hx, hm⟩ := (h.mem_work x).mp (hw ▸ List.mem_cons_self)
  have hf : x ∉ p.free := fun hf => by simpa [hm] using (h.mem_free x).mp hf
  refine h.remove (by omega) hx hne (List.erase_of_not_mem hf).symm ?_ (fun _ _ => rfl) h.live_eq
  rw [hw, List.tail_cons, List.erase_cons_head]

theorem mark (h : p.Wf refs) (hx : refs x ≠ 0) : (p.mark x).Wf refs := by
  obtain ⟨hf, hw⟩ := h.not_mem_of_refs hx
  refine ⟨h.count_eq, h.free_nodup, h.work_nodup, fun y => ?_, fun y => ?_, h.live_eq⟩
  · change y ∈ p.free ↔ refs y = 0 ∧ Function.update p.marked x true y = false
    by_cases hy : y = x
    · subst hy
      simp [hf]
    · rw [Function.update_of_ne hy, h.mem_free]
  · change y ∈ p.work ↔ refs y = 0 ∧ Function.update p.marked x true y = true
    by_cases hy : y = x
    · subst hy
      simp [hw, hx]
    · rw [Function.update_of_ne hy, h.mem_work]

end Wf

end Operations

end RefPool
