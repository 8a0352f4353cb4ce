import Mathlib.Data.Finset.Card
import Mathlib.Data.List.Nodup

/-!
# Trees with tags

A `TaggedTree` keeps items at indices, and for each tag the set of the indices that carry it; only
an index with an item carries tags. It is what a radix tree is to its users, without its nodes. An
insertion fails where there is an item already (`insert`), a tag is set on an item that is there
(`tagSet`), and an item that is deleted takes its tags along (`delete`).
-/

/-- A list adds its length to a finite set exactly if it repeats nothing and has nothing in common
with the set. -/
theorem Finset.card_union_toFinset_iff {α : Type*} [DecidableEq α] (s : Finset α) (l : List α) :
    (s ∪ l.toFinset).card = s.card + l.length ↔ l.Nodup ∧ ∀ a ∈ l, a ∉ s := by
  have hunion := Finset.card_union_add_card_inter s l.toFinset
  have hlist := l.toFinset_card_le
  constructor
  · intro h
    have hinter : (s ∩ l.toFinset).card = 0 := by omega
    refine ⟨Multiset.coe_nodup.mp (Multiset.toFinset_card_eq_card_iff_nodup.mp ?_),
      fun a ha has => ?_⟩
    · change l.toFinset.card = l.length
      omega
    · have hmem : a ∈ s ∩ l.toFinset :=
        Finset.mem_inter.mpr ⟨has, List.mem_toFinset.mpr ha⟩
      rw [Finset.card_eq_zero.mp hinter] at hmem
      exact absurd hmem (Finset.notMem_empty a)
  · rintro ⟨hnodup, hnew⟩
    have hdisj : Disjoint s l.toFinset :=
      Finset.disjoint_right.mpr fun a ha => hnew a (List.mem_toFinset.mp ha)
    rw [Finset.card_union_of_disjoint hdisj, List.toFinset_card_of_nodup hnodup]

/-- Items at indices, and the indices that carry each tag. -/
@[ext]
structure TaggedTree (κ β γ : Type*) where
  item : κ → Option β
  keys : Finset κ
  mem_keys : ∀ i, i ∈ keys ↔ (item i).isSome = true
  tagged : γ → Finset κ
  tagged_subset : ∀ t, tagged t ⊆ keys

namespace TaggedTree

variable {κ β γ : Type*}

/-- No items. -/
def empty : TaggedTree κ β γ where
  item _ := none
  keys := ∅
  mem_keys i := iff_of_false (Finset.notMem_empty i) Bool.false_ne_true
  tagged _ := ∅
  tagged_subset _ := Finset.empty_subset _

/-- The same tree with other items. -/
def map {δ : Type*} (f : β → δ) (T : TaggedTree κ β γ) : TaggedTree κ δ γ where
  item i := (T.item i).map f
  keys := T.keys
  mem_keys i := by rw [Option.isSome_map, T.mem_keys]
  tagged := T.tagged
  tagged_subset := T.tagged_subset

@[simp]
theorem item_map {δ : Type*} (f : β → δ) (T : TaggedTree κ β γ) (i : κ) :
    (T.map f).item i = (T.item i).map f := rfl

variable [DecidableEq κ]

/-- Put an item at an index that is free. -/
def insert (T : TaggedTree κ β γ) (i : κ) (b : β) : Option (TaggedTree κ β γ) :=
  if (T.item i).isSome then none
  else some {
    item := Function.update T.item i (some b)
    keys := Insert.insert i T.keys
    mem_keys := fun j => by
      by_cases hj : j = i
      · subst hj
        simp
      · rw [Finset.mem_insert, Function.update_of_ne hj, or_iff_right hj, T.mem_keys]
    tagged := T.tagged
    tagged_subset := fun t => (T.tagged_subset t).trans (Finset.subset_insert i T.keys) }

/-- Set a tag on the item at an index. -/
def tagSet [DecidableEq γ] (T : TaggedTree κ β γ) (i : κ) (t : γ) : TaggedTree κ β γ :=
  if h : i ∈ T.keys then
    { T with
      tagged := Function.update T.tagged t (Insert.insert i (T.tagged t))
      tagged_subset := fun u => by
        by_cases hu : u = t
        · subst hu
          rw [Function.update_self]
          exact Finset.insert_subset h (T.tagged_subset u)
        · rw [Function.update_of_ne hu]
          exact T.tagged_subset u }
  else T

/-- Take the item at an index out. -/
def delete (T : TaggedTree κ β γ) (i : κ) : Option β × TaggedTree κ β γ :=
  (T.item i, {
    item := Function.update T.item i none
    keys := T.keys.erase i
    mem_keys := fun j => by
      by_cases hj : j = i
      · subst hj
        simp
      · rw [Finset.mem_erase, Function.update_of_ne hj, T.mem_keys]
        exact and_iff_right hj
    tagged := fun t => (T.tagged t).erase i
    tagged_subset := fun t => Finset.erase_subset_erase i (T.tagged_subset t) })

variable {T T' : TaggedTree κ β γ} {i : κ} {b : β}

omit [DecidableEq κ] in
/-- No indices, no items. -/
theorem eq_empty_of_keys (h : T.keys = ∅) : T = empty := by
  refine TaggedTree.ext (funext fun i => ?_) h (funext fun t => ?_)
  · have hi : i ∉ T.keys := h ▸ Finset.notMem_empty i
    rwa [T.mem_keys, Option.not_isSome_iff_eq_none] at hi
  · exact Finset.subset_empty.mp (h ▸ T.tagged_subset t)

omit [DecidableEq κ] in
/-- The item at an index of the tree. -/
theorem exists_item (hi : i ∈ T.keys) : ∃ b, T.item i = some b :=
  Option.isSome_iff_exists.mp ((T.mem_keys i).mp hi)

/-- Take the items at several indices out. -/
def deleteAll (T : TaggedTree κ β γ) (l : List κ) : TaggedTree κ β γ :=
  l.foldl (fun T i => (T.delete i).2) T

theorem keys_deleteAll (T : TaggedTree κ β γ) (l : List κ) :
    (T.deleteAll l).keys = T.keys \ l.toFinset := by
  induction l generalizing T with
  | nil => simp [deleteAll]
  | cons i l ih =>
    rw [show T.deleteAll (i :: l) = (T.delete i).2.deleteAll l from rfl, ih, List.toFinset_cons,
      Finset.sdiff_insert]
    exact Finset.erase_sdiff_comm ..

theorem item_deleteAll (T : TaggedTree κ β γ) (l : List κ) (j : κ) :
    (T.deleteAll l).item j = if j ∈ l then none else T.item j := by
  induction l generalizing T with
  | nil => rfl
  | cons i l ih =>
    rw [show T.deleteAll (i :: l) = (T.delete i).2.deleteAll l from rfl, ih]
    by_cases hj : j = i
    · subst hj
      simp [delete]
    · simp only [delete, Function.update_of_ne hj, List.mem_cons, hj, false_or]

/-- **What an insertion does.** -/
theorem insert_spec (h : T.insert i b = some T') :
    i ∉ T.keys ∧ T'.item = Function.update T.item i (some b) ∧
      T'.keys = Insert.insert i T.keys ∧ T'.tagged = T.tagged := by
  rw [insert] at h
  split_ifs at h with hi
  obtain rfl := Option.some.inj h
  exact ⟨mt (T.mem_keys i).mp hi, rfl, rfl, rfl⟩

/-- An item was there before, or it is the new one. -/
theorem item_cases_of_insert (h : T.insert i b = some T') {j : κ} {b' : β}
    (hj : T'.item j = some b') : T.item j = some b' ∨ b' = b := by
  rw [(insert_spec h).2.1] at hj
  by_cases hne : j = i
  · rw [hne, Function.update_self] at hj
    exact Or.inr (Option.some.inj hj).symm
  · rw [Function.update_of_ne hne] at hj
    exact Or.inl hj

/-- There is room at a free index. -/
theorem exists_insert (hi : i ∉ T.keys) (b : β) : ∃ T', T.insert i b = some T' :=
  ⟨_, if_neg (mt (T.mem_keys i).mpr hi)⟩

/-- An insertion fails at an index that is taken. -/
theorem insert_eq_none (hi : i ∈ T.keys) (b : β) : T.insert i b = none :=
  if_pos ((T.mem_keys i).mp hi)

/-- The items can be changed before or after an insertion. -/
theorem map_insert {δ : Type*} (f : β → δ) (T : TaggedTree κ β γ) (i : κ) (b : β) :
    (T.map f).insert i (f b) = (T.insert i b).map (map f) := by
  rw [insert, insert, item_map, Option.isSome_map]
  split_ifs
  · rfl
  · refine congrArg some (TaggedTree.ext ?_ rfl rfl)
    funext j
    by_cases hj : j = i
    · subst hj
      simp only [map, Function.update_self, Option.map_some]
    · simp only [map, Function.update_of_ne hj]

section

variable [DecidableEq γ]

@[simp]
theorem item_tagSet (T : TaggedTree κ β γ) (i : κ) (t : γ) : (T.tagSet i t).item = T.item := by
  unfold tagSet
  split_ifs <;> rfl

@[simp]
theorem keys_tagSet (T : TaggedTree κ β γ) (i : κ) (t : γ) : (T.tagSet i t).keys = T.keys := by
  unfold tagSet
  split_ifs <;> rfl

/-- **What setting a tag does.** -/
theorem tagged_tagSet (hi : i ∈ T.keys) (t u : γ) :
    (T.tagSet i t).tagged u = if u = t then Insert.insert i (T.tagged u) else T.tagged u := by
  rw [tagSet, dif_pos hi]
  by_cases hu : u = t
  · subst hu
    exact (Function.update_self ..).trans (if_pos rfl).symm
  · exact (Function.update_of_ne hu ..).trans (if_neg hu).symm

end

end TaggedTree
