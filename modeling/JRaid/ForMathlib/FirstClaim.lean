import Mathlib.Data.Fintype.Card

/-!
# First come, first served

Elements of a list may each claim a key; a key goes to the first element that claims it
(`holder`). A loop that hands out the keys in the order of the list extends the list at its end,
and this adds at most one key to those that are held (`held_concat_of_taken`,
`card_held_concat_of_free`). If no two elements claim the same key the order does not matter
(`holder_perm`).
-/

namespace FirstClaim

variable {α κ : Type*} [DecidableEq κ] (key : α → Option κ)

/-- The element that a key goes to. -/
def holder (l : List α) (k : κ) : Option α := l.find? fun a => key a = some k

variable {key} {l : List α} {k : κ} {a : α}

theorem holder_eq_none_iff : holder key l k = none ↔ ∀ a ∈ l, key a ≠ some k := by
  simp [holder]

theorem mem_of_holder (h : holder key l k = some a) : a ∈ l := List.mem_of_find?_eq_some h

theorem key_of_holder (h : holder key l k = some a) : key a = some k := by
  have hfound := List.find?_some (p := fun a => decide (key a = some k)) h
  exact of_decide_eq_true hfound

theorem exists_holder (hmem : a ∈ l) (h : key a = some k) : ∃ b, holder key l k = some b :=
  Option.ne_none_iff_exists'.mp fun hnone => holder_eq_none_iff.mp hnone a hmem h

/-- Who holds a key depends only on what the claims look at. -/
theorem map_holder {β : Type*} (g : α → β) (key : β → Option κ) (l : List α) (k : κ) :
    (holder (fun a => key (g a)) l k).map g = holder key (l.map g) k := by
  rw [holder, holder, List.find?_map]
  rfl

/-- A new element gets the key that it claims if that is free. -/
theorem holder_concat (l : List α) (a : α) (k : κ) :
    holder key (l ++ [a]) k =
      (holder key l k).or (if key a = some k then some a else none) := by
  rw [holder, holder, List.find?_append]
  by_cases h : key a = some k
  · rw [if_pos h, List.find?_cons_of_pos (by simpa using h)]
  · rw [if_neg h, List.find?_cons_of_neg (by simpa using h), List.find?_nil]

/-- Claiming nothing, or a key that is held, changes nothing. -/
theorem holder_concat_of_taken (h : ∀ k, key a = some k → (holder key l k).isSome) :
    holder key (l ++ [a]) = holder key l := by
  funext k
  rw [holder_concat]
  by_cases hk : key a = some k
  · obtain ⟨b, hb⟩ := Option.isSome_iff_exists.mp (h k hk)
    rw [hb, Option.some_or]
  · rw [if_neg hk, Option.or_none]

/-- A free key goes to the element that claims it. -/
theorem holder_concat_of_free (hk : key a = some k) (h : holder key l k = none) :
    holder key (l ++ [a]) = Function.update (holder key l) k (some a) := by
  funext j
  rw [holder_concat]
  by_cases hj : j = k
  · rw [hj, h, Function.update_self, if_pos hk, Option.none_or]
  · have hne : key a ≠ some j := fun heq => hj (Option.some.inj (heq.symm.trans hk))
    rw [Function.update_of_ne hj, if_neg hne, Option.or_none]

/-! ### Elements with different claims -/

/-- Before its turn comes, nobody else has claimed the key of an element. -/
theorem holder_eq_none_of_concat (h : ((l ++ [a]).map key).Nodup) (hk : key a = some k) :
    holder key l k = none := by
  rw [List.map_append, List.nodup_append] at h
  refine holder_eq_none_iff.mpr fun b hb hbk => ?_
  exact h.2.2 _ (List.mem_map_of_mem hb) _ (List.mem_map_of_mem List.mem_cons_self)
    (hbk.trans hk.symm)

/-- If the claims are different, a key goes to the element that claims it. -/
theorem holder_eq_some_iff (h : (l.map key).Nodup) :
    holder key l k = some a ↔ a ∈ l ∧ key a = some k := by
  refine ⟨fun ha => ⟨mem_of_holder ha, key_of_holder ha⟩, fun ⟨hmem, hk⟩ => ?_⟩
  obtain ⟨b, hb⟩ := exists_holder hmem hk
  rw [hb, List.inj_on_of_nodup_map h (mem_of_holder hb) hmem ((key_of_holder hb).trans hk.symm)]

/-- **If the claims are different, their order does not matter.** -/
theorem holder_perm {l' : List α} (h : (l.map key).Nodup) (hperm : l'.Perm l) :
    holder key l' = holder key l := by
  have h' : (l'.map key).Nodup := (hperm.map key).nodup_iff.mpr h
  funext k
  refine Option.ext fun a => ?_
  rw [holder_eq_some_iff h', holder_eq_some_iff h, hperm.mem_iff]

section Held

variable [Fintype κ] (key)

/-- The keys that are held. -/
def held (l : List α) : Finset κ := Finset.univ.filter fun k => (holder key l k).isSome

variable {key}

theorem mem_held : k ∈ held key l ↔ ∃ a ∈ l, key a = some k := by
  simp only [held, Finset.mem_filter, Finset.mem_univ, true_and]
  constructor
  · intro h
    obtain ⟨a, ha⟩ := Option.isSome_iff_exists.mp h
    exact ⟨a, mem_of_holder ha, key_of_holder ha⟩
  · rintro ⟨a, hmem, ha⟩
    exact Option.isSome_iff_exists.mpr (exists_holder hmem ha)

theorem held_nil : held key [] = ∅ := by
  ext k
  simp [mem_held]

theorem held_concat_of_taken (h : ∀ k, key a = some k → (holder key l k).isSome) :
    held key (l ++ [a]) = held key l := by
  rw [held, holder_concat_of_taken h, held]

/-- A free key that is claimed adds one to the number of keys held. -/
theorem card_held_concat_of_free (hk : key a = some k) (h : holder key l k = none) :
    (held key (l ++ [a])).card = (held key l).card + 1 := by
  have hnot : k ∉ held key l := by simp [held, h]
  have hinsert : held key (l ++ [a]) = insert k (held key l) := by
    ext j
    rw [Finset.mem_insert, mem_held, mem_held]
    constructor
    · rintro ⟨b, hb, hj⟩
      obtain hb | hb := List.mem_append.mp hb
      · exact Or.inr ⟨b, hb, hj⟩
      · obtain rfl := List.mem_singleton.mp hb
        exact Or.inl (Option.some.inj (hj.symm.trans hk))
    · rintro (rfl | ⟨b, hb, hj⟩)
      · exact ⟨a, List.mem_append_right l List.mem_cons_self, hk⟩
      · exact ⟨b, List.mem_append_left _ hb, hj⟩
  rw [hinsert, Finset.card_insert_of_notMem hnot]

/-- If the claims are different, as many keys are held as there are elements. -/
theorem card_held_of_nodup (hall : ∀ a ∈ l, (key a).isSome) (h : (l.map key).Nodup) :
    (held key l).card = l.length := by
  induction l using List.reverseRecOn with
  | nil => rw [held_nil, Finset.card_empty, List.length_nil]
  | append_singleton l a ih =>
    obtain ⟨k, hk⟩ := Option.isSome_iff_exists.mp (hall a (List.mem_append_right l (by simp)))
    have hinit : (l.map key).Nodup := by
      rw [List.map_append] at h
      exact (List.nodup_append.mp h).1
    rw [card_held_concat_of_free hk (holder_eq_none_of_concat h hk),
      ih (fun b hb => hall b (List.mem_append_left _ hb)) hinit, List.length_append,
      List.length_singleton]

end Held

end FirstClaim
