import Mathlib.Data.Set.Image
import Mathlib.Data.Set.Insert
import Mathlib.Tactic.Tauto

/-!
# Ledgers

A ledger lists what has been acquired and released, in the order in which it happened. `Leads s log
s'` says that the list is in order for somebody who holds the things in `s`, and what is held in the
end: nothing is acquired that is held already, and nothing is released that is not held, so that
nothing is released twice. What is held in the end has been left behind.

Lists are put together with `Leads.append`, what the parts do not touch is taken along with
`Leads.frame`, and `Leads.map` renames what is held.
-/

/-- An entry of a ledger. -/
inductive Entry (α : Type*) where
  | acquire (a : α)
  | release (a : α)
  deriving DecidableEq

/-- The entry under another name. -/
def Entry.map {α β : Type*} (f : α → β) : Entry α → Entry β
  | .acquire a => .acquire (f a)
  | .release a => .release (f a)

namespace Ledger

variable {α : Type*}

/-- The list is in order for somebody who holds `s`, and leads to `s'`. -/
def Leads : Set α → List (Entry α) → Set α → Prop
  | s, [], s' => s' = s
  | s, .acquire a :: log, s' => a ∉ s ∧ Leads (insert a s) log s'
  | s, .release a :: log, s' => a ∈ s ∧ Leads (s \ {a}) log s'

variable {s s' s'' t : Set α} {log log' : List (Entry α)}

theorem Leads.nil (s : Set α) : Leads s [] s := rfl

theorem Leads.acquire {a : α} (h : a ∉ s) : Leads s [.acquire a] (insert a s) := ⟨h, rfl⟩

theorem Leads.release {a : α} (h : a ∈ s) : Leads s [.release a] (s \ {a}) := ⟨h, rfl⟩

theorem Leads.append (h : Leads s log s') (h' : Leads s' log' s'') :
    Leads s (log ++ log') s'' := by
  induction log generalizing s with
  | nil =>
    obtain rfl : s' = s := h
    exact h'
  | cons e log ih =>
    cases e with
    | acquire a => exact ⟨h.1, ih h.2⟩
    | release a => exact ⟨h.1, ih h.2⟩

/-- A list leads to one set only. -/
theorem Leads.unique (h : Leads s log s') (h' : Leads s log s'') : s'' = s' := by
  induction log generalizing s with
  | nil =>
    obtain rfl : s' = s := h
    exact h'
  | cons e log ih =>
    cases e with
    | acquire a => exact ih h.2 h'.2
    | release a => exact ih h.2 h'.2

/-- What is never acquired is not held in the end. -/
theorem Leads.notMem {a : α} (h : Leads s log s') (ha : a ∉ s) (hlog : .acquire a ∉ log) :
    a ∉ s' := by
  induction log generalizing s with
  | nil =>
    obtain rfl : s' = s := h
    exact ha
  | cons e log ih =>
    have hrest : .acquire a ∉ log := fun hmem => hlog (List.mem_cons_of_mem _ hmem)
    cases e with
    | acquire b =>
      have hab : a ≠ b := fun hab => hlog (hab ▸ List.mem_cons_self)
      exact ih h.2 (fun hmem => hmem.elim hab ha) hrest
    | release b => exact ih h.2 (fun hmem => ha hmem.1) hrest

/-- What is released, where nothing is acquired. -/
theorem Leads.release_mem_iff (h : Leads s log s') (hlog : ∀ a, .acquire a ∉ log) {a : α} :
    .release a ∈ log ↔ a ∈ s ∧ a ∉ s' := by
  induction log generalizing s with
  | nil =>
    obtain rfl : s' = s := h
    simp
  | cons e log ih =>
    cases e with
    | acquire b => exact absurd List.mem_cons_self (hlog b)
    | release b =>
      have hrest : ∀ a, .acquire a ∉ log := fun a ha => hlog a (List.mem_cons_of_mem _ ha)
      rw [List.mem_cons, ih h.2 hrest, Entry.release.injEq, Set.mem_sdiff, Set.mem_singleton_iff]
      constructor
      · rintro (rfl | ⟨⟨ha, -⟩, ha'⟩)
        · exact ⟨h.1, h.2.notMem (fun hmem => hmem.2 rfl) (hrest a)⟩
        · exact ⟨ha, ha'⟩
      · rintro ⟨ha, ha'⟩
        by_cases hab : a = b
        · exact Or.inl hab
        · exact Or.inr ⟨⟨ha, hab⟩, ha'⟩

/-- **The frame rule**: a list leads along what it does not touch. -/
theorem Leads.frame (h : Leads s log s') (hs : ∀ a ∈ s, a ∉ t)
    (hlog : ∀ a, .acquire a ∈ log → a ∉ t) : Leads (s ∪ t) log (s' ∪ t) := by
  induction log generalizing s with
  | nil =>
    obtain rfl : s' = s := h
    exact rfl
  | cons e log ih =>
    have hrest : ∀ a, .acquire a ∈ log → a ∉ t := fun a ha => hlog a (List.mem_cons_of_mem _ ha)
    cases e with
    | acquire a =>
      have hat : a ∉ t := hlog a List.mem_cons_self
      refine ⟨fun ha => ha.elim h.1 hat, ?_⟩
      rw [← Set.insert_union]
      exact ih h.2 (fun b hb => hb.elim (fun hba => hba ▸ hat) (hs b)) hrest
    | release a =>
      refine ⟨Or.inl h.1, ?_⟩
      have hdiff : (s ∪ t) \ {a} = s \ {a} ∪ t := by
        ext b
        have hb : b ∈ t → b ≠ a := fun hbt hba => hs a h.1 (hba ▸ hbt)
        simp only [Set.mem_union, Set.mem_sdiff, Set.mem_singleton_iff]
        tauto
      rw [hdiff]
      exact ih h.2 (fun b hb => hs b hb.1) hrest

/-- **Renaming**: a list leads under other names where it led under the old ones. -/
theorem Leads.map {β : Type*} {f : α → β} (hf : Function.Injective f) (h : Leads s log s') :
    Leads (f '' s) (log.map (Entry.map f)) (f '' s') := by
  induction log generalizing s with
  | nil =>
    obtain rfl : s' = s := h
    exact rfl
  | cons e log ih =>
    cases e with
    | acquire a =>
      refine ⟨fun ha => h.1 (hf.mem_set_image.mp ha), ?_⟩
      rw [← Set.image_insert_eq]
      exact ih h.2
    | release a =>
      refine ⟨Set.mem_image_of_mem f h.1, ?_⟩
      rw [← Set.image_singleton, ← Set.image_sdiff hf]
      exact ih h.2

theorem acquire_mem_map {β : Type*} {f : α → β} {b : β}
    (h : .acquire b ∈ log.map (Entry.map f)) : ∃ a, .acquire a ∈ log ∧ f a = b := by
  obtain ⟨e, he, heq⟩ := List.mem_map.mp h
  cases e with
  | acquire a => exact ⟨a, he, Entry.acquire.inj heq⟩
  | release a => cases heq

/-- Something else is acquired first. -/
theorem Leads.cons_acquire {a : α} (h : Leads s log s') (ha : a ∉ s)
    (hlog : .acquire a ∉ log) : Leads s (.acquire a :: log) (insert a s') := by
  have hframe := h.frame (t := {a})
    (fun b hb hba => ha (Set.mem_singleton_iff.mp hba ▸ hb))
    fun b hb hba => hlog (Set.mem_singleton_iff.mp hba ▸ hb)
  rw [Set.union_singleton, Set.union_singleton] at hframe
  exact ⟨ha, hframe⟩

/-- **Ledgers one after the other**, each under names of its own. -/
theorem Leads.flatMap {ι κ β : Type*} {l : List ι} {key : ι → κ} {name : κ → β → α}
    {f : ι → List (Entry β)} {g : ι → Set β}
    (hname : ∀ k k' b b', name k b = name k' b' → k = k' ∧ b = b') (hnodup : (l.map key).Nodup)
    (h : ∀ i ∈ l, Leads ∅ (f i) (g i)) :
    Leads ∅ (l.flatMap fun i => (f i).map (Entry.map (name (key i))))
      {a | ∃ i ∈ l, ∃ b ∈ g i, name (key i) b = a} := by
  induction l with
  | nil => exact Set.ext fun a => by simp
  | cons i l ih =>
    obtain ⟨hnew, hnodup⟩ := List.nodup_cons.mp hnodup
    have hhead := (h i List.mem_cons_self).map (f := name (key i)) fun b b' heq =>
      (hname _ _ _ _ heq).2
    rw [Set.image_empty] at hhead
    -- what the rest acquires has other names
    have hrest := (ih hnodup fun j hj => h j (List.mem_cons_of_mem i hj)).frame
      (t := name (key i) '' g i) (fun a ha => absurd ha (Set.notMem_empty a)) fun a ha => by
        rintro ⟨b, -, rfl⟩
        obtain ⟨j, hj, ha⟩ := List.mem_flatMap.mp ha
        obtain ⟨b', -, heq⟩ := acquire_mem_map ha
        exact hnew ((hname _ _ _ _ heq).1 ▸ List.mem_map_of_mem hj)
    rw [Set.empty_union] at hrest
    rw [List.flatMap_cons]
    refine (congrArg (Leads _ _) ?_).mp (hhead.append hrest)
    ext a
    simp [or_comm]

/-- Things that are acquired one after the other. -/
theorem Leads.acquires {l : List α} (hnodup : l.Nodup) (hnew : ∀ a ∈ l, a ∉ s) :
    Leads s (l.map .acquire) (s ∪ {a | a ∈ l}) := by
  induction l generalizing s with
  | nil => exact Set.ext fun a => by simp
  | cons a l ih =>
    obtain ⟨ha, hnodup⟩ := List.nodup_cons.mp hnodup
    refine ⟨hnew a List.mem_cons_self, ?_⟩
    have h := ih hnodup (s := insert a s) fun b hb hbs => by
      rcases hbs with rfl | hbs
      · exact ha hb
      · exact hnew b (List.mem_cons_of_mem _ hb) hbs
    have heq : s ∪ {b | b ∈ a :: l} = insert a s ∪ {b | b ∈ l} := by
      ext b
      simp only [Set.mem_union, Set.mem_ofPred_eq, List.mem_cons, Set.mem_insert_iff]
      tauto
    rwa [heq]

/-- Things that are released one after the other. -/
theorem Leads.releases {l : List α} (hnodup : l.Nodup) (hheld : ∀ a ∈ l, a ∈ s) :
    Leads s (l.map .release) (s \ {a | a ∈ l}) := by
  induction l generalizing s with
  | nil => exact Set.ext fun a => by simp
  | cons a l ih =>
    obtain ⟨ha, hnodup⟩ := List.nodup_cons.mp hnodup
    refine ⟨hheld a List.mem_cons_self, ?_⟩
    have h := ih hnodup (s := s \ {a}) fun b hb =>
      ⟨hheld b (List.mem_cons_of_mem _ hb), fun hba => ha (hba ▸ hb)⟩
    have heq : s \ {b | b ∈ a :: l} = (s \ {a}) \ {b | b ∈ l} := by
      ext b
      simp only [Set.mem_sdiff, Set.mem_ofPred_eq, List.mem_cons, Set.mem_singleton_iff]
      tauto
    rwa [heq]

end Ledger
