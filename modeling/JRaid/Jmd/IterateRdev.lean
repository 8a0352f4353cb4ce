import JRaid.ForMathlib.CircularList

/-!
# Iterating over the members

`ITERATE_RDEV_GENERIC` walks over a list of members while its body may take the current one out. It
has moved on to the next node before the body runs, and it stops when the node before that one is
the head; so its stop test reads a back pointer that the body of the pass before may have written.
The pointer is right again by then: taking the current node out makes the next one point back at
the node before, and the test asks for the node before the node after it.

The loop is therefore a fold over the list as it was at the start (`iteratePass_eq`), which is what
the rest of the development makes of it (`iterateRdevGeneric_eq_foldl`).
-/

namespace JRaid

namespace Jmd

variable {ν σ : Type} [DecidableEq ν]

/-- `INIT_LIST_HEAD`. -/
def initListHead (m : Links ν) (x : ν) : Links ν := m.setNode x x x

/-- `list_add`. -/
def listAdd (m : Links ν) (x head : ν) : Links ν := m.linkAfter head x

/-- `list_del`, which leaves the values `LIST_POISON1` and `LIST_POISON2` in the node. -/
def listDel (poison₁ poison₂ : ν) (m : Links ν) (x : ν) : Links ν :=
  (m.unlink x).setNode x poison₁ poison₂

/-- What a body may do to the list at the member `x`: it leaves the list alone, or takes `x` out and
may then set the pointers of `x` to anything. -/
def LeavesOrRemoves (m : Links ν) (x : ν) (m' : Links ν) : Prop :=
  m' = m ∨ ∃ n p, m' = (m.unlink x).setNode x n p

/-- The passes of `ITERATE_RDEV_GENERIC`, with the members that its body has been run for. The state
consists of the pointers and of whatever else the body works on; `none` means that the passes do not
suffice. -/
def iteratePass (head : ν) (body : ν → Links ν × σ → Links ν × σ) :
    ℕ → ν → Links ν × σ → Option (List ν × Links ν × σ)
  | 0, _, _ => none
  | fuel + 1, tmp, s =>
    let jrdev := tmp
    let tmp := s.1.next tmp
    if s.1.prev tmp ≠ head then
      (iteratePass head body fuel tmp (body jrdev s)).map fun r => (jrdev :: r.1, r.2)
    else some ([], s)

/-- `ITERATE_RDEV_GENERIC`. -/
def iterateRdevGeneric (head : ν) (body : ν → Links ν × σ → Links ν × σ) (fuel : ℕ)
    (s : Links ν × σ) : Option (List ν × Links ν × σ) :=
  iteratePass head body fuel (s.1.next head) s

/-! ### Bodies -/

variable {m : Links ν} {head x : ν} {l l₁ l₂ : List ν}

theorem leavesOrRemoves_self (m : Links ν) (x : ν) : LeavesOrRemoves m x m := Or.inl rfl

theorem leavesOrRemoves_listDel (poison₁ poison₂ : ν) (m : Links ν) (x : ν) :
    LeavesOrRemoves m x (listDel poison₁ poison₂ m x) :=
  Or.inr ⟨poison₁, poison₂, rfl⟩

/-- As in `export_jrdev`. -/
theorem leavesOrRemoves_initListHead (poison₁ poison₂ : ν) (m : Links ν) (x : ν) :
    LeavesOrRemoves m x (initListHead (listDel poison₁ poison₂ m x) x) := by
  refine Or.inr ⟨x, x, ?_⟩
  rw [initListHead, listDel, Links.setNode_setNode]

/-- What is left after the current member. -/
theorem ring_of_leavesOrRemoves (h : NodeRing m head (l₁ ++ x :: l₂)) {m' : Links ν}
    (hm : LeavesOrRemoves m x m') :
    NodeRing m' head (l₁ ++ x :: l₂) ∨ NodeRing m' head (l₁ ++ l₂) := by
  obtain rfl | ⟨n, p, rfl⟩ := hm
  · exact Or.inl h
  · have hx : x ∉ head :: (l₁ ++ l₂) := by
      have hnodup : (head :: l₁ ++ x :: l₂).Nodup := h.nodup
      exact (List.nodup_middle.mp hnodup).notMem
    exact Or.inr (h.unlink.setNode hx n p)

/-! ### The loop -/

variable (body : ν → Links ν × σ → Links ν × σ)

/-- The passes from a place on, where the members before it that have not been taken out are
`l₁`. -/
theorem iteratePass_eq (hbody : ∀ x s, LeavesOrRemoves s.1 x (body x s).1) {s : Links ν × σ}
    (h : NodeRing s.1 head (l₁ ++ l₂)) {fuel : ℕ} (hfuel : l₂.length < fuel) :
    let s' := l₂.foldl (fun s x => body x s) s
    iteratePass head body fuel (l₂.headD head) s = some (l₂, s') ∧
      ∃ kept, kept.Sublist l₂ ∧ NodeRing s'.1 head (l₁ ++ kept) := by
  induction l₂ generalizing l₁ s fuel with
  | nil =>
    obtain ⟨fuel, rfl⟩ : ∃ k, fuel = k + 1 := Nat.exists_eq_add_one.mpr hfuel
    refine ⟨?_, [], List.Sublist.refl _, h⟩
    -- the node is the head, and the one behind it points back at it
    rw [List.append_nil] at h
    have hback : s.1.prev (l₁.headD head) = head := (h.link [] l₁ rfl).2
    rw [iteratePass, List.headD_nil, h.next_head, hback, if_neg (by simp)]
    rfl
  | cons x l₂ ih =>
    obtain ⟨fuel, rfl⟩ : ∃ k, fuel = k + 1 := Nat.exists_eq_add_one.mpr (Nat.zero_lt_of_lt hfuel)
    have hrest : l₂.length < fuel := Nat.lt_of_succ_lt_succ hfuel
    have hx : x ≠ head := fun hx => h.head_notMem (hx ▸ List.mem_append_right l₁ List.mem_cons_self)
    have hprev : s.1.prev (l₂.headD head) = x := by
      have hsplit : NodeRing s.1 head ((l₁ ++ [x]) ++ l₂) := by rwa [List.append_assoc]
      rw [hsplit.prev_headD, List.getLastD_concat]
    dsimp only
    rw [List.headD_cons, iteratePass, h.next_eq, hprev, if_pos hx, List.foldl_cons]
    rcases ring_of_leavesOrRemoves h (hbody x s) with hring | hring
    · have hsplit : NodeRing (body x s).1 head ((l₁ ++ [x]) ++ l₂) := by rwa [List.append_assoc]
      obtain ⟨hrun, kept, hkept, hlast⟩ := ih hsplit hrest
      rw [List.append_assoc] at hlast
      exact ⟨by rw [hrun]; rfl, x :: kept, hkept.cons_cons x, hlast⟩
    · obtain ⟨hrun, kept, hkept, hlast⟩ := ih hring hrest
      exact ⟨by rw [hrun]; rfl, kept, hkept.cons x, hlast⟩

/-- **What `ITERATE_RDEV_GENERIC` does**: its body runs once for each member that the list has at
the start, in the order of the list and not for the head, and the loop ends. The list in the end
consists of members of the list at the start. -/
theorem iterateRdevGeneric_visits (h : NodeRing m head l)
    (hbody : ∀ x s, LeavesOrRemoves s.1 x (body x s).1) (a : σ) {fuel : ℕ}
    (hfuel : l.length < fuel) :
    ∃ s', iterateRdevGeneric head body fuel (m, a) = some (l, s') ∧ l.Nodup ∧ head ∉ l ∧
      s' = l.foldl (fun s x => body x s) (m, a) ∧
        ∃ kept, kept.Sublist l ∧ NodeRing s'.1 head kept := by
  have hstart : NodeRing (m, a).1 head ([] ++ l) := h
  obtain ⟨hrun, hkept⟩ := iteratePass_eq body hbody hstart hfuel
  refine ⟨_, ?_, (List.nodup_cons.mp h.nodup).2, h.head_notMem, rfl, hkept⟩
  rw [iterateRdevGeneric, h.next_head]
  exact hrun

/-- A body that leaves the list alone: the loop is a fold over the members. -/
theorem iterateRdevGeneric_eq_foldl (h : NodeRing m head l) (f : ν → σ → σ) (a : σ) {fuel : ℕ}
    (hfuel : l.length < fuel) :
    iterateRdevGeneric head (fun x s => (s.1, f x s.2)) fuel (m, a) =
      some (l, m, l.foldl (fun a x => f x a) a) := by
  have hpair : l.foldl (fun (s : Links ν × σ) x => (s.1, f x s.2)) (m, a) =
      (m, l.foldl (fun a x => f x a) a) :=
    List.foldl_hom (fun a => (m, a)) fun _ _ => rfl
  have hstart : NodeRing (m, a).1 head ([] ++ l) := h
  obtain ⟨hrun, -⟩ := iteratePass_eq (fun x s => (s.1, f x s.2))
    (fun x s => leavesOrRemoves_self s.1 x) hstart hfuel
  rw [iterateRdevGeneric, h.next_head, hrun, hpair]

/-- Two members, linked in behind the head 0. -/
def twoLinked : Links ℕ := listAdd (listAdd (initListHead ⟨id, id⟩ 0) 2 0) 1 0

theorem ring_twoLinked : NodeRing twoLinked 0 [1, 2] :=
  ((NodeRing.nil _ 0).linkAfter (by decide)).linkAfter (by decide)

/-- A body that takes the first member out. -/
def removesFirst (x : ℕ) (s : Links ℕ × Unit) : Links ℕ × Unit :=
  if x = 1 then (initListHead (listDel 3 4 s.1 x) x, s.2) else s

theorem leavesOrRemoves_removesFirst (x : ℕ) (s : Links ℕ × Unit) :
    LeavesOrRemoves s.1 x (removesFirst x s).1 := by
  unfold removesFirst
  split_ifs
  · exact leavesOrRemoves_initListHead 3 4 s.1 x
  · exact leavesOrRemoves_self s.1 x

theorem iterateRdevGeneric_visits_two :
    ∃ s', iterateRdevGeneric 0 removesFirst 3 (twoLinked, ()) = some ([1, 2], s') ∧
      ∃ kept, kept.Sublist [1, 2] ∧ NodeRing s'.1 0 kept := by
  obtain ⟨s', hrun, -, -, -, hkept⟩ := iterateRdevGeneric_visits removesFirst ring_twoLinked
    leavesOrRemoves_removesFirst () (by decide : [1, 2].length < 3)
  exact ⟨s', hrun, hkept⟩

end Jmd

end JRaid
