import Mathlib.Data.Finset.Card
import Mathlib.Data.Fintype.Card
import Mathlib.Logic.Function.Basic
import Mathlib.Tactic.Tauto

/-!
# Hash chains with pointers to the previous link

A hash table in the style of the Linux `hlist`: each bucket holds a pointer to its first
node, each node a `next` pointer and a `pprev` pointer to the *link* that points at it,
which is either a bucket or the `next` field of the node before. Such a node can be taken
out of its chain without knowing its key, and so the key of a node may be rewritten while
the node is out of the table.

`Table.Path t lk l` says that following the table from the link `lk` visits exactly the
nodes of `l` and ends, and that the `pprev` of each visited node is the link that points
at it. `Table.Wf` asks this of every bucket for the nodes that have a `pprev` and whose
key hashes to the bucket; `Table.unlink` and `Table.insert` preserve it, and a search
along a chain finds what a search of the list finds.
-/

namespace PprevChain

variable {β ν : Type*}

/-- A place that can point at a node: a bucket, or the `next` field of a node. -/
inductive Link (β ν : Type*) where
  | bucket (b : β)
  | node (x : ν)
  deriving DecidableEq

/-- The pointers of a hash table with buckets `β` and nodes `ν`. -/
@[ext]
structure Table (β ν : Type*) where
  head : β → Option ν
  next : ν → Option ν
  pprev : ν → Option (Link β ν)

namespace Table

/-- What a link points at. -/
def get (t : Table β ν) : Link β ν → Option ν
  | .bucket b => t.head b
  | .node x => t.next x

/-- Following the table from a link visits the nodes of the list, each of which points
back at the link before it. -/
def Path (t : Table β ν) : Link β ν → List ν → Prop
  | lk, [] => t.get lk = none
  | lk, x :: l => t.get lk = some x ∧ t.pprev x = some lk ∧ t.Path (.node x) l

/-- Search a chain with at most `fuel` steps; `none` when these do not reach its end. -/
def find (t : Table β ν) (p : ν → Bool) : ℕ → Option ν → Option (Option ν)
  | _, none => some none
  | 0, some _ => none
  | fuel + 1, some x => if p x then some (some x) else t.find p fuel (t.next x)

/-! ### Paths -/

/-- A path reads only the pointers of its first link and of its nodes. -/
theorem Path.congr {t t' : Table β ν} {lk : Link β ν} {l : List ν} (h : t.Path lk l)
    (hget : t'.get lk = t.get lk) (hnext : ∀ x ∈ l, t'.next x = t.next x)
    (hpprev : ∀ x ∈ l, t'.pprev x = t.pprev x) : t'.Path lk l := by
  induction l generalizing lk with
  | nil => exact hget.trans h
  | cons x l ih =>
    obtain ⟨h1, h2, h3⟩ := h
    refine ⟨hget.trans h1, (hpprev x List.mem_cons_self).trans h2, ih h3 ?_ ?_ ?_⟩
    · exact hnext x List.mem_cons_self
    · exact fun y hy => hnext y (List.mem_cons_of_mem _ hy)
    · exact fun y hy => hpprev y (List.mem_cons_of_mem _ hy)

/-- A path can be hung on another link. -/
private theorem Path.relink {t t' : Table β ν} {lk lk' : Link β ν} {l : List ν}
    (h : t.Path lk l) (hget : t'.get lk' = t.get lk)
    (hhead : ∀ y, l.head? = some y → t'.pprev y = some lk')
    (hnext : ∀ y ∈ l, t'.next y = t.next y)
    (hpprev : ∀ y ∈ l.tail, t'.pprev y = t.pprev y) : t'.Path lk' l := by
  cases l with
  | nil => exact hget.trans h
  | cons y l =>
    obtain ⟨h1, -, h3⟩ := h
    exact ⟨hget.trans h1, hhead y rfl, h3.congr (hnext y List.mem_cons_self)
      (fun z hz => hnext z (List.mem_cons_of_mem _ hz)) hpprev⟩

/-- The link that points at a node of a path is its first link or a node of the path. -/
theorem Path.pprev_mem {t : Table β ν} {lk : Link β ν} {l : List ν} (h : t.Path lk l) {x : ν}
    (hx : x ∈ l) : t.pprev x = some lk ∨ ∃ y ∈ l, t.pprev x = some (.node y) := by
  induction l generalizing lk with
  | nil => exact absurd hx (by simp)
  | cons a l ih =>
    obtain ⟨-, h2, h3⟩ := h
    rcases List.mem_cons.mp hx with rfl | hx
    · exact Or.inl h2
    · rcases ih h3 hx with h | ⟨y, hy, h⟩
      · exact Or.inr ⟨a, List.mem_cons_self, h⟩
      · exact Or.inr ⟨y, List.mem_cons_of_mem _ hy, h⟩

/-- A path that starts outside of its own nodes visits each of them once: a second visit
would need a second `pprev`. -/
theorem Path.nodup {t : Table β ν} {lk : Link β ν} {l : List ν} (h : t.Path lk l)
    (hlk : ∀ y ∈ l, lk ≠ .node y) : l.Nodup := by
  induction l generalizing lk with
  | nil => exact List.nodup_nil
  | cons a l ih =>
    obtain ⟨-, h2, h3⟩ := h
    have ha : a ∉ l := by
      intro ha
      rcases h3.pprev_mem ha with h | ⟨y, hy, h⟩
      · exact hlk a List.mem_cons_self (Option.some.inj (h2.symm.trans h))
      · exact hlk y (List.mem_cons_of_mem _ hy) (Option.some.inj (h2.symm.trans h))
    refine List.nodup_cons.mpr ⟨ha, ih h3 fun y hy h => ha ?_⟩
    obtain rfl : a = y := Link.node.inj h
    exact hy

/-- The node after a node of a path. -/
theorem Path.next_eq {t : Table β ν} {lk : Link β ν} {l₁ l₂ : List ν} {x : ν}
    (h : t.Path lk (l₁ ++ x :: l₂)) : t.next x = l₂.head? := by
  induction l₁ generalizing lk with
  | nil =>
    obtain ⟨-, -, h3⟩ := h
    cases l₂ with
    | nil => exact h3
    | cons y l₂ => exact h3.1
  | cons a l₁ ih => exact ih h.2.2

/-- **A search along a path finds what a search of its list finds**, given fuel for the
length of the path. -/
theorem Path.find {t : Table β ν} {lk : Link β ν} {l : List ν} (h : t.Path lk l) (p : ν → Bool)
    {fuel : ℕ} (hf : l.length ≤ fuel) : t.find p fuel (t.get lk) = some (l.find? p) := by
  induction l generalizing lk fuel with
  | nil =>
    rw [show t.get lk = none from h]
    cases fuel <;> rfl
  | cons x l ih =>
    obtain ⟨h1, -, h3⟩ := h
    obtain ⟨fuel, rfl⟩ : ∃ k, fuel = k + 1 := ⟨fuel - 1, by simp at hf; omega⟩
    rw [h1, Table.find]
    by_cases hp : p x
    · rw [if_pos hp, List.find?_cons_of_pos hp]
    · rw [if_neg hp, List.find?_cons_of_neg hp]
      exact ih h3 (by simpa using hf)

/-! ### The two operations -/

section Operations

variable [DecidableEq ν]

/-- Let a node point back at another link, or at none. -/
def setPprev (t : Table β ν) (x : ν) (v : Option (Link β ν)) : Table β ν :=
  { t with pprev := Function.update t.pprev x v }

@[simp]
theorem get_setPprev (t : Table β ν) (x : ν) (v : Option (Link β ν)) (lk : Link β ν) :
    (t.setPprev x v).get lk = t.get lk := by
  cases lk <;> rfl

@[simp]
theorem pprev_setPprev (t : Table β ν) (x y : ν) (v : Option (Link β ν)) :
    (t.setPprev x v).pprev y = if y = x then v else t.pprev y := by
  simp [setPprev, Function.update_apply]

variable [DecidableEq β]

/-- Let a link point at something else. -/
def set (t : Table β ν) : Link β ν → Option ν → Table β ν
  | .bucket b, v => { t with head := Function.update t.head b v }
  | .node x, v => { t with next := Function.update t.next x v }

/-- Take a node out of its chain, if it is in one; its `next` pointer is left dangling. -/
def unlink (t : Table β ν) (x : ν) : Table β ν :=
  match t.pprev x with
  | none => t
  | some lk =>
    let t' := match t.next x with
      | some y => t.setPprev y (some lk)
      | none => t
    (t'.set lk (t.next x)).setPprev x none

/-- Put a node in front of the chain of a bucket. -/
def insert (t : Table β ν) (b : β) (x : ν) : Table β ν :=
  let t₁ := t.set (.node x) (t.head b)
  let t₂ := match t.head b with
    | some y => t₁.setPprev y (some (.node x))
    | none => t₁
  (t₂.set (.bucket b) (some x)).setPprev x (some (.bucket b))

@[simp]
theorem get_set (t : Table β ν) (lk lk' : Link β ν) (v : Option ν) :
    (t.set lk v).get lk' = if lk' = lk then v else t.get lk' := by
  cases lk <;> cases lk' <;> simp [set, get, Function.update_apply]

@[simp]
theorem pprev_set (t : Table β ν) (lk : Link β ν) (v : Option ν) :
    (t.set lk v).pprev = t.pprev := by
  cases lk <;> rfl

/-- `unlink` changes what one link points at: the one that pointed at the node. -/
theorem get_unlink (t : Table β ν) (x : ν) (lk : Link β ν) :
    (t.unlink x).get lk = if t.pprev x = some lk then t.next x else t.get lk := by
  unfold unlink
  cases hp : t.pprev x with
  | none => simp
  | some lk' => cases hn : t.next x <;> simp [eq_comm]

/-- `unlink` changes the `pprev` of the node and of the node after it. -/
theorem pprev_unlink (t : Table β ν) (x y : ν) :
    (t.unlink x).pprev y =
      if y = x then none
      else if t.pprev x ≠ none ∧ t.next x = some y then t.pprev x else t.pprev y := by
  unfold unlink
  cases hp : t.pprev x with
  | none =>
    by_cases hyx : y = x
    · simp [hyx, hp]
    · simp [hyx]
  | some lk => cases hn : t.next x <;> simp [eq_comm]

/-- A node that is in no chain is left alone. -/
theorem unlink_of_pprev_eq_none {t : Table β ν} {x : ν} (h : t.pprev x = none) :
    t.unlink x = t := by
  rw [unlink, h]

@[simp]
theorem unlink_unlink (t : Table β ν) (x : ν) : (t.unlink x).unlink x = t.unlink x :=
  unlink_of_pprev_eq_none (by rw [pprev_unlink, if_pos rfl])

theorem get_insert (t : Table β ν) (b : β) (x : ν) (lk : Link β ν) :
    (t.insert b x).get lk =
      if lk = .bucket b then some x else if lk = .node x then t.head b else t.get lk := by
  unfold insert
  cases hb : t.head b <;> simp

theorem pprev_insert (t : Table β ν) (b : β) (x y : ν) :
    (t.insert b x).pprev y =
      if y = x then some (.bucket b)
      else if t.head b = some y then some (.node x) else t.pprev y := by
  unfold insert
  cases hb : t.head b <;> simp [eq_comm]

theorem next_unlink (t : Table β ν) (x y : ν) :
    (t.unlink x).next y = if t.pprev x = some (.node y) then t.next x else t.next y :=
  get_unlink t x (.node y)

theorem next_insert (t : Table β ν) (b : β) (x y : ν) :
    (t.insert b x).next y = if y = x then t.head b else t.next y := by
  refine (get_insert t b x (.node y)).trans ?_
  simp [get]

end Operations

/-! ### Well-formed tables -/

/-- A table is well formed for the keys `key` and the chains `chain` when following each
bucket visits its chain, and the chain of a bucket holds exactly the nodes that are in the
table and whose key is the bucket. -/
structure Wf (t : Table β ν) (key : ν → β) (chain : β → List ν) : Prop where
  path : ∀ b, t.Path (.bucket b) (chain b)
  mem_iff : ∀ b x, x ∈ chain b ↔ t.pprev x ≠ none ∧ key x = b

namespace Wf

variable {t : Table β ν} {key : ν → β} {chain : β → List ν}

theorem nodup (h : t.Wf key chain) (b : β) : (chain b).Nodup :=
  (h.path b).nodup fun _ _ => by simp

/-- The chain of a bucket is no longer than the number of nodes there are. -/
theorem length_le [Fintype ν] (h : t.Wf key chain) (b : β) :
    (chain b).length ≤ Fintype.card ν :=
  (h.nodup b).length_le_card

/-- The link that points at a node of the table belongs to the node's own chain. -/
theorem pprev_cases (h : t.Wf key chain) {x : ν} {lk : Link β ν} (hx : t.pprev x = some lk) :
    lk = .bucket (key x) ∨ ∃ y ∈ chain (key x), lk = .node y := by
  have hmem : x ∈ chain (key x) := (h.mem_iff _ _).mpr ⟨by rw [hx]; simp, rfl⟩
  rcases (h.path _).pprev_mem hmem with h | ⟨y, hy, h⟩
  · exact Or.inl (Option.some.inj (hx.symm.trans h))
  · exact Or.inr ⟨y, hy, Option.some.inj (hx.symm.trans h)⟩

/-- Chains of different buckets have no node in common. -/
theorem disjoint (h : t.Wf key chain) {b b' : β} (hb : b ≠ b') {x : ν} (hx : x ∈ chain b) :
    x ∉ chain b' :=
  fun hx' => hb (((h.mem_iff _ _).mp hx).2.symm.trans ((h.mem_iff _ _).mp hx').2)

/-- The node after a node of the table is in the same chain. -/
theorem next_mem (h : t.Wf key chain) {x y : ν} (hx : t.pprev x ≠ none)
    (hy : t.next x = some y) : y ∈ chain (key x) ∧ y ≠ x := by
  have hmem : x ∈ chain (key x) := (h.mem_iff _ _).mpr ⟨hx, rfl⟩
  obtain ⟨l₁, l₂, hl⟩ := List.append_of_mem hmem
  have hpath := h.path (key x)
  have hnd := h.nodup (key x)
  rw [hl] at hpath hnd
  rw [hpath.next_eq] at hy
  have hy₂ : y ∈ l₂ := List.mem_of_mem_head? hy
  refine ⟨by rw [hl]; simp [hy₂], ?_⟩
  rintro rfl
  exact (List.nodup_cons.mp (List.nodup_append.mp hnd).2.1).1 hy₂

/-- **A search of a bucket finds the first node of its chain that meets the test**, given
as much fuel as there are nodes. -/
theorem find [Fintype ν] (h : t.Wf key chain) (p : ν → Bool) (b : β) :
    t.find p (Fintype.card ν) (t.head b) = some ((chain b).find? p) :=
  (h.path b).find p (h.length_le b)

/-- The empty table. -/
theorem empty (key : ν → β) :
    (⟨fun _ => none, fun _ => none, fun _ => none⟩ : Table β ν).Wf key fun _ => [] :=
  ⟨fun _ => rfl, fun b x => by simp⟩

/-- Only the keys of the nodes in the table matter. -/
theorem congr_key (h : t.Wf key chain) {key' : ν → β}
    (hkey : ∀ x, t.pprev x ≠ none → key' x = key x) : t.Wf key' chain :=
  ⟨h.path, fun b x => by
    rw [h.mem_iff]
    exact and_congr_right fun hx => by rw [hkey x hx]⟩

end Wf

/-! ### The operations keep tables well formed -/

variable [DecidableEq β] [DecidableEq ν]

/-- The surgery of `unlink` on the path that contains the node. -/
private theorem Path.unlink {t : Table β ν} {x : ν} {lk : Link β ν} {l₁ l₂ : List ν}
    (h : t.Path lk (l₁ ++ x :: l₂)) (hnd : (l₁ ++ x :: l₂).Nodup)
    (hlk : ∀ y ∈ l₁ ++ x :: l₂, lk ≠ .node y) : (t.unlink x).Path lk (l₁ ++ l₂) := by
  induction l₁ generalizing lk with
  | nil =>
    obtain ⟨h1, h2, h3⟩ := h
    have hget : (t.unlink x).get lk = t.next x := by rw [get_unlink, if_pos h2]
    obtain ⟨hx, hnd⟩ := List.nodup_cons.mp hnd
    cases l₂ with
    | nil => exact hget.trans h3
    | cons y l₂ =>
      obtain ⟨h3, h4, h5⟩ := h3
      obtain ⟨hy, -⟩ := List.nodup_cons.mp hnd
      have hyx : y ≠ x := fun e => hx (e ▸ List.mem_cons_self)
      have hnext : ∀ z ∈ y :: l₂, (t.unlink x).next z = t.next z := by
        intro z hz
        rw [next_unlink, if_neg]
        rw [h2]
        exact fun e => hlk z (List.mem_cons_of_mem _ hz) (Option.some.inj e)
      refine ⟨hget.trans h3, ?_, h5.congr (hnext y List.mem_cons_self)
        (fun z hz => hnext z (List.mem_cons_of_mem _ hz)) fun z hz => ?_⟩
      · rw [pprev_unlink, if_neg hyx, if_pos ⟨by rw [h2]; simp, h3⟩, h2]
      · have hzx : z ≠ x := fun e => hx (e ▸ List.mem_cons_of_mem _ hz)
        have hzy : ¬(t.pprev x ≠ none ∧ t.next x = some z) := fun ⟨_, e⟩ =>
          hy (Option.some.inj (h3.symm.trans e) ▸ hz)
        rw [pprev_unlink, if_neg hzx, if_neg hzy]
  | cons a l₁ ih =>
    obtain ⟨h1, h2, h3⟩ := h
    obtain ⟨ha, hnd'⟩ := List.nodup_cons.mp hnd
    have hxmem : x ∈ l₁ ++ x :: l₂ := by simp
    have hax : a ≠ x := fun e => ha (e ▸ hxmem)
    -- the link to `x` is a node of this path, so it is not `lk`
    have hpx : t.pprev x ≠ some lk := by
      intro e
      rcases h3.pprev_mem hxmem with h | ⟨y, hy, h⟩
      · exact hlk a List.mem_cons_self (Option.some.inj (e.symm.trans h))
      · exact hlk y (List.mem_cons_of_mem _ hy) (Option.some.inj (e.symm.trans h))
    have hnext : t.next x ≠ some a := by
      rw [h3.next_eq]
      intro e
      exact ha (List.mem_append_right _ (List.mem_cons_of_mem _ (List.mem_of_mem_head? e)))
    refine ⟨?_, ?_, ih h3 hnd' fun y hy e => ha (Link.node.inj e ▸ hy)⟩
    · rw [get_unlink, if_neg hpx, h1]
    · rw [pprev_unlink, if_neg hax, if_neg fun h => hnext h.2, h2]

/-- **Unlinking keeps the table well formed**, for any new key of the unlinked node. -/
theorem Wf.unlink {t : Table β ν} {key key' : ν → β} {chain : β → List ν}
    (h : t.Wf key chain) (x : ν) (hkey : ∀ y, y ≠ x → key' y = key y) :
    (t.unlink x).Wf key' fun b => (chain b).erase x := by
  by_cases hx : t.pprev x = none
  · have hnot : ∀ b, x ∉ chain b := fun b hb => ((h.mem_iff b x).mp hb).1 hx
    have ht : t.unlink x = t := by unfold Table.unlink; rw [hx]
    have hc : (fun b => (chain b).erase x) = chain :=
      funext fun b => List.erase_of_not_mem (hnot b)
    rw [ht, hc]
    exact h.congr_key fun y hy => hkey y fun e => hy (e ▸ hx)
  obtain ⟨lk, hlk⟩ := Option.ne_none_iff_exists'.mp hx
  have hmem : x ∈ chain (key x) := (h.mem_iff _ _).mpr ⟨hx, rfl⟩
  refine ⟨fun b => ?_, fun b y => ?_⟩
  · by_cases hb : b = key x
    · subst hb
      obtain ⟨l₁, l₂, hl⟩ := List.append_of_mem hmem
      have hpath := h.path (key x)
      have hnd := h.nodup (key x)
      rw [hl] at hpath hnd
      have hx₁ : x ∉ l₁ := fun h₁ =>
        (List.nodup_append.mp hnd).2.2 x h₁ x List.mem_cons_self rfl
      rw [hl, List.erase_append_right _ hx₁, List.erase_cons_head]
      exact hpath.unlink hnd fun _ _ => by simp
    · have hxb : x ∉ chain b := h.disjoint (Ne.symm hb) hmem
      rw [List.erase_of_not_mem hxb]
      -- the pointers that change belong to the chain of `x`
      refine (h.path b).congr ?_ (fun y hy => ?_) fun y hy => ?_
      · rw [get_unlink, if_neg]
        intro e
        rcases h.pprev_cases e with e | ⟨y, -, e⟩
        · exact hb (Link.bucket.inj e)
        · exact absurd e (by simp)
      · rw [next_unlink, if_neg]
        intro e
        rcases h.pprev_cases e with e | ⟨z, hz, e⟩
        · exact absurd e (by simp)
        · exact h.disjoint hb hy (Link.node.inj e ▸ hz)
      · rw [pprev_unlink, if_neg fun e : y = x => hxb (e ▸ hy), if_neg]
        exact fun ⟨_, e⟩ => h.disjoint hb hy (h.next_mem hx e).1
  · rw [(h.nodup b).mem_erase_iff, h.mem_iff, pprev_unlink]
    by_cases hyx : y = x
    · simp [hyx]
    · rw [if_neg hyx, hkey y hyx]
      have hne : (if t.pprev x ≠ none ∧ t.next x = some y then t.pprev x else t.pprev y) ≠ none ↔
          t.pprev y ≠ none := by
        split_ifs with hn
        · exact iff_of_true hn.1 ((h.mem_iff _ _).mp (h.next_mem hx hn.2).1).1
        · exact Iff.rfl
      rw [hne]
      tauto

/-- **Inserting keeps the table well formed**: a node that is not in the table goes to the
front of the chain of its key. -/
theorem Wf.insert {t : Table β ν} {key : ν → β} {chain : β → List ν} (h : t.Wf key chain)
    {x : ν} (hx : t.pprev x = none) :
    (t.insert (key x) x).Wf key (Function.update chain (key x) (x :: chain (key x))) := by
  have hnot : ∀ b, x ∉ chain b := fun b hb => ((h.mem_iff b x).mp hb).1 hx
  have hnext : ∀ b, ∀ y ∈ chain b, (t.insert (key x) x).next y = t.next y := fun b y hy => by
    rw [next_insert, if_neg fun e : y = x => hnot b (e ▸ hy)]
  have hfirst : t.head (key x) = (chain (key x)).head? := by
    have hpath := h.path (key x)
    cases hc : chain (key x) with
    | nil => rw [hc] at hpath; exact hpath
    | cons y l => rw [hc] at hpath; exact hpath.1
  refine ⟨fun b => ?_, fun b y => ?_⟩
  · by_cases hb : b = key x
    · subst hb
      rw [Function.update_self]
      refine ⟨by rw [get_insert, if_pos rfl], by rw [pprev_insert, if_pos rfl],
        (h.path _).relink ?_ (fun y hy => ?_) (hnext _) fun y hy => ?_⟩
      · rw [get_insert, if_neg (by simp), if_pos rfl]
        rfl
      · have hyx : y ≠ x := fun e => hnot _ (e ▸ List.mem_of_mem_head? hy)
        rw [pprev_insert, if_neg hyx, hfirst, if_pos hy]
      · have hyx : y ≠ x := fun e => hnot _ (e ▸ List.mem_of_mem_tail hy)
        have hyh : t.head (key x) ≠ some y := by
          rw [hfirst]
          intro e
          have hnd := h.nodup (key x)
          cases hc : chain (key x) with
          | nil => simp [hc] at hy
          | cons z l =>
            rw [hc] at hnd hy e
            obtain rfl : z = y := Option.some.inj e
            exact (List.nodup_cons.mp hnd).1 hy
        rw [pprev_insert, if_neg hyx, if_neg hyh]
    · rw [Function.update_of_ne hb]
      refine (h.path b).congr ?_ (hnext b) fun y hy => ?_
      · rw [get_insert, if_neg (by simpa using hb), if_neg (by simp)]
      · have hyh : t.head (key x) ≠ some y := by
          rw [hfirst]
          exact fun e => h.disjoint hb hy (List.mem_of_mem_head? e)
        rw [pprev_insert, if_neg fun e : y = x => hnot b (e ▸ hy), if_neg hyh]
  · have hne : (t.insert (key x) x).pprev y ≠ none ↔ y = x ∨ t.pprev y ≠ none := by
      rw [pprev_insert]
      split_ifs with hyx hyh
      · simp [hyx]
      · have hy : y ∈ chain (key x) := List.mem_of_mem_head? (hfirst ▸ hyh)
        simp [((h.mem_iff _ _).mp hy).1]
      · simp [hyx]
    rw [hne]
    by_cases hb : b = key x
    · subst hb
      rw [Function.update_self, List.mem_cons, h.mem_iff]
      by_cases hyx : y = x <;> simp [hyx]
    · rw [Function.update_of_ne hb, h.mem_iff]
      by_cases hyx : y = x
      · subst hyx
        simp [hx, Ne.symm hb]
      · simp [hyx]

/-- The nodes in the table after unlinking one. -/
theorem Wf.pprev_unlink_ne_none {t : Table β ν} {key : ν → β} {chain : β → List ν}
    (h : t.Wf key chain) (x y : ν) :
    (t.unlink x).pprev y ≠ none ↔ y ≠ x ∧ t.pprev y ≠ none := by
  have h' := (h.unlink x fun _ _ => rfl).mem_iff (key y) y
  rw [(h.nodup _).mem_erase_iff, h.mem_iff] at h'
  simpa using h'.symm

/-- The nodes in the table after inserting one. -/
theorem Wf.pprev_insert_ne_none {t : Table β ν} {key : ν → β} {chain : β → List ν}
    (h : t.Wf key chain) {x : ν} (hx : t.pprev x = none) (y : ν) :
    (t.insert (key x) x).pprev y ≠ none ↔ y = x ∨ t.pprev y ≠ none := by
  by_cases hyx : y = x
  · simp [pprev_insert, hyx]
  · have h' := (h.insert hx).mem_iff (key y) y
    have hmem : y ∈ Function.update chain (key x) (x :: chain (key x)) (key y) ↔
        y ∈ chain (key y) := by
      by_cases hk : key y = key x
      · simp [hk, hyx]
      · rw [Function.update_of_ne hk]
    rw [hmem, h.mem_iff] at h'
    simpa [hyx] using h'.symm

end Table

end PprevChain
