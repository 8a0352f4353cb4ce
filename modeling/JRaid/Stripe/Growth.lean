import JRaid.ForMathlib.Ledger
import JRaid.Stripe.Cache
import Mathlib.Data.List.TakeWhile

/-!
# Filling and emptying the pool when memory is short

`grow_stripes` allocates a slab cache, the stripes, and a page for each device of a stripe, and can
be refused any of them; `shrink_stripes` takes the free stripes and releases what they have. Here
the two come with a ledger of what they acquire and release. If nothing is refused the pool is the
one that `Cache.growStripes` builds.

A page goes to the first `raid_disks` devices of a stripe, but `shrink_stripes` looks for pages on
the first `jraid_disks`, and that is the number of members when the array was started. With fewer
members than disks the pages of the last devices are left behind, and with more the loop runs past
the end of the stripe (`balanced_iff`).
-/

namespace JRaid

open Ledger

/-- What a start of the array acquires. -/
inductive Resource (N : ℕ) where
  | conf
  | hashtbl
  | thread
  | resyncThread
  | slabCache
  | stripe (sh : Fin N)
  | page (sh : Fin N) (i : ℕ)
  deriving DecidableEq

/-- What the kernel answers during `grow_stripes`. -/
structure GrowEnv (N : ℕ) where
  /-- `kmem_cache_create` -/
  slabCache : Bool
  /-- `kmem_cache_alloc`, for each stripe -/
  stripe : Fin N → Bool
  /-- `alloc_page`, for each device of each stripe, and what the page holds -/
  page : Fin N → ℕ → Option Page

/-- All that a stripe of `devs` devices asks for is granted. -/
def GrowEnv.grants {N : ℕ} (env : GrowEnv N) (devs : ℕ) (sh : Fin N) : Bool :=
  env.stripe sh && (List.range devs).all fun i => (env.page sh i).isSome

/-- What the pages hold. -/
def GrowEnv.pages {N : ℕ} (env : GrowEnv N) (sh : Fin N) (i : ℕ) : Page :=
  (env.page sh i).getD fun _ => 0

/-- The stripes that are built: those in front of the first that does not get all it asks for. -/
def GrowEnv.granted {N : ℕ} (env : GrowEnv N) (devs : ℕ) : List (Fin N) :=
  if env.slabCache then (List.finRange N).takeWhile (env.grants devs) else []

/-- Nothing is refused. -/
def GrowEnv.grantsAll {N : ℕ} (env : GrowEnv N) (devs : ℕ) : Bool :=
  env.slabCache && (List.finRange N).all (env.grants devs)

/-- Something that belongs to a stripe. -/
def Resource.Of {N : ℕ} (sh : Fin N) : Resource N → Prop
  | .stripe sh' => sh' = sh
  | .page sh' _ => sh' = sh
  | _ => False

namespace Growth

variable {N : ℕ} {τ : Type}

/-! ### The buffers of a stripe -/

/-- The loop of `grow_buffers` over the devices `i` in a list: whether it comes to the end, the
stripe, and what has been acquired. -/
def growBuffers (page : ℕ → Option Page) (sh : Fin N) :
    List ℕ → StripeHead N τ → Bool × StripeHead N τ × List (Entry (Resource N))
  | [], s => (true, s, [])
  | i :: rest, s =>
    match page i with
    | none => (false, s, [])
    | some p =>
      let r := growBuffers page sh rest
        { s with dev := Function.update s.dev i { s.dev i with page := some p } }
      (r.1, r.2.1, .acquire (.page sh i) :: r.2.2)

/-- The loop of `shrink_buffers`. A stripe has `devs` devices; nothing is known of what the loop
finds behind them. -/
def shrinkBuffers (devs : ℕ) (sh : Fin N) :
    List ℕ → StripeHead N τ → Option (StripeHead N τ × List (Entry (Resource N)))
  | [], s => some (s, [])
  | i :: rest, s =>
    if devs ≤ i then none
    else if (s.dev i).page.isNone then shrinkBuffers devs sh rest s
    else
      (shrinkBuffers devs sh rest
        { s with dev := Function.update s.dev i { s.dev i with page := none } }).map fun r =>
          (r.1, .release (.page sh i) :: r.2)

/-! ### `grow_stripes` and `shrink_stripes` -/

/-- One pass of the loop in `grow_stripes`. -/
def growStripe (conf : JRaid5Conf) (env : GrowEnv N) (c : Cache N τ) (sh : Fin N) :
    Option (Bool × Cache N τ × List (Entry (Resource N))) :=
  if !env.stripe sh then some (false, c, [])
  else
    let r := growBuffers (env.page sh) sh (List.range conf.numDisks) StripeHead.zero
    if !r.1 then
      (shrinkBuffers conf.numDisks sh (List.range conf.numDisks) r.2.1).map fun q =>
        (false, c, .acquire (.stripe sh) :: (r.2.2 ++ (q.2 ++ [.release (.stripe sh)])))
    else
      let c := c.modify sh fun _ => r.2.1
      let c := c.modify sh fun s => { s with count := 1 }
      let c := { c with activeStripes := c.activeStripes + 1 }
      some (true, c.releaseStripe sh, .acquire (.stripe sh) :: r.2.2)

/-- That loop: whether it comes to the end. -/
def growLoop (conf : JRaid5Conf) (env : GrowEnv N) :
    List (Fin N) → Cache N τ → Option (Bool × Cache N τ × List (Entry (Resource N)))
  | [], c => some (true, c, [])
  | sh :: rest, c =>
    match growStripe conf env c sh with
    | none => none
    | some (false, c, log) => some (false, c, log)
    | some (true, c, log) =>
      (growLoop conf env rest c).map fun r => (r.1, r.2.1, log ++ r.2.2)

/-- `grow_stripes`. -/
def growStripes (τ : Type) (conf : JRaid5Conf) (env : GrowEnv N) :
    Option (Bool × Cache N τ × List (Entry (Resource N))) :=
  if !env.slabCache then some (false, Cache.empty, [])
  else
    (growLoop conf env (List.finRange N) Cache.empty).map fun r =>
      (r.1, r.2.1, .acquire .slabCache :: r.2.2)

/-- `shrink_stripes`, for stripes of `devs` devices. -/
def shrinkStripes (devs jraidDisks : ℕ) :
    ℕ → Cache N τ → Option (Cache N τ × List (Entry (Resource N)))
  | 0, c => some (c, [])
  | num + 1, c =>
    match c.getFreeStripe with
    | (none, c) => some (c, [])
    | (some sh, c) =>
      let c := c.printIf ((c.stripe sh).count ≠ 0) .shrinkCount
      match shrinkBuffers devs sh (List.range jraidDisks) (c.stripe sh) with
      | none => none
      | some (s, log) =>
        let c := c.modify sh fun _ => s
        (shrinkStripes devs jraidDisks num { c with activeStripes := c.activeStripes - 1 }).map
          fun r => (r.1, log ++ .release (.stripe sh) :: r.2)

/-! ### What the loops over the buffers do -/

/-- **What `grow_buffers` does**: it fills the devices in front of the first page that it does not
get. -/
theorem growBuffers_eq (page : ℕ → Option Page) (sh : Fin N) (l : List ℕ) (s : StripeHead N τ) :
    growBuffers page sh l s =
      (l.all fun i => (page i).isSome,
        { s with dev := fun i => if i ∈ l.takeWhile (fun i => (page i).isSome) then
            { s.dev i with page := page i } else s.dev i },
        (l.takeWhile fun i => (page i).isSome).map fun i => .acquire (.page sh i)) := by
  induction l generalizing s with
  | nil => rfl
  | cons i l ih =>
    rw [growBuffers]
    cases hp : page i with
    | none => simp [hp]
    | some p =>
      simp only [ih, List.all_cons, hp, Option.isSome_some, Bool.true_and, List.takeWhile_cons,
        ↓reduceIte, List.map_cons, List.mem_cons, Prod.mk.injEq, true_and, and_true]
      congr 1
      funext j
      by_cases hj : j = i
      · rw [hj]
        simp [hp]
      · simp [hj]

/-- **What `shrink_buffers` does** to devices that exist. -/
theorem shrinkBuffers_eq {devs : ℕ} (sh : Fin N) {l : List ℕ} (hnodup : l.Nodup)
    (hl : ∀ i ∈ l, i < devs) (s : StripeHead N τ) :
    shrinkBuffers devs sh l s = some
      ({ s with dev := fun i => if i ∈ l then { s.dev i with page := none } else s.dev i },
        (l.filter fun i => (s.dev i).page.isSome).map fun i => .release (.page sh i)) := by
  induction l generalizing s with
  | nil => simp [shrinkBuffers]
  | cons i l ih =>
    obtain ⟨hi, hnodup⟩ := List.nodup_cons.mp hnodup
    have hrest := ih hnodup fun j hj => hl j (List.mem_cons_of_mem _ hj)
    rw [shrinkBuffers, if_neg (Nat.not_le.mpr (hl i List.mem_cons_self))]
    cases hp : (s.dev i).page with
    | none =>
      have hsame : { s.dev i with page := none } = s.dev i := by rw [← hp]
      simp only [Option.isNone_none, ↓reduceIte, hrest, List.filter_cons, hp, Option.isSome_none,
        Bool.false_eq_true, Option.some.injEq, Prod.mk.injEq, and_true]
      congr 1
      funext j
      by_cases hj : j = i
      · rw [hj, if_neg hi, if_pos List.mem_cons_self, hsame]
      · simp [hj]
    | some p =>
      have hfilter : (l.filter fun j => (Function.update s.dev i
            { s.dev i with page := none } j).page.isSome) =
          l.filter fun j => (s.dev j).page.isSome := by
        refine List.filter_congr fun j hj => ?_
        have hji : j ≠ i := fun hji => hi (hji ▸ hj)
        rw [Function.update_of_ne hji]
      simp only [Option.isNone_some, Bool.false_eq_true, ↓reduceIte, hrest, Option.map_some,
        List.filter_cons, hp, Option.isSome_some, hfilter, List.map_cons, Option.some.injEq,
        Prod.mk.injEq, and_true]
      congr 1
      funext j
      by_cases hj : j = i
      · rw [hj, if_neg hi, if_pos List.mem_cons_self, Function.update_self]
      · simp [hj]

/-- With a device that does not exist the loop leaves the stripe. -/
theorem shrinkBuffers_eq_none {devs : ℕ} (sh : Fin N) {l : List ℕ} {i : ℕ} (hi : i ∈ l)
    (hdevs : devs ≤ i) (s : StripeHead N τ) : shrinkBuffers devs sh l s = none := by
  induction l generalizing s with
  | nil => exact absurd hi List.not_mem_nil
  | cons j l ih =>
    rw [shrinkBuffers]
    by_cases hj : devs ≤ j
    · exact if_pos hj
    have hmem : i ∈ l := (List.mem_cons.mp hi).resolve_left fun hij => hj (hij ▸ hdevs)
    rw [if_neg hj, ih hmem, ih hmem]
    split <;> rfl

/-! ### What stripes hold -/

/-- The stripes in `l`, and their pages for the devices in front of `n`. -/
def stock (n : ℕ) (l : List (Fin N)) : Set (Resource N) :=
  {x | match x with
    | .stripe sh => sh ∈ l
    | .page sh i => sh ∈ l ∧ i < n
    | _ => False}

/-- The pages of the stripes in `l` for the devices from `m` to `n - 1`. -/
def leftover (m n : ℕ) (l : List (Fin N)) : Set (Resource N) :=
  {x | match x with
    | .page sh i => sh ∈ l ∧ m ≤ i ∧ i < n
    | _ => False}

theorem nodup_map_page (sh : Fin N) {l : List ℕ} (h : l.Nodup) :
    (l.map (Resource.page sh)).Nodup :=
  h.map fun _ _ hij => (Resource.page.inj hij).2

theorem stock_nil (n : ℕ) : stock n ([] : List (Fin N)) = ∅ := by
  ext x
  cases x <;> simp [stock]

theorem leftover_nil (m n : ℕ) : leftover m n ([] : List (Fin N)) = ∅ := by
  ext x
  cases x <;> simp [leftover]

theorem stock_append (n : ℕ) (l l' : List (Fin N)) :
    stock n (l ++ l') = stock n l ∪ stock n l' := by
  ext x
  cases x <;> simp [stock, or_and_right]

theorem leftover_append (m n : ℕ) (l l' : List (Fin N)) :
    leftover m n (l ++ l') = leftover m n l ∪ leftover m n l' := by
  ext x
  cases x <;> simp [leftover, or_and_right]

/-- The entries for a stripe that gets all it asks for. -/
def stockLog (n : ℕ) (sh : Fin N) : List (Entry (Resource N)) :=
  .acquire (.stripe sh) :: (List.range n).map fun i => .acquire (.page sh i)

/-- What a stripe acquires belongs to it. -/
theorem of_mem_stockLog {sh : Fin N} {n : ℕ} {x : Resource N} (h : .acquire x ∈ stockLog n sh) :
    x.Of sh := by
  simp only [stockLog, List.mem_cons, Entry.acquire.injEq, List.mem_map] at h
  rcases h with rfl | ⟨i, -, rfl⟩
  · rfl
  · rfl

/-- A stripe with its pages. -/
theorem leads_stock (sh : Fin N) (n : ℕ) : Leads ∅ (stockLog n sh) (stock n [sh]) := by
  refine ⟨Set.notMem_empty _, ?_⟩
  have h := Leads.acquires (s := insert (Resource.stripe sh) ∅)
    (nodup_map_page sh List.nodup_range (l := List.range n)) fun x hx => by
      obtain ⟨i, -, rfl⟩ := List.mem_map.mp hx
      simp
  have heq : stock n [sh] =
      insert (Resource.stripe sh) ∅ ∪ {x | x ∈ (List.range n).map (Resource.page sh)} := by
    ext x
    cases x <;> simp [stock, eq_comm, and_comm]
  rw [List.map_map] at h
  rwa [heq]

/-- A stripe for which a page is missing gives back what it has got. -/
theorem leads_undone (sh : Fin N) {got rel : List ℕ} (hgot : got.Nodup) (hrel : rel.Nodup)
    (h : ∀ i, i ∈ rel ↔ i ∈ got) :
    Leads (∅ : Set (Resource N)) (.acquire (.stripe sh) ::
      (got.map (fun i => .acquire (.page sh i)) ++
        (rel.map (fun i => .release (.page sh i)) ++ [.release (.stripe sh)]))) ∅ := by
  refine ⟨Set.notMem_empty _, ?_⟩
  have hacquire := Leads.acquires (s := insert (Resource.stripe sh) ∅)
    (nodup_map_page sh hgot) fun x hx => by
      obtain ⟨i, -, rfl⟩ := List.mem_map.mp hx
      simp
  have hrelease := Leads.releases
    (s := insert (Resource.stripe sh) ∅ ∪ {x | x ∈ got.map (Resource.page sh)})
    (nodup_map_page sh hrel) fun x hx => by
      obtain ⟨i, hi, rfl⟩ := List.mem_map.mp hx
      exact Or.inr (List.mem_map_of_mem ((h i).mp hi))
  have hstripe : Resource.stripe sh ∈ (insert (Resource.stripe sh) ∅ ∪
      {x | x ∈ got.map (Resource.page sh)}) \ {x | x ∈ rel.map (Resource.page sh)} := by
    simp
  have hnothing : ((insert (Resource.stripe sh) ∅ ∪ {x | x ∈ got.map (Resource.page sh)}) \
      {x | x ∈ rel.map (Resource.page sh)}) \ {Resource.stripe sh} = ∅ := by
    ext x
    cases x <;> simp [h]
  rw [List.map_map] at hacquire hrelease
  have hall := hacquire.append (hrelease.append (Leads.release hstripe))
  rwa [hnothing] at hall

/-! ### What `grow_stripes` does -/

theorem notMem_stock {sh : Fin N} {x : Resource N} {l : List (Fin N)} (hx : x.Of sh)
    (hsh : sh ∉ l) (n : ℕ) : x ∉ stock n l := by
  cases x with
  | stripe sh' =>
    obtain rfl : sh' = sh := hx
    exact hsh
  | page sh' i =>
    obtain rfl : sh' = sh := hx
    exact fun h => hsh h.1
  | _ => exact hx.elim

/-- A stripe that gets all it asks for. -/
theorem growStripe_of_grants {conf : JRaid5Conf} {env : GrowEnv N} {sh : Fin N}
    (h : env.grants conf.numDisks sh = true) (c : Cache N τ) :
    growStripe conf env c sh =
      some (true, Cache.growStripe conf env.pages c sh, stockLog conf.numDisks sh) := by
  obtain ⟨hstripe, hpages⟩ := Bool.and_eq_true_iff.mp h
  have hall : (List.range conf.numDisks).takeWhile (fun i => (env.page sh i).isSome) =
      List.range conf.numDisks :=
    List.takeWhile_eq_self_iff.mpr (List.all_eq_true.mp hpages)
  have hbuffers : growBuffers (env.page sh) sh (List.range conf.numDisks) StripeHead.zero =
      (true, Cache.growBuffers (τ := τ) conf.numDisks (env.pages sh) StripeHead.zero,
        (List.range conf.numDisks).map fun i => .acquire (.page sh i)) := by
    rw [growBuffers_eq, hpages, hall]
    congr 3
    funext i
    by_cases hi : i < conf.numDisks
    · obtain ⟨p, hp⟩ := Option.isSome_iff_exists.mp
        (List.all_eq_true.mp hpages i (List.mem_range.mpr hi))
      simp [hi, GrowEnv.pages, hp]
    · simp [hi]
  simp only [growStripe, hstripe, hbuffers]
  rfl

/-- A stripe that does not get all leaves nothing behind. -/
theorem growStripe_of_not_grants {conf : JRaid5Conf} {env : GrowEnv N} {sh : Fin N}
    (h : env.grants conf.numDisks sh = false) (c : Cache N τ) :
    ∃ log, growStripe conf env c sh = some (false, c, log) ∧ Leads ∅ log ∅ ∧
      ∀ x, .acquire x ∈ log → x.Of sh := by
  rw [growStripe]
  cases hstripe : env.stripe sh with
  | false =>
    exact ⟨[], rfl, Leads.nil _, fun x hx => absurd hx List.not_mem_nil⟩
  | true =>
    have hpages : ((List.range conf.numDisks).all fun i => (env.page sh i).isSome) = false := by
      rwa [GrowEnv.grants, hstripe, Bool.true_and] at h
    rw [growBuffers_eq, hpages]
    simp only [Bool.not_true, Bool.false_eq_true, ↓reduceIte, Bool.not_false]
    rw [shrinkBuffers_eq sh List.nodup_range fun i hi => List.mem_range.mp hi]
    refine ⟨_, rfl, ?_, ?_⟩
    · refine leads_undone sh ?_ ?_ fun i => ?_
      · exact (List.takeWhile_prefix _).sublist.nodup List.nodup_range
      · exact List.nodup_range.filter _
      · rw [List.mem_filter]
        dsimp only
        constructor
        · rintro ⟨-, hsome⟩
          by_contra hno
          rw [if_neg hno] at hsome
          cases hsome
        · intro hi
          refine ⟨(List.takeWhile_prefix _).subset hi, ?_⟩
          rw [if_pos hi]
          exact List.mem_takeWhile_imp (p := fun i => (env.page sh i).isSome) hi
    · intro x hx
      simp only [List.mem_cons, Entry.acquire.injEq, List.mem_append, List.mem_map, reduceCtorEq,
        and_false, exists_false, List.not_mem_nil, or_self, or_false] at hx
      rcases hx with rfl | ⟨i, -, rfl⟩
      · rfl
      · rfl

/-- **What the loop of `grow_stripes` does**: it fills the stripes in front of the first that does
not get all it asks for, as if nothing were ever refused, and holds these and nothing else. -/
theorem growLoop_spec (conf : JRaid5Conf) (env : GrowEnv N) {todo done : List (Fin N)}
    (hnodup : (done ++ todo).Nodup) (c : Cache N τ) :
    ∃ log, growLoop conf env todo c = some (todo.all (env.grants conf.numDisks),
        (todo.takeWhile (env.grants conf.numDisks)).foldl (Cache.growStripe conf env.pages) c,
        log) ∧
      Leads (stock conf.numDisks done) log
        (stock conf.numDisks (done ++ todo.takeWhile (env.grants conf.numDisks))) ∧
      ∀ x, .acquire x ∈ log → ∃ sh, x.Of sh := by
  induction todo generalizing done c with
  | nil =>
    refine ⟨[], rfl, ?_, fun x hx => absurd hx List.not_mem_nil⟩
    rw [List.takeWhile_nil, List.append_nil]
    exact Leads.nil _
  | cons sh todo ih =>
    have hsh : sh ∉ done := fun h =>
      (List.nodup_append.mp hnodup).2.2 sh h sh List.mem_cons_self rfl
    -- the stripe acquires nothing that is held
    have hnew : ∀ {x : Resource N}, x.Of sh → x ∉ stock conf.numDisks done :=
      fun hx => notMem_stock hx hsh _
    have hnone : ∀ x ∈ (∅ : Set (Resource N)), x ∉ stock conf.numDisks done :=
      fun x hx => absurd hx (Set.notMem_empty x)
    cases hgrants : env.grants conf.numDisks sh with
    | false =>
      obtain ⟨log, hgrow, hleads, hof⟩ := growStripe_of_not_grants hgrants c
      refine ⟨log, ?_, ?_, fun x hx => ⟨sh, hof x hx⟩⟩
      · simp [growLoop, hgrow, hgrants]
      · have h := hleads.frame hnone fun x hx => hnew (hof x hx)
        rw [Set.empty_union] at h
        simpa [hgrants] using h
    | true =>
      have hgrow := growStripe_of_grants hgrants c
      have hnodup' : (done ++ [sh] ++ todo).Nodup := by simpa using hnodup
      obtain ⟨log, hrest, hleads, hof⟩ := ih hnodup' (Cache.growStripe conf env.pages c sh)
      refine ⟨stockLog conf.numDisks sh ++ log, ?_, ?_, fun x hx => ?_⟩
      · simp only [growLoop, hgrow, hrest, Option.map_some, List.all_cons, hgrants,
          Bool.true_and, List.takeWhile_cons, ↓reduceIte, List.foldl_cons]
      · have hone := (leads_stock sh conf.numDisks).frame hnone
          fun x hx => hnew (of_mem_stockLog hx)
        rw [Set.empty_union, Set.union_comm, ← stock_append] at hone
        have h := hone.append hleads
        rwa [List.takeWhile_cons, if_pos hgrants, ← List.singleton_append, ← List.append_assoc]
      · rcases List.mem_append.mp hx with hx | hx
        · exact ⟨sh, of_mem_stockLog hx⟩
        · exact hof x hx

theorem nodup_granted (env : GrowEnv N) (devs : ℕ) : (env.granted devs).Nodup := by
  rw [GrowEnv.granted]
  split_ifs
  · exact (List.takeWhile_prefix _).sublist.nodup (List.nodup_finRange N)
  · exact List.nodup_nil

theorem length_granted_le (env : GrowEnv N) (devs : ℕ) : (env.granted devs).length ≤ N := by
  rw [GrowEnv.granted]
  split_ifs
  · exact (List.takeWhile_prefix _).length_le.trans List.length_finRange.le
  · exact Nat.zero_le N

/-- No stripe is built if the slab cache or something for the first stripe is refused. -/
theorem granted_eq_nil_iff (env : GrowEnv N) (devs : ℕ) :
    env.granted devs = [] ↔
      env.slabCache = false ∨ ∀ h : 0 < N, env.grants devs ⟨0, h⟩ = false := by
  rw [GrowEnv.granted]
  cases env.slabCache with
  | false => simp
  | true =>
    cases N with
    | zero => simp
    | succ N =>
      rw [List.finRange_succ]
      simp [List.takeWhile_cons]

/-- What `grow_stripes` holds in the end. -/
def holdings (conf : JRaid5Conf) (env : GrowEnv N) : Set (Resource N) :=
  stock conf.numDisks (env.granted conf.numDisks) ∪ {x | x = .slabCache ∧ env.slabCache = true}

/-- The pool of the stripes that have been built. -/
def grown (τ : Type) (conf : JRaid5Conf) (env : GrowEnv N) : Cache N τ :=
  (env.granted conf.numDisks).foldl (Cache.growStripe conf env.pages) Cache.empty

theorem grown_eq (conf : JRaid5Conf) (env : GrowEnv N) :
    grown τ conf env = { (Cache.empty : Cache N τ) with
      stripe := fun sh => if sh ∈ env.granted conf.numDisks then
        Cache.growBuffers conf.numDisks (env.pages sh) StripeHead.zero else StripeHead.zero
      inactiveList := env.granted conf.numDisks } := by
  have hnodup : ((Cache.empty : Cache N τ).inactiveList ++ env.granted conf.numDisks).Nodup :=
    nodup_granted env conf.numDisks
  rw [grown, Cache.foldl_growStripe hnodup rfl rfl]
  rfl

/-- **What `grow_stripes` does**: it builds the stripes in front of the first that does not get all
it asks for and keeps the slab cache. -/
theorem growStripes_spec (τ : Type) (conf : JRaid5Conf) (env : GrowEnv N) :
    ∃ log, growStripes τ conf env = some (env.grantsAll conf.numDisks, grown τ conf env, log) ∧
      Leads ∅ log (holdings conf env) ∧
      ∀ x, .acquire x ∈ log → x = .slabCache ∨ ∃ sh, x.Of sh := by
  cases hslab : env.slabCache with
  | false =>
    have hgranted : env.granted conf.numDisks = [] := by simp [GrowEnv.granted, hslab]
    refine ⟨[], ?_, ?_, fun x hx => absurd hx List.not_mem_nil⟩
    · simp [growStripes, GrowEnv.grantsAll, grown, hgranted, hslab]
    · have hnothing : holdings conf env = ∅ := by
        simp [holdings, hgranted, hslab, stock_nil]
      rw [hnothing]
      exact Leads.nil _
  | true =>
    have hgranted : env.granted conf.numDisks =
        (List.finRange N).takeWhile (env.grants conf.numDisks) := by
      simp [GrowEnv.granted, hslab]
    have hnodup : ([] ++ List.finRange N).Nodup := List.nodup_finRange N
    obtain ⟨log, hgrow, hleads, hof⟩ := growLoop_spec conf env hnodup (Cache.empty : Cache N τ)
    refine ⟨.acquire .slabCache :: log, ?_, ?_, fun x hx => ?_⟩
    · simp [growStripes, hslab, hgrow, GrowEnv.grantsAll, grown, hgranted]
    · have hheld : holdings conf env =
          insert .slabCache (stock conf.numDisks (env.granted conf.numDisks)) := by
        simp [holdings, hslab, Set.union_singleton]
      have hno : .acquire Resource.slabCache ∉ log := fun hmem =>
        (hof _ hmem).elim fun _ hsh => hsh
      rw [hheld, hgranted]
      rw [stock_nil, List.nil_append] at hleads
      exact hleads.cons_acquire (Set.notMem_empty _) hno
    · rcases List.mem_cons.mp hx with hx | hx
      · exact Or.inl (Entry.acquire.inj hx)
      · exact Or.inr (hof x hx)

/-- If nothing is refused, this is the pool of `Cache.growStripes`. -/
theorem grown_of_grantsAll {conf : JRaid5Conf} {env : GrowEnv N}
    (h : env.grantsAll conf.numDisks = true) :
    grown τ conf env = Cache.growStripes N τ conf env.pages := by
  obtain ⟨hslab, hall⟩ := Bool.and_eq_true_iff.mp h
  rw [grown, Cache.growStripes, GrowEnv.granted, if_pos hslab,
    List.takeWhile_eq_self_iff.mpr (List.all_eq_true.mp hall)]

/-! ### What `shrink_stripes` does -/

/-- The entries for a stripe that is taken and gives back the pages of the devices in front of
`m`. -/
def unstockLog (m : ℕ) (sh : Fin N) : List (Entry (Resource N)) :=
  (List.range m).map (fun i => .release (.page sh i)) ++ [.release (.stripe sh)]

theorem leads_unstock (sh : Fin N) {m n : ℕ} (h : m ≤ n) :
    Leads (stock n [sh]) (unstockLog m sh) (leftover m n [sh]) := by
  have hpages := Leads.releases (s := stock n [sh])
    (nodup_map_page sh List.nodup_range (l := List.range m)) fun x hx => by
      obtain ⟨i, hi, rfl⟩ := List.mem_map.mp hx
      exact ⟨List.mem_singleton_self sh, (List.mem_range.mp hi).trans_le h⟩
  have hstripe : Resource.stripe sh ∈
      stock n [sh] \ {x | x ∈ (List.range m).map (Resource.page sh)} := by
    simp [stock]
  have hleft : (stock n [sh] \ {x | x ∈ (List.range m).map (Resource.page sh)}) \
      {Resource.stripe sh} = leftover m n [sh] := by
    ext x
    cases x with
    | page sh' i =>
      simp only [stock, leftover, Set.mem_sdiff, Set.mem_ofPred_eq, List.mem_singleton,
        List.mem_map, List.mem_range, Resource.page.injEq, Set.mem_singleton_iff, reduceCtorEq,
        not_false_eq_true, and_true]
      constructor
      · rintro ⟨⟨rfl, hi⟩, hno⟩
        exact ⟨rfl, not_lt.mp fun hlt => hno ⟨i, hlt, rfl, rfl⟩, hi⟩
      · rintro ⟨rfl, hm, hi⟩
        exact ⟨⟨rfl, hi⟩, fun ⟨j, hj, _, hji⟩ => absurd (hji ▸ hj) (not_lt.mpr hm)⟩
    | stripe sh' => simp [stock, leftover]
    | _ => simp [stock, leftover]
  rw [List.map_map] at hpages
  have hall := hpages.append (Leads.release hstripe)
  rwa [hleft] at hall

/-- Nothing is acquired when a stripe is taken. -/
theorem acquire_notMem_unstockLog (m : ℕ) (sh : Fin N) (x : Resource N) :
    .acquire x ∉ unstockLog m sh := by
  simp [unstockLog]

theorem of_mem_stock {sh : Fin N} {n : ℕ} {x : Resource N} (h : x ∈ stock n [sh]) : x.Of sh := by
  cases x with
  | stripe sh' => exact List.mem_singleton.mp h
  | page sh' i => exact List.mem_singleton.mp h.1
  | _ => exact h

theorem of_mem_leftover {sh : Fin N} {m n : ℕ} {x : Resource N} (h : x ∈ leftover m n [sh]) :
    x.Of sh := by
  cases x with
  | page sh' i => exact List.mem_singleton.mp h.1
  | _ => exact h.elim

/-- A pool that is at rest: the stripes in `l` are free, have a page for each of the first `n`
devices, and no other stripe is on a list or counted. -/
structure AtRest (c : Cache N τ) (n : ℕ) (l : List (Fin N)) : Prop where
  free : c.inactiveList = l
  nodup : l.Nodup
  active : c.activeStripes = 0
  pages : ∀ sh ∈ l, ∀ i, ((c.row sh).dev i).page.isSome ↔ i < n

theorem atRest_grown (conf : JRaid5Conf) (env : GrowEnv N) :
    AtRest (grown τ conf env) conf.numDisks (env.granted conf.numDisks) := by
  rw [grown_eq]
  refine ⟨rfl, nodup_granted env conf.numDisks, rfl, fun sh hsh i => ?_⟩
  simp only [Cache.row, StripeHead.row, if_pos hsh, Cache.growBuffers]
  by_cases hi : i < conf.numDisks
  · simp [hi]
  · simp [hi, StripeHead.zero, R5dev.zero]

/-- `shrink_stripes` stops when no stripe is free. -/
theorem shrinkStripes_nil {c : Cache N τ} (h : c.inactiveList = []) (devs jraidDisks num : ℕ) :
    shrinkStripes devs jraidDisks num c = some (c, []) := by
  cases num with
  | zero => rfl
  | succ num => rw [shrinkStripes, Cache.getFreeStripe_nil h]

/-- One pass of the loop in `shrink_stripes` takes the first free stripe. -/
theorem shrinkStripes_cons {m n : ℕ} {sh : Fin N} {l : List (Fin N)} {c : Cache N τ} (hm : m ≤ n)
    (hrest : AtRest c n (sh :: l)) :
    ∃ c', AtRest c' n l ∧ ∀ num, shrinkStripes n m (num + 1) c =
      (shrinkStripes n m num c').map fun r => (r.1, unstockLog m sh ++ r.2) := by
  obtain ⟨hsh, hnodup⟩ := List.nodup_cons.mp hrest.nodup
  obtain ⟨c₁, hget, -, hrow, -, hpool⟩ := Cache.getFreeStripe_cons hrest.free
  let c₂ := c₁.printIf ((c₁.stripe sh).count ≠ 0) .shrinkCount
  have hrow₂ : c₂.row = c.row := (Cache.row_printIf _ _ _).trans hrow
  have hpool₂ : c₂.pool = _ := (Cache.pool_printIf _ _ _).trans hpool
  -- the pages of the stripe
  have hdev : (c₂.stripe sh).dev = (c.row sh).dev := congrArg Row.dev (congrFun hrow₂ sh)
  have hfilter : (List.range m).filter (fun i => ((c₂.stripe sh).dev i).page.isSome) =
      List.range m := by
    refine List.filter_eq_self.mpr fun i hi => ?_
    rw [hdev]
    exact (hrest.pages sh List.mem_cons_self i).mpr ((List.mem_range.mp hi).trans_le hm)
  obtain ⟨s, hshrink⟩ : ∃ s, shrinkBuffers n sh (List.range m) (c₂.stripe sh) =
      some (s, (List.range m).map fun i => .release (.page sh i)) := by
    rw [shrinkBuffers_eq sh List.nodup_range fun i hi => (List.mem_range.mp hi).trans_le hm,
      hfilter]
    exact ⟨_, rfl⟩
  let c₃ := c₂.modify sh fun _ => s
  refine ⟨{ c₃ with activeStripes := c₃.activeStripes - 1 },
    ⟨congrArg RefPool.free hpool₂, hnodup, ?_, fun sh' hsh' i => ?_⟩, fun num => ?_⟩
  · change c₂.activeStripes - 1 = 0
    rw [show c₂.activeStripes = c.activeStripes + 1 from congrArg RefPool.live hpool₂,
      hrest.active]
    rfl
  · -- the other stripes are left alone
    have hne : sh' ≠ sh := fun h => hsh (h ▸ hsh')
    have hsame : c₃.row sh' = c.row sh' := by
      rw [← hrow₂]
      simp [c₃, Cache.row, hne]
    change ((c₃.row sh').dev i).page.isSome ↔ i < n
    rw [hsame]
    exact hrest.pages sh' (List.mem_cons_of_mem _ hsh') i
  · rw [shrinkStripes, hget]
    dsimp only
    rw [hshrink]
    simp [unstockLog, c₃, c₂]

/-- **What `shrink_stripes` does** to a pool at rest: it takes all stripes and leaves the pages of
the devices from `m` on. -/
theorem shrinkStripes_spec {m n num : ℕ} {l : List (Fin N)} {c : Cache N τ} (hm : m ≤ n)
    (hlen : l.length ≤ num) (hrest : AtRest c n l) :
    ∃ c' log, shrinkStripes n m num c = some (c', log) ∧ c'.inactiveList = [] ∧
      c'.activeStripes = 0 ∧ Leads (stock n l) log (leftover m n l) ∧
        ∀ x, .acquire x ∉ log := by
  induction l generalizing num c with
  | nil =>
    refine ⟨c, [], shrinkStripes_nil hrest.free _ _ _, hrest.free, hrest.active, ?_,
      fun x => List.not_mem_nil⟩
    rw [stock_nil, leftover_nil]
    exact Leads.nil _
  | cons sh l ih =>
    obtain ⟨num, rfl⟩ := Nat.exists_eq_add_one.mpr ((Nat.succ_pos _).trans_le hlen)
    obtain ⟨hsh, -⟩ := List.nodup_cons.mp hrest.nodup
    obtain ⟨c₁, hrest₁, hpass⟩ := shrinkStripes_cons hm hrest
    obtain ⟨c', log, hloop, hfree, hactive, hleads, hno⟩ :=
      ih (Nat.le_of_succ_le_succ hlen) hrest₁
    refine ⟨c', unstockLog m sh ++ log, ?_, hfree, hactive, ?_, fun x hx => ?_⟩
    · rw [hpass, hloop]
      rfl
    · have hone := (leads_unstock sh hm).frame (fun x hx => notMem_stock (of_mem_stock hx) hsh n)
        fun x hx => absurd hx (acquire_notMem_unstockLog m sh x)
      have htwo := hleads.frame (t := leftover m n [sh])
        (fun x hx hleft => notMem_stock (of_mem_leftover hleft) hsh n hx)
        fun x hx => absurd hx (hno x)
      rw [Set.union_comm] at htwo
      have hall := hone.append htwo
      rwa [← stock_append, Set.union_comm, ← leftover_append] at hall
    · rcases List.mem_append.mp hx with hx | hx
      · exact acquire_notMem_unstockLog m sh x hx
      · exact hno x hx

/-- With a device that does not exist `shrink_stripes` leaves the first stripe. -/
theorem shrinkStripes_eq_none {m n num : ℕ} {sh : Fin N} {l : List (Fin N)} {c : Cache N τ}
    (hm : n < m) (hfree : c.inactiveList = sh :: l) : shrinkStripes n m (num + 1) c = none := by
  obtain ⟨c₁, hget, -⟩ := Cache.getFreeStripe_cons hfree
  rw [shrinkStripes, hget]
  dsimp only
  rw [shrinkBuffers_eq_none sh (List.mem_range.mpr hm) le_rfl]

/-! ### The balance -/

/-- `grow_stripes`, and `shrink_stripes` afterwards. -/
def growThenShrink (τ : Type) (conf : JRaid5Conf) (env : GrowEnv N) (jraidDisks : ℕ) :
    Option (Cache N τ × List (Entry (Resource N))) :=
  match growStripes τ conf env with
  | none => none
  | some (_, c, log) =>
    (shrinkStripes conf.numDisks jraidDisks N c).map fun r => (r.1, log ++ r.2)

/-- No device behind the end of a stripe is touched, the ledger is in order and leaves no page
behind, and no stripe is on the list or counted. -/
def Balanced (τ : Type) (conf : JRaid5Conf) (env : GrowEnv N) (jraidDisks : ℕ) : Prop :=
  ∃ c log held, growThenShrink τ conf env jraidDisks = some (c, log) ∧ Leads ∅ log held ∧
    (∀ sh i, .page sh i ∉ held) ∧ c.inactiveList = [] ∧ c.activeStripes = 0

/-- What the two leave behind: the slab cache, and of each stripe the pages of the devices from
`jraidDisks` on. -/
def remains (conf : JRaid5Conf) (env : GrowEnv N) (jraidDisks : ℕ) : Set (Resource N) :=
  leftover jraidDisks conf.numDisks (env.granted conf.numDisks) ∪
    {x | x = .slabCache ∧ env.slabCache = true}

/-- **What the two do** when they come to the end. -/
theorem growThenShrink_spec {conf : JRaid5Conf} {env : GrowEnv N} {jraidDisks : ℕ}
    (h : jraidDisks ≤ conf.numDisks ∨ env.granted conf.numDisks = []) :
    ∃ c log, growThenShrink τ conf env jraidDisks = some (c, log) ∧
      Leads ∅ log (remains conf env jraidDisks) ∧ c.inactiveList = [] ∧ c.activeStripes = 0 ∧
        ∀ x, .acquire x ∈ log → x = .slabCache ∨ ∃ sh, x.Of sh := by
  obtain ⟨log, hgrow, hleads, hof⟩ := growStripes_spec τ conf env
  have hrest := atRest_grown (τ := τ) conf env
  obtain ⟨c, log', hshrink, hfree, hactive, hleads', hno⟩ :
      ∃ c log', shrinkStripes conf.numDisks jraidDisks N (grown τ conf env) = some (c, log') ∧
        c.inactiveList = [] ∧ c.activeStripes = 0 ∧
        Leads (stock conf.numDisks (env.granted conf.numDisks)) log'
          (leftover jraidDisks conf.numDisks (env.granted conf.numDisks)) ∧
        ∀ x, .acquire x ∉ log' := by
    rcases h with hle | hnil
    · exact shrinkStripes_spec hle (length_granted_le env conf.numDisks) hrest
    · rw [hnil] at hrest ⊢
      refine ⟨_, [], shrinkStripes_nil hrest.free _ _ _, hrest.free, hrest.active, ?_,
        fun x => List.not_mem_nil⟩
      rw [stock_nil, leftover_nil]
      exact Leads.nil _
  have hframe := hleads'.frame (t := {x | x = .slabCache ∧ env.slabCache = true})
    (fun x hx hslab => by rw [hslab.1] at hx; exact hx) fun x hx => absurd hx (hno x)
  refine ⟨c, log ++ log', ?_, hleads.append hframe, hfree, hactive, fun x hx => ?_⟩
  · rw [growThenShrink, hgrow]
    dsimp only
    rw [hshrink]
    rfl
  · exact hof x ((List.mem_append.mp hx).resolve_right (hno x))

/-- Otherwise the loop over the first stripe runs past its end. -/
theorem growThenShrink_eq_none {conf : JRaid5Conf} {env : GrowEnv N} {jraidDisks : ℕ}
    (hlt : conf.numDisks < jraidDisks) (hgranted : env.granted conf.numDisks ≠ []) :
    growThenShrink τ conf env jraidDisks = none := by
  obtain ⟨sh, l, hcons⟩ := List.exists_cons_of_ne_nil hgranted
  obtain ⟨log, hgrow, -⟩ := growStripes_spec τ conf env
  obtain ⟨num, rfl⟩ := Nat.exists_eq_succ_of_ne_zero sh.pos.ne'
  rw [growThenShrink, hgrow]
  dsimp only
  rw [shrinkStripes_eq_none hlt ((atRest_grown conf env).free.trans hcons)]
  rfl

/-- `shrink_stripes` after `grow_stripes`: it runs past the end of the first stripe, or comes to
the end. -/
theorem shrinkStripes_cases {conf : JRaid5Conf} {env : GrowEnv N} {ok : Bool} {c : Cache N τ}
    {log : List (Entry (Resource N))} (h : growStripes τ conf env = some (ok, c, log))
    (jraidDisks : ℕ) :
    (conf.numDisks < jraidDisks ∧ shrinkStripes conf.numDisks jraidDisks N c = none) ∨
      ∃ c' log', shrinkStripes conf.numDisks jraidDisks N c = some (c', log') ∧
        Leads ∅ (log ++ log') (remains conf env jraidDisks) ∧
          ∀ x, .acquire x ∈ log ++ log' → x = .slabCache ∨ ∃ sh, x.Of sh := by
  have hboth : growThenShrink τ conf env jraidDisks =
      (shrinkStripes conf.numDisks jraidDisks N c).map fun r => (r.1, log ++ r.2) := by
    rw [growThenShrink, h]
  by_cases hle : jraidDisks ≤ conf.numDisks ∨ env.granted conf.numDisks = []
  · obtain ⟨c₁, total, hrun, hleads, -, -, hof⟩ := growThenShrink_spec (τ := τ) hle
    rw [hboth] at hrun
    obtain ⟨⟨c', log'⟩, hshrink, heq⟩ := Option.map_eq_some_iff.mp hrun
    obtain ⟨rfl, rfl⟩ := Prod.mk.inj heq
    exact Or.inr ⟨c', log', hshrink, hleads, hof⟩
  · obtain ⟨hlt, hgranted⟩ := not_or.mp hle
    have hrun := growThenShrink_eq_none (τ := τ) (not_le.mp hlt) hgranted
    rw [hboth] at hrun
    exact Or.inl ⟨not_le.mp hlt, Option.map_eq_none_iff.mp hrun⟩

/-- **When the pool is balanced**: there are as many members as disks, or no stripe is built. -/
theorem balanced_iff (τ : Type) (conf : JRaid5Conf) (env : GrowEnv N) (jraidDisks : ℕ) :
    Balanced τ conf env jraidDisks ↔
      jraidDisks = conf.numDisks ∨ env.granted conf.numDisks = [] := by
  constructor
  · rintro ⟨c, log, held, hrun, hleads, hpage, -, -⟩
    by_contra hno
    obtain ⟨hne, hgranted⟩ := not_or.mp hno
    rcases lt_or_gt_of_ne hne with hlt | hlt
    · -- the page of the first device behind the members
      obtain ⟨c', log', hrun', hleads', -⟩ := growThenShrink_spec (τ := τ) (Or.inl hlt.le)
      obtain ⟨rfl, rfl⟩ := Prod.mk.inj (Option.some.inj (hrun.symm.trans hrun'))
      obtain rfl := hleads.unique hleads'
      obtain ⟨sh, hsh⟩ := List.exists_mem_of_ne_nil _ hgranted
      exact hpage sh jraidDisks (Or.inl ⟨hsh, le_rfl, hlt⟩)
    · rw [growThenShrink_eq_none hlt hgranted] at hrun
      cases hrun
  · intro h
    obtain ⟨c, log, hrun, hleads, hfree, hactive, -⟩ :=
      growThenShrink_spec (τ := τ) (h.imp_left le_of_eq)
    refine ⟨c, log, _, hrun, hleads, ?_, hfree, hactive⟩
    rintro sh i (⟨hsh, hm, hi⟩ | ⟨hslab, -⟩)
    · rcases h with rfl | hnil
      · exact absurd hi (not_lt.mpr hm)
      · rw [hnil] at hsh
        exact absurd hsh List.not_mem_nil
    · cases hslab

end Growth

end JRaid
