import JRaid.ForMathlib.Ledger
import JRaid.Jmd.Device

/-!
# The pool of cache blocks

`jmd_cache_mem_init` creates a slab cache, fills the cold list with blocks, each with a page, and
starts the thread that manages them. Its two last labels share the clean-up, which takes back what
the loop has built, wherever it stops (`initCleans_iff`). But the clean-up leaves `cache_blk` set,
and after a refused thread `memory_management_tsk` is an error pointer; `jmd_init` ignores the
result, and `jmd_cache_mem_exit` decides from the two what there is to undo. After every failure
but the first it destroys the slab cache again (`orderly_iff`).

Both functions come with a ledger of what they acquire and release.
-/

namespace JRaid

namespace Jmd

open Ledger

/-- What the pool acquires. -/
inductive MemResource where
  | slabCache
  | blk (i : ℕ)
  | page (i : ℕ)
  | thread
  deriving DecidableEq

/-- A pointer to a task: `NULL`, an error pointer, or a task. -/
inductive TaskPtr where
  | null
  | err
  | task
  deriving DecidableEq

/-- What the kernel answers during `jmd_cache_mem_init`. -/
structure MemEnv where
  /-- `calc_total_pages` -/
  totalPages : UInt64
  /-- `kmem_cache_create` -/
  slabCache : Bool
  /-- `kmem_cache_zalloc`, in each pass -/
  blk : ℕ → Bool
  /-- `alloc_page`, in each pass -/
  page : ℕ → Bool
  /-- `kthread_run` -/
  thread : Bool

/-- The globals of `jmd_mem.c`, and the ledger. A block has the number of the pass in which it was
allocated. -/
structure CacheMem where
  /-- `cache_blk` is not `NULL` -/
  cacheBlk : Bool
  /-- `lru_cache_list_cold` -/
  cold : List ℕ
  /-- `lru_cache_list_hot` -/
  hot : List ℕ
  totalBlks : Int32
  freeBlks : Int32
  tsk : TaskPtr
  log : List (Entry MemResource)

/-- `cache_ratio`. -/
def cacheRatio : UInt64 := 1

/-- The number of blocks. -/
def MemEnv.pages (env : MemEnv) : UInt64 := env.totalPages * cacheRatio / 100

/-- The blocks and their pages are granted. -/
def MemEnv.GrantsBlks (env : MemEnv) : Prop :=
  ∀ i < env.pages.toNat, env.blk i = true ∧ env.page i = true

/-- Nothing is refused. -/
def MemEnv.GrantsAll (env : MemEnv) : Prop :=
  env.slabCache = true ∧ env.GrantsBlks ∧ env.thread = true

namespace CacheMem

/-- The module has been loaded. -/
def boot : CacheMem := ⟨false, [], [], 0, 0, .null, []⟩

/-- Note what is acquired or released. -/
def note (m : CacheMem) (e : Entry MemResource) : CacheMem := { m with log := m.log ++ [e] }

/-- The end of a pass: the block `i` is put on the cold list and counted. -/
def addBlk (m : CacheMem) (i : ℕ) : CacheMem :=
  { m with cold := i :: m.cold, totalBlks := m.totalBlks + 1, freeBlks := m.freeBlks + 1 }

/-- The loop of `jmd_cache_mem_init`, from the pass `i` on, with `n` passes to come: whether it
comes to the end. -/
def initLoop (env : MemEnv) : ℕ → ℕ → CacheMem → Bool × CacheMem
  | 0, _, m => (true, m)
  | n + 1, i, m =>
    if !env.blk i then (false, m)
    else
      let m := m.note (.acquire (.blk i))
      if !env.page i then (false, m.note (.release (.blk i)))
      else initLoop env n (i + 1) ((m.note (.acquire (.page i))).addBlk i)

/-- A pass of the clean-up. -/
def errAllocPass (m : CacheMem) (pos : ℕ) : CacheMem :=
  let m := { m with cold := m.cold.erase pos }
  let m := m.note (.release (.page pos))
  let m := { m with totalBlks := m.totalBlks - 1, freeBlks := m.freeBlks - 1 }
  m.note (.release (.blk pos))

/-- What follows the label `err_alloc`. -/
def errAlloc (m : CacheMem) : CacheMem :=
  (m.cold.foldl errAllocPass m).note (.release .slabCache)

/-- `jmd_cache_mem_init`. Where the thread is refused it returns a variable that has never been
set, whose value is `ret`. -/
def jmdCacheMemInit (env : MemEnv) (ret : Int32) : Int32 × CacheMem :=
  if !env.slabCache then (-enomem, boot)
  else
    let m := { boot with cacheBlk := true, totalBlks := 0, freeBlks := 0 }
    match initLoop env env.pages.toNat 0 (m.note (.acquire .slabCache)) with
    | (false, m) => (-enomem, m.errAlloc)
    | (true, m) =>
      if !env.thread then (ret, { m with tsk := .err }.errAlloc)
      else (0, { m with tsk := .task }.note (.acquire .thread))

/-- A pass of the loops of `jmd_cache_mem_exit`. `list_del` takes a block off the list that it is
on. -/
def exitPass (m : CacheMem) (pos : ℕ) : CacheMem :=
  let m := { m with cold := m.cold.erase pos, hot := m.hot.erase pos }
  (m.note (.release (.page pos))).note (.release (.blk pos))

/-- `jmd_cache_mem_exit`. -/
def jmdCacheMemExit (m : CacheMem) : CacheMem :=
  if !m.cacheBlk then m
  else
    let m := if m.tsk ≠ .null then m.note (.release .thread) else m
    let m := m.cold.foldl exitPass m
    let m := m.hot.foldl exitPass m
    m.note (.release .slabCache)

/-! ### The two halves of an orderly life -/

/-- A failed `jmd_cache_mem_init` has released exactly what it had acquired, the counters are 0, the
cold list is empty, and the result is negative. -/
structure InitCleans (r : Int32 × CacheMem) : Prop where
  ledger : Leads ∅ r.2.log ∅
  totalBlks : r.2.totalBlks = 0
  freeBlks : r.2.freeBlks = 0
  cold : r.2.cold = []
  negative : r.1 < 0

/-- The slab cache is destroyed at most once, and the thread is stopped only if it was created. -/
structure ExitOrderly (m : CacheMem) : Prop where
  slabCache : m.log.count (.release .slabCache) ≤ 1
  thread : .release .thread ∈ m.log → .acquire .thread ∈ m.log

/-- What is asked of a start and the stop that follows it. -/
def Orderly (env : MemEnv) (ret : Int32) : Prop :=
  (¬env.GrantsAll → InitCleans (jmdCacheMemInit env ret)) ∧
    ExitOrderly (jmdCacheMemInit env ret).2.jmdCacheMemExit

/-! ### How often the slab cache is destroyed -/

/-- How often the slab cache has been destroyed. -/
def destroyed (m : CacheMem) : ℕ := m.log.count (.release .slabCache)

theorem destroyed_note_self (m : CacheMem) :
    (m.note (.release .slabCache)).destroyed = m.destroyed + 1 := by
  rw [destroyed, note, List.count_append, List.count_singleton_self]
  rfl

theorem destroyed_note (m : CacheMem) {e : Entry MemResource} (h : e ≠ .release .slabCache) :
    (m.note e).destroyed = m.destroyed := by
  rw [destroyed, note, List.count_append, List.count_singleton, if_neg (by simpa using h)]
  rfl

/-- A loop of the clean-up or of the exit, whose passes release a page and a block. -/
theorem foldl_frame {f : CacheMem → ℕ → CacheMem}
    (h : ∀ m pos, (f m pos).destroyed = m.destroyed ∧ (f m pos).cacheBlk = m.cacheBlk ∧
      m.log ⊆ (f m pos).log) (l : List ℕ) (m : CacheMem) :
    (l.foldl f m).destroyed = m.destroyed ∧ (l.foldl f m).cacheBlk = m.cacheBlk ∧
      m.log ⊆ (l.foldl f m).log := by
  induction l generalizing m with
  | nil => exact ⟨rfl, rfl, List.Subset.refl _⟩
  | cons pos l ih =>
    obtain ⟨hdestroyed, hcache, hlog⟩ := h m pos
    obtain ⟨hdestroyed', hcache', hlog'⟩ := ih (f m pos)
    exact ⟨hdestroyed'.trans hdestroyed, hcache'.trans hcache, List.Subset.trans hlog hlog'⟩

theorem errAllocPass_frame (m : CacheMem) (pos : ℕ) :
    (m.errAllocPass pos).destroyed = m.destroyed ∧ (m.errAllocPass pos).cacheBlk = m.cacheBlk ∧
      m.log ⊆ (m.errAllocPass pos).log := by
  refine ⟨?_, rfl, ?_⟩
  · rw [errAllocPass, destroyed_note _ (by simp)]
    exact destroyed_note _ (by simp)
  · exact fun e he => List.mem_append_left _ (List.mem_append_left _ he)

theorem exitPass_frame (m : CacheMem) (pos : ℕ) :
    (m.exitPass pos).destroyed = m.destroyed ∧ (m.exitPass pos).cacheBlk = m.cacheBlk ∧
      m.log ⊆ (m.exitPass pos).log := by
  refine ⟨?_, rfl, ?_⟩
  · rw [exitPass, destroyed_note _ (by simp), destroyed_note _ (by simp)]
    rfl
  · exact fun e he => List.mem_append_left _ (List.mem_append_left _ he)

/-- The clean-up destroys the slab cache and leaves `cache_blk` set. -/
theorem errAlloc_frame (m : CacheMem) :
    m.errAlloc.destroyed = m.destroyed + 1 ∧ m.errAlloc.cacheBlk = m.cacheBlk := by
  obtain ⟨hdestroyed, hcache, -⟩ := foldl_frame errAllocPass_frame m.cold m
  refine ⟨?_, hcache⟩
  rw [errAlloc, destroyed_note_self, hdestroyed]

/-- With `cache_blk` set the exit destroys the slab cache. -/
theorem exit_frame {m : CacheMem} (h : m.cacheBlk = true) :
    m.jmdCacheMemExit.destroyed = m.destroyed + 1 ∧ m.log ⊆ m.jmdCacheMemExit.log := by
  have hthread : ∀ m' : CacheMem, m' = (if m.tsk ≠ .null then m.note (.release .thread) else m) →
      m'.destroyed = m.destroyed ∧ m.log ⊆ m'.log := by
    rintro m' rfl
    split_ifs
    · exact ⟨destroyed_note _ (by simp), List.subset_append_left _ _⟩
    · exact ⟨rfl, List.Subset.refl _⟩
  rw [jmdCacheMemExit, h]
  simp only [Bool.not_true, Bool.false_eq_true, if_false]
  generalize hm : (if m.tsk ≠ .null then m.note (.release .thread) else m) = m'
  obtain ⟨hdestroyed, hlog⟩ := hthread m' hm.symm
  obtain ⟨hcold, -, hlogcold⟩ := foldl_frame exitPass_frame m'.cold m'
  generalize m'.cold.foldl exitPass m' = m'' at hcold hlogcold
  obtain ⟨hhot, -, hloghot⟩ := foldl_frame exitPass_frame m''.hot m''
  refine ⟨?_, ?_⟩
  · rw [destroyed_note_self, hhot, hcold, hdestroyed]
  · exact List.Subset.trans (List.Subset.trans hlog (List.Subset.trans hlogcold hloghot))
      (List.subset_append_left _ _)

/-! ### The loop and its clean-up -/

/-- The slab cache, and the blocks of a list with their pages. -/
def holdings (cold : List ℕ) : Set MemResource :=
  {x | x = .slabCache ∨ ∃ i ∈ cold, x = .blk i ∨ x = .page i}

/-- Before the pass `i` the pool owns the blocks on the cold list. -/
structure Owns (m : CacheMem) (i : ℕ) : Prop where
  below : ∀ j ∈ m.cold, j < i
  nodup : m.cold.Nodup
  totalBlks : m.totalBlks = Int32.ofNat m.cold.length
  freeBlks : m.freeBlks = Int32.ofNat m.cold.length
  ledger : Leads ∅ m.log (holdings m.cold)
  cacheBlk : m.cacheBlk = true
  destroyed : m.destroyed = 0

variable {env : MemEnv} {m : CacheMem} {i : ℕ}

theorem holdings_nil : holdings [] = {.slabCache} := by
  ext x
  simp [holdings]

theorem holdings_cons (i : ℕ) (cold : List ℕ) :
    holdings (i :: cold) = insert (.page i) (insert (.blk i) (holdings cold)) := by
  ext x
  simp only [holdings, Set.mem_ofPred_eq, List.mem_cons, exists_eq_or_imp, Set.mem_insert_iff]
  grind

theorem notMem_holdings {cold : List ℕ} (h : i ∉ cold) :
    .blk i ∉ holdings cold ∧ .page i ∉ holdings cold := by
  constructor
  · rintro (hx | ⟨j, hj, hx | hx⟩)
    · cases hx
    · obtain rfl := MemResource.blk.inj hx
      exact h hj
    · cases hx
  · rintro (hx | ⟨j, hj, hx | hx⟩)
    · cases hx
    · cases hx
    · obtain rfl := MemResource.page.inj hx
      exact h hj

/-- A pass that is granted its block and its page. -/
theorem Owns.addBlk (h : m.Owns i) :
    (((m.note (.acquire (.blk i))).note (.acquire (.page i))).addBlk i).Owns (i + 1) := by
  have hi : i ∉ m.cold := fun hmem => absurd (h.below i hmem) (Nat.lt_irrefl i)
  obtain ⟨hblk, hpage⟩ := notMem_holdings hi
  refine ⟨?_, List.nodup_cons.mpr ⟨hi, h.nodup⟩, ?_, ?_, ?_, h.cacheBlk, ?_⟩
  · intro j hj
    obtain rfl | hj := List.mem_cons.mp hj
    · exact Nat.lt_succ_self _
    · exact Nat.lt_succ_of_lt (h.below j hj)
  · exact (congrArg (· + 1) h.totalBlks).trans (Int32.ofNat_add _ 1).symm
  · exact (congrArg (· + 1) h.freeBlks).trans (Int32.ofNat_add _ 1).symm
  · have hblk' := h.ledger.append (Leads.acquire hblk)
    refine (holdings_cons i m.cold) ▸ hblk'.append (Leads.acquire ?_)
    rintro (hx | hx)
    · cases hx
    · exact hpage hx
  · exact ((destroyed_note _ (by simp)).trans (destroyed_note _ (by simp))).trans h.destroyed

/-- A pass that is granted its block but not the page. -/
theorem Owns.noPage (h : m.Owns i) :
    ((m.note (.acquire (.blk i))).note (.release (.blk i))).Owns i := by
  have hi : i ∉ m.cold := fun hmem => absurd (h.below i hmem) (Nat.lt_irrefl i)
  obtain ⟨hblk, -⟩ := notMem_holdings hi
  refine ⟨h.below, h.nodup, h.totalBlks, h.freeBlks, ?_, h.cacheBlk, ?_⟩
  · have hboth := (h.ledger.append (Leads.acquire hblk)).append (Leads.release (Set.mem_insert _ _))
    rwa [Set.insert_sdiff_self_of_notMem hblk] at hboth
  · exact ((destroyed_note _ (by simp)).trans (destroyed_note _ (by simp))).trans h.destroyed

/-- **What the loop does**: wherever it stops, the pool owns the blocks on the cold list, and it
comes to the end exactly if it is granted everything. -/
theorem Owns.initLoop (env : MemEnv) (n : ℕ) (h : m.Owns i) :
    ∃ j, (initLoop env n i m).2.Owns j ∧
      ((CacheMem.initLoop env n i m).1 = true ↔
        ∀ k, i ≤ k → k < i + n → env.blk k = true ∧ env.page k = true) := by
  induction n generalizing i m with
  | zero => exact ⟨i, h, iff_of_true rfl fun k hk hlt => absurd hlt (by omega)⟩
  | succ n ih =>
    rw [CacheMem.initLoop]
    cases hblk : env.blk i with
    | false =>
      refine ⟨i, h, iff_of_false Bool.false_ne_true fun hall => ?_⟩
      exact absurd (hall i le_rfl (by omega)).1 (by simp [hblk])
    | true =>
      cases hpage : env.page i with
      | false =>
        refine ⟨i, h.noPage, iff_of_false Bool.false_ne_true fun hall => ?_⟩
        exact absurd (hall i le_rfl (by omega)).2 (by simp [hpage])
      | true =>
        obtain ⟨j, hj, hiff⟩ := ih h.addBlk
        refine ⟨j, hj, hiff.trans ⟨fun hall k hk hlt => ?_, fun hall k hk hlt => ?_⟩⟩
        · obtain rfl | hne := eq_or_ne k i
          · exact ⟨hblk, hpage⟩
          · exact hall k (by omega) (by omega)
        · exact hall k (by omega) (by omega)

/-- A pass of the clean-up releases the first block of the cold list. -/
theorem Owns.errAllocPass {pos : ℕ} {rest : List ℕ} (h : m.Owns i) (hcold : m.cold = pos :: rest) :
    (m.errAllocPass pos).Owns i ∧ (m.errAllocPass pos).cold = rest := by
  have hrest : (m.errAllocPass pos).cold = rest := by
    change m.cold.erase pos = rest
    rw [hcold, List.erase_cons_head]
  obtain ⟨hdestroyed, hcache, -⟩ := errAllocPass_frame m pos
  obtain ⟨hbelow, hnodup, htotal, hfree, hledger, hset, hkept⟩ := h
  rw [hcold] at hbelow hnodup htotal hfree hledger
  obtain ⟨hpos, hnodup⟩ := List.nodup_cons.mp hnodup
  obtain ⟨hblk, hpage⟩ := notMem_holdings hpos
  have hcount : Int32.ofNat (pos :: rest).length - 1 = Int32.ofNat rest.length := by
    rw [List.length_cons, Int32.ofNat_add]
    exact Int32.add_sub_cancel _ _
  refine ⟨⟨?_, ?_, ?_, ?_, ?_, hcache.trans hset, hdestroyed.trans hkept⟩, hrest⟩
  · rw [hrest]
    exact fun j hj => hbelow j (List.mem_cons_of_mem _ hj)
  · rwa [hrest]
  · rw [hrest, ← hcount, ← htotal]
    rfl
  · rw [hrest, ← hcount, ← hfree]
    rfl
  · rw [hrest]
    rw [holdings_cons] at hledger
    have hpage' : .page pos ∉ insert (.blk pos) (holdings rest) := by
      rintro (hx | hx)
      · cases hx
      · exact hpage hx
    have hfirst := hledger.append (Leads.release (Set.mem_insert _ _))
    rw [Set.insert_sdiff_self_of_notMem hpage'] at hfirst
    have hsecond := hfirst.append (Leads.release (Set.mem_insert _ _))
    rwa [Set.insert_sdiff_self_of_notMem hblk] at hsecond

/-- **What the clean-up does**: it releases all blocks of the cold list. -/
theorem Owns.errAllocLoop {l : List ℕ} (h : m.Owns i) (hcold : m.cold = l) :
    (l.foldl CacheMem.errAllocPass m).Owns i ∧ (l.foldl CacheMem.errAllocPass m).cold = [] := by
  induction l generalizing m with
  | nil => exact ⟨h, hcold⟩
  | cons pos rest ih =>
    obtain ⟨hpass, hrest⟩ := h.errAllocPass hcold
    exact ih hpass hrest

/-- The clean-up is right wherever the loop has stopped. -/
theorem Owns.initCleans {ret : Int32} (h : m.Owns i) : InitCleans (ret, m.errAlloc) ↔ ret < 0 := by
  obtain ⟨hloop, hcold⟩ := h.errAllocLoop rfl
  obtain ⟨-, -, htotal, hfree, hledger, -, -⟩ := hloop
  rw [hcold] at htotal hfree hledger
  refine ⟨InitCleans.negative, fun hret => ⟨?_, htotal, hfree, hcold, hret⟩⟩
  rw [holdings_nil] at hledger
  have hlast := hledger.append (Leads.release (Set.mem_singleton _))
  rwa [sdiff_self] at hlast

/-! ### `jmd_cache_mem_init` -/

theorem owns_start : ({ boot with cacheBlk := true, totalBlks := 0, freeBlks := 0 }.note
    (.acquire .slabCache)).Owns 0 := by
  refine ⟨fun j hj => absurd hj List.not_mem_nil, List.nodup_nil, rfl, rfl, ?_, rfl, by decide⟩
  have hstart := Leads.acquire (Set.notMem_empty MemResource.slabCache)
  rwa [insert_empty_eq, ← holdings_nil] at hstart

/-- How `jmd_cache_mem_init` ends. -/
inductive InitEnds (env : MemEnv) (ret : Int32) : Int32 × CacheMem → Prop
  | slabCache (h : env.slabCache = false) : InitEnds env ret (-enomem, boot)
  /-- a block or its page is refused -/
  | blks (hslab : env.slabCache = true) (h : ¬env.GrantsBlks) {m : CacheMem} {i : ℕ}
      (hm : m.Owns i) : InitEnds env ret (-enomem, m.errAlloc)
  | thread (hslab : env.slabCache = true) (hblks : env.GrantsBlks) (h : env.thread = false)
      {m : CacheMem} {i : ℕ} (hm : m.Owns i) :
      InitEnds env ret (ret, { m with tsk := .err }.errAlloc)
  | started (h : env.GrantsAll) {m : CacheMem} {i : ℕ} (hm : m.Owns i) :
      InitEnds env ret (0, { m with tsk := .task }.note (.acquire .thread))

theorem initEnds (env : MemEnv) (ret : Int32) : InitEnds env ret (jmdCacheMemInit env ret) := by
  rw [jmdCacheMemInit]
  cases hslab : env.slabCache with
  | false => exact .slabCache hslab
  | true =>
    obtain ⟨i, hm, hiff⟩ := owns_start.initLoop env env.pages.toNat
    have hgrants : (∀ k, 0 ≤ k → k < 0 + env.pages.toNat → env.blk k = true ∧ env.page k = true) ↔
        env.GrantsBlks := by simp [MemEnv.GrantsBlks]
    rw [hgrants] at hiff
    simp only [Bool.not_true, Bool.false_eq_true, if_false]
    generalize initLoop env env.pages.toNat 0 _ = r at hm hiff
    obtain ⟨_ | _, m⟩ := r
    · exact .blks hslab (fun hall => Bool.false_ne_true (hiff.mpr hall)) hm
    · cases hthread : env.thread with
      | false => exact .thread hslab (hiff.mp rfl) hthread hm
      | true => exact .started ⟨hslab, hiff.mp rfl, hthread⟩ hm

/-- **When a failed `jmd_cache_mem_init` is as it should be**: unless it is the thread that is
refused, and the variable that it then returns happens not to be negative. -/
theorem initCleans_iff (env : MemEnv) (ret : Int32) (h : ¬env.GrantsAll) :
    InitCleans (jmdCacheMemInit env ret) ↔ env.slabCache = false ∨ ¬env.GrantsBlks ∨ ret < 0 := by
  have hends := initEnds env ret
  generalize jmdCacheMemInit env ret = r at hends
  cases hends with
  | slabCache hslab =>
    exact iff_of_true ⟨Leads.nil _, rfl, rfl, rfl, by decide⟩ (Or.inl hslab)
  | blks hslab hblks hm => exact iff_of_true (hm.initCleans.mpr (by decide)) (Or.inr (Or.inl hblks))
  | thread hslab hblks hthread hm =>
    rename_i m i
    have htsk : ({ m with tsk := .err } : CacheMem).Owns i :=
      ⟨hm.below, hm.nodup, hm.totalBlks, hm.freeBlks, hm.ledger, hm.cacheBlk, hm.destroyed⟩
    rw [htsk.initCleans, or_iff_right (by simp [hslab]), or_iff_right (not_not.mpr hblks)]
  | started hall => exact absurd hall h

/-- The exit is orderly if the slab cache was never created, or nothing was refused. -/
theorem exitOrderly_iff (env : MemEnv) (ret : Int32) :
    ExitOrderly (jmdCacheMemInit env ret).2.jmdCacheMemExit ↔
      env.slabCache = false ∨ env.GrantsAll := by
  -- after the clean-up the exit destroys the slab cache again
  have twice : ∀ {m : CacheMem}, m.cacheBlk = true → ¬ExitOrderly m.errAlloc.jmdCacheMemExit := by
    intro m hset hexit
    obtain ⟨hdestroyed, hcache⟩ := errAlloc_frame m
    have hcount := (exit_frame (hcache.trans hset)).1
    have := hexit.slabCache
    rw [destroyed] at hcount
    omega
  have hends := initEnds env ret
  generalize jmdCacheMemInit env ret = r at hends
  cases hends with
  | slabCache hslab =>
    exact iff_of_true ⟨by decide, fun hmem => absurd hmem (by decide)⟩ (Or.inl hslab)
  | blks hslab hblks hm =>
    refine iff_of_false (twice hm.cacheBlk) ?_
    rintro (h | h)
    · simp [hslab] at h
    · exact hblks h.2.1
  | thread hslab hblks hthread hm =>
    refine iff_of_false (twice hm.cacheBlk) ?_
    rintro (h | h)
    · simp [hslab] at h
    · exact Bool.false_ne_true (hthread.symm.trans h.2.2)
  | started hall hm =>
    rename_i m i
    obtain ⟨hcount, hlog⟩ :=
      exit_frame (m := { m with tsk := .task }.note (.acquire .thread)) hm.cacheBlk
    refine iff_of_true ⟨?_, fun _ => hlog (List.mem_append_right _ List.mem_cons_self)⟩
      (Or.inr hall)
    rw [destroyed_note _ (by simp)] at hcount
    exact (hcount.trans (congrArg (· + 1) hm.destroyed)).le

/-- **When start and stop are orderly**: when the slab cache is refused, or nothing is. -/
theorem orderly_iff (env : MemEnv) (ret : Int32) :
    Orderly env ret ↔ env.slabCache = false ∨ env.GrantsAll := by
  rw [Orderly, exitOrderly_iff]
  refine and_iff_right_of_imp fun h hfail => ?_
  exact (initCleans_iff env ret hfail).mpr (Or.inl (h.resolve_right hfail))

/-- A hundred pages are present, and the block is refused. -/
theorem not_orderly_blk : ¬Orderly ⟨100, true, fun _ => false, fun _ => true, true⟩ 0 := by
  intro h
  exact absurd h.2.slabCache (by decide +kernel)

end CacheMem

end Jmd

end JRaid
