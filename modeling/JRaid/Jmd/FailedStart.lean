import JRaid.Jmd.Restart
import JRaid.Jmd.Started
import JRaid.Stripe.Growth

/-!
# What a start acquires

`jraid5_run` has one label for all its failures, and what follows it frees the hash table and the
configuration. The daemon is registered before the stripes are allocated and nothing takes it back:
if `grow_stripes` or the registration of the second thread fails, it is left with a configuration
that has been freed, and the slab cache is left too (`failed_start_clean_iff`). With the second
thread it is the whole pool.

Here `jraid5_run` comes with a ledger of what it acquires and releases. Without the ledger it is the
function of `JRaid.Jmd.Run`.
-/

namespace JRaid

namespace Jmd

open Growth Ledger

variable {N : ℕ}

/-! ### `jraid5_run` with its ledger -/

/-- The part of `jraid5_run` after the slots have been filled, with what it has acquired when it
comes to the end or to the label `abort`. A loop that runs past the end of a stripe is one that
leaves its table; no bio is queued on a stripe yet. -/
def RunState.finishLedger (st : RunState) (jraidDisks : ℕ) (env : RunEnv) (pool : GrowEnv N) :
    Except Fault (Int32 × RunState × List (Entry (Resource N))) :=
  let conf := st.conf
  let failedDisks := conf.raidDisks - st.workingDisks
  if conf.chunkSize = 0 ∨ conf.chunkSize % 4 ≠ 0 then .ok (-eio, st, [])
  else if algorithmRightSymmetric < conf.algorithm then .ok (-eio, st, [])
  else if 1 < failedDisks then .ok (-eio, st, [])
  else
    let startRecovery := st.workingDisks.toUInt32 ≠ st.sb.raidDisks
    let st :=
      if ¬ startRecovery ∧ st.sb.clean = true then { st with sb := st.sb.clearClean } else st
    if !env.thread then .ok (-eio, st, [])
    else
      match growStripes Empty conf pool with
      | none => .error .outOfTable
      | some (false, c, log) =>
        match shrinkStripes conf.numDisks jraidDisks N c with
        | none => .error .outOfTable
        | some (_, log') => .ok (-eio, st, .acquire .thread :: (log ++ log'))
      | some (true, _, log) =>
        match st.markInSync with
        | .error f => .error f
        | .ok st =>
          let st := { st with sb := { st.sb with activeDisks := st.workingDisks.toUInt32 } }
          if ¬ startRecovery ∧ st.sb.clean = false then
            if !env.resyncThread then .ok (-eio, st, .acquire .thread :: log)
            else .ok (0, st, .acquire .thread :: (log ++ [.acquire .resyncThread]))
          else .ok (0, st, .acquire .thread :: log)

/-- `jraid5_run`. The field `jraid_disks` is the number of members. -/
def Jmddev.jraid5RunLedger (jmddev : Jmddev) (sb : Superblock) (env : RunEnv) (pool : GrowEnv N) :
    Except Fault (Int32 × Jmddev × List (Entry (Resource N))) :=
  if sb.level ≠ 5 ∧ sb.level ≠ 4 then .ok (-eio, jmddev, [])
  else if !env.conf then .ok (-eio, { jmddev with conf := none }, [])
  else if !env.hashtbl then
    .ok (-eio, { jmddev with conf := none }, [.acquire .conf, .release .conf])
  else
    match jmddev.fillSlots sb with
    | .error f => .error f
    | .ok st =>
      match st.finishLedger jmddev.nbDev env pool with
      | .error f => .error f
      | .ok (err, st, log) =>
        .ok (err, { jmddev with
            sb := some st.sb
            conf := if err = 0 then some st.conf else none },
          .acquire .conf :: .acquire .hashtbl ::
            (log ++ if err = 0 then [] else [.release .hashtbl, .release .conf]))

/-! ### What the part after the slots does -/

/-- How the part after the slots ends: with a code, and with what it leaves behind. -/
inductive RunState.Leaves (st : RunState) (jraidDisks : ℕ) (env : RunEnv) (pool : GrowEnv N) :
    Int32 → Set (Resource N) → Prop
  /-- a check fails, or the daemon is not registered -/
  | refused (h : ¬ (st.Passes ∧ env.thread = true)) : Leaves st jraidDisks env pool (-eio) ∅
  /-- `grow_stripes` is refused something -/
  | stripes (passes : st.Passes) (thread : env.thread = true)
      (refused : pool.grantsAll st.conf.numDisks = false) :
      Leaves st jraidDisks env pool (-eio) (insert .thread (remains st.conf pool jraidDisks))
  /-- the second thread is not registered -/
  | resyncThread (passes : st.Passes) (thread : env.thread = true)
      (granted : pool.grantsAll st.conf.numDisks = true) :
      Leaves st jraidDisks env pool (-eio) (insert .thread (holdings st.conf pool))
  /-- the array is started -/
  | started (passes : st.Passes) (thread : env.thread = true)
      (granted : pool.grantsAll st.conf.numDisks = true) (held : Set (Resource N)) :
      Leaves st jraidDisks env pool 0 held

theorem RunState.Leaves.err {st : RunState} {jraidDisks : ℕ} {env : RunEnv} {pool : GrowEnv N}
    {err : Int32} {held : Set (Resource N)} (h : st.Leaves jraidDisks env pool err held) :
    err = -eio ∨ err = 0 := by
  cases h with
  | started => exact Or.inr rfl
  | _ => exact Or.inl rfl

/-- Once the daemon is registered it is left behind. -/
theorem RunState.Leaves.eq_empty_iff {st : RunState} {jraidDisks : ℕ} {env : RunEnv}
    {pool : GrowEnv N} {err : Int32} {held : Set (Resource N)}
    (h : st.Leaves jraidDisks env pool err held) (herr : err ≠ 0) :
    held = ∅ ↔ ¬ (st.Passes ∧ env.thread = true) := by
  cases h with
  | refused h => exact iff_of_true rfl h
  | stripes passes thread =>
    exact iff_of_false (Set.insert_nonempty _ _).ne_empty (not_not.mpr ⟨passes, thread⟩)
  | resyncThread passes thread =>
    exact iff_of_false (Set.insert_nonempty _ _).ne_empty (not_not.mpr ⟨passes, thread⟩)
  | started => exact absurd rfl herr

/-- Neither the configuration nor the hash table is acquired here. -/
def Inner (log : List (Entry (Resource N))) : Prop :=
  .acquire .conf ∉ log ∧ .acquire .hashtbl ∉ log

/-- What belongs to the pool is none of the other things. -/
theorem notMem_of_pool {log : List (Entry (Resource N))} {x : Resource N}
    (h : ∀ y, .acquire y ∈ log → y = .slabCache ∨ ∃ sh, y.Of sh) (hslab : x ≠ .slabCache)
    (hof : ∀ sh, ¬ x.Of sh) : .acquire x ∉ log :=
  fun hx => (h x hx).elim hslab fun ⟨sh, hsh⟩ => hof sh hsh

/-- The daemon, and then things that belong to the pool. -/
theorem inner_thread {log : List (Entry (Resource N))}
    (h : ∀ y, .acquire y ∈ log → y = .slabCache ∨ ∃ sh, y.Of sh) :
    Inner (.acquire .thread :: log) := by
  have hconf := notMem_of_pool h (x := .conf) (by simp) fun _ hsh => hsh
  have hhashtbl := notMem_of_pool h (x := .hashtbl) (by simp) fun _ hsh => hsh
  exact ⟨by simp [hconf], by simp [hhashtbl]⟩

theorem Inner.append_resyncThread {log : List (Entry (Resource N))} (h : Inner log) :
    Inner (log ++ [.acquire .resyncThread]) :=
  ⟨by simpa using h.1, by simpa using h.2⟩

/-- The daemon is acquired first. -/
theorem leads_thread {log : List (Entry (Resource N))} {held : Set (Resource N)}
    (h : ∀ y, .acquire y ∈ log → y = .slabCache ∨ ∃ sh, y.Of sh) (hleads : Leads ∅ log held) :
    Leads ∅ (.acquire .thread :: log) (insert .thread held) :=
  hleads.cons_acquire (Set.notMem_empty _) (notMem_of_pool h (by simp) fun _ hsh => hsh)

/-- **What the part after the slots does**: a loop runs past the end of a stripe, or it does what
`RunState.finish` does, and its ledger is in order. -/
theorem RunState.finishLedger_cases (st : RunState) (jraidDisks : ℕ) (env : RunEnv)
    (pool : GrowEnv N) :
    (st.conf.numDisks < jraidDisks ∧ st.finishLedger jraidDisks env pool = .error .outOfTable) ∨
      (∃ f, st.finishLedger jraidDisks env pool = .error f ∧
        st.finish { env with stripes := pool.grantsAll st.conf.numDisks } = .error f) ∨
      ∃ err st' log held, st.finishLedger jraidDisks env pool = .ok (err, st', log) ∧
        st.finish { env with stripes := pool.grantsAll st.conf.numDisks } = .ok (err, st') ∧
        Leads ∅ log held ∧ st.Leaves jraidDisks env pool err held ∧ Inner log := by
  have hinner : Inner ([] : List (Entry (Resource N))) := ⟨List.not_mem_nil, List.not_mem_nil⟩
  unfold finishLedger finish
  dsimp only
  rw [ite_passes, ite_passes]
  by_cases hpasses : st.Passes
  swap
  · rw [if_neg hpasses, if_neg hpasses]
    exact Or.inr (Or.inr ⟨_, _, _, _, rfl, rfl, Leads.nil _, .refused fun h => hpasses h.1,
      hinner⟩)
  rw [if_pos hpasses, if_pos hpasses]
  cases hthread : env.thread with
  | false =>
    exact Or.inr (Or.inr ⟨_, _, _, _, rfl, rfl, Leads.nil _,
      .refused fun h => by simp [hthread] at h, hinner⟩)
  | true =>
    obtain ⟨log, hgrow, hleads, hof⟩ := growStripes_spec Empty st.conf pool
    rw [hgrow]
    simp only [Bool.not_true, Bool.false_eq_true, ↓reduceIte]
    cases hall : pool.grantsAll st.conf.numDisks with
    | false =>
      rw [hall] at hgrow
      dsimp only
      obtain ⟨hlt, hshrink⟩ | ⟨c', log', hshrink, hleads, hof⟩ :=
        shrinkStripes_cases hgrow jraidDisks
      · rw [hshrink]
        exact Or.inl ⟨hlt, rfl⟩
      · rw [hshrink]
        exact Or.inr (Or.inr ⟨_, _, _, _, rfl, rfl, leads_thread hof hleads,
          .stripes hpasses hthread hall, inner_thread hof⟩)
    | true =>
      simp only [Bool.not_true, Bool.false_eq_true, ↓reduceIte]
      generalize (if ¬ (st.workingDisks.toUInt32 ≠ st.sb.raidDisks) ∧ st.sb.clean = true then
        { st with sb := st.sb.clearClean } else st) = st₁
      cases hmark : st₁.markInSync with
      | error f => exact Or.inr (Or.inl ⟨f, rfl, rfl⟩)
      | ok st₂ =>
        dsimp only
        by_cases hresync : ¬ (st.workingDisks.toUInt32 ≠ st.sb.raidDisks) ∧
            { st₂.sb with activeDisks := st₂.workingDisks.toUInt32 }.clean = false
        · rw [if_pos hresync]
          cases hthread' : env.resyncThread with
          | false =>
            rw [if_pos Bool.not_false, if_pos ⟨hresync.1, hresync.2, rfl⟩]
            exact Or.inr (Or.inr ⟨_, _, _, _, rfl, rfl, leads_thread hof hleads,
              .resyncThread hpasses hthread hall, inner_thread hof⟩)
          | true =>
            rw [if_neg (by simp), if_neg fun h => Bool.noConfusion h.2.2]
            have hboth := (leads_thread hof hleads).append
              (Leads.acquire (a := Resource.resyncThread) (by simp [holdings, stock]))
            exact Or.inr (Or.inr ⟨_, _, _, _, rfl, rfl, hboth, .started hpasses hthread hall _,
              (inner_thread hof).append_resyncThread⟩)
        · rw [if_neg hresync, if_neg fun h => hresync ⟨h.1, h.2.1⟩]
          exact Or.inr (Or.inr ⟨_, _, _, _, rfl, rfl, leads_thread hof hleads,
            .started hpasses hthread hall _, inner_thread hof⟩)

/-! ### What `jraid5_run` does -/

/-- The hash table and the configuration are acquired first. -/
theorem leads_conf {log : List (Entry (Resource N))} {held : Set (Resource N)}
    (h : Leads ∅ log held) (hinner : Inner log) :
    Leads ∅ (.acquire .conf :: .acquire .hashtbl :: log)
      (insert .conf (insert .hashtbl held)) := by
  refine (h.cons_acquire (Set.notMem_empty _) hinner.2).cons_acquire (Set.notMem_empty _) ?_
  simp [hinner.1]

/-- What follows the label `abort` frees these two and nothing else. -/
theorem leads_abort {log : List (Entry (Resource N))} {held : Set (Resource N)}
    (h : Leads ∅ log held) (hinner : Inner log) :
    Leads ∅ (.acquire .conf :: .acquire .hashtbl :: (log ++ [.release .hashtbl, .release .conf]))
      held := by
  have hconf : Resource.conf ∉ held := h.notMem (Set.notMem_empty _) hinner.1
  have hhashtbl : Resource.hashtbl ∉ held := h.notMem (Set.notMem_empty _) hinner.2
  refine (leads_conf h hinner).append ⟨by simp, by simp, ?_⟩
  ext x
  simp only [Set.mem_sdiff, Set.mem_insert_iff, Set.mem_singleton_iff]
  constructor
  · intro hx
    refine ⟨⟨Or.inr (Or.inr hx), ?_⟩, ?_⟩
    · rintro rfl
      exact hhashtbl hx
    · rintro rfl
      exact hconf hx
  · rintro ⟨⟨hx, hne⟩, hne'⟩
    exact (hx.resolve_left hne').resolve_left hne

/-- The tests that `jraid5_run` makes of its configuration, before it is built. -/
structure Superblock.Accepted (sb : Superblock) (disks : List Rdev) : Prop where
  chunkSize : ¬ (sb.chunkSize.toInt32 = 0 ∨ sb.chunkSize.toInt32 % 4 ≠ 0)
  layout : ¬ algorithmRightSymmetric < sb.layout.toInt32
  failedDisks : ¬ 1 < sb.raidDisks.toInt32 - Int32.ofNat (sb.taken disks).card

theorem RunState.Filled.passes_iff {sb : Superblock} {l : List Rdev} {st : RunState}
    (h : st.Filled sb l) : st.Passes ↔ sb.Accepted l := by
  have hof : ∀ {β : Type} (f : Shape → β), f st.sb.shape = f sb.shape :=
    fun f => congrArg f h.shape
  rw [RunState.Passes, h.workingDisks, RunState.conf,
    show st.sb.chunkSize = sb.chunkSize from hof Shape.chunkSize,
    show st.sb.layout = sb.layout from hof Shape.layout, h.raidDisks]
  exact ⟨fun h => ⟨h.1, h.2.1, h.2.2⟩, fun h => ⟨h.1, h.2, h.3⟩⟩

/-- What a call of `jraid5_run` leaves behind. -/
inductive Jmddev.Ends (jmddev : Jmddev) (sb : Superblock) (env : RunEnv) (pool : GrowEnv N) :
    Int32 → Jmddev → Set (Resource N) → Prop
  /-- the level is neither 4 nor 5 -/
  | level (h : ¬ (sb.level = 5 ∨ sb.level = 4)) : Ends jmddev sb env pool (-eio) jmddev ∅
  /-- the configuration or the hash table is refused -/
  | conf (hlevel : sb.level = 5 ∨ sb.level = 4) (h : ¬ (env.conf = true ∧ env.hashtbl = true)) :
      Ends jmddev sb env pool (-eio) { jmddev with conf := none } ∅
  /-- the label `abort` is reached later -/
  | abort (hlevel : sb.level = 5 ∨ sb.level = 4) (hconf : env.conf = true)
      (hhashtbl : env.hashtbl = true) {st st' : RunState} {held : Set (Resource N)}
      (hfill : jmddev.fillSlots sb = .ok st)
      (h : st.Leaves jmddev.nbDev env pool (-eio) held) :
      Ends jmddev sb env pool (-eio) { jmddev with sb := some st'.sb, conf := none } held
  /-- the array is started -/
  | started (jmddev' : Jmddev) (held : Set (Resource N)) : Ends jmddev sb env pool 0 jmddev' held

theorem Jmddev.ends {jmddev jmddev' : Jmddev} {sb : Superblock} {env : RunEnv} {pool : GrowEnv N}
    {err : Int32} {log : List (Entry (Resource N))}
    (h : jmddev.jraid5RunLedger sb env pool = .ok (err, jmddev', log)) :
    ∃ held, Leads ∅ log held ∧ jmddev.Ends sb env pool err jmddev' held := by
  unfold jraid5RunLedger at h
  split at h
  · rename_i hlevel
    obtain ⟨rfl, rfl, rfl⟩ := by simpa using h
    exact ⟨∅, Leads.nil _, .level fun hl => hl.elim hlevel.1 hlevel.2⟩
  rename_i hlevel
  have hlevel : sb.level = 5 ∨ sb.level = 4 := by
    by_contra hno
    exact hlevel (not_or.mp hno)
  split at h
  · rename_i hconf
    obtain ⟨rfl, rfl, rfl⟩ := by simpa using h
    exact ⟨∅, Leads.nil _, .conf hlevel fun hc => by simp [hc.1] at hconf⟩
  rename_i hconf
  split at h
  · rename_i hhashtbl
    obtain ⟨rfl, rfl, rfl⟩ := by simpa using h
    exact ⟨∅, ⟨Set.notMem_empty _, Set.mem_insert _ _, by simp [Leads]⟩,
      .conf hlevel fun hc => by simp [hc.2] at hhashtbl⟩
  rename_i hhashtbl
  split at h
  · cases h
  rename_i st hfill
  split at h
  · cases h
  rename_i err' st' log' hfinish
  obtain ⟨rfl, rfl, rfl⟩ := by simpa using h
  obtain ⟨-, hstop⟩ | ⟨f, hstop, -⟩ | ⟨err, st', log, held, hend, -, hleads, hleaves, hinner⟩ :=
    st.finishLedger_cases jmddev.nbDev env pool
  · rw [hfinish] at hstop
    cases hstop
  · rw [hfinish] at hstop
    cases hstop
  obtain ⟨rfl, rfl, rfl⟩ : err' = err ∧ _ ∧ _ := by simpa using hfinish.symm.trans hend
  rcases hleaves.err with rfl | rfl
  · rw [if_neg (by decide), if_neg (by decide)]
    exact ⟨held, leads_abort hleads hinner,
      .abort hlevel (by simpa using hconf) (by simpa using hhashtbl) hfill hleaves⟩
  · rw [if_pos rfl, if_pos rfl, List.append_nil]
    exact ⟨_, leads_conf hleads hinner, .started _ _⟩

/-- Unless a loop runs past the end of a stripe, the function without the ledger does the same. -/
theorem Jmddev.map_jraid5RunLedger (jmddev : Jmddev) (sb : Superblock) (env : RunEnv)
    (pool : GrowEnv N) :
    (sb.raidDisks.toInt32.toNatClampNeg < jmddev.nbDev ∧
        jmddev.jraid5RunLedger sb env pool = .error .outOfTable) ∨
      (jmddev.jraid5RunLedger sb env pool).map (fun r => (r.1, r.2.1)) =
        jmddev.jraid5Run sb
          { env with stripes := pool.grantsAll sb.raidDisks.toInt32.toNatClampNeg } := by
  rw [jraid5Run_eq, jraid5RunLedger]
  split
  · exact Or.inr rfl
  cases hconf : env.conf with
  | false => exact Or.inr rfl
  | true =>
    cases hhashtbl : env.hashtbl with
    | false => exact Or.inr rfl
    | true =>
      unfold runState
      cases hfill : jmddev.fillSlots sb with
      | error f => exact Or.inr rfl
      | ok st =>
        have hdisks : st.conf.numDisks = sb.raidDisks.toInt32.toNatClampNeg := by
          rw [JRaid5Conf.numDisks, RunState.conf, (filled hfill).raidDisks]
        rw [← hdisks]
        obtain ⟨hlt, hstop⟩ | ⟨f, hstop, hstop'⟩ | ⟨err, st', log, held, hend, hend', -⟩ :=
          st.finishLedger_cases jmddev.nbDev env pool
        · exact Or.inl ⟨hlt, by simp [hstop]⟩
        · rw [hconf, hhashtbl] at hstop'
          exact Or.inr (by simp [hstop, hstop', Except.bind, Except.map])
        · rw [hconf, hhashtbl] at hend'
          exact Or.inr (by simp [hend, hend', Except.bind, Except.map])

/-! ### When a failed start is clean -/

/-- **When a failed start leaves nothing behind**: neither `grow_stripes` nor the second thread is
reached. -/
theorem failed_start_clean_iff {jmddev jmddev' : Jmddev} {sb : Superblock} {env : RunEnv}
    {pool : GrowEnv N} {log : List (Entry (Resource N))}
    (h : jmddev.jraid5RunLedger sb env pool = .ok (-eio, jmddev', log)) :
    (Leads ∅ log ∅ ∧ jmddev'.conf = none) ↔
      ((sb.level = 5 ∨ sb.level = 4) ∧ ¬ (env.conf = true ∧ env.hashtbl = true ∧
          sb.Accepted jmddev.disks ∧ env.thread = true)) ∨
        (¬ (sb.level = 5 ∨ sb.level = 4) ∧ jmddev.conf = none) := by
  obtain ⟨held, hleads, hends⟩ := Jmddev.ends h
  have hheld : Leads ∅ log ∅ ↔ held = ∅ :=
    ⟨fun hempty => hempty.unique hleads, fun hempty => hempty ▸ hleads⟩
  rw [hheld]
  generalize herr : -eio = err at hends
  cases hends with
  | level hlevel =>
    rw [and_iff_right rfl]
    exact ⟨fun hno => Or.inr ⟨hlevel, hno⟩, fun hno => (hno.resolve_left fun h => hlevel h.1).2⟩
  | conf hlevel hconf =>
    exact iff_of_true ⟨rfl, rfl⟩ (Or.inl ⟨hlevel, fun h => hconf ⟨h.1, h.2.1⟩⟩)
  | abort hlevel hconf hhashtbl hfill hleaves =>
    have hpasses := (Jmddev.filled hfill).passes_iff
    rw [and_iff_left rfl, or_iff_left fun hno => hno.1 hlevel, and_iff_right hlevel,
      and_iff_right hconf, and_iff_right hhashtbl, ← hpasses]
    exact hleaves.eq_empty_iff (by decide)
  | started => exact absurd herr (by decide)

/-- A kernel that grants the stripes of the pool, but not the slab cache for them. -/
def noSlabCache : GrowEnv nrStripes := ⟨false, fun _ => true, fun _ _ => some fun _ => 0⟩

/-- The ledger of a start for which the slab cache is refused. -/
theorem noSlabCache_fails : ∃ jmddev',
    twoMembers.jraid5RunLedger (twoSb 2 1) runAll noSlabCache = .ok (-eio, jmddev',
      [.acquire .conf, .acquire .hashtbl, .acquire .thread, .release .hashtbl,
        .release .conf]) := by
  obtain ⟨⟨err, jmddev', log⟩, hrun, hshow⟩ : ∃ r,
      twoMembers.jraid5RunLedger (twoSb 2 1) runAll noSlabCache = .ok r ∧ (r.1, r.2.2) = (-eio,
        [.acquire .conf, .acquire .hashtbl, .acquire .thread, .release .hashtbl, .release .conf]) :=
    Except.exists_of_toOption_map (by decide +kernel)
  obtain ⟨rfl, rfl⟩ := Prod.mk.inj hshow
  exact ⟨jmddev', hrun⟩

theorem failed_start_clean_iff_two : ∃ jmddev' log,
    twoMembers.jraid5RunLedger (twoSb 2 1) runAll noSlabCache = .ok (-eio, jmddev', log) ∧
      ((Leads ∅ log ∅ ∧ jmddev'.conf = none) ↔
        (((twoSb 2 1).level = 5 ∨ (twoSb 2 1).level = 4) ∧ ¬ (runAll.conf = true ∧
            runAll.hashtbl = true ∧ (twoSb 2 1).Accepted twoMembers.disks ∧
            runAll.thread = true)) ∨
          (¬ ((twoSb 2 1).level = 5 ∨ (twoSb 2 1).level = 4) ∧ twoMembers.conf = none)) := by
  obtain ⟨jmddev', hrun⟩ := noSlabCache_fails
  exact ⟨jmddev', _, hrun, failed_start_clean_iff hrun⟩

/-- The daemon is left registered, and its configuration is gone. -/
theorem thread_left : ∃ jmddev' log held,
    twoMembers.jraid5RunLedger (twoSb 2 1) runAll noSlabCache = .ok (-eio, jmddev', log) ∧
      Leads ∅ log held ∧ .thread ∈ held ∧ .conf ∉ held ∧ ¬ Leads ∅ log ∅ := by
  obtain ⟨jmddev', hrun⟩ := noSlabCache_fails
  have hleads := leads_abort (N := nrStripes) (Leads.acquire (Set.notMem_empty .thread))
    ⟨by simp, by simp⟩
  refine ⟨jmddev', _, _, hrun, hleads, Set.mem_insert _ _, by simp, fun hempty => ?_⟩
  exact (Set.insert_nonempty _ _).ne_empty (hempty.unique hleads)

/-! ### The balance of the pool -/

/-- **When the pool is balanced**: the array has as many members as disks, or the slab cache or
something that the first stripe asks for is refused. -/
theorem stripe_pool_balance_iff (τ : Type) (conf : JRaid5Conf) (env : GrowEnv N)
    (jraidDisks : ℕ) :
    Balanced τ conf env jraidDisks ↔
      jraidDisks = conf.numDisks ∨ env.slabCache = false ∨
        ∀ h : 0 < N, env.grants conf.numDisks ⟨0, h⟩ = false := by
  rw [balanced_iff, granted_eq_nil_iff]

/-- A kernel that grants all that is asked for. -/
def grantAll : GrowEnv nrStripes := ⟨true, fun _ => true, fun _ _ => some fun _ => 0⟩

/-- An array of three disks is started with two of them, and the pages of the third are left
behind. -/
theorem missing_member_unbalanced : ∃ s conf, (addStoreSystem evenDevices).exec
      (addStoreSystem evenDevices).init [addCall 3 0 0, addCall 2 1 16] = .ok s ∧
    s.conf = some conf ∧ s.nbDev = 2 ∧ conf.raidDisks = 3 ∧
      ¬ Balanced Empty conf grantAll s.nbDev := by
  obtain ⟨s, hrun, hshow⟩ : ∃ s, (addStoreSystem evenDevices).exec
      (addStoreSystem evenDevices).init [addCall 3 0 0, addCall 2 1 16] = .ok s ∧
        (s.nbDev, s.conf.map JRaid5Conf.raidDisks) = (2, some 3) :=
    Except.exists_of_toOption_map (by decide +kernel)
  obtain ⟨hnb, hconf⟩ := Prod.mk.inj hshow
  obtain ⟨conf, hconf, hraid⟩ := Option.map_eq_some_iff.mp hconf
  refine ⟨s, conf, hrun, hconf, hnb, hraid, ?_⟩
  have hdisks : conf.numDisks = 3 := by
    rw [JRaid5Conf.numDisks, hraid]
    rfl
  rw [balanced_iff, granted_eq_nil_iff, hnb, hdisks]
  rintro (h | h | h)
  · cases h
  · cases h
  · exact absurd (h (by decide)) (by simp [GrowEnv.grants, grantAll])

end Jmd

end JRaid
