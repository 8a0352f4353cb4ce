import JRaid.Jmd.FailedStart
import JRaid.Requests.Counts
import JRaid.Requests.Provenance

/-!
# Unloading the module

`jraid5_exit` stops the two threads of the array, frees the stripes that `shrink_stripes` finds on
`inactive_list`, and then the hash table and the configuration. For a run of `jraid5d` it waits in
`kthread_stop`; at the calls of `jraid5_make_request` it does not look, and it does not give the
slab cache back.

The start of the array, any run of it, and the exit in whatever state the run has reached make one
ledger (`State.exit_ledger`): nothing is freed that is not held, and the stripes that are freed are
those that nobody refers to and that are not to be handled. A stripe that a call or a request still
refers to is left behind, with a configuration that is gone. If all calls have returned the slab
cache remains, and of each stripe the pages of the disks for which there was no member.
-/

namespace JRaid

open Ledger

variable {N : ℕ} {τ : Type}

/-! ### The function of the source -/

/-- What `jraid5_exit`, up to the personality, releases once the threads have ended, for stripes of
`devs` devices. The second thread is there if the start has registered it, and `jraidDisks` is the
field of that name. -/
def exitLog (devs jraidDisks : ℕ) (resyncThread : Bool) (c : Cache N τ) :
    Option (List (Entry (Resource N))) :=
  (Growth.shrinkStripes devs jraidDisks N c).map fun r =>
    (if resyncThread then [.release .resyncThread] else []) ++
      .release .thread :: (r.2 ++ [.release .hashtbl, .release .conf])

/-- How far `jraid5_exit` comes. -/
inductive Exit (N : ℕ) where
  | waits
  | faults
  | returns (log : List (Entry (Resource N)))

section

variable [Fintype τ]

/-- A run of `jraid5d` is under way. -/
def State.DaemonRuns (env : Env N τ) (s : State N τ) : Prop :=
  ∃ t, env.thread t = .jraid5d ∧ s.pc t ≠ .start ∧ s.pc t ≠ .done

instance : ∀ thread : Thread, Decidable (thread = .jraid5d)
  | .makeRequest _ => isFalse Thread.noConfusion
  | .jraid5d => isTrue rfl

instance (env : Env N τ) (s : State N τ) : Decidable (s.DaemonRuns env) :=
  inferInstanceAs (Decidable (∃ t, env.thread t = .jraid5d ∧ s.pc t ≠ .start ∧ s.pc t ≠ .done))

/-- `jraid5_exit` for an array in service: `kthread_stop` waits for a run of the daemon, and nothing
is freed before it has come to its end. -/
def State.jraid5Exit (env : Env N τ) (jraidDisks : ℕ) (resyncThread : Bool) (s : State N τ) :
    Exit N :=
  if s.DaemonRuns env then .waits
  else
    match exitLog env.conf.numDisks jraidDisks resyncThread s.cache with
    | none => .faults
    | some log => .returns log

end

/-! ### The pages of the stripes -/

/-- The block layer leaves the page of a request where it is. -/
def Env.KeepsPages (env : Env N τ) : Prop :=
  ∀ req page disk, (env.transfer req page disk).1.isSome = page.isSome

theorem keepsPages_of_copy {env : Env N τ} (h : env.transfer = MemberReq.copy) :
    env.KeepsPages := by
  intro req page disk
  rw [h]
  cases page with
  | none => rfl
  | some p => cases hrw : req.rw <;> simp [MemberReq.copy, hrw]

/-- The device of a stripe has a page. -/
def Cache.hasPage (c : Cache N τ) (sh : Fin N) (i : ℕ) : Bool := (c.page sh i).isSome

/-- **Each stripe keeps its pages**: one for each disk of the array, and none besides. -/
theorem State.hasPage_reachable [DecidableEq τ] {env : Env N τ} (hkeeps : env.KeepsPages)
    {s : State N τ} (hs : env.machine.Reachable s) (sh : Fin N) (i : ℕ) :
    s.cache.hasPage sh i = true ↔ i < env.conf.numDisks := by
  refine hs.invariant
    (I := fun s => ∀ sh i, s.cache.hasPage sh i = true ↔ i < env.conf.numDisks)
    (fun sh i => ?_) (fun s e s' _ h hstep sh i => ?_) sh i
  · have hgrow := Cache.page_growStripes N τ env.conf env.page sh i
    rw [Cache.hasPage, show env.machine.init.cache.page sh i = _ from hgrow]
    split_ifs with hi <;> simp [hi]
  · cases e with
    | run t =>
      rw [Cache.hasPage, page_of_runs (runThread_runs hstep)]
      exact h sh i
    | complete k =>
      obtain rfl := Except.ok.inj hstep
      obtain ⟨hpage, -⟩ | ⟨req, -, hpage, -⟩ := carried_out env s k
      · rw [Cache.hasPage, hpage]
        exact h sh i
      · rw [Cache.hasPage, hpage]
        split_ifs with hx
        · rw [hkeeps, hx.2]
          exact h req.sh req.dev
        · exact h sh i

/-! ### What `shrink_stripes` finds -/

namespace Growth

/-- `remove_hash` does not look at `active_stripes`. -/
private theorem removeHash_active (c : Cache N τ) (a : ℤ) (sh : Fin N) :
    Cache.removeHash { c with activeStripes := a } sh =
      { c.removeHash sh with activeStripes := a } := by
  unfold Cache.removeHash
  dsimp only
  cases (c.stripe sh).hashPprev with
  | none => rfl
  | some pprev =>
    dsimp only
    cases (c.stripe sh).hashNext with
    | none => cases pprev <;> rfl
    | some next => cases pprev <;> rfl

private theorem printIf_active (c : Cache N τ) (a : ℤ) (p : Prop) [Decidable p] (r : Report) :
    Cache.printIf { c with activeStripes := a } p r =
      { c.printIf p r with activeStripes := a } := by
  unfold Cache.printIf
  split_ifs <;> rfl

/-- What `shrink_stripes` releases does not depend on `active_stripes`. -/
theorem map_shrinkStripes_active (devs m num : ℕ) (c : Cache N τ) (a : ℤ) :
    (shrinkStripes devs m num { c with activeStripes := a }).map Prod.snd =
      (shrinkStripes devs m num c).map Prod.snd := by
  induction num generalizing c a with
  | zero => rfl
  | succ num ih =>
    rw [shrinkStripes, shrinkStripes, Cache.getFreeStripe, Cache.getFreeStripe]
    dsimp only
    cases c.inactiveList with
    | nil => rfl
    | cons sh rest =>
      have hremove := removeHash_active { c with inactiveList := rest } a sh
      dsimp only at hremove ⊢
      rw [hremove]
      generalize Cache.removeHash { c with inactiveList := rest } sh = d
      dsimp only
      rw [printIf_active d (a + 1), printIf_active d (d.activeStripes + 1)]
      dsimp only
      cases shrinkBuffers devs sh (List.range m)
          ((d.printIf ((d.stripe sh).count ≠ 0) .shrinkCount).stripe sh) with
      | none => rfl
      | some r =>
        obtain ⟨s, log⟩ := r
        have h := fun x => congrArg (Option.map fun l => log ++ .release (.stripe sh) :: l)
          (ih ((d.printIf ((d.stripe sh).count ≠ 0) .shrinkCount).modify sh fun _ => s) x)
        simp only [Option.map_map] at h
        dsimp only
        rw [Option.map_map, Option.map_map]
        exact (h _).trans (h _).symm

/-- **What `shrink_stripes` does while the array is in use**: it takes the free stripes and leaves
the pages of the devices from `m` on. -/
theorem shrinkStripes_inUse {m n num : ℕ} {c : Cache N τ} (hm : m ≤ n)
    (hnodup : c.inactiveList.Nodup) (hlen : c.inactiveList.length ≤ num)
    (hpages : ∀ sh i, c.hasPage sh i = true ↔ i < n) :
    ∃ c' log, shrinkStripes n m num c = some (c', log) ∧
      Leads (stock n c.inactiveList) log (leftover m n c.inactiveList) ∧ ∀ x, .acquire x ∉ log := by
  have hrest : AtRest { c with activeStripes := 0 } n c.inactiveList :=
    ⟨rfl, hnodup, rfl, fun sh _ i => hpages sh i⟩
  obtain ⟨c', log, hshrink, -, -, hleads, hno⟩ := shrinkStripes_spec hm hlen hrest
  have h := map_shrinkStripes_active n m num c 0
  rw [hshrink, Option.map_some] at h
  obtain ⟨r, hr, hlog⟩ := Option.map_eq_some_iff.mp h.symm
  obtain ⟨c₁, log₁⟩ := r
  obtain rfl : log₁ = log := hlog
  exact ⟨c₁, log₁, hr, hleads, hno⟩

end Growth

/-! ### What a started array holds -/

namespace Jmd

open Growth

/-- What a started array holds: all but the second thread, which is not always registered, with
`n` pages for each stripe. -/
def startHoldings (N n : ℕ) (resyncThread : Bool) : Set (Resource N) :=
  {x | match x with
    | .resyncThread => resyncThread = true
    | .page _ i => i < n
    | _ => True}

theorem startHoldings_false (n : ℕ) : startHoldings N n false =
    insert .conf (insert .hashtbl (insert .thread
      (insert .slabCache (stock n (List.finRange N))))) := by
  ext x
  cases x <;> simp [startHoldings, stock]

theorem startHoldings_true (n : ℕ) : startHoldings N n true =
    insert .conf (insert .hashtbl (insert .resyncThread (insert .thread
      (insert .slabCache (stock n (List.finRange N)))))) := by
  ext x
  cases x <;> simp [startHoldings, stock]

theorem holdings_of_grantsAll {conf : JRaid5Conf} {pool : GrowEnv N}
    (h : pool.grantsAll conf.numDisks = true) :
    holdings conf pool = insert .slabCache (stock conf.numDisks (List.finRange N)) := by
  obtain ⟨hslab, hall⟩ := Bool.and_eq_true_iff.mp h
  have hgranted : pool.granted conf.numDisks = List.finRange N := by
    rw [GrowEnv.granted, if_pos hslab,
      List.takeWhile_eq_self_iff.mpr (List.all_eq_true.mp hall)]
  simp [holdings, hgranted, hslab, Set.union_singleton]

/-- What the part of `jraid5_run` after the slots acquires when it succeeds: the daemon, the pool
and perhaps the second thread. -/
theorem RunState.finishLedger_started {st st' : RunState} {m : ℕ} {env : RunEnv}
    {pool : GrowEnv N} {log : List (Entry (Resource N))}
    (h : st.finishLedger m env pool = .ok (0, st', log)) :
    ∃ c log', growStripes Empty st.conf pool = some (true, c, log') ∧
      (log = .acquire .thread :: log' ∨
        log = .acquire .thread :: (log' ++ [.acquire .resyncThread])) := by
  have hfail : ∀ {a : RunState} {l : List (Entry (Resource N))},
      (Except.ok (-eio, a, l) : Except Fault _) ≠ .ok (0, st', log) := fun h =>
    absurd (Prod.mk.inj (Except.ok.inj h)).1 (by decide)
  unfold finishLedger at h
  dsimp only at h
  rw [ite_passes] at h
  split at h
  swap
  · exact absurd h hfail
  split at h
  · exact absurd h hfail
  split at h
  · cases h
  · split at h
    · cases h
    · exact absurd h hfail
  · rename_i c log' hgrow
    refine ⟨c, log', hgrow, ?_⟩
    split at h
    · cases h
    split at h
    · split at h
      · exact absurd h hfail
      · exact Or.inr (Prod.mk.inj (Prod.mk.inj (Except.ok.inj h)).2).2.symm
    · exact Or.inl (Prod.mk.inj (Prod.mk.inj (Except.ok.inj h)).2).2.symm

/-- **What a start holds when it succeeds.** -/
theorem Jmddev.started_ledger {jmddev jmddev' : Jmddev} {sb : Superblock} {env : RunEnv}
    {pool : GrowEnv N} {log : List (Entry (Resource N))}
    (h : jmddev.jraid5RunLedger sb env pool = .ok (0, jmddev', log)) :
    ∃ conf, jmddev'.conf = some conf ∧
      Leads ∅ log (startHoldings N conf.numDisks (decide (.acquire .resyncThread ∈ log))) := by
  have hfail : ∀ {a : Jmddev} {l : List (Entry (Resource N))},
      (Except.ok (-eio, a, l) : Except Fault _) ≠ .ok (0, jmddev', log) := fun h =>
    absurd (Prod.mk.inj (Except.ok.inj h)).1 (by decide)
  unfold jraid5RunLedger at h
  split at h
  · exact absurd h hfail
  split at h
  · exact absurd h hfail
  split at h
  · exact absurd h hfail
  split at h
  · cases h
  rename_i st hfill
  split at h
  · cases h
  rename_i err st' log' hfinish
  obtain ⟨rfl, rfl, rfl⟩ := by simpa using h
  simp only [↓reduceIte, List.append_nil]
  -- the pool has been granted, for as many disks as the configuration has now
  obtain ⟨-, hstop⟩ | ⟨f, hstop, -⟩ | ⟨err, st₁, log₁, held, hend, hend', -, -, hinner⟩ :=
    st.finishLedger_cases jmddev.nbDev env pool
  · cases hfinish.symm.trans hstop
  · cases hfinish.symm.trans hstop
  obtain ⟨rfl, rfl, rfl⟩ : err = 0 ∧ st₁ = st' ∧ log₁ = log' := by
    simpa using hend.symm.trans hfinish
  have hdone := RunState.finished hend'
  have hdisks : st₁.conf.numDisks = st.conf.numDisks := by
    rw [JRaid5Conf.numDisks, JRaid5Conf.numDisks, RunState.conf, RunState.conf,
      show st₁.sb.raidDisks = st.sb.raidDisks from congrArg Shape.raidDisks hdone.shape]
  obtain ⟨c, glog, hgrow, hlog⟩ := RunState.finishLedger_started hfinish
  obtain ⟨glog', hgrow', hleads, hof⟩ := growStripes_spec Empty st.conf pool
  obtain ⟨-, -, rfl⟩ : _ ∧ _ ∧ glog' = glog := by simpa using hgrow'.symm.trans hgrow
  rw [holdings_of_grantsAll hdone.stripes, ← hdisks] at hleads
  have hthread := leads_thread hof hleads
  have hno : .acquire Resource.resyncThread ∉ glog' :=
    notMem_of_pool hof (by simp) fun _ hsh => hsh
  refine ⟨_, rfl, ?_⟩
  rcases hlog with rfl | rfl
  · have hresync : decide (.acquire Resource.resyncThread ∈ (.acquire .conf :: .acquire .hashtbl ::
        .acquire .thread :: glog' : List (Entry (Resource N)))) = false := by simp [hno]
    rw [hresync, startHoldings_false]
    exact leads_conf hthread hinner
  · have hresync : decide (.acquire Resource.resyncThread ∈ (.acquire .conf :: .acquire .hashtbl ::
        .acquire .thread :: (glog' ++ [.acquire .resyncThread]) : List (Entry (Resource N)))) =
          true := by simp
    rw [hresync, startHoldings_true]
    exact leads_conf (hthread.append (Leads.acquire (by simp [stock]))) hinner

end Jmd

/-! ### What the exit releases -/

/-- What the exit leaves of `n` pages for each stripe, if the stripes that satisfy `free` are taken
and give back the pages in front of `m`. -/
def exitRemains (n m : ℕ) (free : Fin N → Prop) : Set (Resource N) :=
  {x | match x with
    | .slabCache => True
    | .stripe sh => ¬ free sh
    | .page sh i => i < n ∧ (free sh → m ≤ i)
    | _ => False}

/-- What is held while the stripes are taken, besides the free stripes. -/
private def besides (n : ℕ) (free : List (Fin N)) : Set (Resource N) :=
  {x | match x with
    | .conf | .hashtbl | .slabCache => True
    | .stripe sh => sh ∉ free
    | .page sh i => i < n ∧ sh ∉ free
    | _ => False}

/-- The threads are taken back first. -/
private theorem leads_threads (n : ℕ) (resyncThread : Bool) (free : List (Fin N)) :
    Leads (Jmd.startHoldings N n resyncThread)
      ((if resyncThread then [.release .resyncThread] else []) ++ [.release .thread])
      (Growth.stock n free ∪ besides n free) := by
  have hrest : Growth.stock n free ∪ besides n free =
      Jmd.startHoldings N n false \ {.thread} := by
    ext x
    cases x with
    | stripe sh => simp [Growth.stock, besides, Jmd.startHoldings, em]
    | page sh i =>
      by_cases hsh : sh ∈ free
      all_goals simp [Growth.stock, besides, Jmd.startHoldings, hsh]
    | _ => simp [Growth.stock, besides, Jmd.startHoldings]
  rw [hrest]
  cases resyncThread with
  | false => exact Leads.release (by simp [Jmd.startHoldings])
  | true =>
    have hboth : Jmd.startHoldings N n true \ {.resyncThread} = Jmd.startHoldings N n false := by
      ext x
      cases x <;> simp [Jmd.startHoldings]
    have h := Leads.release (s := Jmd.startHoldings N n true) (a := .resyncThread)
      (by simp [Jmd.startHoldings])
    rw [hboth] at h
    exact h.append (Leads.release (by simp [Jmd.startHoldings]))

/-- The hash table and the configuration are freed last. -/
private theorem leads_freed (n m : ℕ) (free : List (Fin N)) :
    Leads (Growth.leftover m n free ∪ besides n free) [.release .hashtbl, .release .conf]
      (exitRemains n m (· ∈ free)) := by
  refine ⟨Or.inr trivial, ⟨Or.inr trivial, by simp⟩, ?_⟩
  ext x
  cases x with
  | page sh i =>
    by_cases hsh : sh ∈ free
    all_goals simp [Growth.leftover, besides, exitRemains, hsh, and_comm]
  | _ => simp [Growth.leftover, besides, exitRemains]

/-- **What `jraid5_exit` frees** of a cache whose stripes have `n` pages each. -/
theorem exitLog_spec {n m : ℕ} (resyncThread : Bool) {c : Cache N τ}
    (hm : m ≤ n ∨ c.inactiveList = []) (hnodup : c.inactiveList.Nodup)
    (hpages : ∀ sh i, c.hasPage sh i = true ↔ i < n) :
    ∃ log, exitLog n m resyncThread c = some log ∧
      Leads (Jmd.startHoldings N n resyncThread) log (exitRemains n m (· ∈ c.inactiveList)) ∧
      ∀ x, .acquire x ∉ log := by
  have hlen : c.inactiveList.length ≤ N := by
    simpa using hnodup.length_le_card
  obtain ⟨c', log, hshrink, hleads, hno⟩ : ∃ c' log,
      Growth.shrinkStripes n m N c = some (c', log) ∧
        Leads (Growth.stock n c.inactiveList) log (Growth.leftover m n c.inactiveList) ∧
        ∀ x, .acquire x ∉ log := by
    rcases hm with hm | hnil
    · exact Growth.shrinkStripes_inUse hm hnodup hlen hpages
    · refine ⟨c, [], Growth.shrinkStripes_nil hnil _ _ _, ?_, fun x => List.not_mem_nil⟩
      rw [hnil, Growth.stock_nil, Growth.leftover_nil]
      exact Leads.nil _
  have hframe := hleads.frame (t := besides n c.inactiveList)
    (fun x hx hb => by
      cases x with
      | stripe sh => exact hb hx
      | page sh i => exact hb.2 hx.1
      | _ => exact hx) fun x hx => absurd hx (hno x)
  have hall := ((leads_threads n resyncThread c.inactiveList).append hframe).append
    (leads_freed n m c.inactiveList)
  refine ⟨_, by rw [exitLog, hshrink, Option.map_some], ?_, fun x hx => ?_⟩
  · simpa using hall
  · cases resyncThread <;> simp [hno] at hx

namespace State

variable [DecidableEq τ] [Fintype τ] {env : Env N τ} {s : State N τ}

/-- Nobody refers to the stripe, and it is not to be handled. -/
def Idle (s : State N τ) (sh : Fin N) : Prop := s.refs sh = 0 ∧ s.cache.pool.marked sh = false

instance (s : State N τ) (sh : Fin N) : Decidable (s.Idle sh) :=
  inferInstanceAs (Decidable (s.refs sh = 0 ∧ s.cache.pool.marked sh = false))

/-- What a start and a run acquire, and the exit frees once the daemon has ended. -/
private theorem exitLog_ledger {jmddev jmddev' : Jmd.Jmddev} {sb : Jmd.Superblock}
    {answers : Jmd.RunEnv} {pool : GrowEnv N} {log : List (Entry (Resource N))}
    (hstart : jmddev.jraid5RunLedger sb answers pool = .ok (0, jmddev', log))
    (hconf : jmddev'.conf = some env.conf) (hkeeps : env.KeepsPages)
    (hs : env.machine.Reachable s) :
    let n := env.conf.numDisks
    let exit := exitLog n jmddev.nbDev (decide (.acquire .resyncThread ∈ log)) s.cache
    (exit = none ↔ n < jmddev.nbDev ∧ ∃ sh, s.Idle sh) ∧
      ∀ log', exit = some log' →
        Leads ∅ (log ++ log') (exitRemains n jmddev.nbDev s.Idle) ∧
        ∀ sh, .release (.stripe sh) ∈ log' ↔ s.Idle sh := by
  intro n exit
  have hpool := (CountInv.reachable hs).pool
  have hfree : (· ∈ s.cache.inactiveList) = s.Idle :=
    funext fun sh => propext (hpool.mem_free sh)
  obtain ⟨conf, hconf', hstarted⟩ := Jmd.Jmddev.started_ledger hstart
  obtain rfl : conf = env.conf := Option.some.inj (hconf'.symm.trans hconf)
  have hidle : s.cache.inactiveList = [] ↔ ¬∃ sh, s.Idle sh := by
    rw [← hfree, List.eq_nil_iff_forall_not_mem, not_exists]
  have hspec := fun h => exitLog_spec (decide (.acquire .resyncThread ∈ log)) (m := jmddev.nbDev)
    h hpool.free_nodup (hasPage_reachable hkeeps hs)
  have hnone : exit = none ↔ n < jmddev.nbDev ∧ ∃ sh, s.Idle sh := by
    constructor
    · intro hexit
      by_contra hno
      obtain ⟨log', hlog', -⟩ := hspec (by rw [hidle, ← not_lt]; exact not_and_or.mp hno)
      cases hexit.symm.trans hlog'
    · rintro ⟨hlt, sh, hsh⟩
      have hmem : sh ∈ s.cache.inactiveList := (hpool.mem_free sh).mpr hsh
      obtain ⟨num, hN⟩ := Nat.exists_eq_succ_of_ne_zero sh.pos.ne'
      obtain ⟨x, l, hcons⟩ := List.exists_cons_of_ne_nil (List.ne_nil_of_mem hmem)
      have hstop : ∀ k, k = num + 1 → Growth.shrinkStripes n jmddev.nbDev k s.cache = none :=
        fun k hk => by rw [hk, Growth.shrinkStripes_eq_none hlt hcons]
      change exitLog _ _ _ _ = none
      rw [exitLog, hstop N hN, Option.map_none]
  refine ⟨hnone, fun log' hexit => ?_⟩
  obtain ⟨log₁, hlog₁, hleads, hno⟩ := hspec (by
    rw [hidle, ← not_lt]
    refine not_and_or.mp fun h => ?_
    cases hexit.symm.trans (hnone.mpr h))
  obtain rfl : log₁ = log' := Option.some.inj (hlog₁.symm.trans hexit)
  rw [hfree] at hleads
  refine ⟨hstarted.append hleads, fun sh => ?_⟩
  rw [hleads.release_mem_iff hno]
  simp [Jmd.startHoldings, exitRemains]

omit [DecidableEq τ] in
/-- The slab cache alone is left if all stripes are idle and each disk has a member. -/
theorem exitRemains_eq_slabCache_iff (hN : 0 < N) (s : State N τ) (n m : ℕ) :
    exitRemains n m s.Idle = {.slabCache} ↔ n ≤ m ∧ ∀ sh, s.Idle sh := by
  constructor
  · intro heq
    have hidle : ∀ sh, s.Idle sh := fun sh => by
      by_contra hsh
      have hmem : Resource.stripe sh ∈ exitRemains n m s.Idle := hsh
      rw [heq] at hmem
      cases hmem
    refine ⟨not_lt.mp fun hlt => ?_, hidle⟩
    -- the first page behind the members
    have hmem : Resource.page ⟨0, hN⟩ m ∈ exitRemains n m s.Idle := ⟨hlt, fun _ => le_rfl⟩
    rw [heq] at hmem
    cases hmem
  · rintro ⟨hle, hidle⟩
    ext x
    cases x with
    | page sh i =>
      refine iff_of_false (fun h => ?_) (by simp)
      exact absurd (h.1.trans_le hle) (not_lt.mpr (h.2 (hidle sh)))
    | _ => simp [exitRemains, hidle]

/-- An array with a call that writes its first block, and a run of the daemon. -/
def writeWith (conf : JRaid5Conf) : Env 1 (Fin 2) :=
  { smallArray 1 allPresent [⟨0, 4096, .write⟩, ⟨0, 4096, .write⟩] with
    conf := conf
    thread := fun t => if t = 0 then .makeRequest ⟨0, 4096, .write⟩ else .jraid5d }

/-- The write is served, its request completes, and the daemon has run. -/
def servesWrite : List (Event (Fin 2)) :=
  List.replicate 10 (.run 0) ++ .complete 0 :: List.replicate 3 (.run 1)

end State

end JRaid
