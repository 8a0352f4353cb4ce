import JRaid.Requests.Machine
import JRaid.Stripe.HashInvariant
import Mathlib.Data.List.Perm.Basic

/-!
# Reference counts and lists

A stripe is referred to by the threads that hold it and by the requests in flight. In every
reachable state the counts of the stripes are these numbers, the stripes that nobody refers
to are on the list their `STRIPE_HANDLE` bit says, and `active_stripes` counts the others
and those to be handled. This is `RefPool.Wf` for the pool of the cache; what each step does
to the references is an operation of `RefPool`.
-/

namespace JRaid

variable {N : ℕ} {τ : Type} [Fintype τ]

namespace State

/-- The references to a stripe: the threads that hold it and its requests in flight. -/
def refs (s : State N τ) (sh : Fin N) : ℕ :=
  (Finset.univ.filter fun t => (s.pc t).held = some sh).card +
    s.inflight.countP fun req => req.sh = sh

/-- The count invariant. -/
structure CountInv (s : State N τ) : Prop where
  pool : s.cache.pool.Wf s.refs
  report : s.cache.report = []

/-! ### How the references change -/

section Moves

variable {s s' : State N τ} {t : τ} {p : Pc N} {sh : Fin N}

/-- A count that goes up by one at one stripe. -/
private theorem up_at {f g : Fin N → ℕ} (h : ∀ x, g x = f x + if sh = x then 1 else 0) :
    g sh = f sh + 1 ∧ ∀ x, x ≠ sh → g x = f x := by
  refine ⟨?_, fun x hx => ?_⟩
  · rw [h, if_pos rfl]
  · rw [h, if_neg (Ne.symm hx), Nat.add_zero]

/-- A count that goes down by one at one stripe. -/
private theorem down_at {f g : Fin N → ℕ} (h : ∀ x, f x = g x + if sh = x then 1 else 0) :
    f sh = g sh + 1 ∧ ∀ x, x ≠ sh → g x = f x :=
  ⟨(up_at h).1, fun x hx => ((up_at h).2 x hx).symm⟩

/-- A request that completes. -/
theorem refs_complete {k : ℕ} {req : MemberReq N τ} (h : Completes s k req s') :
    s.refs req.sh = s'.refs req.sh + 1 ∧ ∀ x, x ≠ req.sh → s'.refs x = s.refs x := by
  have hperm : (req :: s.inflight.eraseIdx k).Perm s.inflight := by
    obtain ⟨hk, rfl⟩ := List.getElem?_eq_some_iff.mp h.get
    exact List.getElem_cons_eraseIdx_perm hk
  have hcount : ∀ x, s.inflight.countP (fun r => decide (r.sh = x)) =
      (s.inflight.eraseIdx k).countP (fun r => decide (r.sh = x)) +
        if req.sh = x then 1 else 0 := by
    intro x
    rw [← hperm.countP_eq, List.countP_cons]
    simp
  refine down_at fun x => ?_
  rw [refs, refs, h.pc, h.inflight, hcount, Nat.add_assoc]

/-- Somebody who holds a stripe refers to it. -/
theorem refs_ne_zero_of_held (h : (s.pc t).held = some sh) : s.refs sh ≠ 0 := by
  have : 0 < (Finset.univ.filter fun t => (s.pc t).held = some sh).card :=
    Finset.card_pos.mpr ⟨t, by simp [h]⟩
  rw [refs]
  omega

variable [DecidableEq τ]

/-- When one thread moves, the references change by what it held and what it holds, and by
the requests in flight. -/
private theorem refs_move (s s' : State N τ) (hpc : s'.pc = Function.update s.pc t p) (x : Fin N) :
    s'.refs x + (if (s.pc t).held = some x then 1 else 0) +
        (s.inflight.countP fun req => req.sh = x) =
      s.refs x + (if p.held = some x then 1 else 0) +
        s'.inflight.countP fun req => req.sh = x := by
  have hcard := card_filter_update s.pc t p fun q => q.held = some x
  rw [refs, refs, hpc]
  omega

/-- A thread that moves without taking or dropping a stripe. -/
theorem refs_same (s s' : State N τ) (hpc : s'.pc = Function.update s.pc t p)
    (hheld : p.held = (s.pc t).held) (hin : s'.inflight = s.inflight) (x : Fin N) :
    s'.refs x = s.refs x := by
  have := refs_move s s' hpc x
  rw [hheld, hin] at this
  omega

/-- A thread that takes a stripe. -/
theorem refs_take (s s' : State N τ) (hpc : s'.pc = Function.update s.pc t p)
    (hheld : (s.pc t).held = none) (hp : p.held = some sh) (hin : s'.inflight = s.inflight) :
    s'.refs sh = s.refs sh + 1 ∧ ∀ x, x ≠ sh → s'.refs x = s.refs x := by
  refine up_at fun x => ?_
  have hmove := refs_move s s' hpc x
  rw [hheld, hp, hin] at hmove
  simp only [reduceCtorEq, ↓reduceIte, Option.some.injEq] at hmove
  omega

/-- A thread that drops its stripe. -/
theorem refs_drop (s s' : State N τ) (hpc : s'.pc = Function.update s.pc t p)
    (hheld : (s.pc t).held = some sh) (hp : p.held = none) (hin : s'.inflight = s.inflight) :
    s.refs sh = s'.refs sh + 1 ∧ ∀ x, x ≠ sh → s'.refs x = s.refs x := by
  refine down_at fun x => ?_
  have hmove := refs_move s s' hpc x
  rw [hheld, hp, hin] at hmove
  simp only [reduceCtorEq, ↓reduceIte, Option.some.injEq] at hmove
  omega

/-- A thread that submits a request for the stripe it holds. -/
theorem refs_submit (s s' : State N τ) {req : MemberReq N τ}
    (hpc : s'.pc = Function.update s.pc t p) (hheld : p.held = (s.pc t).held)
    (hin : s'.inflight = s.inflight ++ [req]) :
    s'.refs req.sh = s.refs req.sh + 1 ∧ ∀ x, x ≠ req.sh → s'.refs x = s.refs x := by
  refine up_at fun x => ?_
  have hmove := refs_move s s' hpc x
  rw [hheld, hin, List.countP_append, List.countP_singleton] at hmove
  simp only [decide_eq_true_eq] at hmove
  omega

end Moves

/-! ### The invariant -/

namespace CountInv

variable {env : Env N τ} {s s' : State N τ} {t : τ} {sh : Fin N}

theorem init (env : Env N τ) : CountInv env.init := by
  have hrefs : ∀ x, env.init.refs x = 0 := fun x => by simp [refs, Env.init, Pc.held]
  have hpool : env.init.cache.pool = _ := Cache.pool_growStripes N τ env.conf env.page
  refine ⟨?_, Cache.report_growStripes N τ env.conf env.page⟩
  rw [hpool]
  refine ⟨fun x => by simp [hrefs], List.nodup_finRange N, List.nodup_nil, fun x => ?_, fun x => ?_,
    by simp⟩
  · simp [hrefs, List.mem_finRange]
  · simp

/-- A stripe that is referred to is on no list and counted as active. -/
theorem not_onList (h : CountInv s) (hr : s.refs sh ≠ 0) :
    ¬s.cache.OnList sh ∧ s.cache.activeStripes ≠ 0 := by
  obtain ⟨hfree, hwork⟩ := h.pool.not_mem_of_refs hr
  exact ⟨fun hl => hl.elim hfree hwork, (h.pool.live_pos hfree).ne'⟩

/-- Dropping the last use of a reference. -/
private theorem put (h : CountInv s) (hr : s.refs sh = s'.refs sh + 1)
    (hne : ∀ x, x ≠ sh → s'.refs x = s.refs x) (hpool : s'.cache.pool = s.cache.pool.put sh)
    (hrep : ¬s.cache.OnList sh → s.cache.activeStripes ≠ 0 → s'.cache.report = s.cache.report) :
    CountInv s' := by
  obtain ⟨hl, ha⟩ := h.not_onList (show s.refs sh ≠ 0 by omega)
  exact ⟨hpool ▸ h.pool.put hr hne, (hrep hl ha).trans h.report⟩

variable [DecidableEq τ]

/-- **A step of a thread keeps the count invariant.** -/
theorem runs (h : CountInv s) (hrun : Runs env s t s') : CountInv s' := by
  have same : ∀ (p : Pc N) (s' : State N τ), s'.pc = Function.update s.pc t p →
      p.held = (s.pc t).held → s'.inflight = s.inflight → s'.cache.pool = s.cache.pool →
      s'.cache.report = s.cache.report → CountInv s' := fun p s' hpc hheld hin hpool hrep =>
    ⟨hpool ▸ h.pool.congr (refs_same s s' hpc hheld hin), hrep.trans h.report⟩
  -- a call that asks for a stripe has none
  have asks : s.pc t = .get ∨ s.pc t = .wait → (s.pc t).held = none := by
    rintro (hpc | hpc) <;> rw [hpc] <;> rfl
  cases hrun with
  | idle => exact h
  | start ht hpc => exact same .get _ rfl (by rw [hpc]; rfl) rfl rfl rfl
  | startDaemon ht hpc => exact same .pop _ rfl (by rw [hpc]; rfl) rfl rfl rfl
  | @hit b sh c ht hpc hhit =>
    have hheld := asks hpc
    obtain ⟨hr, hne⟩ := refs_take s ({ s with cache := c }.goto t (.add sh)) rfl hheld rfl rfl
    refine ⟨?_, ?_⟩
    · exact (show c.pool = _ from hhit.pool) ▸ h.pool.claim hr hne
    · refine (hhit.report fun hc => (h.not_onList ?_).1).trans h.report
      rw [h.pool.count_eq] at hc
      exact_mod_cast hc
  | @miss b sh c ht hpc hmiss =>
    have hheld := asks hpc
    obtain ⟨hr, hne⟩ := refs_take s ({ s with cache := c }.goto t (.add sh)) rfl hheld rfl rfl
    obtain ⟨rest, hfree⟩ := hmiss.free
    exact ⟨(show c.pool = _ from hmiss.pool) ▸ h.pool.takeFree hfree hr hne,
      hmiss.report.trans h.report⟩
  | exhausted ht hpc hfree =>
    have hheld := asks hpc
    exact same .wait _ rfl hheld.symm rfl rfl rfl
  | add ht hpc => exact same _ _ rfl (by rw [hpc]; rfl) rfl (Cache.pool_addStripeBio _ _ _ _) rfl
  | scan hpc => exact same _ _ rfl (by rw [hpc]; rfl) rfl (Cache.pool_modifyDev _ _ _ _) rfl
  | parity hpc => exact same _ _ rfl (by rw [hpc]; rfl) rfl (Cache.pool_modifyDev _ _ _ _) rfl
  | skip hpc hdir => exact same _ _ rfl (by rw [hpc]; rfl) rfl rfl rfl
  | @request sh i req c hpc hsub =>
    -- the thread keeps its reference, and the request takes one of its own
    obtain ⟨jrdev, -, hreq⟩ := hsub.member
    have hsh : req.sh = sh := by rw [hreq]; rfl
    have hheld : (s.pc t).held = some req.sh := by rw [hpc, hsh]; rfl
    obtain ⟨hr, hne⟩ := refs_submit s
      ({ s with cache := c, inflight := s.inflight ++ [req] }.goto t (.submit sh i)) rfl
      (by rw [hpc]; rfl) rfl
    have hpool : c.pool = s.cache.pool.hold req.sh := by rw [hsh]; exact hsub.pool
    exact ⟨hpool ▸ h.pool.hold (refs_ne_zero_of_held hheld) hr hne, hsub.report.trans h.report⟩
  | @postpone sh i rw c hpc hpost =>
    have hheld : (s.pc t).held = some sh := by rw [hpc]; rfl
    have hrefs := refs_same s ({ s with cache := c }.goto t (.submit sh i)) rfl
      (by rw [hpc]; rfl) rfl
    exact ⟨(show c.pool = _ from hpost.pool) ▸
      (h.pool.mark (refs_ne_zero_of_held hheld)).congr hrefs, hpost.report.trans h.report⟩
  | @release b sh ht hpc =>
    obtain ⟨hr, hne⟩ := refs_drop s
      ({ s with cache := s.cache.releaseStripe sh }.goto t .finish) rfl
      (show (s.pc t).held = some sh by rw [hpc]; rfl) rfl rfl
    exact h.put hr hne (Cache.pool_releaseStripe _ _) (Cache.report_releaseStripe _ _)
  | @releaseDaemon sh ht hpc =>
    obtain ⟨hr, hne⟩ := refs_drop s ({ s with cache := s.cache.releaseStripe sh }.goto t .pop) rfl
      (show (s.pc t).held = some sh by rw [hpc]; rfl) rfl rfl
    exact h.put hr hne (Cache.pool_releaseStripe _ _) (Cache.report_releaseStripe _ _)
  | finish ht hpc =>
    obtain ⟨hcache, hpc', hin, -⟩ := finish_frame s t
    exact same .done _ hpc' (by rw [hpc]; rfl) hin (by rw [hcache]) (by rw [hcache])
  | @take sh c ht hpc htaken =>
    obtain ⟨hr, hne⟩ := refs_take s ({ s with cache := c }.goto t (.scan sh env.conf.numDisks)) rfl
      (show (s.pc t).held = none by rw [hpc]; rfl) rfl rfl
    obtain ⟨rest, hwork⟩ := htaken.work
    exact ⟨(show c.pool = _ from htaken.pool) ▸ h.pool.takeWork hwork hr hne,
      htaken.report.trans h.report⟩
  | drained ht hpc hwork => exact same _ _ rfl (by rw [hpc]; rfl) rfl rfl rfl

/-- Every step of the machine keeps the count invariant. -/
theorem step {e : Event τ} (h : CountInv s) (hstep : env.machine.step s e = .ok s') :
    CountInv s' := by
  obtain ⟨t, -, hrun⟩ | rfl | ⟨k, req, -, hdone⟩ := step_cases hstep
  · exact h.runs hrun
  · exact h
  · obtain ⟨hr, hne⟩ := refs_complete hdone
    exact h.put hr hne hdone.pool hdone.report

theorem reachable (hs : env.machine.Reachable s) : CountInv s :=
  hs.invariant (CountInv.init env) fun _ _ _ _ h hstep => h.step hstep

end CountInv

/-! ### The hash table -/

section HashTable

variable [DecidableEq τ] {env : Env N τ} {s s' : State N τ} {t : τ}

omit [Fintype τ] in
/-- A step of a thread keeps the hash table invariant. -/
theorem hashInv_runs (h : Cache.HashInv env.conf s.cache) (hrun : Runs env s t s') :
    Cache.HashInv env.conf s'.cache := by
  cases hrun with
  | idle => exact h
  | start ht hpc => exact h
  | startDaemon ht hpc => exact h
  | hit ht hpc hhit => exact h.hit hhit
  | miss ht hpc hmiss => exact h.miss hmiss
  | exhausted ht hpc hfree => exact h
  | @add b sh ht hpc =>
    exact h.modifyDev sh (env.place t).ddIdx.toNat fun d => (d.addBio env.bio t b.biRw).2
  | scan hpc => exact h.modifyDev _ _ _
  | parity hpc => exact h.modifyDev _ _ _
  | skip hpc hdir => exact h
  | request hpc hsub =>
    exact h.congr hsub.table fun x _ => by
      rw [State.goto, hsub.row, Cache.sector_modifyDev]
  | postpone hpc hpost =>
    exact h.congr hpost.table fun x _ => by
      rw [State.goto, hpost.row, Cache.sector_modifyDev]
  | release ht hpc => exact h.releaseStripe _
  | releaseDaemon ht hpc => exact h.releaseStripe _
  | finish ht hpc => exact (finish_frame s t).1 ▸ h
  | take ht hpc htaken => exact h.congr htaken.table fun x _ => by rw [State.goto, htaken.row]
  | drained ht hpc hwork => exact h

omit [Fintype τ] in
/-- **The hash table invariant holds in every reachable state of the array.** -/
theorem hashInv_reachable (hs : env.machine.Reachable s) : Cache.HashInv env.conf s.cache := by
  refine hs.invariant (I := fun s => Cache.HashInv env.conf s.cache)
    (Cache.HashInv.growStripes env.conf env.page) fun s e s' _ h hstep => ?_
  obtain ⟨t, -, hrun⟩ | rfl | ⟨k, req, -, hdone⟩ := step_cases hstep
  · exact hashInv_runs h hrun
  · exact h
  · obtain ⟨page, hrow⟩ := hdone.row
    exact h.congr hdone.table fun x _ => by rw [hrow, Cache.sector_modifyDev]

end HashTable

/-! ### What cannot go wrong -/

variable [DecidableEq τ] {env : Env N τ} {s s' : State N τ} {t : τ}

/-- **The only `BUG()` a run can reach** is the one of `__init_stripe` about a device with
queued bios. -/
theorem stop_eq_initPending (hs : env.machine.Reachable s) {e : Event τ} {b : Stop}
    (h : env.machine.step s e = .error b) :
    b = .initPending ∧ ∃ sh rest, s.cache.pool.free = sh :: rest ∧
      ∃ i < env.conf.numDisks, ((s.cache.row sh).dev i).Pending := by
  have hcount := CountInv.reachable hs
  cases e with
  | complete k => cases h
  | run t =>
    obtain ⟨-, hget⟩ | ⟨-, htake⟩ := runThread_eq_error h
    · obtain hnone | ⟨sh, -, hc, hl⟩ | ⟨sh, rest, hfree, hinit⟩ :=
        Cache.getActiveStripe_eq_error hget
      · obtain ⟨f, hf, -⟩ := (hashInv_reachable hs).findStripe (env.place t).newSector
        rw [hnone] at hf
        cases hf
      · -- an idle stripe is on one of the lists
        rw [hcount.pool.count_eq] at hc
        obtain ⟨hfree, hwork⟩ := hcount.pool.mem_of_refs_eq_zero (x := sh) (by exact_mod_cast hc)
        exfalso
        cases hm : s.cache.pool.marked sh with
        | false => exact hl (Or.inl (hfree.mpr hm))
        | true => exact hl (Or.inr (hwork.mpr hm))
      · obtain ⟨hr, hm⟩ := (hcount.pool.mem_free sh).mp (hfree ▸ List.mem_cons_self)
        obtain ⟨rfl, hp⟩ := hinit (by rw [hcount.pool.count_eq, hr]; rfl) hm
        exact ⟨rfl, sh, rest, hfree, hp⟩
    · obtain ⟨sh, rest, hwork, hc⟩ := Cache.takeHandled_eq_error htake
      obtain ⟨hr, -⟩ := (hcount.pool.mem_work sh).mp (hwork ▸ List.mem_cons_self)
      rw [hcount.pool.count_eq, hr] at hc
      exact absurd rfl hc

/-- **The list and count invariant of the stripe cache.** In every reachable state the count
of a stripe is the number of threads that hold it and of its requests in flight; a stripe
with a positive count is on neither list, and one with count 0 is once on the list that its
`STRIPE_HANDLE` bit says and not on the other; `active_stripes` counts the stripes that are
not on `inactive_list`. No diagnostic has been printed, and a step can stop only with the
`BUG()` about a pending device. -/
theorem counts_correct (env : Env N τ) {s : State N τ} (hs : env.machine.Reachable s) :
    (∀ sh, (s.cache.stripe sh).count =
      ((Finset.univ.filter fun t => (s.pc t).held = some sh).card +
        s.inflight.countP fun req => req.sh = sh : ℕ)) ∧
    (∀ sh, 0 < (s.cache.stripe sh).count →
      sh ∉ s.cache.inactiveList ∧ sh ∉ s.cache.handleList) ∧
    (∀ sh, (s.cache.stripe sh).count = 0 →
      s.cache.handleList.count sh = (if (s.cache.stripe sh).handle then 1 else 0) ∧
      s.cache.inactiveList.count sh = if (s.cache.stripe sh).handle then 0 else 1) ∧
    s.cache.activeStripes = (Finset.univ.filter fun sh => sh ∉ s.cache.inactiveList).card ∧
    s.cache.report = [] ∧
    ∀ e b, env.machine.step s e = .error b → b = .initPending := by
  have h := CountInv.reachable hs
  refine ⟨h.pool.count_eq, fun sh hsh => ?_, fun sh hsh => ?_, h.pool.live_eq_card, h.report,
    fun e b he => (stop_eq_initPending hs he).1⟩
  · have hc : (0 : ℤ) < s.refs sh := (h.pool.count_eq sh) ▸ hsh
    exact h.pool.not_mem_of_refs (by omega)
  · have hr : s.refs sh = 0 := by
      have hc : (s.refs sh : ℤ) = 0 := (h.pool.count_eq sh).symm.trans hsh
      exact_mod_cast hc
    have hfree := h.pool.mem_free sh
    have hwork := h.pool.mem_work sh
    cases hm : (s.cache.stripe sh).handle with
    | false =>
      have hm' : s.cache.pool.marked sh = false := hm
      exact ⟨List.count_eq_zero.mpr fun hl => by simpa [hm'] using hwork.mp hl,
        List.count_eq_one_of_mem h.pool.free_nodup (hfree.mpr ⟨hr, hm'⟩)⟩
    | true =>
      have hm' : s.cache.pool.marked sh = true := hm
      exact ⟨List.count_eq_one_of_mem h.pool.work_nodup (hwork.mpr ⟨hr, hm'⟩),
        List.count_eq_zero.mpr fun hl => by simpa [hm'] using hfree.mp hl⟩

/-- Two writes to the two data blocks of a row: when the second is done with `handle_stripe`
and the first has returned, three requests are in flight and the stripe is referred to four
times. -/
theorem counts_correct_two_writes :
    let env := smallArray 1 allPresent [⟨0, 4096, .write⟩, ⟨8, 4096, .write⟩]
    ∃ s, env.machine.exec env.init
        (List.replicate 12 (.run 0) ++ List.replicate 10 (.run 1)) = .ok s ∧
      s.inflight.length = 3 ∧ (s.cache.stripe 0).count = 4 ∧ s.cache.inactiveList = [] ∧
      s.cache.report = [] := by
  intro env
  obtain ⟨s, hs, hlen⟩ := FallibleSystem.exists_exec
    (f := fun s : State 1 (Fin 2) => (s.inflight.length, (s.cache.stripe 0).count)) (v := (3, 4))
    (show (env.machine.exec env.init (List.replicate 12 (.run 0) ++
      List.replicate 10 (.run 1))).toOption.map _ = _ by decide +kernel)
  obtain ⟨hin, hc⟩ := Prod.mk.inj hlen
  obtain ⟨-, hpos, -, -, hrep, -⟩ := counts_correct env (FallibleSystem.reachable_of_exec hs)
  obtain ⟨hfree, -⟩ := hpos 0 (by rw [hc]; decide)
  refine ⟨s, hs, hin, hc, List.eq_nil_iff_forall_not_mem.mpr fun sh => ?_, hrep⟩
  rw [Subsingleton.elim sh 0]
  exact hfree

end State

end JRaid
