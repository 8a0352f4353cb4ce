import JRaid.Requests.Drain
import JRaid.Requests.Endio
import JRaid.ForMathlib.FairRun
import Mathlib.Algebra.Order.BigOperators.Group.Finset

/-!
# Every call returns

A call may wait for a free stripe, and a stripe becomes free when nobody refers to it any
more. If the members that the calls go to are present, then in every run without end in which
each thread takes steps again and again and every request completes, all calls return
(`State.calls_return`): every step that does anything leaves less to do (`State.toDo`), so the
run comes to rest, and at rest nobody can be waiting, because all stripes are free. A run that
reaches a BUG has no such continuation; what it takes to reach one is another matter.
-/

namespace JRaid

variable {N : ℕ} {τ : Type}

/-- A program counter that a thread can have. -/
def Thread.Allows : Thread → Pc N → Bool
  | .makeRequest _, .pop => false
  | .jraid5d, .get | .jraid5d, .wait | .jraid5d, .add _ | .jraid5d, .finish => false
  | _, _ => true

namespace State

/-- What is left to do: the steps of the threads, and the requests in flight. -/
def toDo [Fintype τ] (env : Env N τ) (s : State N τ) : ℕ :=
  ∑ t, (s.pc t).rank env.conf.numDisks + s.inflight.length

variable [DecidableEq τ] {env : Env N τ} {s s' : State N τ} {t : τ}

/-- **A fair run**: each thread has its turn again and again, and as long as a request is in
flight, the oldest completes at some time. -/
structure FairRun (env : Env N τ) (run : ℕ → State N τ) (ev : ℕ → Event τ) : Prop where
  isRun : env.machine.IsRun run ev
  threads : ∀ t n, ∃ m, n ≤ m ∧ ev m = .run t
  completes : ∀ n, (run n).inflight ≠ [] → ∃ m, n ≤ m ∧ ev m = .complete 0

/-! ### Steps leave less to do -/

section Measure

variable [Fintype τ]

/-- A thread that moves on. -/
private theorem toDo_lt {p : Pc N} (hpc : s'.pc = Function.update s.pc t p)
    (h : p.rank env.conf.numDisks + s'.inflight.length <
      (s.pc t).rank env.conf.numDisks + s.inflight.length) :
    s'.toDo env < s.toDo env := by
  have hsum := Finset.add_sum_erase Finset.univ (fun u => (s.pc u).rank env.conf.numDisks)
    (Finset.mem_univ t)
  have hsum' := Finset.add_sum_erase Finset.univ (fun u => (s'.pc u).rank env.conf.numDisks)
    (Finset.mem_univ t)
  have hrest : ∑ u ∈ Finset.univ.erase t, (s'.pc u).rank env.conf.numDisks =
      ∑ u ∈ Finset.univ.erase t, (s.pc u).rank env.conf.numDisks :=
    Finset.sum_congr rfl fun u hu => by rw [hpc, Function.update_of_ne (Finset.ne_of_mem_erase hu)]
  have hself : (s'.pc t).rank env.conf.numDisks = p.rank env.conf.numDisks := by
    rw [hpc, Function.update_self]
  rw [toDo, toDo, ← hsum, ← hsum', hrest, hself]
  omega

/-- A step of a thread does nothing, or leaves less to do. -/
private theorem toDo_runs (hnil : s.cache.handleList = []) (hrun : Runs env s t s') :
    s' = s ∨ s'.toDo env < s.toDo env := by
  have lt : ∀ {p q : Pc N}, s.pc t = p → s'.pc = Function.update s.pc t q →
      s'.inflight = s.inflight → q.rank env.conf.numDisks < p.rank env.conf.numDisks →
      s' = s ∨ s'.toDo env < s.toDo env := fun hp hq hin hlt => by
    refine Or.inr (toDo_lt hq ?_)
    rw [hin, hp]
    omega
  have get : ∀ {q : Pc N}, s.pc t = .get ∨ s.pc t = .wait → s'.pc = Function.update s.pc t q →
      s'.inflight = s.inflight → q.rank env.conf.numDisks < 3 * env.conf.numDisks + 5 →
      s' = s ∨ s'.toDo env < s.toDo env := fun hp hq hin hlt => by
    rcases hp with hp | hp
    · exact lt hp hq hin (hlt.trans (Nat.lt_succ_self _))
    · exact lt hp hq hin hlt
  cases hrun with
  | idle => exact Or.inl rfl
  | start ht hpc => exact lt hpc rfl rfl (by simp [Pc.rank])
  | startDaemon ht hpc => exact lt hpc rfl rfl (by simp [Pc.rank])
  | hit ht hpc hhit => exact get hpc rfl rfl (by simp [Pc.rank])
  | miss ht hpc hmiss => exact get hpc rfl rfl (by simp [Pc.rank])
  | exhausted ht hpc hfree =>
    rcases hpc with hpc | hpc
    · exact lt hpc rfl rfl (by simp [Pc.rank])
    · -- a thread that goes on waiting
      left
      rw [goto, ← hpc, Function.update_eq_self]
  | add ht hpc => exact lt hpc rfl rfl (by simp only [Pc.rank]; omega)
  | scan hpc => exact lt hpc rfl rfl (by simp only [Pc.rank]; omega)
  | parity hpc => exact lt hpc rfl rfl (by simp only [Pc.rank]; omega)
  | skip hpc hdir => exact lt hpc rfl rfl (by simp only [Pc.rank]; omega)
  | @request sh i req c hpc hsub =>
    refine Or.inr (toDo_lt (p := .submit sh i) rfl ?_)
    change _ + (s.inflight ++ [req]).length < _
    rw [hpc, List.length_append, List.length_singleton]
    simp only [Pc.rank]
    omega
  | postpone hpc hpost => exact lt hpc rfl rfl (by simp only [Pc.rank]; omega)
  | release ht hpc => exact lt hpc rfl rfl (by simp [Pc.rank])
  | releaseDaemon ht hpc => exact lt hpc rfl rfl (by simp [Pc.rank])
  | finish ht hpc =>
    obtain ⟨-, hpc', hin, -⟩ := finish_frame s t
    exact lt hpc hpc' hin (by simp [Pc.rank])
  | take ht hpc htaken =>
    obtain ⟨rest, hwork⟩ := htaken.work
    cases hnil.symm.trans hwork
  | drained ht hpc hwork => exact lt hpc rfl rfl (by simp [Pc.rank])

/-- **Every step does nothing or leaves less to do**, in the reachable states of an array whose
calls go to present members. -/
theorem toDo_step (hv : env.Supported) (hpresent : env.TargetsPresent)
    (hs : env.machine.Reachable s) {e : Event τ} (hstep : env.machine.step s e = .ok s') :
    s' = s ∨ s'.toDo env < s.toDo env := by
  obtain ⟨t, -, hrun⟩ | heq | ⟨k, req, -, hdone⟩ := step_cases hstep
  · exact toDo_runs (handleList_eq_nil hv hpresent hs) hrun
  · exact Or.inl heq
  · right
    obtain ⟨hk, -⟩ := List.getElem?_eq_some_iff.mp hdone.get
    have hlen := List.length_eraseIdx_of_lt hk
    rw [toDo, toDo, hdone.pc, hdone.inflight, hlen]
    omega

end Measure

/-! ### The threads at rest -/

/-- A thread has a program counter of its kind. -/
private theorem allows_reachable (hs : env.machine.Reachable s) (u : τ) :
    (env.thread u).Allows (s.pc u) = true := by
  refine hs.invariant (I := fun s => ∀ u, (env.thread u).Allows (s.pc u) = true)
    (fun u => ?_) (fun s e s' _ h hstep u => ?_) u
  · change (env.thread u).Allows .start = true
    cases env.thread u <;> rfl
  · obtain ⟨t, -, hrun⟩ | rfl | ⟨k, req, -, hdone⟩ := step_cases hstep
    · rcases eq_or_ne u t with rfl | hne
      · have keep : ∀ {p : Pc N}, s'.pc = Function.update s.pc u p →
            (env.thread u).Allows p = true → (env.thread u).Allows (s'.pc u) = true :=
          fun hpc hp => by rwa [hpc, Function.update_self]
        cases hrun with
        | idle => exact h u
        | start ht hpc | hit ht hpc hhit | miss ht hpc hmiss | exhausted ht hpc hfree
        | add ht hpc | release ht hpc | startDaemon ht hpc | releaseDaemon ht hpc
        | take ht hpc htaken | drained ht hpc hwork => exact keep rfl (by rw [ht]; rfl)
        | finish ht hpc => exact keep (finish_frame s u).2.1 (by rw [ht]; rfl)
        | scan hpc | parity hpc | skip hpc hdir | request hpc hsub | postpone hpc hpost =>
          exact keep rfl (by cases env.thread u <;> rfl)
      · rw [pc_of_runs_of_ne hrun hne]
        exact h u
    · exact h u
    · rw [hdone.pc]
      exact h u

/-- A thread whose step has led from a state to itself is where the step takes it. -/
private theorem pc_of_ok {a : State N τ} {p : Pc N}
    (h : Except.ok (ε := Stop) (a.goto t p) = .ok s) : s.pc t = p := by
  rw [← Except.ok.inj h, pc_goto_self]

/-- A pass of `get_active_stripe` that changes nothing finds no free stripe and leaves the call
waiting. -/
private theorem waits_of_getStripe (hpc : s.pc t = .get ∨ s.pc t = .wait)
    (h : s.getStripe env t = .ok s) : s.pc t = .wait ∧ s.cache.pool.free = [] := by
  have hadd : ∀ sh, s.pc t ≠ .add sh := fun sh hsh => by
    rcases hpc with hpc | hpc <;> rw [hpc] at hsh <;> cases hsh
  rw [getStripe] at h
  obtain ⟨⟨f, c⟩, hget, heq⟩ := Except.exists_of_map_eq_ok h
  have hok := congrArg (Except.ok (ε := Stop)) heq
  obtain ⟨sh, rfl, -⟩ | ⟨sh, rfl, -⟩ | ⟨rfl, hexh⟩ := Cache.getActiveStripe_eq_ok hget
  · exact absurd (pc_of_ok hok) (hadd sh)
  · exact absurd (pc_of_ok hok) (hadd sh)
  · exact ⟨pc_of_ok hok, hexh.free⟩

/-- **Threads at rest**: a thread whose next step does nothing has returned, or waits and finds no
free stripe. -/
theorem pc_of_rest (hs : env.machine.Reachable s) (h : env.machine.step s (.run t) = .ok s) :
    s.pc t = .done ∨ (s.pc t = .wait ∧ s.cache.pool.free = []) := by
  have hallow := allows_reachable hs t
  change s.runThread env t = .ok s at h
  cases hpc : s.pc t with
  | start =>
    cases ht : env.thread t with
    | makeRequest b =>
      rw [runThread, hpc, ht] at h
      cases hpc.symm.trans (pc_of_ok h)
    | jraid5d =>
      rw [runThread, hpc, ht] at h
      cases hpc.symm.trans (pc_of_ok h)
  | get =>
    cases ht : env.thread t with
    | makeRequest b =>
      rw [runThread, hpc, ht] at h
      exact Or.inr (hpc ▸ waits_of_getStripe (Or.inl hpc) h)
    | jraid5d =>
      rw [ht, hpc] at hallow
      cases hallow
  | wait =>
    cases ht : env.thread t with
    | makeRequest b =>
      rw [runThread, hpc, ht] at h
      dsimp only at h
      split_ifs at h with hnil
      · exact Or.inr ⟨rfl, hnil⟩
      · exact Or.inr (hpc ▸ waits_of_getStripe (Or.inr hpc) h)
    | jraid5d =>
      rw [ht, hpc] at hallow
      cases hallow
  | add sh =>
    cases ht : env.thread t with
    | makeRequest b =>
      rw [runThread, hpc, ht] at h
      cases hpc.symm.trans (pc_of_ok h)
    | jraid5d =>
      rw [ht, hpc] at hallow
      cases hallow
  | scan sh i =>
    rw [runThread, hpc] at h
    cases i with
    | zero => cases hpc.symm.trans (pc_of_ok h)
    | succ i =>
      have := hpc.symm.trans (pc_of_ok h)
      simp at this
  | submit sh i =>
    cases i with
    | zero =>
      cases ht : env.thread t with
      | makeRequest b =>
        rw [runThread, hpc, ht] at h
        cases hpc.symm.trans (pc_of_ok h)
      | jraid5d =>
        rw [runThread, hpc, ht] at h
        cases hpc.symm.trans (pc_of_ok h)
    | succ i =>
      rw [runThread, hpc] at h
      have := hpc.symm.trans (pc_of_ok h)
      simp at this
  | finish =>
    cases ht : env.thread t with
    | makeRequest b =>
      rw [runThread, hpc, ht] at h
      cases hpc.symm.trans (pc_of_ok h)
    | jraid5d =>
      rw [ht, hpc] at hallow
      cases hallow
  | pop =>
    cases ht : env.thread t with
    | makeRequest b =>
      rw [ht, hpc] at hallow
      cases hallow
    | jraid5d =>
      rw [runThread, hpc, ht] at h
      obtain ⟨⟨f, c⟩, -, heq⟩ := Except.exists_of_map_eq_ok h
      have hok := congrArg (Except.ok (ε := Stop)) heq
      cases f with
      | none => cases hpc.symm.trans (pc_of_ok hok)
      | some sh => cases hpc.symm.trans (pc_of_ok hok)
  | done => exact Or.inl rfl

variable [Fintype τ]

/-- If all threads have returned or wait, and no request is in flight, then all stripes are
free. -/
private theorem mem_free_of_rest (hv : env.Supported) (hpresent : env.TargetsPresent)
    (hs : env.machine.Reachable s) (hpc : ∀ u, s.pc u = .done ∨ s.pc u = .wait)
    (hin : s.inflight = []) (sh : Fin N) : sh ∈ s.cache.pool.free := by
  have hcount := CountInv.reachable hs
  have hheld : ∀ u, (s.pc u).held = none := fun u => by
    rcases hpc u with h | h <;> rw [h] <;> rfl
  have hrefs : s.refs sh = 0 := by simp [refs, hheld, hin]
  refine (hcount.pool.mem_of_refs_eq_zero hrefs).1.mpr (Bool.eq_false_of_not_eq_true fun hm => ?_)
  have hwork : sh ∈ s.cache.handleList := (hcount.pool.mem_of_refs_eq_zero hrefs).2.mpr hm
  rw [handleList_eq_nil hv hpresent hs] at hwork
  cases hwork

/-- **Every call returns.** In a fair run of an array with a pool of at least one stripe, whose
calls go to present members, from some time on all threads have returned, no request is in
flight, every stripe is free, and the bio of each call has been ended exactly once. -/
theorem calls_return (env : Env N τ) (hv : env.Supported) (hpresent : env.TargetsPresent)
    (hN : 0 < N) {run : ℕ → State N τ} {ev : ℕ → Event τ} (h : FairRun env run ev) :
    ∃ n, ∀ m, n ≤ m → (∀ t, (run m).pc t = .done) ∧ (run m).inflight = [] ∧
      (∀ sh, sh ∈ (run m).cache.inactiveList) ∧
      ∀ t b, env.thread t = .makeRequest b → ((run m).ended.map Prod.fst).count t = 1 := by
  obtain ⟨n, hrest⟩ := h.isRun.exists_rest (μ := toDo env)
    fun s e s' hs hstep => toDo_step hv hpresent hs hstep
  have hs := h.isRun.reachable_all n
  have hin : (run n).inflight = [] := by
    by_contra hne
    -- the oldest request completes at some time, and then there is one less
    have hstep := h.isRun.step_rest hrest (h.completes n hne)
    have hlen := congrArg (fun a : State N τ => a.inflight.length) (Except.ok.inj hstep)
    obtain ⟨req, rest, heq⟩ := List.exists_cons_of_ne_nil hne
    simp [complete, heq] at hlen
  have hpc : ∀ t, (run n).pc t = .done ∨ ((run n).pc t = .wait ∧ (run n).cache.pool.free = []) :=
    fun t => pc_of_rest hs (h.isRun.step_rest hrest (h.threads t n))
  have hfree := mem_free_of_rest hv hpresent hs (fun t => (hpc t).imp_right And.left) hin
  have hdone : ∀ t, (run n).pc t = .done := fun t => by
    refine (hpc t).resolve_right fun hwait => ?_
    have hmem := hfree ⟨0, hN⟩
    rw [hwait.2] at hmem
    cases hmem
  obtain ⟨hnodup, hended⟩ := ended_once hs
  refine ⟨n, fun m hm => ?_⟩
  rw [hrest m hm]
  exact ⟨hdone, hin, hfree, fun t b ht =>
    List.count_eq_one_of_mem hnodup ((hended t).mpr ⟨⟨b, ht⟩, hdone t⟩)⟩

/-- One write, whose steps take turns with completions. -/
theorem calls_return_one :
    let env : Env 1 (Fin 1) := smallArray 1 allPresent [⟨0, 4096, .write⟩]
    ∃ run ev, FairRun env run ev ∧ run 0 = env.init ∧ ∃ n, ∀ m, n ≤ m →
      (∀ t, (run m).pc t = .done) ∧ (run m).inflight = [] ∧
        (∀ sh, sh ∈ (run m).cache.inactiveList) ∧
        ∀ t b, env.thread t = .makeRequest b → ((run m).ended.map Prod.fst).count t = 1 := by
  intro env
  let ev : ℕ → Event (Fin 1) := fun n => if n % 2 = 0 then .run 0 else .complete 0
  obtain ⟨s, hs, hout⟩ := FallibleSystem.exists_exec
    (f := fun s : State 1 (Fin 1) => (s.pc 0, s.inflight.isEmpty)) (v := (.done, true))
    (show (env.machine.exec env.init ((List.range 24).map ev)).toOption.map _ = _ by
      decide +kernel)
  obtain ⟨hpc, hin⟩ := Prod.mk.inj hout
  rw [List.isEmpty_iff] at hin
  have hstep : ∀ n, 24 ≤ n → env.machine.step s (ev n) = .ok s := fun n _ => by
    rcases Nat.mod_two_eq_zero_or_one n with hn | hn
    · rw [show ev n = .run 0 from if_pos hn]
      change s.runThread env 0 = .ok s
      rw [runThread, hpc]
    · rw [show ev n = .complete 0 from if_neg (by omega)]
      change Except.ok (s.complete env 0) = .ok s
      rw [complete, hin]
      rfl
  obtain ⟨run, hrun, hinit, -⟩ := FallibleSystem.exists_isRun ev hs hstep
  have hfair : FairRun env run ev := by
    refine ⟨hrun, fun t n => ⟨2 * n, by omega, ?_⟩, fun n _ => ⟨2 * n + 1, by omega, ?_⟩⟩
    · rw [Subsingleton.elim t 0]
      exact if_pos (Nat.mul_mod_right 2 n)
    · exact if_neg (by omega)
  refine ⟨run, ev, hfair, hinit, calls_return env (Env.supported_smallArray 1 allPresent _) ?_
    Nat.one_pos hfair⟩
  exact fun t b _ h => by cases h

end State

end JRaid
