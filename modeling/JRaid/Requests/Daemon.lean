import JRaid.Requests.Machine

/-!
# The daemon thread

`jmd_thread` waits for the bit `THREAD_WAKEUP`, clears it, and calls `jraid5d`; whoever puts
a stripe on `handle_list` sets the bit. No stripe is left on the list with the daemon asleep
(`handle_list_not_stranded`): a stripe that comes after the daemon has looked at the empty
list for the last time comes with the bit set.

The steps of the running array are sections under `device_lock`. A release puts the stripe
on the list and sets the bit in one of them, while `clear_bit` is a step of its own, made
without the lock and without a look at the list. The wait has no timeout
(`MAX_SCHEDULE_TIMEOUT`), but a signal ends it early.
-/

namespace JRaid

/-- Where the loop of `jmd_thread` is. -/
inductive LoopPc where
  /-- `while (!kthread_should_stop())` -/
  | test
  /-- in `wait_event_interruptible_timeout` -/
  | wait
  /-- before `clear_bit` -/
  | clear
  /-- `if (!kthread_should_stop())`, after `clear_bit` -/
  | call
  /-- in `thread->run` -/
  | run
  | exited
  deriving DecidableEq, Repr

/-- The running array together with the thread of its daemon. -/
structure JmdThread (N : ℕ) (τ : Type) where
  array : State N τ
  /-- the bit `THREAD_WAKEUP` of `flags` -/
  wakeup : Bool
  loop : LoopPc
  /-- what `kthread_should_stop` returns -/
  shouldStop : Bool

/-- An event of the array, `jmd_wakeup_thread` called for another reason than a release, a step
of the loop, a signal to the daemon, or `kthread_stop`. -/
inductive ThreadEvent (τ : Type) where
  | array (e : Event τ)
  | jmdWakeupThread
  | loop
  | signal
  | kthreadStop
  deriving DecidableEq

variable {N : ℕ} {τ : Type}

/-- `__release_stripe` puts the stripe on `handle_list` and calls `jmd_wakeup_thread`. -/
def Cache.releaseWakes (c : Cache N τ) (sh : Fin N) : Bool :=
  (c.stripe sh).count - 1 = 0 && (c.stripe sh).handle

/-- The stripe that an event of the array releases. -/
def State.released (s : State N τ) : Event τ → Option (Fin N)
  | .run t =>
    match s.pc t with
    | .submit sh 0 => some sh
    | _ => none
  | .complete k => s.inflight[k]?.map MemberReq.sh

/-- An event of the array calls `jmd_wakeup_thread`. -/
def State.wakes (s : State N τ) (e : Event τ) : Bool :=
  match s.released e with
  | some sh => s.cache.releaseWakes sh
  | none => false

namespace JmdThread

variable [DecidableEq τ]

/-- The next step of `jmd_thread` outside of `jraid5d`, whose runs are those of the thread `d`. -/
def stepLoop (d : τ) (σ : JmdThread N τ) : JmdThread N τ :=
  match σ.loop with
  | .test => { σ with loop := if σ.shouldStop then .exited else .wait }
  | .wait => if σ.wakeup ∨ σ.shouldStop then { σ with loop := .clear } else σ
  | .clear => { σ with wakeup := false, loop := .call }
  | .call =>
    if σ.shouldStop then { σ with loop := .test }
    else { σ with array := σ.array.goto d .start, loop := .run }
  | .run => if σ.array.pc d = .done then { σ with loop := .test } else σ
  | .exited => σ

/-- An event; the thread `d` runs only when the loop has called `jraid5d`. -/
def step (env : Env N τ) (d : τ) (σ : JmdThread N τ) : ThreadEvent τ → Except Stop (JmdThread N τ)
  | .array e =>
    if e = .run d ∧ σ.loop ≠ .run then .ok σ
    else (env.machine.step σ.array e).map fun s =>
      { σ with array := s, wakeup := σ.wakeup || σ.array.wakes e }
  | .jmdWakeupThread => .ok { σ with wakeup := true }
  | .loop => .ok (σ.stepLoop d)
  | .signal => .ok (if σ.loop = .wait then { σ with loop := .clear } else σ)
  | .kthreadStop => .ok { σ with shouldStop := true }

/-- The daemon is between the `clear_bit` and the locked look at the empty list that ends the
run of `jraid5d`. -/
def Active (d : τ) (σ : JmdThread N τ) : Prop :=
  σ.loop = .call ∨ (σ.loop = .run ∧ σ.array.pc d ≠ .done)

end JmdThread

/-- **The array and its daemon**: every interleaving. -/
def Env.daemon [DecidableEq τ] (env : Env N τ) (d : τ) :
    FallibleSystem (JmdThread N τ) (ThreadEvent τ) Stop where
  init := ⟨env.init, false, .test, false⟩
  step := JmdThread.step env d

/-! ### Who puts stripes on `handle_list` -/

namespace State

variable {env : Env N τ} {s s' : State N τ} {t : τ}

/-- Dropping a reference puts a stripe on the work list only with a call of
`jmd_wakeup_thread`. -/
private theorem work_put {c : Cache N τ} {sh : Fin N} (h : (c.pool.put sh).work ≠ []) :
    c.pool.work ≠ [] ∨ c.releaseWakes sh = true := by
  rcases eq_or_ne (c.pool.count sh - 1) 0 with hc | hc
  · cases hm : c.pool.marked sh with
    | true =>
      refine Or.inr ?_
      rw [Cache.releaseWakes, Bool.and_eq_true, decide_eq_true_iff]
      exact ⟨hc, hm⟩
    | false =>
      rw [RefPool.put_unmarked _ hc hm] at h
      exact Or.inl h
  · rw [RefPool.put_of_ne _ hc] at h
    exact Or.inl h

variable [DecidableEq τ]

/-- A step of a thread puts a stripe on `handle_list` only with a call of
`jmd_wakeup_thread`. -/
private theorem work_of_runs (hrun : Runs env s t s') (h : s'.cache.pool.work ≠ []) :
    s.cache.pool.work ≠ [] ∨ s.wakes (.run t) = true := by
  have same : ∀ p : RefPool (Fin N), s'.cache.pool = p → p.work = s.cache.pool.work →
      s.cache.pool.work ≠ [] ∨ s.wakes (.run t) = true := fun p hp hw => by
    rw [hp, hw] at h
    exact Or.inl h
  have release : ∀ {sh : Fin N}, s.pc t = .submit sh 0 →
      s'.cache.pool = (s.cache.releaseStripe sh).pool →
      s.cache.pool.work ≠ [] ∨ s.wakes (.run t) = true := fun hpc hpool => by
    rw [hpool, Cache.pool_releaseStripe] at h
    rw [wakes, released, hpc]
    exact work_put h
  cases hrun with
  | idle => exact Or.inl h
  | start ht hpc => exact Or.inl h
  | startDaemon ht hpc => exact Or.inl h
  | @hit b sh c ht hpc hhit =>
    refine Or.inl fun hnil => h ?_
    rw [State.goto, hhit.pool]
    exact List.sublist_nil.mp (hnil ▸ RefPool.work_claim_sublist _ sh)
  | miss ht hpc hmiss => exact same _ hmiss.pool rfl
  | exhausted ht hpc hfree => exact Or.inl h
  | add ht hpc => exact same _ (Cache.pool_addStripeBio _ _ _ _) rfl
  | scan hpc => exact same _ (Cache.pool_modifyDev _ _ _ _) rfl
  | parity hpc => exact same _ (Cache.pool_modifyDev _ _ _ _) rfl
  | skip hpc hdir => exact Or.inl h
  | request hpc hsub => exact same _ hsub.pool rfl
  | postpone hpc hpost => exact same _ hpost.pool rfl
  | release ht hpc => exact release hpc rfl
  | releaseDaemon ht hpc => exact release hpc rfl
  | finish ht hpc =>
    refine same _ ?_ rfl
    rw [(finish_frame s t).1]
  | @take sh c ht hpc htaken =>
    obtain ⟨rest, hwork⟩ := htaken.work
    refine Or.inl ?_
    rw [hwork]
    exact List.cons_ne_nil _ _
  | drained ht hpc hwork => exact Or.inl h

/-- An event puts a stripe on `handle_list` only with a call of `jmd_wakeup_thread`. -/
theorem work_of_step {e : Event τ} (hstep : env.machine.step s e = .ok s')
    (h : s'.cache.handleList ≠ []) : s.cache.handleList ≠ [] ∨ s.wakes e = true := by
  obtain ⟨t, rfl, hrun⟩ | rfl | ⟨k, req, rfl, hdone⟩ := step_cases hstep
  · exact work_of_runs hrun h
  · exact Or.inl h
  · have hput : (s.cache.pool.put req.sh).work ≠ [] := hdone.pool ▸ h
    rw [wakes, released, hdone.get]
    exact work_put hput

/-- A run of the daemon ends with a look at the empty list. -/
theorem drained_of_runs (hrun : Runs env s t s') (ht : env.thread t = .jraid5d)
    (hpc : s.pc t ≠ .done) (hdone : s'.pc t = .done) : s'.cache.handleList = [] := by
  cases hrun with
  | idle => exact absurd hdone hpc
  | drained ht hpc hwork => exact hwork
  | finish ht' hpc =>
    rw [ht] at ht'
    cases ht'
  | _ =>
    rw [pc_goto_self] at hdone
    cases hdone

/-- The daemon has still to look at the list after every event that does not leave the list
empty. -/
theorem pc_ne_done_of_step {e : Event τ} {d : τ} (hd : env.thread d = .jraid5d)
    (hstep : env.machine.step s e = .ok s') (h : s'.cache.handleList ≠ [])
    (hpc : s.pc d ≠ .done) : s'.pc d ≠ .done := by
  obtain ⟨t, -, hrun⟩ | rfl | ⟨k, req, -, hdone⟩ := step_cases hstep
  · rcases eq_or_ne d t with rfl | hne
    · exact fun hdone => h (drained_of_runs hrun hd hpc hdone)
    · rwa [pc_of_runs_of_ne hrun hne]
  · exact hpc
  · rwa [hdone.pc]

end State

/-! ### No stripe is stranded -/

namespace JmdThread

variable [DecidableEq τ] {env : Env N τ} {d : τ} {σ σ' : JmdThread N τ}

@[simp]
theorem shouldStop_stepLoop (σ : JmdThread N τ) (d : τ) :
    (σ.stepLoop d).shouldStop = σ.shouldStop := by
  unfold stepLoop
  split
  all_goals try split_ifs
  all_goals rfl

/-- If there is a stripe on `handle_list`, then `THREAD_WAKEUP` is set or the daemon has still to
look at the list. -/
def Woken (d : τ) (σ : JmdThread N τ) : Prop :=
  σ.array.cache.handleList ≠ [] → σ.wakeup = true ∨ σ.Active d

/-- An event of the array keeps the daemon awake. -/
private theorem Woken.array (hd : env.thread d = .jraid5d) (h : Woken d σ) {e : Event τ}
    {s : State N τ} (hstep : env.machine.step σ.array e = .ok s) :
    Woken d { σ with array := s, wakeup := σ.wakeup || σ.array.wakes e } := by
  intro hne
  rw [Bool.or_eq_true]
  obtain hold | hwakes := State.work_of_step hstep hne
  · obtain hw | hcall | ⟨hrun, hpc⟩ := h hold
    · exact Or.inl (Or.inl hw)
    · exact Or.inr (Or.inl hcall)
    · exact Or.inr (Or.inr ⟨hrun, State.pc_ne_done_of_step hd hstep hne hpc⟩)
  · exact Or.inl (Or.inr hwakes)

/-- A step of the loop keeps the daemon awake until it is told to stop. -/
private theorem Woken.stepLoop (h : Woken d σ) (hstop : σ.shouldStop = false) :
    Woken d (σ.stepLoop d) := by
  unfold JmdThread.stepLoop
  split
  -- before it waits, the daemon is neither in a call of its handler nor about to end one
  case h_1 hloop =>
    intro hne
    obtain hw | hcall | ⟨hrun, -⟩ := h hne
    · exact Or.inl hw
    · rw [hloop] at hcall
      cases hcall
    · rw [hloop] at hrun
      cases hrun
  case h_2 hloop =>
    split_ifs with hcond
    · exact fun _ => Or.inl (hcond.resolve_right (by rw [hstop]; decide))
    · exact h
  case h_3 => exact fun _ => Or.inr (Or.inl rfl)
  -- the bit is cleared before the handler runs, so the daemon is active from here on
  case h_4 =>
    rw [hstop]
    intro _
    refine Or.inr (Or.inr ⟨rfl, ?_⟩)
    rw [if_neg (by decide), State.pc_goto_self]
    nofun
  case h_5 hloop =>
    split_ifs with hdone
    · intro hne
      obtain hw | hcall | ⟨-, hpc⟩ := h hne
      · exact Or.inl hw
      · rw [hloop] at hcall
        cases hcall
      · exact absurd hdone hpc
    · exact h
  case h_6 => exact h

/-- **No stripe is stranded on `handle_list`.** In every reachable state before the daemon is told
to stop, if `handle_list` is not empty, then `THREAD_WAKEUP` is set or the daemon is between
clearing the bit and the look at the empty list that ends its run. -/
theorem handle_list_not_stranded (env : Env N τ) (d : τ) (hd : env.thread d = .jraid5d)
    (hσ : (env.daemon d).Reachable σ) (hstop : σ.shouldStop = false)
    (hne : σ.array.cache.handleList ≠ []) : σ.wakeup = true ∨ σ.Active d := by
  suffices hinv : σ.shouldStop = false → Woken d σ from hinv hstop hne
  clear hstop hne
  refine hσ.invariant (I := fun σ => σ.shouldStop = false → Woken d σ) (fun _ hne => ?_)
    fun σ e σ' _ h hstep hstop => ?_
  · -- a new cache has nothing to handle
    refine absurd ?_ hne
    exact congrArg RefPool.work (Cache.pool_growStripes N τ env.conf env.page)
  · cases e with
    | array e =>
      change JmdThread.step env d σ (.array e) = .ok σ' at hstep
      rw [step] at hstep
      split_ifs at hstep
      · obtain rfl := Except.ok.inj hstep
        exact h hstop
      · cases hs : env.machine.step σ.array e with
        | error b => simp [hs, Except.map] at hstep
        | ok s =>
          rw [hs] at hstep
          obtain rfl := Except.ok.inj hstep
          exact (h hstop).array hd hs
    | jmdWakeupThread =>
      obtain rfl := Except.ok.inj hstep
      exact fun _ => Or.inl rfl
    | loop =>
      obtain rfl := Except.ok.inj hstep
      rw [shouldStop_stepLoop] at hstop
      exact (h hstop).stepLoop hstop
    | signal =>
      obtain rfl := Except.ok.inj hstep
      split_ifs at hstop ⊢ with hloop
      · intro hne
        obtain hw | hcall | ⟨hrun, -⟩ := h hstop hne
        · exact Or.inl hw
        · rw [hloop] at hcall
          cases hcall
        · rw [hloop] at hrun
          cases hrun
      · exact h hstop
    | kthreadStop =>
      obtain rfl := Except.ok.inj hstep
      cases hstop

/-- A write to an absent member leaves its stripe on `handle_list`. -/
theorem handle_list_not_stranded_absent :
    let env : Env 2 (Fin 2) :=
      { smallArray 2 (fun _ => ⟨none⟩) [⟨0, 4096, .write⟩, ⟨0, 4096, .write⟩] with
        thread := fun t => if t = 0 then .makeRequest ⟨0, 4096, .write⟩ else .jraid5d }
    ∃ σ, (env.daemon 1).Reachable σ ∧ σ.array.cache.handleList = [0] ∧
      (σ.wakeup = true ∨ σ.Active 1) := by
  intro env
  obtain ⟨σ, hσ, hshow⟩ := FallibleSystem.exists_exec
    (f := fun σ : JmdThread 2 (Fin 2) => (σ.shouldStop, σ.array.cache.handleList))
    (v := (false, [0]))
    (show ((env.daemon 1).exec (env.daemon 1).init
      (List.replicate 11 (.array (.run 0)))).toOption.map _ = _ by decide +kernel)
  obtain ⟨hstop, hlist⟩ := Prod.mk.inj hshow
  have hreach := FallibleSystem.reachable_of_exec hσ
  have hd : env.thread 1 = .jraid5d := rfl
  refine ⟨σ, hreach, hlist, handle_list_not_stranded env 1 hd hreach hstop ?_⟩
  rw [hlist]
  exact List.cons_ne_nil _ _

end JmdThread

end JRaid
