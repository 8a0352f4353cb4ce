import JRaid.ForMathlib.FallibleSystem

/-!
# Stopping a daemon thread

`jmd_unregister_thread` clears `thread->run` first; only then does it ask the thread to stop, wait
for its end and free the structure. The loop of `jmd_thread` tests whether it shall stop and then
calls `thread->run`. The free comes after the end of the loop in every interleaving, but the call
meets a cleared pointer if the loop has passed its test before the clearing store, or makes it
between the store and the request to stop. There is no other way (`callSafe_always_iff`).

The steps of both sides are single accesses to what they share. `jmd_wakeup_thread` and signals
may come at any time; the wait has no timeout (`MAX_SCHEDULE_TIMEOUT`).
-/

namespace JRaid

namespace Unregister

/-- Where `jmd_thread` is. -/
inductive LoopPc where
  /-- `while (!kthread_should_stop())` -/
  | test
  /-- `if (signal_pending(current))` -/
  | flush
  /-- in `wait_event_interruptible_timeout` -/
  | wait
  /-- before `clear_bit` -/
  | clear
  /-- `if (!kthread_should_stop())` -/
  | stopTest
  /-- before `thread->run(thread)` -/
  | call
  /-- in the function that was called -/
  | run
  | exited
  deriving DecidableEq, Repr

/-- Where `jmd_unregister_thread` is. -/
inductive UnregisterPc where
  /-- before `thread->run = NULL` -/
  | clearRun
  /-- before `thread->name = NULL` -/
  | clearName
  /-- `if (!thread->tsk)` -/
  | testTsk
  /-- the same test in `jmd_interrupt_thread` -/
  | interrupt
  /-- before `kthread_stop` -/
  | stop
  /-- in `kthread_stop`, which waits for the end of the thread -/
  | join
  /-- before `kfree` -/
  | free
  | done
  deriving DecidableEq, Repr

/-- What the two sides share, and where they are. The pointers count as set or `NULL`. -/
structure State where
  run : Bool
  name : Bool
  tsk : Bool
  /-- the bit `THREAD_WAKEUP` of `flags` -/
  wakeup : Bool
  /-- what `kthread_should_stop` returns -/
  shouldStop : Bool
  signalPending : Bool
  freed : Bool
  loop : LoopPc
  unregister : UnregisterPc
  deriving DecidableEq, Repr

/-- Who makes the next step. -/
inductive Event where
  | loop
  | jmdWakeupThread
  | signal
  | unregister
  deriving DecidableEq, Repr

/-- What the kernel does not survive. -/
inductive Fault where
  /-- `NULL` is called -/
  | nullCall
  /-- the freed structure is read -/
  | useAfterFree
  deriving DecidableEq, Repr

/-- A thread that `jmd_register_thread` has just started. -/
def init : State := ⟨true, true, true, false, false, false, false, .test, .clearRun⟩

/-- The next step of `jmd_thread`. -/
def stepLoop (s : State) : Except Fault State :=
  match s.loop with
  | .test => .ok { s with loop := if s.shouldStop then .exited else .flush }
  | .flush => .ok { s with signalPending := false, loop := .wait }
  | .wait =>
    if s.freed then .error .useAfterFree
    else if s.wakeup ∨ s.shouldStop ∨ s.signalPending then .ok { s with loop := .clear }
    else .ok s
  | .clear =>
    if s.freed then .error .useAfterFree else .ok { s with wakeup := false, loop := .stopTest }
  | .stopTest => .ok { s with loop := if s.shouldStop then .test else .call }
  | .call =>
    if s.freed then .error .useAfterFree
    else if s.run then .ok { s with loop := .run }
    else .error .nullCall
  | .run => .ok { s with loop := .test }
  | .exited => .ok s

/-- The next step of `jmd_unregister_thread`. -/
def stepUnregister (s : State) : State :=
  match s.unregister with
  | .clearRun => { s with run := false, unregister := .clearName }
  | .clearName => { s with name := false, unregister := .testTsk }
  | .testTsk => { s with unregister := if s.tsk then .interrupt else .done }
  | .interrupt => { s with unregister := if s.tsk then .stop else .done }
  | .stop => { s with shouldStop := true, unregister := .join }
  | .join => if s.loop = .exited then { s with unregister := .free } else s
  | .free => { s with freed := true, unregister := .done }
  | .done => s

/-- **The thread and who stops it**: every interleaving. -/
def system : FallibleSystem State Event Fault where
  init := init
  step s
    | .loop => stepLoop s
    | .jmdWakeupThread => .ok { s with wakeup := true }
    | .signal => .ok { s with signalPending := true }
    | .unregister => .ok (stepUnregister s)

/-- If the loop is about to call `thread->run`, the pointer is there to be called. -/
def CallSafe (s : State) : Prop := s.loop = .call → s.run = true ∧ s.freed = false

/-- The pointer is not cleared between the stop test of the loop and the call, and the test is not
made between the clearing store and the request to stop. -/
def KeepsRun (s : State) : Event → Prop
  | .loop => s.loop = .stopTest → s.run = true ∨ s.shouldStop = true
  | .unregister => s.unregister = .clearRun → s.loop ≠ .call
  | .jmdWakeupThread => True
  | .signal => True

/-- The structure is freed after the end of the loop. -/
structure FreedLast (s : State) : Prop where
  free : s.unregister = .free → s.loop = .exited
  freed : s.freed = true → s.loop = .exited

/-! ### Steps -/

variable {s : State}

/-- A step of `jmd_unregister_thread` frees the structure of an ended loop only. -/
theorem FreedLast.stepUnregister (h : FreedLast s) : FreedLast (stepUnregister s) := by
  unfold Unregister.stepUnregister
  split
  case h_6 =>
    split_ifs with hexit
    · exact ⟨fun _ => hexit, h.freed⟩
    · exact h
  case h_7 hfree => exact ⟨fun _ => h.free hfree, fun _ => h.free hfree⟩
  case h_8 => exact h
  all_goals exact ⟨fun hpc => by first | cases hpc | (split_ifs at hpc), h.freed⟩

/-- The clearing store is the only step of `jmd_unregister_thread` that a call may suffer from. -/
theorem callSafe_stepUnregister_iff (hfreed : FreedLast s) (h : CallSafe s) :
    CallSafe (stepUnregister s) ↔ KeepsRun s .unregister := by
  have hloop : (stepUnregister s).loop = s.loop := by
    unfold stepUnregister
    split <;> (try split_ifs) <;> rfl
  rw [CallSafe, hloop]
  cases hpc : s.unregister with
  | clearRun =>
    have hrun : (stepUnregister s).run = false := by rw [stepUnregister, hpc]
    simp only [KeepsRun, hpc, hrun, Bool.false_eq_true, false_and, true_imp_iff, imp_false]
  | free =>
    have hexit := hfreed.free hpc
    simp only [KeepsRun, hpc, hexit, reduceCtorEq, false_imp_iff]
  | _ =>
    refine iff_of_true (fun hcall => ?_) (fun hclear => absurd (hpc.symm.trans hclear) (by decide))
    have := h hcall
    simp only [stepUnregister, hpc]
    first | exact this | (split_ifs <;> exact this)

/-- The loop does not free, and its end is final. -/
theorem stepLoop_frame {s' : State} (h : stepLoop s = .ok s') :
    s'.freed = s.freed ∧ s'.unregister = s.unregister ∧ (s.loop = .exited → s' = s) := by
  unfold stepLoop at h
  cases hpc : s.loop with
  | exited =>
    rw [hpc] at h
    obtain rfl := Except.ok.inj h
    exact ⟨rfl, rfl, fun _ => rfl⟩
  | _ =>
    rw [hpc] at h
    dsimp only at h
    suffices hsame : s'.freed = s.freed ∧ s'.unregister = s.unregister from
      ⟨hsame.1, hsame.2, fun hexit => by cases hexit⟩
    first
    | obtain rfl := Except.ok.inj h
      exact ⟨rfl, rfl⟩
    | split_ifs at h <;> (cases h; exact ⟨rfl, rfl⟩)

theorem FreedLast.stepLoop {s' : State} (h : FreedLast s) (hstep : stepLoop s = .ok s') :
    FreedLast s' := by
  obtain ⟨hfreed, hpc, hexit⟩ := stepLoop_frame hstep
  constructor
  · intro hfree
    have := h.free (hpc ▸ hfree)
    rwa [hexit this]
  · intro hfree
    have := h.freed (hfreed ▸ hfree)
    rwa [hexit this]

/-- From a state in which a call is safe, a step of the loop is made, and the next call is safe
unless the loop has just passed its test with the pointer cleared. -/
theorem exists_stepLoop (hfreed : FreedLast s) (h : CallSafe s) :
    ∃ s', stepLoop s = .ok s' ∧ (CallSafe s' ↔ KeepsRun s .loop) := by
  have hlive : s.loop ≠ .exited → s.freed = false := fun hloop =>
    Bool.eq_false_iff.mpr (mt hfreed.freed hloop)
  have elsewhere : s.loop ≠ .stopTest → ∀ s' : State, s'.loop ≠ .call →
      (CallSafe s' ↔ KeepsRun s .loop) := fun htest s' hcall =>
    iff_of_true (fun hc => absurd hc hcall) fun ht => absurd ht htest
  unfold stepLoop
  cases hpc : s.loop with
  | stopTest =>
    refine ⟨_, rfl, ?_⟩
    by_cases hstop : s.shouldStop
    · rw [if_pos hstop]
      exact iff_of_true (fun hc => by cases hc) fun _ => Or.inr hstop
    · have hnot := hlive (by simp [hpc])
      simp only [CallSafe, KeepsRun, hpc, hnot, hstop, Bool.false_eq_true, if_false,
        true_imp_iff, and_true, or_false]
  | call =>
    obtain ⟨hrun, hf⟩ := h hpc
    rw [hf, hrun]
    exact ⟨_, rfl, elsewhere (by simp [hpc]) _ (by simp)⟩
  | wait =>
    dsimp only
    rw [if_neg (by simp [hlive (by simp [hpc])])]
    split_ifs
    · exact ⟨_, rfl, elsewhere (by simp [hpc]) _ (by simp)⟩
    · exact ⟨_, rfl, elsewhere (by simp [hpc]) _ (by simp [hpc])⟩
  | clear =>
    dsimp only
    rw [if_neg (by simp [hlive (by simp [hpc])])]
    exact ⟨_, rfl, elsewhere (by simp [hpc]) _ (by simp)⟩
  | test =>
    refine ⟨_, rfl, elsewhere (by simp [hpc]) _ ?_⟩
    dsimp only
    split_ifs <;> simp
  | exited => exact ⟨s, rfl, elsewhere (by simp [hpc]) _ (by simp [hpc])⟩
  | flush => exact ⟨_, rfl, elsewhere (by simp [hpc]) _ (by simp)⟩
  | run => exact ⟨_, rfl, elsewhere (by simp [hpc]) _ (by simp)⟩

/-! ### Runs -/

theorem freedLast_init : FreedLast init :=
  ⟨fun hpc => absurd hpc (by decide), fun hfreed => absurd hfreed (by decide)⟩

theorem FreedLast.step {e : Event} {s' : State} (h : FreedLast s)
    (hstep : system.step s e = .ok s') : FreedLast s' := by
  cases e with
  | loop => exact h.stepLoop hstep
  | jmdWakeupThread =>
    obtain rfl := Except.ok.inj hstep
    exact ⟨h.free, h.freed⟩
  | signal =>
    obtain rfl := Except.ok.inj hstep
    exact ⟨h.free, h.freed⟩
  | unregister =>
    obtain rfl := Except.ok.inj hstep
    exact h.stepUnregister

/-- **The structure is freed after the end of the loop**, in every interleaving. -/
theorem FreedLast.reachable (hs : system.Reachable s) : FreedLast s :=
  hs.invariant freedLast_init fun _ _ _ _ h hstep => h.step hstep

/-- What an event does to a state in which a call is safe. -/
theorem exists_step (e : Event) (hfreed : FreedLast s) (h : CallSafe s) :
    ∃ s', system.step s e = .ok s' ∧ (CallSafe s' ↔ KeepsRun s e) := by
  cases e with
  | loop => exact exists_stepLoop hfreed h
  | jmdWakeupThread => exact ⟨_, rfl, iff_of_true h trivial⟩
  | signal => exact ⟨_, rfl, iff_of_true h trivial⟩
  | unregister => exact ⟨_, rfl, callSafe_stepUnregister_iff hfreed h⟩

/-- **Exactly when no cleared pointer is called.** In every interleaving, the pointer is there
whenever the loop is about to call it, throughout the run, exactly if the run keeps it between the
stop test and the call and makes no stop test between the clearing store and the request to
stop. -/
theorem callSafe_always_iff (es : List Event) :
    system.Always CallSafe system.init es ↔ system.Allows KeepsRun system.init es := by
  refine FallibleSystem.always_iff_allows (I := FreedLast) (fun s e hfreed h => ?_) freedLast_init
    (fun hcall => absurd hcall (by decide)) es
  obtain ⟨s', hs', hiff⟩ := exists_step e hfreed h
  exact ⟨s', hs', hfreed.step hs', hiff⟩

/-- The thread is woken after its pointer has been cleared. -/
theorem null_called :
    let es : List Event := [.loop, .loop, .unregister, .jmdWakeupThread, .loop, .loop, .loop]
    ¬system.Always CallSafe system.init es ∧
      system.exec system.init (es ++ [.loop]) = .error .nullCall :=
  ⟨fun h => absurd (h.exec rfl rfl).1 (by decide), rfl⟩

end Unregister

end JRaid
