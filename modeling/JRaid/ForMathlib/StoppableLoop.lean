import JRaid.ForMathlib.FairRun

/-!
# Stopping a loop that sleeps

A kernel thread loops until it is told to stop. In each pass it waits for a condition, clears
what it waited for, and works unless it has been told to stop in the meantime. Whoever stops it
may send it a signal first; then it sets the stop flag, wakes the thread and waits for its end.

The wait is that of `wait_event_interruptible`: the thread puts itself on the queue, tests the
condition and the signal, and only then sleeps, so that a wake-up between the test and the sleep is
not lost (`Awake`). But the condition need not hold when the stop flag is set. What ends the wait
then is the signal, and a signal can get lost: it is dropped as long as the thread has not asked
for it, and a loop may throw it away at the top of a pass. A stop returns unless the thread waits
on without a signal (`FairRun.returns_or_stranded`).
-/

open FallibleSystem

/-- Who makes the queue that the thread sleeps on. -/
inductive WaitLoop.QueueMaker where
  /-- the creator, before it starts the thread -/
  | before
  /-- the creator, after it has started the thread -/
  | after
  /-- the thread itself -/
  | thread
  deriving DecidableEq, Repr

/-- A loop over data `δ` that others change by `ε`. -/
structure WaitLoop (δ ε : Type*) where
  queueMaker : WaitLoop.QueueMaker
  /-- A pass begins by throwing away the signals that are pending. -/
  flushes : Bool
  /-- The condition of the wait; it may fault. -/
  ready : δ → Option Bool
  /-- What the thread does to the data after the wait. -/
  clear : δ → δ
  /-- What others do to the data. -/
  effect : ε → δ → δ
  /-- Whether that wakes the queue. -/
  wakes : ε → δ → Bool

namespace WaitLoop

variable {δ ε : Type*}

/-- Where the thread is. -/
inductive ThreadPc where
  | make
  /-- before `allow_signal` -/
  | allow
  /-- `while (!kthread_should_stop())` -/
  | test
  | flush
  /-- the condition is tested before the queue is touched -/
  | first
  /-- before `prepare_to_wait` -/
  | prepare
  /-- on the queue, before the condition and the signal are tested -/
  | check
  /-- in `schedule` -/
  | sleep
  /-- the wait is over -/
  | after
  /-- `if (!kthread_should_stop())` -/
  | stopTest
  | work
  | exited
  deriving DecidableEq, Repr

/-- Where its creator, who also stops it, is. -/
inductive StopperPc where
  | make
  /-- before `send_sig` -/
  | signal
  /-- before the stop flag is set -/
  | stop
  /-- waiting for the end of the thread -/
  | join
  | done
  deriving DecidableEq, Repr

/-- The data, what the two sides share, and where they are. -/
structure State (δ : Type*) where
  data : δ
  queue : Bool
  shouldStop : Bool
  signalPending : Bool
  /-- the state of the task is `TASK_RUNNING` -/
  running : Bool
  thread : ThreadPc
  stopper : StopperPc
  deriving DecidableEq, Repr

/-- Who makes the next step. -/
inductive Event (ε : Type*) where
  | thread
  | stopper
  /-- a signal from elsewhere -/
  | signal
  | other (e : ε)
  deriving DecidableEq, Repr

/-- What the kernel does not survive. -/
inductive Fault where
  /-- a queue is used that has not been made -/
  | queue
  | condition
  deriving DecidableEq, Repr

/-- The thread has called `allow_signal`. -/
def ThreadPc.allowed : ThreadPc → Bool
  | .make | .allow => false
  | _ => true

/-- The thread is on the queue or about to be. -/
def ThreadPc.waiting : ThreadPc → Bool
  | .prepare | .check | .sleep => true
  | _ => false

variable (L : WaitLoop δ ε)

/-- A thread that has just been started. -/
def start (d : δ) : State δ :=
  ⟨d, L.queueMaker = .before, false, false, true, .make, .make⟩

/-- The next step of the thread. -/
def stepThread (s : State δ) : Except Fault (State δ) :=
  match s.thread with
  | .make => .ok { s with queue := s.queue || L.queueMaker = .thread, thread := .allow }
  | .allow => .ok { s with thread := .test }
  | .test => .ok { s with thread := if s.shouldStop then .exited else .flush }
  | .flush => .ok { s with signalPending := s.signalPending && !L.flushes, thread := .first }
  | .first =>
    match L.ready s.data with
    | none => .error .condition
    | some c => .ok { s with thread := if c then .after else .prepare }
  | .prepare => if s.queue then .ok { s with running := false, thread := .check } else .error .queue
  | .check =>
    match L.ready s.data with
    | none => .error .condition
    | some c =>
      if c || s.signalPending then .ok { s with running := true, thread := .after }
      else .ok { s with thread := .sleep }
  | .sleep => .ok { s with thread := if s.running then .prepare else .sleep }
  | .after => .ok { s with data := L.clear s.data, thread := .stopTest }
  | .stopTest => .ok { s with thread := if s.shouldStop then .test else .work }
  | .work => .ok { s with thread := .test }
  | .exited => .ok s

/-- A signal is sent. It is dropped if the thread has not asked for it, else it wakes it. -/
def State.sendSig (s : State δ) : State δ :=
  if s.thread.allowed then { s with signalPending := true, running := true } else s

/-- The next step of the creator. -/
def stepStopper (s : State δ) : State δ :=
  match s.stopper with
  | .make => { s with queue := s.queue || L.queueMaker = .after, stopper := .signal }
  | .signal => { s.sendSig with stopper := .stop }
  | .stop => { s with shouldStop := true, running := true, stopper := .join }
  | .join => if s.thread = .exited then { s with stopper := .done } else s
  | .done => s

/-- Others change the data, and wake the queue or not. -/
def stepOther (e : ε) (s : State δ) : Except Fault (State δ) :=
  if L.wakes e s.data then
    if s.queue then .ok { s with data := L.effect e s.data, running := true } else .error .queue
  else .ok { s with data := L.effect e s.data }

/-- **The loop and who stops it**: every interleaving. -/
def system (d : δ) : FallibleSystem (State δ) (Event ε) Fault where
  init := L.start d
  step s
    | .thread => L.stepThread s
    | .stopper => .ok (L.stepStopper s)
    | .signal => .ok s.sendSig
    | .other e => L.stepOther e s

variable {L} {d : δ} {s s' : State δ}

/-! ### Steps -/

/-- What a step of the thread can do. -/
inductive Moves (L : WaitLoop δ ε) (s : State δ) : State δ → Prop where
  | make (h : s.thread = .make) :
    Moves L s { s with queue := s.queue || L.queueMaker = .thread, thread := .allow }
  | allow (h : s.thread = .allow) : Moves L s { s with thread := .test }
  | exit (h : s.thread = .test) (hstop : s.shouldStop = true) :
    Moves L s { s with thread := .exited }
  | pass (h : s.thread = .test) (hstop : s.shouldStop = false) :
    Moves L s { s with thread := .flush }
  | flush (h : s.thread = .flush) :
    Moves L s { s with signalPending := s.signalPending && !L.flushes, thread := .first }
  | ready (h : s.thread = .first) (hc : L.ready s.data = some true) :
    Moves L s { s with thread := .after }
  | unready (h : s.thread = .first) (hc : L.ready s.data = some false) :
    Moves L s { s with thread := .prepare }
  | prepare (h : s.thread = .prepare) : Moves L s { s with running := false, thread := .check }
  | leave (h : s.thread = .check) (hc : L.ready s.data = some true ∨ s.signalPending = true) :
    Moves L s { s with running := true, thread := .after }
  | sleep (h : s.thread = .check) (hc : L.ready s.data = some false)
    (hpending : s.signalPending = false) : Moves L s { s with thread := .sleep }
  | wake (h : s.thread = .sleep) (hrun : s.running = true) : Moves L s { s with thread := .prepare }
  | still (h : s.thread = .sleep) (hrun : s.running = false) : Moves L s s
  | clear (h : s.thread = .after) :
    Moves L s { s with data := L.clear s.data, thread := .stopTest }
  | stopped (h : s.thread = .stopTest) (hstop : s.shouldStop = true) :
    Moves L s { s with thread := .test }
  | begin (h : s.thread = .stopTest) (hstop : s.shouldStop = false) :
    Moves L s { s with thread := .work }
  | work (h : s.thread = .work) : Moves L s { s with thread := .test }
  | ended (h : s.thread = .exited) : Moves L s s

theorem moves_of_stepThread (h : L.stepThread s = .ok s') : Moves L s s' := by
  rw [stepThread] at h
  cases hpc : s.thread with
  | first =>
    rcases hc : L.ready s.data with _ | c <;> rw [hpc, hc] at h
    · cases h
    · obtain rfl := Except.ok.inj h
      rcases c with _ | _
      · exact .unready hpc hc
      · exact .ready hpc hc
  | check =>
    rcases hc : L.ready s.data with _ | c <;> rw [hpc, hc] at h
    · cases h
    · dsimp only at h
      split_ifs at h with hleave
      · refine Except.ok.inj h ▸ .leave hpc ?_
        rcases Bool.or_eq_true_iff.mp hleave with rfl | hpending
        exacts [Or.inl hc, Or.inr hpending]
      · obtain ⟨rfl, hpending⟩ := Bool.or_eq_false_iff.mp (Bool.eq_false_iff.mpr hleave)
        exact Except.ok.inj h ▸ .sleep hpc hc hpending
  | test =>
    rw [hpc] at h
    obtain rfl := Except.ok.inj h
    split_ifs with hstop
    · exact .exit hpc hstop
    · exact .pass hpc (Bool.eq_false_iff.mpr hstop)
  | stopTest =>
    rw [hpc] at h
    obtain rfl := Except.ok.inj h
    split_ifs with hstop
    · exact .stopped hpc hstop
    · exact .begin hpc (Bool.eq_false_iff.mpr hstop)
  | prepare =>
    rw [hpc] at h
    dsimp only at h
    split_ifs at h
    exact Except.ok.inj h ▸ .prepare hpc
  | sleep =>
    rw [hpc] at h
    obtain rfl := Except.ok.inj h
    split_ifs with hrun
    · exact .wake hpc hrun
    · rw [← hpc]
      exact .still hpc (Bool.eq_false_iff.mpr hrun)
  | make =>
    rw [hpc] at h
    exact Except.ok.inj h ▸ .make hpc
  | allow =>
    rw [hpc] at h
    exact Except.ok.inj h ▸ .allow hpc
  | flush =>
    rw [hpc] at h
    exact Except.ok.inj h ▸ .flush hpc
  | after =>
    rw [hpc] at h
    exact Except.ok.inj h ▸ .clear hpc
  | work =>
    rw [hpc] at h
    exact Except.ok.inj h ▸ .work hpc
  | exited =>
    rw [hpc] at h
    exact Except.ok.inj h ▸ .ended hpc

/-- The thread does not touch the stop flag, and its creator goes on alone. -/
theorem Moves.frame (h : Moves L s s') :
    s'.shouldStop = s.shouldStop ∧ s'.stopper = s.stopper := by
  rcases h <;> exact ⟨rfl, rfl⟩

/-- The end of the thread is final. -/
theorem Moves.eq_of_exited (h : Moves L s s') (hexit : s.thread = .exited) : s' = s := by
  rcases h with h | h | h | h | h | h | h | h | h | h | h | h | h | h | h | h | h <;>
    first | rfl | cases h.symm.trans hexit

theorem sendSig_frame (s : State δ) : s.sendSig.data = s.data ∧
    s.sendSig.shouldStop = s.shouldStop ∧ s.sendSig.thread = s.thread ∧
    s.sendSig.stopper = s.stopper := by
  rw [State.sendSig]
  split_ifs <;> exact ⟨rfl, rfl, rfl, rfl⟩

/-- The thread does not end before it is told to. -/
theorem Moves.exited (h : Moves L s s') (hexit : s'.thread = .exited) :
    s' = s ∨ s.shouldStop = true := by
  rcases h with h | h | ⟨h, hstop⟩ | h | h | h | h | h | h | h | h | h | h | h | h | h | h <;>
    first | exact Or.inl rfl | exact Or.inr hstop | cases hexit

/-- Before the thread sleeps it has found neither the condition nor a signal. -/
theorem Moves.asleep (h : Moves L s s') (hsleep : s'.thread = .sleep) :
    s' = s ∨ (L.ready s'.data = some false ∧ s'.signalPending = false) := by
  rcases h with
    h | h | h | h | h | h | h | h | h | ⟨h, hc, hpending⟩ | h | h | h | h | h | h | h <;>
    first | exact Or.inl rfl | exact Or.inr ⟨hc, hpending⟩ | cases hsleep

/-- A signal does not stop the thread from running. -/
theorem running_sendSig (h : s.running = true) : s.sendSig.running = true := by
  rw [State.sendSig]
  split_ifs
  · rfl
  · exact h

theorem running_stepStopper (h : s.running = true) : (L.stepStopper s).running = true := by
  rw [stepStopper]
  split
  case h_2 => exact running_sendSig h
  case h_3 => rfl
  case h_4 => split_ifs <;> exact h
  all_goals exact h

/-- The creator leaves the thread where it is, and the data. -/
theorem stepStopper_frame (s : State δ) :
    (L.stepStopper s).thread = s.thread ∧ (L.stepStopper s).data = s.data := by
  rw [stepStopper]
  split
  case h_2 => exact ⟨(sendSig_frame s).2.2.1, (sendSig_frame s).1⟩
  case h_4 => split_ifs <;> exact ⟨rfl, rfl⟩
  all_goals exact ⟨rfl, rfl⟩

/-- Others do not move the thread, and they do not stop it from running. -/
theorem stepOther_frame {e : ε} (h : L.stepOther e s = .ok s') :
    s'.shouldStop = s.shouldStop ∧ s'.stopper = s.stopper ∧ s'.thread = s.thread ∧
      s'.signalPending = s.signalPending ∧ s'.data = L.effect e s.data ∧
      s'.running = (L.wakes e s.data || s.running) := by
  rw [stepOther] at h
  split_ifs at h with hwake
  · obtain rfl := Except.ok.inj h
    exact ⟨rfl, rfl, rfl, rfl, rfl, by rw [hwake, Bool.true_or]⟩
  · obtain rfl := Except.ok.inj h
    exact ⟨rfl, rfl, rfl, rfl, rfl, by rw [Bool.eq_false_iff.mpr hwake, Bool.false_or]⟩

/-- Only its own step moves the thread. -/
theorem thread_of_step {e : Event ε} (he : e ≠ .thread)
    (hstep : (L.system d).step s e = .ok s') : s'.thread = s.thread := by
  cases e with
  | thread => exact absurd rfl he
  | stopper => exact Except.ok.inj hstep ▸ (stepStopper_frame s).1
  | signal => exact Except.ok.inj hstep ▸ (sendSig_frame s).2.2.1
  | other e => exact (stepOther_frame hstep).2.2.1

/-! ### Runs -/

/-- What holds in every interleaving. A thread that sleeps has no signal pending. -/
structure Awake (s : State δ) : Prop where
  stop_iff : s.shouldStop = true ↔ s.stopper = .join ∨ s.stopper = .done
  ended : s.stopper = .done → s.thread = .exited
  exited : s.thread = .exited → s.shouldStop = true
  asleep : s.thread = .sleep → s.running = false → s.signalPending = false

theorem Awake.moves (h : Awake s) (hmove : Moves L s s') : Awake s' := by
  obtain ⟨hstop, hpc⟩ := hmove.frame
  refine ⟨by rw [hstop, hpc]; exact h.stop_iff, fun hdone => ?_, fun hexit => ?_,
    fun hsleep hrun => ?_⟩
  · have hexit := h.ended (hpc ▸ hdone)
    rwa [hmove.eq_of_exited hexit]
  · obtain rfl | hflag := hmove.exited hexit
    exacts [h.exited hexit, hstop.trans hflag]
  · obtain rfl | ⟨-, hpending⟩ := hmove.asleep hsleep
    exacts [h.asleep hsleep hrun, hpending]

theorem Awake.sendSig (h : Awake s) : Awake s.sendSig := by
  rw [State.sendSig]
  split_ifs
  · exact ⟨h.stop_iff, h.ended, h.exited, fun _ hrun => by cases hrun⟩
  · exact h

theorem Awake.stepStopper (h : Awake s) : Awake (L.stepStopper s) := by
  rw [WaitLoop.stepStopper]
  cases hpc : s.stopper with
  | make =>
    refine ⟨?_, fun hdone => (by cases hdone), h.exited, h.asleep⟩
    simpa [hpc] using h.stop_iff
  | signal =>
    refine ⟨?_, fun hdone => (by cases hdone), h.sendSig.exited, h.sendSig.asleep⟩
    simpa [(sendSig_frame s).2.1, hpc] using h.stop_iff
  | stop =>
    exact ⟨by simp, fun hdone => (by cases hdone), fun _ => rfl, fun _ hrun => by cases hrun⟩
  | join =>
    dsimp only
    split_ifs with hexit
    · exact ⟨by simpa [hpc] using h.stop_iff, fun _ => hexit, h.exited, h.asleep⟩
    · exact h
  | done => exact h

theorem Awake.stepOther {e : ε} (h : Awake s) (hstep : L.stepOther e s = .ok s') : Awake s' := by
  obtain ⟨hstop, hpc, hthread, hpending, -, hrun⟩ := stepOther_frame hstep
  refine ⟨by rw [hstop, hpc]; exact h.stop_iff, by rw [hpc, hthread]; exact h.ended,
    by rw [hthread, hstop]; exact h.exited, ?_⟩
  rw [hthread, hpending, hrun]
  exact fun hsleep hoff => h.asleep hsleep (Bool.or_eq_false_iff.mp hoff).2

theorem Awake.reachable (hs : (L.system d).Reachable s) : Awake s := by
  have hinit : Awake (L.start d) :=
    ⟨by simp [start], fun hdone => (by cases hdone), fun hexit => (by cases hexit),
      fun hsleep => by cases hsleep⟩
  refine hs.invariant hinit fun s e s' _ h hstep => ?_
  cases e with
  | thread => exact h.moves (moves_of_stepThread hstep)
  | stopper => exact Except.ok.inj hstep ▸ h.stepStopper
  | signal => exact Except.ok.inj hstep ▸ h.sendSig
  | other e => exact h.stepOther hstep

/-- **No wake-up is lost.** If others that end the quiet `P` of the data wake the thread, and the
condition does not hold only when it is quiet, then it is quiet while the thread sleeps. -/
theorem quiet_of_asleep {P : δ → Prop} (hquiet : ∀ d, L.ready d = some false → P d)
    (hwakes : ∀ e d, P d → L.wakes e d = false → P (L.effect e d))
    (hs : (L.system d).Reachable s) (hsleep : s.thread = .sleep) (hrun : s.running = false) :
    P s.data := by
  revert hsleep hrun
  refine hs.invariant (I := fun s => s.thread = .sleep → s.running = false → P s.data)
    (fun h => by cases h) fun s e s' _ h hstep => ?_
  cases e with
  | thread =>
    intro hsleep hrun
    obtain rfl | ⟨hc, -⟩ := (moves_of_stepThread hstep).asleep hsleep
    exacts [h hsleep hrun, hquiet _ hc]
  | stopper =>
    obtain rfl := Except.ok.inj hstep
    obtain ⟨hthread, hdata⟩ := stepStopper_frame (L := L) s
    rw [hthread, hdata]
    intro hsleep hrun
    refine h hsleep (Bool.eq_false_iff.mpr fun hon => ?_)
    rw [running_stepStopper hon] at hrun
    cases hrun
  | signal =>
    obtain rfl := Except.ok.inj hstep
    rw [(sendSig_frame s).2.2.1, (sendSig_frame s).1]
    intro hsleep hrun
    refine h hsleep (Bool.eq_false_iff.mpr fun hon => ?_)
    rw [running_sendSig hon] at hrun
    cases hrun
  | other e =>
    obtain ⟨-, -, hthread, -, hdata, hrunning⟩ := stepOther_frame hstep
    rw [hthread, hdata, hrunning]
    intro hsleep hoff
    obtain ⟨hwake, hrun⟩ := Bool.or_eq_false_iff.mp hoff
    exact hwakes e _ (h hsleep hrun) hwake

/-! ### Fair runs -/

/-- A run in which the thread and its creator have their turn again and again. -/
structure FairRun (L : WaitLoop δ ε) (d : δ) (run : ℕ → State δ) (ev : ℕ → Event ε) : Prop where
  isRun : (L.system d).IsRun run ev
  thread : ∀ k, ∃ m, k ≤ m ∧ ev m = .thread
  stopper : ∀ k, ∃ m, k ≤ m ∧ ev m = .stopper

/-- The stop flag is set, and the thread waits without a signal. -/
def Stranded (s : State δ) : Prop :=
  s.shouldStop = true ∧ s.thread.waiting = true ∧ s.signalPending = false

/-- How far the thread is from its end, once the stop flag is set. -/
def ThreadPc.toEnd : ThreadPc → ℕ
  | .exited => 0
  | .test => 1
  | .allow | .stopTest | .work => 2
  | .make | .after => 3
  | .check => 4
  | .prepare => 5
  | .sleep | .first => 6
  | .flush => 7

/-- How far the creator is from setting the stop flag. -/
def StopperPc.toStop : StopperPc → ℕ
  | .make => 3
  | .signal => 2
  | .stop => 1
  | .join | .done => 0

/-- How far a stop is from its return. -/
def State.toReturn (s : State δ) : ℕ :=
  if s.shouldStop then if s.stopper = .done then 0 else s.thread.toEnd + 1
  else s.stopper.toStop + 8

/-- Whose turn brings the return nearer: the creator's before the stop flag is set and after the
end of the thread. -/
def turn (v : ℕ) : Event ε := if v ≤ 1 ∨ 8 < v then .stopper else .thread

theorem toReturn_of_stop (hstop : s.shouldStop = true) (hpc : s.stopper ≠ .done) :
    s.toReturn = s.thread.toEnd + 1 := by
  rw [State.toReturn, if_pos hstop, if_neg hpc]

theorem ThreadPc.toEnd_le (pc : ThreadPc) : pc.toEnd ≤ 7 := by
  cases pc <;> decide

/-- Once the stop flag is set, a step brings the thread nearer to its end, if it does not wait
without a signal. -/
theorem Moves.toEnd_lt (h : Moves L s s') (hawake : Awake s) (hstop : s.shouldStop = true)
    (hstranded : ¬Stranded s) (hexit : s.thread ≠ .exited) :
    s'.thread.toEnd < s.thread.toEnd := by
  have hpending : s.thread.waiting = true → s.signalPending = true := fun hwait =>
    (Bool.eq_false_or_eq_true _).resolve_right fun hoff => hstranded ⟨hstop, hwait, hoff⟩
  rcases h with h | h | h | ⟨-, hrun⟩ | h | h | h | h | h | ⟨h, -, hoff⟩ | h | ⟨h, hoff⟩ | h | h |
    ⟨-, hrun⟩ | h | h
  case pass | begin => cases hrun.symm.trans hstop
  case sleep => cases hoff.symm.trans (hpending (by rw [h]; rfl))
  case still => cases (hawake.asleep h hoff).symm.trans (hpending (by rw [h]; rfl))
  case ended => exact absurd h hexit
  all_goals simp [h, ThreadPc.toEnd]

theorem stepStopper_toReturn (h : Awake s) (hdone : s.stopper ≠ .done) :
    (L.stepStopper s).stopper = .done ∨ ((L.stepStopper s).toReturn ≤ s.toReturn ∧
      ((s.shouldStop = true → s.thread = .exited) → (L.stepStopper s).toReturn < s.toReturn)) := by
  have hle := s.thread.toEnd_le
  have hstop := h.stop_iff
  rw [stepStopper]
  cases hpc : s.stopper with
  | make =>
    right
    have hoff : s.shouldStop = false := by simpa [hpc] using hstop
    simp [State.toReturn, hoff, hpc, StopperPc.toStop]
  | signal =>
    right
    have hoff : s.shouldStop = false := by simpa [hpc] using hstop
    simp [State.toReturn, (sendSig_frame s).2.1, hoff, hpc, StopperPc.toStop]
  | stop =>
    right
    have hoff : s.shouldStop = false := by simpa [hpc] using hstop
    simp only [State.toReturn, hoff, hpc, StopperPc.toStop]
    simp
    omega
  | join =>
    dsimp only
    split_ifs with hexit
    · exact Or.inl rfl
    · refine Or.inr ⟨le_rfl, fun hend => absurd (hend ?_) hexit⟩
      exact hstop.mpr (Or.inl hpc)
  | done => exact absurd hpc hdone

theorem toReturn_congr (hstop : s'.shouldStop = s.shouldStop) (hpc : s'.stopper = s.stopper)
    (hthread : s'.thread = s.thread) : s'.toReturn = s.toReturn := by
  rw [State.toReturn, State.toReturn, hstop, hpc, hthread]

theorem ThreadPc.eq_exited {pc : ThreadPc} (h : pc.toEnd = 0) : pc = .exited := by
  cases pc <;> first | rfl | cases h

/-- No step leads away from the return, and a step of the one whose turn it is leads to it. -/
theorem toReturn_step {e : Event ε} (h : Awake s) (hdone : s.stopper ≠ .done)
    (hstranded : ¬Stranded s) (hstep : (L.system d).step s e = .ok s') :
    s'.stopper = .done ∨
      (s'.toReturn ≤ s.toReturn ∧ (e = turn s.toReturn → s'.toReturn < s.toReturn)) := by
  have hle := s.thread.toEnd_le
  cases e with
  | stopper =>
    obtain rfl := Except.ok.inj hstep
    refine (stepStopper_toReturn h hdone).imp_right fun ⟨hnear, hlt⟩ => ⟨hnear, fun hturn => ?_⟩
    refine hlt fun hstop => ThreadPc.eq_exited ?_
    rw [toReturn_of_stop hstop hdone, turn] at hturn
    split_ifs at hturn with hv
    omega
  | thread =>
    have hmove := moves_of_stepThread hstep
    obtain ⟨hstop, hpc⟩ := hmove.frame
    right
    by_cases hflag : s.shouldStop = true
    · rw [toReturn_of_stop hflag hdone, toReturn_of_stop (hstop.trans hflag) (hpc ▸ hdone)]
      by_cases hexit : s.thread = .exited
      · rw [hmove.eq_of_exited hexit, hexit]
        exact ⟨le_rfl, fun hturn => by cases hturn⟩
      · have hlt := hmove.toEnd_lt h hflag hstranded hexit
        omega
    · -- the thread has no say in when it is stopped
      have hthread : s'.toReturn = s.toReturn := by
        rw [State.toReturn, State.toReturn, hstop, hpc, if_neg hflag, if_neg hflag]
      rw [hthread]
      refine ⟨le_rfl, fun hturn => ?_⟩
      have hpos : 0 < s.stopper.toStop := by
        cases hs : s.stopper with
        | join => exact absurd (h.stop_iff.mpr (Or.inl hs)) hflag
        | done => exact absurd hs hdone
        | _ => decide
      rw [State.toReturn, if_neg hflag, turn, if_pos (Or.inr (by omega))] at hturn
      cases hturn
  | signal =>
    obtain rfl := Except.ok.inj hstep
    obtain ⟨-, hstop, hthread, hpc⟩ := sendSig_frame s
    rw [toReturn_congr hstop hpc hthread]
    refine Or.inr ⟨le_rfl, fun hturn => ?_⟩
    rw [turn] at hturn
    split_ifs at hturn
  | other e =>
    obtain ⟨hstop, hpc, hthread, -⟩ := stepOther_frame hstep
    rw [toReturn_congr hstop hpc hthread]
    refine Or.inr ⟨le_rfl, fun hturn => ?_⟩
    rw [turn] at hturn
    split_ifs at hturn

variable {run : ℕ → State δ} {ev : ℕ → Event ε}

/-- **A stop returns, or the thread waits on without a signal.** -/
theorem FairRun.returns_or_stranded (h : FairRun L d run ev) :
    ∃ n, (run n).stopper = .done ∨ Stranded (run n) := by
  have hfair : ∀ v k, ∃ m, k ≤ m ∧ ev m = turn v := fun v k => by
    rw [turn]
    split_ifs
    exacts [h.stopper k, h.thread k]
  have hstep : ∀ s e s', (L.system d).Reachable s → True → ¬(s.stopper = .done ∨ Stranded s) →
      (L.system d).step s e = .ok s' → (s'.stopper = .done ∨ Stranded s') ∨
        (True ∧ s'.toReturn ≤ s.toReturn ∧ (e = turn s.toReturn → s'.toReturn < s.toReturn)) := by
    intro s e s' hs _ hno hstep
    obtain ⟨hdone, hstranded⟩ := not_or.mp hno
    exact (toReturn_step (Awake.reachable hs) hdone hstranded hstep).imp Or.inl
      fun hnear => ⟨trivial, hnear⟩
  obtain ⟨n, -, hn⟩ := h.isRun.eventually hfair hstep (n := 0) trivial
  exact ⟨n, hn⟩

/-- After its return a stop stays so, and the thread has ended. -/
theorem FairRun.of_done (h : FairRun L d run ev) {n : ℕ} (hdone : (run n).stopper = .done) :
    ∀ m, n ≤ m → (run m).stopper = .done ∧ (run m).thread = .exited := by
  intro m hm
  suffices hpc : (run m).stopper = .done from
    ⟨hpc, (Awake.reachable (h.isRun.reachable_all m)).ended hpc⟩
  induction m, hm using Nat.le_induction with
  | base => exact hdone
  | succ m _ ih =>
    have hstep := h.isRun.step m
    generalize run m = s, run (m + 1) = s', ev m = e at *
    cases e with
    | thread => exact ((moves_of_stepThread hstep).frame.2).trans ih
    | stopper =>
      obtain rfl := Except.ok.inj hstep
      rw [stepStopper, ih]
      exact ih
    | signal =>
      obtain rfl := Except.ok.inj hstep
      exact (sendSig_frame s).2.2.2.trans ih
    | other e => exact (stepOther_frame hstep).2.1.trans ih

/-- A stop that has not returned from some time on never returns. -/
theorem FairRun.ne_done (h : FairRun L d run ev) {k : ℕ}
    (hk : ∀ m, k ≤ m → (run m).stopper ≠ .done) (n : ℕ) : (run n).stopper ≠ .done :=
  fun hdone => hk (max k n) (le_max_left k n) (h.of_done hdone _ (le_max_right k n)).1

/-! ### The signal -/

/-- The signal of the stop comes when the thread has asked for it. -/
def Delivered (run : ℕ → State δ) (ev : ℕ → Event ε) : Prop :=
  ∀ n, ev n = .stopper → (run n).stopper = .signal → (run n).thread.allowed = true

/-- Only its own step moves the creator. -/
theorem stopper_of_step {e : Event ε} (hstep : (L.system d).step s e = .ok s') :
    s'.stopper = s.stopper ∨ (e = .stopper ∧ s' = L.stepStopper s) := by
  cases e with
  | thread => exact Or.inl (moves_of_stepThread hstep).frame.2
  | stopper => exact Or.inr ⟨rfl, (Except.ok.inj hstep).symm⟩
  | signal => exact Or.inl (Except.ok.inj hstep ▸ (sendSig_frame s).2.2.2)
  | other e => exact Or.inl (stepOther_frame hstep).2.1

/-- A loop that does not throw signals away keeps one that is pending. -/
theorem pending_of_step {e : Event ε} (hflush : L.flushes = false) (h : s.signalPending = true)
    (hstep : (L.system d).step s e = .ok s') : s'.signalPending = true := by
  have hsend : s.sendSig.signalPending = true := by
    rw [State.sendSig]
    split_ifs
    exacts [rfl, h]
  cases e with
  | thread =>
    rcases moves_of_stepThread hstep
    case flush => simp [h, hflush]
    all_goals exact h
  | stopper =>
    obtain rfl := Except.ok.inj hstep
    rw [stepStopper]
    split
    case h_2 => exact hsend
    case h_4 => split_ifs <;> exact h
    all_goals exact h
  | signal => exact Except.ok.inj hstep ▸ hsend
  | other e => exact (stepOther_frame hstep).2.2.2.1.trans h

/-- **If no signal is thrown away, a stop whose signal is delivered returns.** -/
theorem FairRun.returns (h : FairRun L d run ev) (hflush : L.flushes = false)
    (hinit : run 0 = L.start d) (hdel : Delivered run ev) :
    ∃ n, ∀ m, n ≤ m → (run m).stopper = .done ∧ (run m).thread = .exited := by
  have hpending : ∀ n, (run n).stopper = .make ∨ (run n).stopper = .signal ∨
      (run n).signalPending = true := by
    intro n
    induction n with
    | zero => exact Or.inl (by rw [hinit]; rfl)
    | succ n ih =>
      have hstep := h.isRun.step n
      obtain hpc | hpc | hpending := ih
      · obtain hpc' | hpc' := stopper_of_step hstep
        · exact Or.inl (hpc'.trans hpc)
        · exact Or.inr (Or.inl (by rw [hpc'.2, stepStopper, hpc]))
      · right
        obtain hpc' | ⟨hev, hnext⟩ := stopper_of_step hstep
        · exact Or.inl (hpc'.trans hpc)
        · -- the signal is sent, and the thread has asked for it
          right
          rw [hnext, stepStopper, hpc]
          simp [State.sendSig, hdel n hev hpc]
      · exact Or.inr (Or.inr (pending_of_step hflush hpending hstep))
  obtain ⟨n, hn⟩ := h.returns_or_stranded
  refine ⟨n, h.of_done (hn.resolve_right fun hstranded => ?_)⟩
  obtain ⟨hstop, -, hoff⟩ := hstranded
  have hpc := (Awake.reachable (h.isRun.reachable_all n)).stop_iff.mp hstop
  obtain hmake | hsignal | hon := hpending n
  · rw [hmake] at hpc
    simp at hpc
  · rw [hsignal] at hpc
    simp at hpc
  · cases hoff.symm.trans hon

/-! ### A loop that nobody else touches -/

/-- A loop whose condition never holds. -/
def blank (maker : QueueMaker) (flushes : Bool) : WaitLoop Unit Empty :=
  ⟨maker, flushes, fun _ => some false, id, fun e _ => e.elim, fun e _ => e.elim⟩

/-- A state with other data. -/
def State.withData (s : State Unit) (d : δ) : State δ :=
  ⟨d, s.queue, s.shouldStop, s.signalPending, s.running, s.thread, s.stopper⟩

/-- An event of a blank loop is one of every loop. -/
def Event.lift : Event Empty → Event ε
  | .thread => .thread
  | .stopper => .stopper
  | .signal => .signal
  | .other e => e.elim

theorem sendSig_withData (s : State Unit) (d : δ) :
    (s.withData d).sendSig = s.sendSig.withData d := by
  rw [State.sendSig, State.sendSig]
  split_ifs <;> first | rfl | contradiction

/-- As long as the condition does not hold, a loop goes the way of the blank one. -/
theorem step_withData (hready : L.ready d = some false) (hclear : L.clear d = d)
    (s : State Unit) (e : Event Empty) : (L.system d).step (s.withData d) e.lift =
      (((blank L.queueMaker L.flushes).system ()).step s e).map (·.withData d) := by
  cases e with
  | signal => exact congrArg Except.ok (sendSig_withData s d)
  | stopper =>
    refine congrArg Except.ok ?_
    obtain ⟨-, queue, stop, pending, running, thread, stopper⟩ := s
    cases stopper with
    | signal => exact congrArg ({ · with stopper := .stop }) (sendSig_withData _ d)
    | join =>
      by_cases hexit : thread = .exited
      · simp [stepStopper, State.withData, hexit]
      · simp [stepStopper, State.withData, hexit]
    | _ => rfl
  | thread =>
    obtain ⟨-, queue, stop, pending, running, thread, stopper⟩ := s
    change L.stepThread _ = Except.map _ ((blank _ _).stepThread _)
    rw [stepThread, stepThread]
    cases thread with
    | first => simp [State.withData, hready, blank, Except.map]
    | check => cases pending <;> simp [State.withData, hready, blank, Except.map]
    | after => simp [State.withData, hclear, Except.map]
    | prepare => cases queue <;> rfl
    | _ => rfl
  | other e => exact e.elim

/-- A run of the blank loop is one of every loop whose condition does not hold. -/
theorem FairRun.withData {run : ℕ → State Unit} {ev : ℕ → Event Empty}
    (h : FairRun (blank L.queueMaker L.flushes) () run ev) (hready : L.ready d = some false)
    (hclear : L.clear d = d) :
    FairRun L d (fun n => (run n).withData d) fun n => (ev n).lift := by
  have hstep : ∀ {s e s'}, ((blank L.queueMaker L.flushes).system ()).step s e = .ok s' →
      (L.system d).step (s.withData d) e.lift = .ok (s'.withData d) := fun hstep => by
    rw [step_withData hready hclear, hstep]
    rfl
  have hreach : ∀ {s}, ((blank L.queueMaker L.flushes).system ()).Reachable s →
      (L.system d).Reachable (s.withData d) := fun hs => by
    refine hs.invariant (I := fun s => (L.system d).Reachable (s.withData d))
      FallibleSystem.reachable_init fun s e s' _ ih hs => ih.step (hstep hs)
  refine ⟨⟨hreach h.isRun.reachable, fun n => hstep (h.isRun.step n)⟩, fun k => ?_, fun k => ?_⟩
  · obtain ⟨m, hm, hev⟩ := h.thread k
    exact ⟨m, hm, congrArg Event.lift hev⟩
  · obtain ⟨m, hm, hev⟩ := h.stopper k
    exact ⟨m, hm, congrArg Event.lift hev⟩

/-- The thread finds the signal and throws it away before it is told to stop. -/
private def lateStop (n : ℕ) : Event Empty :=
  if n = 0 ∨ n = 8 ∨ n = 20 ∨ (24 ≤ n ∧ n % 2 = 1) then .stopper else .thread

private theorem exists_blank_stranded (maker : QueueMaker) :
    ∃ run, FairRun (blank maker true) () run lateStop ∧ Delivered run lateStop ∧
      run 0 = (blank maker true).start () ∧ ∀ n, (run n).stopper ≠ .done := by
  let S := (blank maker true).system ()
  let lost : State Unit := ⟨(), true, true, false, false, .sleep, .join⟩
  have hexec : S.exec S.init ((List.range 24).map lateStop) = .ok lost := by cases maker <;> rfl
  have hbefore : ∀ n < 24, ∃ s, S.exec S.init ((List.range n).map lateStop) = .ok s ∧
      (lateStop n = .stopper → s.stopper = .signal → s.thread.allowed = true) := by
    have hall : ∀ n < 24, ((S.exec S.init ((List.range n).map lateStop)).toOption.map fun s =>
        decide (lateStop n = .stopper → s.stopper = .signal → s.thread.allowed = true)) =
          some true := by cases maker <;> decide
    intro n hn
    obtain ⟨s, hs, h⟩ := FallibleSystem.exists_exec (hall n hn)
    exact ⟨s, hs, of_decide_eq_true h⟩
  have hrest : ∀ n, 24 ≤ n → S.step lost (lateStop n) = .ok lost := fun n _ => by
    rw [lateStop]
    split_ifs <;> rfl
  obtain ⟨run, hrun, hinit, -, hstates⟩ := FallibleSystem.exists_isRun lateStop hexec hrest
  have hlost : ∀ n, 24 ≤ n → run n = lost := fun n hn => by
    induction n, hn using Nat.le_induction with
    | base => exact Except.ok.inj ((hstates 24).symm.trans hexec)
    | succ n hn ih =>
      have hstep := hrun.step n
      rw [ih] at hstep
      exact Except.ok.inj (hstep.symm.trans (hrest n hn))
  have hfair : FairRun (blank maker true) () run lateStop :=
    ⟨hrun, fun k => ⟨2 * k + 24, by omega, if_neg (by omega)⟩,
      fun k => ⟨2 * k + 25, by omega, if_pos (by omega)⟩⟩
  refine ⟨run, hfair, fun n hev hpc => ?_, hinit, hfair.ne_done (k := 24) fun n hn => ?_⟩
  · obtain hn | hn := Nat.lt_or_ge n 24
    · obtain ⟨s, hs, h⟩ := hbefore n hn
      obtain rfl := Except.ok.inj ((hstates n).symm.trans hs)
      exact h hev hpc
    · rw [hlost n hn] at hpc
      cases hpc
  · rw [hlost n hn]
    exact StopperPc.noConfusion

/-- **A loop that throws signals away may never be stopped**, though its signal is delivered. -/
theorem exists_stranded (hflush : L.flushes = true) (hready : L.ready d = some false)
    (hclear : L.clear d = d) :
    ∃ run ev, FairRun L d run ev ∧ Delivered run ev ∧ run 0 = L.start d ∧
      ∀ n, (run n).stopper ≠ .done := by
  obtain ⟨run, hrun, hdel, hinit, hdone⟩ := exists_blank_stranded L.queueMaker
  rw [← hflush] at hrun
  refine ⟨_, _, hrun.withData hready hclear, fun n hev => ?_, ?_, hdone⟩
  · refine hdel n ?_
    cases h : lateStop n with
    | stopper => rfl
    | other e => exact e.elim
    | _ => simp [h, Event.lift] at hev
  · rw [hinit]
    rfl

end WaitLoop
