import JRaid.ForMathlib.StoppableLoop

/-!
# The power-down thread

`power_down_thread` sleeps until a power-down message comes. Who sends one (`power_down_message`)
goes through `shutdown_event`, which sets `power_down` and wakes the thread; the thread clears
`power_down` after its wait, and then does its work. Several messages may come at once, and the
store may be read before the wake-up: still each message is followed by a pass in which the thread
works, unless it is stopped (`message_served`).

`PDP_main_exit` sends the thread `SIGINT` and stops it. The thread flushes no signals, and so the
exit returns if the thread has asked for the signal. But it asks for it in its own first steps,
and the exit does not wait for them (`exit_returns`).
-/

namespace JRaid

namespace Jrcpp

open WaitLoop

/-- `POWERDOWN_NOTIFIER`. -/
def powerdownNotifier : UInt64 := 0xCAC

/-- What the messengers and the thread share. -/
structure PowerDown where
  /-- `power_down` -/
  powerDown : Bool
  /-- the messengers that have set `power_down` and not yet called `wake_up` -/
  waking : ℕ
  deriving DecidableEq, Repr

/-- The two steps of `shutdown_event`. -/
inductive Messenger where
  /-- `power_down_message`, up to the store -/
  | message (val : UInt64)
  | wakeUp
  deriving DecidableEq, Repr

/-- What `shutdown_event` does to the data. -/
def shutdownEvent : Messenger → PowerDown → PowerDown
  | .message val, d =>
    if val = powerdownNotifier then { powerDown := true, waking := d.waking + 1 } else d
  | .wakeUp, d => { d with waking := d.waking - 1 }

/-- `power_down_thread`, `PDP_main_init` and `PDP_main_exit`. -/
def powerDownThread : WaitLoop PowerDown Messenger where
  queueMaker := .thread
  flushes := false
  ready d := some d.powerDown
  clear d := { d with powerDown := false }
  effect := shutdownEvent
  wakes
    | .message _, _ => false
    | .wakeUp, d => d.waking ≠ 0

/-- Nothing has been sent. -/
def quiet : PowerDown := ⟨false, 0⟩

/-- A run in which the thread and the messengers go on. Nobody need stop the thread. -/
structure FairRun (run : ℕ → State PowerDown) (ev : ℕ → Event Messenger) : Prop where
  isRun : (powerDownThread.system quiet).IsRun run ev
  thread : ∀ k, ∃ m, k ≤ m ∧ ev m = .thread
  wakeUp : ∀ k, ∃ m, k ≤ m ∧ ev m = .other .wakeUp

variable {run : ℕ → State PowerDown} {ev : ℕ → Event Messenger} {s s' : State PowerDown}

/-! ### Messages -/

/-- While the thread sleeps, a message that has been stored has a wake-up to come. -/
theorem waking_of_asleep (hs : (powerDownThread.system quiet).Reachable s)
    (hsleep : s.thread = .sleep) (hrun : s.running = false) :
    s.data.powerDown = true → s.data.waking ≠ 0 := by
  refine quiet_of_asleep (P := fun d => d.powerDown = true → d.waking ≠ 0) (fun d hd hon => ?_)
    (fun e d hd hwake => ?_) hs hsleep hrun
  · cases (Option.some.inj hd).symm.trans hon
  · cases e with
    | message val =>
      change (shutdownEvent _ d).powerDown = true → (shutdownEvent _ d).waking ≠ 0
      rw [shutdownEvent]
      split_ifs
      exacts [fun _ => Nat.succ_ne_zero _, hd]
    | wakeUp =>
      have hzero : d.waking = 0 := by simpa [powerDownThread] using hwake
      exact fun hon => absurd hzero (hd hon)

/-- How far the thread is from the end of its wait, when a message has come. -/
def toServe (s : State PowerDown) : ℕ :=
  match s.thread with
  | .stopTest | .exited => 0
  | .after => 1
  | .check => 2
  | .prepare => 3
  | .sleep => if s.running then 4 else 5
  | .first => 6
  | .flush => 7
  | .test => 8
  | .work | .allow => 9
  | .make => 10

/-- Whose turn brings the end of the wait nearer. -/
def serveTurn (v : ℕ) : Event Messenger := if v = 5 then .other .wakeUp else .thread

theorem toServe_le (hthread : s'.thread = s.thread)
    (hrun : s.running = true → s'.running = true) : toServe s' ≤ toServe s := by
  rw [toServe, toServe, hthread]
  cases s.thread with
  | sleep =>
    dsimp only
    split_ifs with hon hoff
    exacts [le_rfl, Nat.le_succ 4, absurd (hrun ‹_›) hon, le_rfl]
  | _ => exact le_rfl

theorem sleep_of_toServe (h : toServe s = 5) : s.thread = .sleep ∧ s.running = false := by
  rw [toServe] at h
  cases hpc : s.thread with
  | sleep =>
    rw [hpc] at h
    dsimp only at h
    split_ifs at h with hrun
    · cases h
    · exact ⟨rfl, Bool.eq_false_iff.mpr hrun⟩
  | _ =>
    rw [hpc] at h
    cases h

/-- No message is withdrawn. -/
theorem powerDown_shutdownEvent (e : Messenger) {d : PowerDown} (h : d.powerDown = true) :
    (shutdownEvent e d).powerDown = true := by
  cases e with
  | message val =>
    rw [shutdownEvent]
    split_ifs
    exacts [rfl, h]
  | wakeUp => exact h

/-- **A step after a message**: no step leads away from the end of the wait, and a step of the one
whose turn it is leads to it. -/
theorem toServe_step {e : Event Messenger} (hs : (powerDownThread.system quiet).Reachable s)
    (hon : s.data.powerDown = true) (hstop : s.shouldStop = false)
    (hpc : s.thread ≠ .stopTest) (hstep : (powerDownThread.system quiet).step s e = .ok s') :
    s'.thread = .stopTest ∨ (s'.data.powerDown = true ∧
      toServe s' ≤ toServe s ∧ (e = serveTurn (toServe s) → toServe s' < toServe s)) := by
  have hnot : e ≠ .thread → e ≠ .other .wakeUp → e ≠ serveTurn (toServe s) := by
    intro hthread hwake
    rw [serveTurn]
    split_ifs
    exacts [hwake, hthread]
  cases e with
  | thread =>
    have hready : powerDownThread.ready s.data = some true := congrArg some hon
    rcases moves_of_stepThread hstep with h | h | ⟨h, hflag⟩ | h | h | h | ⟨h, hc⟩ | h | h |
      ⟨h, hc, -⟩ | ⟨h, hrun⟩ | ⟨h, hrun⟩ | h | ⟨h, -⟩ | ⟨h, -⟩ | h | h
    case exit => cases hflag.symm.trans hstop
    case unready | sleep => cases hc.symm.trans hready
    case clear => exact Or.inl rfl
    case stopped | begin => exact absurd h hpc
    case still =>
      refine Or.inr ⟨hon, le_rfl, fun hturn => ?_⟩
      simp [toServe, h, hrun, serveTurn] at hturn
    case ended => cases ((Awake.reachable hs).exited h).symm.trans hstop
    case wake => exact Or.inr ⟨hon, by simp [toServe, h, hrun], fun _ => by simp [toServe, h, hrun]⟩
    all_goals exact Or.inr ⟨hon, by simp [toServe, h], fun _ => by simp [toServe, h]⟩
  | stopper =>
    obtain rfl := Except.ok.inj hstep
    obtain ⟨hthread, hdata⟩ := stepStopper_frame (L := powerDownThread) s
    refine Or.inr ⟨hdata ▸ hon, toServe_le hthread running_stepStopper, fun hturn => ?_⟩
    exact absurd hturn (hnot (by simp) (by simp))
  | signal =>
    obtain rfl := Except.ok.inj hstep
    obtain ⟨hdata, -, hthread, -⟩ := sendSig_frame s
    refine Or.inr ⟨hdata ▸ hon, toServe_le hthread running_sendSig, fun hturn => ?_⟩
    exact absurd hturn (hnot (by simp) (by simp))
  | other e =>
    obtain ⟨-, -, hthread, -, hdata, hrun⟩ := stepOther_frame hstep
    have hle : toServe s' ≤ toServe s := toServe_le hthread fun h => by rw [hrun, h, Bool.or_true]
    refine Or.inr ⟨hdata ▸ powerDown_shutdownEvent e hon, hle, fun hturn => ?_⟩
    -- the thread sleeps, and the wake-up of some messenger is to come
    by_cases hfive : toServe s = 5
    · obtain ⟨hsleep, hoff⟩ := sleep_of_toServe hfive
      have hwaking := waking_of_asleep hs hsleep hoff hon
      obtain rfl : e = .wakeUp := by
        rw [serveTurn, if_pos hfive] at hturn
        exact Event.other.inj hturn
      have hwake : powerDownThread.wakes .wakeUp s.data = true := decide_eq_true hwaking
      rw [hwake, Bool.true_or] at hrun
      rw [hfive, toServe, hthread, hsleep]
      simp [hrun]
    · rw [serveTurn, if_neg hfive] at hturn
      cases hturn

/-- **A message is served.** In a fair run each power-down message is followed by the beginning of
the thread's work, unless the thread is told to stop. -/
theorem message_served (h : FairRun run ev) {n : ℕ}
    (hev : ev n = .other (.message powerdownNotifier)) :
    ∃ m, n < m ∧ (((run m).thread = .stopTest ∧ (run (m + 1)).thread = .work) ∨
      (run m).shouldStop = true) := by
  have hon : (run (n + 1)).data.powerDown = true := by
    have hstep := h.isRun.step n
    rw [hev] at hstep
    change powerDownThread.stepOther (.message powerdownNotifier) (run n) = _ at hstep
    obtain ⟨-, -, -, -, hdata, -⟩ := stepOther_frame hstep
    rw [hdata]
    rfl
  have hfair : ∀ v k, ∃ m, k ≤ m ∧ ev m = serveTurn v := fun v k => by
    rw [serveTurn]
    split_ifs
    exacts [h.wakeUp k, h.thread k]
  -- the wait ends
  obtain ⟨k, hk, hend⟩ := h.isRun.eventually (J := fun s => s.data.powerDown = true)
    (G := fun s => s.thread = .stopTest ∨ s.shouldStop = true) (μ := toServe) hfair
    (fun s e s' hs hon hno hstep => by
      obtain ⟨hpc, hstop⟩ := not_or.mp hno
      exact (toServe_step hs hon (Bool.eq_false_iff.mpr hstop) hpc hstep).imp_left Or.inl) hon
  by_cases hstop : (run k).shouldStop = true
  · exact ⟨k, hk, Or.inr hstop⟩
  -- and the thread has its turn after that
  obtain ⟨m, hm, hturn, hpc⟩ := h.isRun.exists_turn (P := fun s => s.thread = .stopTest) h.thread
    (fun s a s' hpc ha hstep => (thread_of_step ha hstep).trans hpc) (hend.resolve_right hstop)
  by_cases hflag : (run m).shouldStop = true
  · exact ⟨m, Nat.le_trans hk hm, Or.inr hflag⟩
  refine ⟨m, Nat.le_trans hk hm, Or.inl ⟨hpc, ?_⟩⟩
  have hstep := h.isRun.step m
  rw [hturn] at hstep
  change powerDownThread.stepThread _ = _ at hstep
  rw [stepThread, hpc] at hstep
  rw [← Except.ok.inj hstep]
  exact if_neg hflag

/-- A message comes when the thread sleeps, and nobody stops the thread. -/
private def oneMessage (n : ℕ) : Event Messenger :=
  if n = 8 then .other (.message powerdownNotifier)
  else if n = 9 ∨ (21 ≤ n ∧ n % 2 = 1) then .other .wakeUp
  else .thread

/-- The message is served. -/
theorem message_served_one :
    ∃ run ev, FairRun run ev ∧ ev 8 = .other (.message powerdownNotifier) ∧
      (∀ n, (run n).shouldStop = false) ∧
      ∃ m, 8 < m ∧ (run m).thread = .stopTest ∧ (run (m + 1)).thread = .work := by
  let S := powerDownThread.system quiet
  let asleep : State PowerDown := ⟨quiet, true, false, false, false, .sleep, .make⟩
  have hexec : S.exec S.init ((List.range 21).map oneMessage) = .ok asleep := rfl
  have hrest : ∀ n, 21 ≤ n → S.step asleep (oneMessage n) = .ok asleep := fun n hn => by
    rw [oneMessage, if_neg (by omega)]
    split_ifs <;> rfl
  obtain ⟨run, hrun, -, hend, hstates⟩ := FallibleSystem.exists_isRun oneMessage hexec hrest
  have hfair : FairRun run oneMessage :=
    ⟨hrun, fun k => ⟨2 * k + 22, by omega, ?_⟩, fun k => ⟨2 * k + 21, by omega, ?_⟩⟩
  · have hnever : ∀ n, (run n).shouldStop = false := fun n => by
      rcases Nat.lt_or_ge n 21 with hlt | hge
      · have hall : ∀ n < 21, ((S.exec S.init ((List.range n).map oneMessage)).toOption.map
            fun s => s.shouldStop) = some false := by decide
        have hn := hall n hlt
        rw [hstates n] at hn
        exact Option.some.inj hn
      · rw [hrun.eq_of_rest hend hrest hge]
    obtain ⟨m, hm, hwork | hstop⟩ := message_served (n := 8) hfair rfl
    · exact ⟨run, oneMessage, hfair, rfl, hnever, m, hm, hwork⟩
    · cases (hnever m).symm.trans hstop
  · rw [oneMessage, if_neg (by omega), if_neg (by omega)]
  · rw [oneMessage, if_neg (by omega), if_pos (by omega)]

/-! ### The exit -/

/-- The exit comes before the thread has asked for the signal. -/
private def earlyStop (n : ℕ) : Event Messenger :=
  if n = 0 ∨ n = 1 ∨ n = 9 ∨ (13 ≤ n ∧ n % 2 = 1) then .stopper else .thread

/-- **When the exit returns.** In a fair run from the start of the thread the exit returns, and the
thread has ended, if the thread has asked for the signal when it is sent. Otherwise the signal is
dropped, and there is a fair run in which the exit never returns. -/
theorem exit_returns :
    (∀ run ev, powerDownThread.FairRun quiet run ev → run 0 = powerDownThread.start quiet →
      Delivered run ev →
      ∃ n, ∀ m, n ≤ m → (run m).stopper = .done ∧ (run m).thread = .exited) ∧
    ∃ run ev, powerDownThread.FairRun quiet run ev ∧ run 0 = powerDownThread.start quiet ∧
      ∀ n, (run n).stopper ≠ .done := by
  refine ⟨fun run ev h hinit hdel => h.returns rfl hinit hdel, ?_⟩
  let S := powerDownThread.system quiet
  let lost : State PowerDown := ⟨quiet, true, true, false, false, .sleep, .join⟩
  have hexec : S.exec S.init ((List.range 13).map earlyStop) = .ok lost := rfl
  have hrest : ∀ n, 13 ≤ n → S.step lost (earlyStop n) = .ok lost := fun n _ => by
    rw [earlyStop]
    split_ifs <;> rfl
  obtain ⟨run, hrun, hinit, hend, hstates⟩ := FallibleSystem.exists_isRun earlyStop hexec hrest
  have hfair : powerDownThread.FairRun quiet run earlyStop :=
    ⟨hrun, fun k => ⟨2 * k + 14, by omega, if_neg (by omega)⟩,
      fun k => ⟨2 * k + 13, by omega, if_pos (by omega)⟩⟩
  refine ⟨run, earlyStop, hfair, hinit, hfair.ne_done (k := 13) fun n hn => ?_⟩
  rw [hrun.eq_of_rest hend hrest hn]
  exact StopperPc.noConfusion

/-- The exit comes when the thread sleeps. -/
private def lateStop (n : ℕ) : Event Messenger :=
  if n = 8 ∨ n = 9 ∨ n = 10 ∨ (11 ≤ n ∧ n % 2 = 1) then .stopper else .thread

/-- The signal is delivered, and the exit returns. -/
theorem exit_returns_asleep :
    ∃ run ev, powerDownThread.FairRun quiet run ev ∧ run 0 = powerDownThread.start quiet ∧
      Delivered run ev ∧ ∃ n, ∀ m, n ≤ m → (run m).stopper = .done ∧ (run m).thread = .exited := by
  let S := powerDownThread.system quiet
  let ended : State PowerDown := ⟨quiet, true, true, true, true, .exited, .done⟩
  have hexec : S.exec S.init ((List.range 24).map lateStop) = .ok ended := rfl
  have hrest : ∀ n, 24 ≤ n → S.step ended (lateStop n) = .ok ended := fun n _ => by
    rw [lateStop]
    split_ifs <;> rfl
  obtain ⟨run, hrun, hinit, hend, hstates⟩ := FallibleSystem.exists_isRun lateStop hexec hrest
  have hfair : powerDownThread.FairRun quiet run lateStop :=
    ⟨hrun, fun k => ⟨2 * k + 24, by omega, if_neg (by omega)⟩,
      fun k => ⟨2 * k + 25, by omega, if_pos (by omega)⟩⟩
  have hdel : Delivered run lateStop := fun n _ hsignal => by
    rcases Nat.lt_or_ge n 24 with hlt | hge
    · have hall : ∀ n < 24, ((S.exec S.init ((List.range n).map lateStop)).toOption.map
          fun s => decide (s.stopper = .signal → s.thread.allowed = true)) = some true := by decide
      have hn := hall n hlt
      rw [hstates n] at hn
      exact of_decide_eq_true (Option.some.inj hn) hsignal
    · rw [hrun.eq_of_rest hend hrest hge] at hsignal
      cases hsignal
  exact ⟨run, lateStop, hfair, hinit, hdel, exit_returns.1 run lateStop hfair hinit hdel⟩

end Jrcpp

end JRaid
