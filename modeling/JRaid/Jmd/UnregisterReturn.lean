import JRaid.ForMathlib.FairRun
import JRaid.Jmd.UnregisterThread

/-!
# `jmd_unregister_thread` returns

The wait of `jmd_thread` looks at the stop flag, and `kthread_stop` wakes the thread after it has
set it. So it does not matter that the loop flushes signals: if no cleared pointer is called, and
the function behind the pointer returns from its calls, the thread ends, and then the structure is
freed and `jmd_unregister_thread` returns, whatever signals and wake-ups come in between. If a call
does not return, neither does `jmd_unregister_thread` (`unregister_returns_iff`).
-/

namespace JRaid

namespace Unregister

/-- A run in which the thread and who stops it have their turn again and again. In the function that
is called the thread may stay: `jmd_thread` does not decide when it returns. -/
structure FairRun (run : ℕ → State) (ev : ℕ → Event) : Prop where
  isRun : system.IsRun run ev
  loop : ∀ k, ∃ m, k ≤ m ∧ (ev m = .loop ∨ (run m).loop = .run)
  unregister : ∀ k, ∃ m, k ≤ m ∧ ev m = .unregister

/-- The request to stop has been made. -/
def UnregisterPc.asked : UnregisterPc → Bool
  | .join | .free | .done => true
  | _ => false

/-- What holds in every interleaving: there is a task, and it does not end before it is asked. -/
structure Asked (s : State) : Prop where
  tsk : s.tsk = true
  stop_eq : s.shouldStop = s.unregister.asked
  exited : s.loop = .exited → s.shouldStop = true
  freed : s.unregister = .done → s.freed = true

variable {s s' : State}

/-- What the loop leaves alone, and when it ends. -/
theorem stepLoop_asked (h : stepLoop s = .ok s') : s'.tsk = s.tsk ∧ s'.shouldStop = s.shouldStop ∧
    (s'.loop = .exited → s.loop = .exited ∨ s.shouldStop = true) := by
  rw [stepLoop] at h
  cases hpc : s.loop with
  | test =>
    rw [hpc] at h
    obtain rfl := Except.ok.inj h
    refine ⟨rfl, rfl, fun hexit => Or.inr ?_⟩
    by_contra hno
    rw [if_neg hno] at hexit
    cases hexit
  | stopTest =>
    rw [hpc] at h
    obtain rfl := Except.ok.inj h
    refine ⟨rfl, rfl, fun hexit => ?_⟩
    dsimp only at hexit
    split_ifs at hexit
  | exited =>
    rw [hpc] at h
    obtain rfl := Except.ok.inj h
    exact ⟨rfl, rfl, fun _ => Or.inl rfl⟩
  | wait | clear | call =>
    rw [hpc] at h
    dsimp only at h
    split_ifs at h <;> first
      | cases h
        exact ⟨rfl, rfl, fun hexit => by first | cases hexit | cases hpc.symm.trans hexit⟩
  | flush | run =>
    rw [hpc] at h
    obtain rfl := Except.ok.inj h
    exact ⟨rfl, rfl, fun hexit => by cases hexit⟩

theorem Asked.stepUnregister (h : Asked s) : Asked (stepUnregister s) := by
  obtain ⟨htsk, hstop, hexit, hfreed⟩ := h
  rw [Unregister.stepUnregister]
  cases hpc : s.unregister with
  | join =>
    rw [hpc] at hstop
    dsimp only
    split_ifs with hend
    · exact ⟨htsk, hstop, hexit, fun hdone => by cases hdone⟩
    · exact ⟨htsk, by rw [hpc]; exact hstop, hexit, fun hdone => by cases hpc.symm.trans hdone⟩
  | testTsk | interrupt =>
    rw [hpc] at hstop
    dsimp only
    rw [if_pos htsk]
    exact ⟨htsk, hstop, hexit, fun hdone => by cases hdone⟩
  | stop => exact ⟨htsk, rfl, fun _ => rfl, fun hdone => by cases hdone⟩
  | free =>
    rw [hpc] at hstop
    exact ⟨htsk, hstop, hexit, fun _ => rfl⟩
  | done => exact ⟨htsk, hstop, hexit, hfreed⟩
  | clearRun | clearName =>
    rw [hpc] at hstop
    exact ⟨htsk, hstop, hexit, fun hdone => by cases hdone⟩

theorem Asked.step {e : Event} (h : Asked s) (hstep : system.step s e = .ok s') : Asked s' := by
  cases e with
  | loop =>
    obtain ⟨htsk, hstop, hexit⟩ := stepLoop_asked hstep
    obtain ⟨hfreed, hpc, -⟩ := stepLoop_frame hstep
    refine ⟨htsk.trans h.tsk, by rw [hstop, hpc]; exact h.stop_eq, fun hend => ?_, ?_⟩
    · exact hstop.trans ((hexit hend).elim h.exited id)
    · rw [hpc, hfreed]
      exact h.freed
  | unregister => exact Except.ok.inj hstep ▸ h.stepUnregister
  | jmdWakeupThread | signal =>
    obtain rfl := Except.ok.inj hstep
    exact ⟨h.tsk, h.stop_eq, h.exited, h.freed⟩

theorem Asked.reachable (hs : system.Reachable s) : Asked s :=
  hs.invariant (I := Asked) ⟨rfl, rfl, fun h => (by cases h), fun h => by cases h⟩
    fun _ _ _ _ h hstep => h.step hstep

/-- How far the loop is from its end, once it has been asked to stop. -/
def LoopPc.toEnd : LoopPc → ℕ
  | .exited => 0
  | .test => 1
  | .stopTest | .run => 2
  | .call | .clear => 3
  | .wait => 4
  | .flush => 5

/-- How far `jmd_unregister_thread` is from its return. -/
def State.toReturn (s : State) : ℕ :=
  match s.unregister with
  | .done => 0
  | .free => 1
  | .join => s.loop.toEnd + 2
  | .stop => 8
  | .interrupt => 9
  | .testTsk => 10
  | .clearName => 11
  | .clearRun => 12

/-- Whose turn brings the return nearer: the loop's while its end is awaited. -/
def turn (v : ℕ) : Event := if v ≤ 2 ∨ 8 ≤ v then .unregister else .loop

/-- Once it has been asked to stop, each step brings the loop nearer to its end. -/
theorem toEnd_lt (h : stepLoop s = .ok s') (hstop : s.shouldStop = true)
    (hexit : s.loop ≠ .exited) : s'.loop.toEnd < s.loop.toEnd := by
  rw [stepLoop] at h
  cases hpc : s.loop with
  | exited => exact absurd hpc hexit
  | test | stopTest =>
    rw [hpc] at h
    obtain rfl := Except.ok.inj h
    dsimp only
    rw [if_pos hstop]
    decide
  | wait =>
    rw [hpc] at h
    dsimp only at h
    rw [if_pos (show s.wakeup ∨ s.shouldStop ∨ s.signalPending from Or.inr (Or.inl hstop))] at h
    split_ifs at h
    obtain rfl := Except.ok.inj h
    exact Nat.lt_succ_self 3
  | clear =>
    rw [hpc] at h
    dsimp only at h
    split_ifs at h
    obtain rfl := Except.ok.inj h
    exact Nat.lt_succ_self 2
  | call =>
    rw [hpc] at h
    dsimp only at h
    split_ifs at h
    obtain rfl := Except.ok.inj h
    exact Nat.lt_succ_self 2
  | flush =>
    rw [hpc] at h
    obtain rfl := Except.ok.inj h
    exact Nat.lt_succ_self 4
  | run =>
    rw [hpc] at h
    obtain rfl := Except.ok.inj h
    exact Nat.lt_succ_self 1

theorem LoopPc.toEnd_le (pc : LoopPc) : pc.toEnd ≤ 5 := by
  cases pc <;> decide

theorem LoopPc.eq_exited {pc : LoopPc} (h : pc.toEnd = 0) : pc = .exited := by
  cases pc <;> first | rfl | cases h

theorem toReturn_join (h : s.unregister = .join) : s.toReturn = s.loop.toEnd + 2 := by
  rw [State.toReturn, h]

/-- Only in `kthread_stop` does the loop count. -/
theorem toReturn_of_ne_join (h : s.unregister ≠ .join) (hpc : s'.unregister = s.unregister) :
    s'.toReturn = s.toReturn ∧ turn s.toReturn = .unregister := by
  rw [State.toReturn, State.toReturn, hpc]
  cases hs : s.unregister with
  | join => exact absurd hs h
  | _ => exact ⟨rfl, rfl⟩

/-- No step leads away from the return, and a step of the one whose turn it is leads to it. -/
theorem toReturn_step {e : Event} (h : Asked s) (hdone : s.unregister ≠ .done)
    (hstep : system.step s e = .ok s') :
    s'.toReturn ≤ s.toReturn ∧ (e = turn s.toReturn → s'.toReturn < s.toReturn) := by
  have hothers : ∀ {e : Event}, e ≠ .loop → e ≠ .unregister → e ≠ turn s.toReturn := by
    intro e hloop hunregister
    rw [turn]
    split_ifs
    exacts [hunregister, hloop]
  cases e with
  | loop =>
    obtain ⟨-, hpc, hend⟩ := stepLoop_frame hstep
    by_cases hjoin : s.unregister = .join
    · rw [toReturn_join hjoin, toReturn_join (hpc.trans hjoin)]
      by_cases hexit : s.loop = .exited
      · rw [hend hexit, hexit]
        exact ⟨le_rfl, fun hturn => by cases hturn⟩
      · have hstop : s.shouldStop = true := by rw [h.stop_eq, hjoin]; rfl
        have := toEnd_lt hstep hstop hexit
        omega
    · obtain ⟨heq, hturn⟩ := toReturn_of_ne_join hjoin hpc
      rw [heq, hturn]
      exact ⟨le_rfl, fun he => by cases he⟩
  | unregister =>
    obtain rfl := Except.ok.inj hstep
    cases hpc : s.unregister with
    | join =>
      have hle := s.loop.toEnd_le
      rw [stepUnregister, hpc, toReturn_join hpc]
      dsimp only
      split_ifs with hexit
      · simp [State.toReturn]
      · rw [toReturn_join hpc]
        refine ⟨le_rfl, fun hturn => absurd (LoopPc.eq_exited ?_) hexit⟩
        rw [turn] at hturn
        split_ifs at hturn
        omega
    | done => exact absurd hpc hdone
    | stop =>
      have hle := s.loop.toEnd_le
      simp only [stepUnregister, hpc, State.toReturn]
      omega
    | _ => simp [stepUnregister, hpc, h.tsk, State.toReturn]
  | jmdWakeupThread | signal =>
    obtain rfl := Except.ok.inj hstep
    exact ⟨le_rfl, fun hturn => absurd hturn (hothers (by simp) (by simp))⟩

theorem done_of_step {e : Event} (hstep : system.step s e = .ok s')
    (h : s.unregister = .done) : s'.unregister = .done := by
  cases e with
  | loop => exact (stepLoop_frame hstep).2.1.trans h
  | unregister =>
    obtain rfl := Except.ok.inj hstep
    rw [stepUnregister, h]
    exact h
  | jmdWakeupThread | signal => exact Except.ok.inj hstep ▸ h

/-- Only the thread moves the thread. -/
theorem loop_of_step {e : Event} (he : e ≠ .loop) (hstep : system.step s e = .ok s') :
    s'.loop = s.loop := by
  cases e with
  | loop => exact absurd rfl he
  | unregister =>
    obtain rfl := Except.ok.inj hstep
    rw [stepUnregister]
    cases s.unregister with
    | join =>
      dsimp only
      split_ifs <;> rfl
    | _ => rfl
  | jmdWakeupThread | signal => exact Except.ok.inj hstep ▸ rfl

variable {run : ℕ → State} {ev : ℕ → Event}

/-- **The thread has its turn again and again** if it does not stay in the function that it
calls. -/
theorem FairRun.exists_loop (h : FairRun run ev) (hback : ¬∃ n, ∀ m, n ≤ m → (run m).loop = .run)
    (k : ℕ) : ∃ m, k ≤ m ∧ ev m = .loop := by
  by_contra! hno
  -- then it stays where it is
  have hstay : ∀ m, k ≤ m → (run m).loop = (run k).loop := fun m hm => by
    induction m, hm using Nat.le_induction with
    | base => rfl
    | succ m hm ih => exact (loop_of_step (hno m hm) (h.isRun.step m)).trans ih
  obtain ⟨m, hm, hturn | hpc⟩ := h.loop k
  · exact hno m hm hturn
  · exact hback ⟨k, fun j hj => (hstay j hj).trans ((hstay m hm).symm.trans hpc)⟩

/-- **When `jmd_unregister_thread` returns.** In a fair run in which no cleared pointer is called,
it has returned from some time on, the thread has ended and its structure has been freed, exactly if
the thread does not stay for ever in the function that it calls. -/
theorem unregister_returns_iff (h : FairRun run ev) :
    (∃ n, ∀ m, n ≤ m →
      (run m).unregister = .done ∧ (run m).loop = .exited ∧ (run m).freed = true) ↔
      ¬∃ n, ∀ m, n ≤ m → (run m).loop = .run := by
  constructor
  · rintro ⟨n, hn⟩ ⟨k, hk⟩
    have hexit := (hn (max n k) (le_max_left n k)).2.1
    cases hexit.symm.trans (hk (max n k) (le_max_right n k))
  intro hback
  have hfair : ∀ v k, ∃ m, k ≤ m ∧ ev m = turn v := fun v k => by
    rw [turn]
    split_ifs
    exacts [h.unregister k, h.exists_loop hback k]
  obtain ⟨n, -, hn⟩ := h.isRun.eventually (J := fun _ => True)
    (G := fun s => s.unregister = .done) (μ := State.toReturn) hfair
    (fun s e s' hs _ hdone hstep =>
      Or.inr ⟨trivial, toReturn_step (Asked.reachable hs) hdone hstep⟩) (n := 0) trivial
  refine ⟨n, fun m hm => ?_⟩
  have hdone : (run m).unregister = .done := by
    induction m, hm using Nat.le_induction with
    | base => exact hn
    | succ m hm ih => exact done_of_step (h.isRun.step m) ih
  have hfreed := (Asked.reachable (h.isRun.reachable_all m)).freed hdone
  exact ⟨hdone, (FreedLast.reachable (h.isRun.reachable_all m)).freed hfreed, hfreed⟩

/-- The loop sleeps when it is asked to stop. -/
private def asksAsleep (n : ℕ) : Event :=
  if n < 2 ∨ (7 ≤ n ∧ n ≤ 10) ∨ (13 ≤ n ∧ n % 2 = 1) then .loop else .unregister

/-- The loop has called the function, which does not return. -/
private def asksCalled (n : ℕ) : Event :=
  if n = 0 then .jmdWakeupThread else if n < 7 then .loop else .unregister

/-- A run in which `jmd_unregister_thread` returns, and one in which it does not. -/
theorem unregister_returns_iff_two :
    (∃ run ev, FairRun run ev ∧ ∃ n, ∀ m, n ≤ m →
      (run m).unregister = .done ∧ (run m).loop = .exited ∧ (run m).freed = true) ∧
    ∃ run ev, FairRun run ev ∧ ¬∃ n, ∀ m, n ≤ m →
      (run m).unregister = .done ∧ (run m).loop = .exited ∧ (run m).freed = true := by
  constructor
  · let ended : State := ⟨false, false, true, false, true, false, true, .exited, .done⟩
    have hexec : system.exec system.init ((List.range 13).map asksAsleep) = .ok ended := rfl
    have hrest : ∀ n, 13 ≤ n → system.step ended (asksAsleep n) = .ok ended := fun n _ => by
      rw [asksAsleep]
      split_ifs <;> rfl
    obtain ⟨run, hrun, -, hend, -⟩ := FallibleSystem.exists_isRun asksAsleep hexec hrest
    have hfair : FairRun run asksAsleep :=
      ⟨hrun, fun k => ⟨2 * k + 13, by omega, Or.inl (if_pos (by omega))⟩,
        fun k => ⟨2 * k + 14, by omega, if_neg (by omega)⟩⟩
    refine ⟨run, asksAsleep, hfair, (unregister_returns_iff hfair).mpr ?_⟩
    rintro ⟨n, hn⟩
    have hpc := hn (max n 13) (le_max_left n 13)
    rw [hrun.eq_of_rest hend hrest (le_max_right n 13)] at hpc
    cases hpc
  · let called : State := ⟨false, false, true, false, true, false, false, .run, .join⟩
    have hexec : system.exec system.init ((List.range 12).map asksCalled) = .ok called := rfl
    have hrest : ∀ n, 12 ≤ n → system.step called (asksCalled n) = .ok called := fun n _ => by
      rw [asksCalled, if_neg (by omega), if_neg (by omega)]
      rfl
    obtain ⟨run, hrun, -, hend, -⟩ := FallibleSystem.exists_isRun asksCalled hexec hrest
    have hstays : ∀ m, 12 ≤ m → (run m).loop = .run := fun m hm => by
      rw [hrun.eq_of_rest hend hrest hm]
    have hfair : FairRun run asksCalled :=
      ⟨hrun, fun k => ⟨max k 12, le_max_left k 12, Or.inr (hstays _ (le_max_right k 12))⟩,
        fun k => ⟨k + 12, by omega, (if_neg (by omega)).trans (if_neg (by omega))⟩⟩
    exact ⟨run, asksCalled, hfair, fun hreturns => (unregister_returns_iff hfair).mp hreturns
      ⟨12, hstays⟩⟩

end Unregister

end JRaid
