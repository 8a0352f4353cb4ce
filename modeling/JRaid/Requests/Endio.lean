import JRaid.Requests.Machine

/-!
# Each call ends its bio once

`jraid5_make_request` sets `bi_phys_segments` of its bio to 1 and takes this reference back
at its end. Nothing else writes the field: the increments and decrements of the other
functions are commented out. So the bios for which `bio_endio` has been called are those of
the calls that have returned, each once, however the calls, the daemon and the completions
are interleaved (`State.ended_once`).
-/

namespace JRaid

variable {N : ℕ} {τ : Type}

/-- Between the first step of a call and its return. -/
def Pc.inside : Pc N → Bool
  | .start | .done => false
  | _ => true

namespace State

/-- What is known of the references to the bios and of the calls of `bio_endio`. -/
structure EndioInv (env : Env N τ) (s : State N τ) : Prop where
  nodup : (s.ended.map Prod.fst).Nodup
  ended : ∀ t, t ∈ s.ended.map Prod.fst ↔ (∃ b, env.thread t = .makeRequest b) ∧ s.pc t = .done
  inside : ∀ t b, env.thread t = .makeRequest b → (s.pc t).inside = true →
    s.physSegments t = 1

namespace EndioInv

variable [DecidableEq τ] {env : Env N τ} {s s' : State N τ} {t : τ}

/-- A step of the daemon, or one inside a call. -/
private theorem keep (h : EndioInv env s) {p : Pc N} (hpc : s'.pc = Function.update s.pc t p)
    (hphys : s'.physSegments = s.physSegments) (hended : s'.ended = s.ended)
    (hcall : ∀ b, env.thread t = .makeRequest b → (s.pc t).inside = true ∧ p.inside = true) :
    EndioInv env s' := by
  refine ⟨hended ▸ h.nodup, fun u => ?_, fun u b hu hin => ?_⟩
  · rw [hended, h.ended, hpc]
    refine and_congr_right fun ⟨b, hu⟩ => ?_
    rcases eq_or_ne u t with rfl | hne
    · obtain ⟨hold, hnew⟩ := hcall b hu
      rw [Function.update_self]
      exact iff_of_false (fun h => by rw [h] at hold; cases hold)
        (fun h => by rw [h] at hnew; cases hnew)
    · rw [Function.update_of_ne hne]
  · rw [hphys]
    refine h.inside u b hu ?_
    rcases eq_or_ne u t with rfl | hne
    · exact (hcall b hu).1
    · rwa [hpc, Function.update_of_ne hne] at hin

/-- The first step of a call takes a reference to its bio. -/
private theorem start (h : EndioInv env s) {b : Bio} (ht : env.thread t = .makeRequest b)
    (hpc : s.pc t = .start) :
    EndioInv env ({ s with physSegments := Function.update s.physSegments t 1 }.goto t .get) := by
  refine ⟨h.nodup, fun u => ?_, fun u c hu hin => ?_⟩
  · change u ∈ s.ended.map Prod.fst ↔ _ ∧ Function.update s.pc t .get u = .done
    rw [h.ended]
    rcases eq_or_ne u t with rfl | hne
    · rw [Function.update_self, hpc]
      simp
    · rw [Function.update_of_ne hne]
  · change Function.update s.physSegments t 1 u = 1
    change (Function.update s.pc t .get u).inside = true at hin
    rcases eq_or_ne u t with rfl | hne
    · exact Function.update_self ..
    · rw [Function.update_of_ne hne] at hin ⊢
      exact h.inside u c hu hin

/-- The end of a call drops the last reference to its bio. -/
private theorem finish (h : EndioInv env s) {b : Bio} (ht : env.thread t = .makeRequest b)
    (hpc : s.pc t = .finish) : EndioInv env (s.finish t) := by
  have hphys : s.physSegments t = 1 := h.inside t b ht (by rw [hpc]; rfl)
  have hnot : t ∉ s.ended.map Prod.fst := by
    rw [h.ended, hpc]
    simp
  have heq : s.finish t = { s with
      physSegments := Function.update s.physSegments t 0
      ended := (t, s.memory t) :: s.ended }.goto t .done := by
    simp [State.finish, hphys]
  rw [heq]
  refine ⟨List.nodup_cons.mpr ⟨hnot, h.nodup⟩, fun u => ?_, fun u c hu hin => ?_⟩
  · change u ∈ t :: s.ended.map Prod.fst ↔ _ ∧ Function.update s.pc t .done u = .done
    rw [List.mem_cons, h.ended]
    rcases eq_or_ne u t with rfl | hne
    · rw [Function.update_self]
      exact iff_of_true (Or.inl rfl) ⟨⟨b, ht⟩, rfl⟩
    · rw [Function.update_of_ne hne, or_iff_right hne]
  · change Function.update s.physSegments t 0 u = 1
    change (Function.update s.pc t .done u).inside = true at hin
    rcases eq_or_ne u t with rfl | hne
    · rw [Function.update_self] at hin
      cases hin
    · rw [Function.update_of_ne hne] at hin ⊢
      exact h.inside u c hu hin

/-- A step of a thread keeps the invariant. -/
private theorem runs (h : EndioInv env s) (hrun : Runs env s t s') : EndioInv env s' := by
  have inside : ∀ {p q : Pc N}, s.pc t = p → p.inside = true → q.inside = true →
      ∀ b, env.thread t = .makeRequest b → (s.pc t).inside = true ∧ q.inside = true :=
    fun hp hin hout _ _ => ⟨hp ▸ hin, hout⟩
  have get : ∀ {q : Pc N}, s.pc t = .get ∨ s.pc t = .wait → q.inside = true →
      ∀ b, env.thread t = .makeRequest b → (s.pc t).inside = true ∧ q.inside = true :=
    fun hp hout => hp.elim (inside · rfl hout) (inside · rfl hout)
  have daemon : env.thread t = .jraid5d → ∀ q : Pc N, ∀ b, env.thread t = .makeRequest b →
      (s.pc t).inside = true ∧ q.inside = true := fun hd q b hb => by
    rw [hd] at hb
    cases hb
  cases hrun with
  | idle => exact h
  | start ht hpc => exact h.start ht hpc
  | startDaemon ht hpc => exact h.keep rfl rfl rfl (daemon ht _)
  | hit ht hpc hhit => exact h.keep rfl rfl rfl (get hpc rfl)
  | miss ht hpc hmiss => exact h.keep rfl rfl rfl (get hpc rfl)
  | exhausted ht hpc hfree => exact h.keep rfl rfl rfl (get hpc rfl)
  | add ht hpc => exact h.keep rfl rfl rfl (inside hpc rfl rfl)
  | scan hpc => exact h.keep rfl rfl rfl (inside hpc rfl rfl)
  | parity hpc => exact h.keep rfl rfl rfl (inside hpc rfl rfl)
  | skip hpc hdir => exact h.keep rfl rfl rfl (inside hpc rfl rfl)
  | request hpc hsub => exact h.keep rfl rfl rfl (inside hpc rfl rfl)
  | postpone hpc hpost => exact h.keep rfl rfl rfl (inside hpc rfl rfl)
  | release ht hpc => exact h.keep rfl rfl rfl (inside hpc rfl rfl)
  | releaseDaemon ht hpc => exact h.keep rfl rfl rfl (daemon ht _)
  | finish ht hpc => exact h.finish ht hpc
  | take ht hpc htaken => exact h.keep rfl rfl rfl (daemon ht _)
  | drained ht hpc hwork => exact h.keep rfl rfl rfl (daemon ht _)

theorem reachable (hs : env.machine.Reachable s) : EndioInv env s := by
  refine hs.invariant (I := EndioInv env) ⟨?_, fun t => ?_, fun t b _ hin => ?_⟩
    fun s e s' _ h hstep => ?_
  · exact List.nodup_nil
  · exact iff_of_false (by simp [Env.machine, Env.init]) (by simp [Env.machine, Env.init])
  · cases hin
  · obtain ⟨t, -, hrun⟩ | rfl | ⟨k, req, -, hdone⟩ := step_cases hstep
    · exact h.runs hrun
    · exact h
    · refine ⟨hdone.ended ▸ h.nodup, fun u => ?_, fun u b hu hin => ?_⟩
      · rw [hdone.ended, hdone.pc]
        exact h.ended u
      · rw [hdone.physSegments]
        exact h.inside u b hu (hdone.pc ▸ hin)

end EndioInv

variable [DecidableEq τ] {env : Env N τ} {s : State N τ}

/-- **Each call ends its bio once.** In every reachable state the bios for which `bio_endio` has
been called are those of the calls that have returned, and none of them has been ended twice. -/
theorem ended_once (hs : env.machine.Reachable s) :
    (s.ended.map Prod.fst).Nodup ∧ ∀ t, t ∈ s.ended.map Prod.fst ↔
      (∃ b, env.thread t = .makeRequest b) ∧ s.pc t = .done :=
  ⟨(EndioInv.reachable hs).nodup, (EndioInv.reachable hs).ended⟩

/-- Of two calls the first has returned and the second has begun: one bio has been ended. -/
theorem ended_once_two :
    let env := smallArray 1 allPresent [⟨0, 4096, .write⟩, ⟨8, 4096, .write⟩]
    ∃ s, env.machine.exec env.init (List.replicate 12 (.run 0) ++ [.run 1]) = .ok s ∧
      s.pc 0 = .done ∧ 0 ∈ s.ended.map Prod.fst ∧ 1 ∉ s.ended.map Prod.fst := by
  intro env
  obtain ⟨s, hs, hpc⟩ := FallibleSystem.exists_exec
    (f := fun s : State 1 (Fin 2) => (s.pc 0, s.pc 1)) (v := (.done, .get))
    (show (env.machine.exec env.init (List.replicate 12 (.run 0) ++
      [.run 1])).toOption.map _ = _ by decide +kernel)
  obtain ⟨h0, h1⟩ := Prod.mk.inj hpc
  have hreach : env.machine.Reachable s := FallibleSystem.reachable_of_exec hs
  obtain ⟨-, hended⟩ := ended_once hreach
  refine ⟨s, hs, h0, (hended 0).mpr ⟨⟨_, rfl⟩, h0⟩, fun h => ?_⟩
  rw [((hended 1).mp h).2] at h1
  cases h1

end State

end JRaid
