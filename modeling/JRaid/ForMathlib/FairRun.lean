import JRaid.ForMathlib.FallibleSystem
import Mathlib.Data.List.Basic
import Mathlib.Data.Nat.Find

/-!
# Runs without end

A run without end of a fallible system is a sequence of states with a sequence of events, one
for each step (`IsRun`). If every step that changes the state lowers a measure, such a run
comes to rest (`IsRun.exists_rest`), and at rest every event that still occurs leaves the
state alone (`IsRun.step_rest`): what a fair schedule ends in is read off from the states that
none of its events changes.

Where the state never rests, a goal is reached by helpful events (`IsRun.eventually`): a measure
never grows, and the event that its value names lowers it.
-/

namespace FallibleSystem

variable {σ ε β : Type*} {S : FallibleSystem σ ε β} {run : ℕ → σ} {ev : ℕ → ε}

variable (S) in

/-- A run without end from a reachable state: the event `ev n` has its turn in the state
`run n`. -/
structure IsRun (run : ℕ → σ) (ev : ℕ → ε) : Prop where
  reachable : S.Reachable (run 0)
  step : ∀ n, S.step (run n) (ev n) = .ok (run (n + 1))

theorem IsRun.reachable_all (h : S.IsRun run ev) (n : ℕ) : S.Reachable (run n) := by
  induction n with
  | zero => exact h.reachable
  | succ n ih => exact ih.step (h.step n)

/-- **The rule for rest**: if every step from a reachable state leaves the state alone or lowers
a measure, a run without end comes to rest. -/
theorem IsRun.exists_rest {μ : σ → ℕ} (h : S.IsRun run ev)
    (hμ : ∀ s e s', S.Reachable s → S.step s e = .ok s' → s' = s ∨ μ s' < μ s) :
    ∃ n, ∀ m, n ≤ m → run m = run n := by
  classical
  -- a state of the run at which the measure is least
  have hex : ∃ v, ∃ n, μ (run n) = v := ⟨_, 0, rfl⟩
  obtain ⟨n, hn⟩ := Nat.find_spec hex
  refine ⟨n, fun m hm => ?_⟩
  induction m, hm using Nat.le_induction with
  | base => rfl
  | succ m hm ih =>
    obtain heq | hlt := hμ _ _ _ (h.reachable_all m) (h.step m)
    · exact heq.trans ih
    · rw [ih, hn] at hlt
      exact absurd ⟨m + 1, rfl⟩ (Nat.find_min hex hlt)

/-- At rest an event that still occurs leaves the state alone. -/
theorem IsRun.step_rest (h : S.IsRun run ev) {n : ℕ} (hrest : ∀ m, n ≤ m → run m = run n)
    {e : ε} (he : ∃ m, n ≤ m ∧ ev m = e) : S.step (run n) e = .ok (run n) := by
  obtain ⟨m, hm, rfl⟩ := he
  have hstep := h.step m
  rwa [hrest m hm, hrest (m + 1) (Nat.le_succ_of_le hm)] at hstep

/-- **The rule for turns**: what every event but one keeps holds when that one has its turn. -/
theorem IsRun.exists_turn {P : σ → Prop} {e : ε} (h : S.IsRun run ev)
    (hfair : ∀ k, ∃ m, k ≤ m ∧ ev m = e)
    (hkeep : ∀ s a s', P s → a ≠ e → S.step s a = .ok s' → P s') {n : ℕ} (hn : P (run n)) :
    ∃ m, n ≤ m ∧ ev m = e ∧ P (run m) := by
  by_contra! hno
  have hall : ∀ m, n ≤ m → P (run m) := fun m hm => by
    induction m, hm using Nat.le_induction with
    | base => exact hn
    | succ m hm ih => exact hkeep _ _ _ ih (fun hev => hno m hm hev ih) (h.step m)
  obtain ⟨m, hm, hev⟩ := hfair n
  exact hno m hm hev (hall m hm)

/-- **The rule for goals**: `J` is kept and the measure does not grow until the goal `G` is
reached, and the event `help v`, which occurs again and again, lowers a measure of `v`. Then the
goal is reached. -/
theorem IsRun.eventually {J G : σ → Prop} {μ : σ → ℕ} {help : ℕ → ε} (h : S.IsRun run ev)
    (hfair : ∀ v k, ∃ m, k ≤ m ∧ ev m = help v)
    (hstep : ∀ s e s', S.Reachable s → J s → ¬G s → S.step s e = .ok s' →
      G s' ∨ (J s' ∧ μ s' ≤ μ s ∧ (e = help (μ s) → μ s' < μ s))) {n : ℕ} (hn : J (run n)) :
    ∃ m, n ≤ m ∧ G (run m) := by
  induction hv : μ (run n) using Nat.strong_induction_on generalizing n with
  | _ v ih =>
    subst hv
    obtain ⟨m, hm, hev⟩ := hfair (μ (run n)) n
    by_contra! hno
    -- up to the helpful event the measure does not grow
    have hkeep : ∀ k, n ≤ k → J (run k) ∧ μ (run k) ≤ μ (run n) := by
      intro k hk
      induction k, hk using Nat.le_induction with
      | base => exact ⟨hn, Nat.le_refl _⟩
      | succ k hk ihk =>
        obtain hG | ⟨hJ, hle, -⟩ := hstep _ _ _ (h.reachable_all k) ihk.1 (hno k hk) (h.step k)
        · exact absurd hG (hno _ (Nat.le_succ_of_le hk))
        · exact ⟨hJ, Nat.le_trans hle ihk.2⟩
    have hlow : ∃ k, n ≤ k ∧ μ (run k) < μ (run n) := by
      obtain hlt | heq := Nat.lt_or_eq_of_le (hkeep m hm).2
      · exact ⟨m, hm, hlt⟩
      obtain hG | ⟨-, -, hlt⟩ :=
        hstep _ _ _ (h.reachable_all m) (hkeep m hm).1 (hno m hm) (h.step m)
      · exact absurd hG (hno _ (Nat.le_succ_of_le hm))
      · exact ⟨m + 1, Nat.le_succ_of_le hm, heq ▸ hlt (by rw [heq, hev])⟩
    obtain ⟨k, hk, hlt⟩ := hlow
    obtain ⟨m', hm', hG⟩ := ih _ hlt (hkeep k hk).1 rfl
    exact hno m' (Nat.le_trans hk hm') hG

/-- One more event of a schedule. -/
private theorem exec_range_succ (s : σ) (ev : ℕ → ε) (n : ℕ) :
    S.exec s ((List.range (n + 1)).map ev) =
      (S.exec s ((List.range n).map ev)).bind fun s' => S.step s' (ev n) := by
  rw [List.range_succ, List.map_append, exec_append]
  refine congrArg _ (funext fun s' => ?_)
  change (S.step s' (ev n)).bind Except.ok = _
  cases S.step s' (ev n) <;> rfl

/-- A run that has come to a state which the rest of its events leave alone stays in it. -/
theorem IsRun.eq_of_rest (h : S.IsRun run ev) {k : ℕ} {s : σ} (hk : run k = s)
    (hrest : ∀ n, k ≤ n → S.step s (ev n) = .ok s) {n : ℕ} (hn : k ≤ n) : run n = s := by
  induction n, hn using Nat.le_induction with
  | base => exact hk
  | succ n hn ih =>
    have hstep := h.step n
    rw [ih, hrest n hn] at hstep
    exact (Except.ok.inj hstep).symm

/-- A schedule that can be executed up to a state which the rest of it does not change gives a
run without end. -/
theorem exists_isRun (ev : ℕ → ε) {k : ℕ} {s : σ}
    (h : S.exec S.init ((List.range k).map ev) = .ok s)
    (hrest : ∀ n, k ≤ n → S.step s (ev n) = .ok s) :
    ∃ run, S.IsRun run ev ∧ run 0 = S.init ∧ run k = s ∧
      ∀ n, S.exec S.init ((List.range n).map ev) = .ok (run n) := by
  have hpast : ∀ n, k ≤ n → S.exec S.init ((List.range n).map ev) = .ok s := by
    intro n hn
    induction n, hn using Nat.le_induction with
    | base => exact h
    | succ n hn ih =>
      rw [exec_range_succ, ih]
      exact hrest n hn
  have hex : ∀ n, ∃ a, S.exec S.init ((List.range n).map ev) = .ok a := by
    intro n
    rcases Nat.le_total k n with hn | hn
    · exact ⟨s, hpast n hn⟩
    · -- an execution that stops stays so
      obtain ⟨d, rfl⟩ := Nat.exists_eq_add_of_le hn
      clear hn hrest hpast
      induction d generalizing s with
      | zero => exact ⟨s, h⟩
      | succ d ih =>
        rw [← Nat.add_assoc, exec_range_succ] at h
        cases hd : S.exec S.init ((List.range (n + d)).map ev) with
        | error b =>
          rw [hd] at h
          cases h
        | ok a => exact ih hd
  choose run hrun using hex
  refine ⟨run, ⟨?_, fun n => ?_⟩, (Except.ok.inj (hrun 0)).symm,
    Except.ok.inj ((hrun k).symm.trans h), hrun⟩
  · exact reachable_of_exec (hrun 0)
  · have hn := hrun (n + 1)
    rwa [exec_range_succ, hrun n] at hn

end FallibleSystem
