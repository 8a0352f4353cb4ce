import Mathlib.Data.Nat.Notation
import Mathlib.Logic.Relation
import Mathlib.Tactic.Choose
import Mathlib.Tactic.SplitIfs

/-!
# Transition systems whose steps can stop

A `FallibleSystem` has an initial state and a deterministic step function on labelled
events, which either yields the next state or stops with a reason. The schedule, that is
the choice of events, is what varies from run to run; a stop ends the run. Invariants are
proved once for the initial state and once for a step (`Reachable.invariant`).

A run can be restricted to the events that a guard allows (`ReachableWith`, `Allows`), a
concrete schedule can be executed (`exec`), and one event can be repeated for ever
(`exists_forever`).
-/

theorem Except.exists_of_map_eq_ok {ε α β : Type*} {x : Except ε α} {f : α → β} {b : β}
    (h : x.map f = .ok b) : ∃ a, x = .ok a ∧ f a = b := by
  cases x with
  | error e => cases h
  | ok a => exact ⟨a, rfl, Except.ok.inj h⟩

theorem Except.eq_error_of_map {ε α β : Type*} {x : Except ε α} {f : α → β} {e : ε}
    (h : x.map f = .error e) : x = .error e := by
  cases x with
  | error e' => exact congrArg Except.error (Except.error.inj h)
  | ok a => cases h

/-- A result that has been computed, as far as `f` shows it. -/
theorem Except.exists_of_toOption_map {ε α β : Type*} {x : Except ε α} {f : α → β} {b : β}
    (h : x.toOption.map f = some b) : ∃ a, x = .ok a ∧ f a = b := by
  cases x with
  | error e => cases h
  | ok a => exact ⟨a, rfl, Option.some.inj h⟩

/-- A pair that has been computed, as far as its first component. -/
theorem Except.exists_of_toOption_fst {ε α β : Type*} {x : Except ε (α × β)} {a : α}
    (h : x.toOption.map Prod.fst = some a) : ∃ b, x = .ok (a, b) := by
  obtain ⟨⟨a', b⟩, hx, rfl⟩ := exists_of_toOption_map h
  exact ⟨b, hx⟩

/-- An initial state and a step function that may stop. -/
structure FallibleSystem (σ ε β : Type*) where
  init : σ
  step : σ → ε → Except β σ

namespace FallibleSystem

variable {σ ε β : Type*} (S : FallibleSystem σ ε β)

/-- One state steps to another by some event. -/
def Next (s s' : σ) : Prop := ∃ e, S.step s e = .ok s'

/-- One state leads to another by some schedule. -/
def Leads (s s' : σ) : Prop := Relation.ReflTransGen S.Next s s'

/-- The states that some schedule reaches from the initial one. -/
def Reachable (s : σ) : Prop := S.Leads S.init s

/-- The states reached by schedules all of whose events the guard `g` allows. -/
def ReachableWith (g : σ → ε → Prop) (s : σ) : Prop :=
  Relation.ReflTransGen (fun a b => ∃ e, g a e ∧ S.step a e = .ok b) S.init s

/-- Run a schedule from a state. -/
def exec : σ → List ε → Except β σ
  | s, [] => .ok s
  | s, e :: es => (S.step s e).bind fun s' => exec s' es

/-- The guard allows each event of a schedule in the state in which its turn comes. -/
def Allows (g : σ → ε → Prop) : σ → List ε → Prop
  | _, [] => True
  | s, e :: es => g s e ∧ ∀ s', S.step s e = .ok s' → Allows g s' es

/-- A property holds in all states that a schedule passes through. -/
def Always (P : σ → Prop) : σ → List ε → Prop
  | s, [] => P s
  | s, e :: es => P s ∧ ∀ s', S.step s e = .ok s' → Always P s' es

/-- Event number `i` of a schedule satisfies `P` in the state in which its turn comes. -/
def Turn (P : σ → ε → Prop) (s : σ) (es : List ε) (i : ℕ) : Prop :=
  ∃ a e, es[i]? = some e ∧ S.exec s (es.take i) = .ok a ∧ P a e

/-- Before event number `k` an event that satisfies `P` has had its turn, and since then none that
satisfies `Q`. -/
def Since (P Q : σ → ε → Prop) (s : σ) (es : List ε) (k : ℕ) : Prop :=
  ∃ j < k, S.Turn P s es j ∧ ∀ m, j < m → m < k → ¬S.Turn Q s es m

/-- Run a schedule from a state as long as the guard allows its events and no step stops. -/
def execWith (g : σ → ε → Prop) [∀ s e, Decidable (g s e)] : σ → List ε → Option σ
  | s, [] => some s
  | s, e :: es =>
    if g s e then
      match S.step s e with
      | .ok s' => execWith g s' es
      | .error _ => none
    else none

variable {S}

theorem Leads.step {s s' : σ} {e : ε} (h : S.step s e = .ok s') : S.Leads s s' :=
  Relation.ReflTransGen.single ⟨e, h⟩

theorem Reachable.trans {s s' : σ} (hs : S.Reachable s) (h : S.Leads s s') : S.Reachable s' :=
  Relation.ReflTransGen.trans hs h

theorem Reachable.step {s s' : σ} {e : ε} (hs : S.Reachable s) (h : S.step s e = .ok s') :
    S.Reachable s' :=
  hs.trans (Leads.step h)

theorem reachable_init : S.Reachable S.init := Relation.ReflTransGen.refl

/-- **The invariant rule**: what holds initially and is preserved by every step from a
reachable state holds in every reachable state. -/
theorem Reachable.invariant {I : σ → Prop} (h₀ : I S.init)
    (hstep : ∀ s e s', S.Reachable s → I s → S.step s e = .ok s' → I s') {s : σ}
    (hs : S.Reachable s) : I s := by
  induction hs with
  | refl => exact h₀
  | tail hs h ih =>
    obtain ⟨e, he⟩ := h
    exact hstep _ e _ hs ih he

/-- The invariant rule along a run from any state. -/
theorem Leads.invariant {I : σ → Prop} {s s' : σ} (h₀ : I s)
    (hstep : ∀ a e b, I a → S.step a e = .ok b → I b) (h : S.Leads s s') : I s' := by
  induction h with
  | refl => exact h₀
  | tail _ h ih =>
    obtain ⟨e, he⟩ := h
    exact hstep _ e _ ih he

/-- An event that can always be repeated gives a run without end. -/
theorem exists_forever {J : σ → Prop} {e : ε}
    (h : ∀ s, J s → ∃ s', S.step s e = .ok s' ∧ J s') {s : σ} (hs : J s) :
    ∃ run : ℕ → σ, run 0 = s ∧ ∀ n, J (run n) ∧ S.step (run n) e = .ok (run (n + 1)) := by
  choose next hnext hkeep using h
  let run : ℕ → {s // J s} := fun n =>
    n.rec ⟨s, hs⟩ fun _ a => ⟨next a.1 a.2, hkeep a.1 a.2⟩
  exact ⟨fun n => (run n).1, rfl, fun n => ⟨(run n).2, hnext (run n).1 (run n).2⟩⟩

/-- The invariant rule for guarded runs. -/
theorem ReachableWith.invariant {g : σ → ε → Prop} {I : σ → Prop} (h₀ : I S.init)
    (hstep : ∀ s e s', I s → g s e → S.step s e = .ok s' → I s') {s : σ}
    (hs : S.ReachableWith g s) : I s := by
  induction hs with
  | refl => exact h₀
  | tail _ h ih =>
    obtain ⟨e, hg, he⟩ := h
    exact hstep _ e _ ih hg he

/-- A schedule can be run in two parts. -/
theorem exec_append (s : σ) (es es' : List ε) :
    S.exec s (es ++ es') = (S.exec s es).bind fun s' => S.exec s' es' := by
  induction es generalizing s with
  | nil => rfl
  | cons e es ih =>
    rw [List.cons_append, exec, exec]
    cases S.step s e with
    | error b => rfl
    | ok s' => exact ih s'

/-- The last event of a schedule. -/
theorem exec_concat (s : σ) (es : List ε) (e : ε) :
    S.exec s (es ++ [e]) = (S.exec s es).bind fun s' => S.step s' e := by
  rw [exec_append]
  refine congrArg (Except.bind (S.exec s es)) (funext fun s' => ?_)
  rw [exec]
  cases S.step s' e with
  | error b => rfl
  | ok s'' => rfl

/-- **Translating a run**: if each event does nothing or what its translation does in the other
system, a schedule does what its translation does. -/
theorem exec_filterMap {ε' β' : Type*} {T : FallibleSystem σ ε' β'} {f : ε → Option ε'}
    (h : ∀ a e b, S.step a e = .ok b → (f e = none ∧ b = a) ∨ ∃ e', f e = some e' ∧
      T.step a e' = .ok b) {s s' : σ} {es : List ε} (hexec : S.exec s es = .ok s') :
    T.exec s (es.filterMap f) = .ok s' := by
  induction es generalizing s with
  | nil => exact congrArg Except.ok (Except.ok.inj hexec)
  | cons e es ih =>
    rw [exec] at hexec
    cases hstep : S.step s e with
    | error b => simp [hstep, Except.bind] at hexec
    | ok a =>
      rw [hstep] at hexec
      rcases h s e a hstep with ⟨hnone, rfl⟩ | ⟨e', hsome, hstep'⟩
      · rw [List.filterMap_cons_none hnone]
        exact ih hexec
      · rw [List.filterMap_cons_some hsome, exec, hstep']
        exact ih hexec

/-- If what is entered in a list stands for events of two systems that do the same, so does the
list, also where it stops. -/
theorem exec_map {ι ε' β' : Type*} {T : FallibleSystem σ ε' β'} {g : ι → ε} {g' : ι → ε'}
    {k : β' → β} {l : List ι}
    (h : ∀ i ∈ l, ∀ a, S.step a (g i) = (T.step a (g' i)).mapError k) (s : σ) :
    S.exec s (l.map g) = (T.exec s (l.map g')).mapError k := by
  induction l generalizing s with
  | nil => rfl
  | cons i l ih =>
    rw [List.map_cons, List.map_cons, exec, exec, h i List.mem_cons_self]
    cases T.step s (g' i) with
    | error b => rfl
    | ok a => exact ih (fun j hj => h j (List.mem_cons_of_mem i hj)) a

/-- **A turn at the end**: the events of a schedule that satisfy `P` in the state in which their
turn comes are those without the last event, and that event if it does. -/
theorem turn_concat_iff {P : σ → ε → Prop} {s a : σ} {es : List ε} (h : S.exec s es = .ok a)
    (e : ε) (i : ℕ) :
    S.Turn P s (es ++ [e]) i ↔ S.Turn P s es i ∨ (i = es.length ∧ P a e) := by
  have htake : ∀ i ≤ es.length, (es ++ [e]).take i = es.take i := fun i hi =>
    List.take_append_of_le_length hi
  constructor
  · rintro ⟨a', e', hget, hexec, hP⟩
    rcases Nat.lt_trichotomy i es.length with hi | rfl | hi
    · rw [List.getElem?_append_left hi] at hget
      rw [htake i (Nat.le_of_lt hi)] at hexec
      exact Or.inl ⟨a', e', hget, hexec, hP⟩
    · rw [htake _ (Nat.le_refl _), List.take_length] at hexec
      obtain rfl := Except.ok.inj (h.symm.trans hexec)
      obtain rfl : e = e' := by simpa using hget
      exact Or.inr ⟨rfl, hP⟩
    · have hlen : (es ++ [e]).length ≤ i := by
        rw [List.length_append]
        exact hi
      rw [List.getElem?_eq_none hlen] at hget
      cases hget
  · rintro (⟨a', e', hget, hexec, hP⟩ | ⟨rfl, hP⟩)
    · obtain ⟨hi, -⟩ := List.getElem?_eq_some_iff.mp hget
      refine ⟨a', e', ?_, ?_, hP⟩
      · rw [List.getElem?_append_left hi, hget]
      · rw [htake i (Nat.le_of_lt hi), hexec]
    · refine ⟨a, e, ?_, ?_, hP⟩
      · rw [List.getElem?_concat_length]
      · rw [htake _ (Nat.le_refl _), List.take_length, h]

/-- An executed schedule is a run. -/
theorem leads_of_exec {s s' : σ} {es : List ε} (h : S.exec s es = .ok s') : S.Leads s s' := by
  induction es generalizing s with
  | nil =>
    obtain rfl : s = s' := by simpa [exec] using h
    exact Relation.ReflTransGen.refl
  | cons e es ih =>
    rw [exec] at h
    cases hs : S.step s e with
    | error b => simp [hs, Except.bind] at h
    | ok s₁ =>
      rw [hs] at h
      exact Relation.ReflTransGen.head ⟨e, hs⟩ (ih h)

/-- **The rule for a schedule**: if `P` holds at the start and not in the end, some event of the
schedule leads out of it. -/
theorem exists_turn_of_not {P : σ → Prop} {s s' : σ} {es : List ε} (h : S.exec s es = .ok s')
    (hs : P s) (hs' : ¬P s') :
    ∃ i, S.Turn (fun a e => P a ∧ ∃ a', S.step a e = .ok a' ∧ ¬P a') s es i := by
  induction es generalizing s with
  | nil =>
    obtain rfl := Except.ok.inj h
    exact absurd hs hs'
  | cons e es ih =>
    rw [exec] at h
    cases hstep : S.step s e with
    | error b =>
      rw [hstep] at h
      cases h
    | ok a =>
      rw [hstep] at h
      by_cases ha : P a
      · obtain ⟨i, b, e', hget, hexec, hb⟩ := ih h ha
        refine ⟨i + 1, b, e', hget, ?_, hb⟩
        rw [List.take_succ_cons, exec, hstep]
        exact hexec
      · exact ⟨0, s, e, rfl, rfl, hs, a, hstep, ha⟩

/-- Of two turns the later one comes after the step that the earlier one makes. -/
theorem leads_of_lt {s a b : σ} {es : List ε} {e : ε} {i j : ℕ} (hij : i < j)
    (hget : es[i]? = some e) (ha : S.exec s (es.take i) = .ok a)
    (hb : S.exec s (es.take j) = .ok b) : ∃ a', S.step a e = .ok a' ∧ S.Leads a' b := by
  obtain ⟨hi, hget⟩ := List.getElem?_eq_some_iff.mp hget
  have hsplit : es.take j = es.take i ++ e :: (es.take j).drop (i + 1) := by
    have hlen : i < (es.take j).length := by
      rw [List.length_take]
      omega
    have htake := List.take_append_drop i (es.take j)
    rw [List.take_take, Nat.min_eq_left (Nat.le_of_lt hij), List.drop_eq_getElem_cons hlen,
      List.getElem_take, hget] at htake
    exact htake.symm
  rw [hsplit, exec_append, ha] at hb
  change S.exec a (e :: _) = _ at hb
  rw [exec] at hb
  cases hstep : S.step a e with
  | error f =>
    rw [hstep] at hb
    cases hb
  | ok a' =>
    rw [hstep] at hb
    exact ⟨a', rfl, leads_of_exec hb⟩

/-- What has its turn in the beginning of a schedule has it in the schedule. -/
theorem Turn.of_take {P : σ → ε → Prop} {s : σ} {es : List ε} {i k : ℕ}
    (h : S.Turn P s (es.take k) i) : i < k ∧ S.Turn P s es i := by
  obtain ⟨a, e, hget, hexec, hP⟩ := h
  obtain ⟨hi, -⟩ := List.getElem?_eq_some_iff.mp hget
  have hik : i < k := Nat.lt_of_lt_of_le hi (List.length_take_le k es)
  rw [List.getElem?_take_of_lt hik] at hget
  rw [List.take_take, Nat.min_eq_left (Nat.le_of_lt hik)] at hexec
  exact ⟨hik, a, e, hget, hexec, hP⟩

theorem turn_iff {P : σ → ε → Prop} {s a : σ} {es : List ε} {k : ℕ} {e : ε}
    (hget : es[k]? = some e) (h : S.exec s (es.take k) = .ok a) : S.Turn P s es k ↔ P a e := by
  refine ⟨?_, fun hP => ⟨a, e, hget, h, hP⟩⟩
  rintro ⟨a', e', hget', h', hP⟩
  obtain rfl := Option.some.inj (hget.symm.trans hget')
  obtain rfl := Except.ok.inj (h.symm.trans h')
  exact hP

theorem since_succ_iff {P Q : σ → ε → Prop} {s : σ} {es : List ε} {k : ℕ} :
    S.Since P Q s es (k + 1) ↔ S.Turn P s es k ∨ (S.Since P Q s es k ∧ ¬S.Turn Q s es k) := by
  constructor
  · rintro ⟨j, hj, hP, hQ⟩
    obtain hjk | rfl := Nat.lt_succ_iff_lt_or_eq.mp hj
    · exact Or.inr ⟨⟨j, hjk, hP, fun m hjm hm => hQ m hjm (Nat.lt_succ_of_lt hm)⟩,
        hQ k hjk (Nat.lt_succ_self k)⟩
    · exact Or.inl hP
  · rintro (hP | ⟨⟨j, hj, hP, hQ⟩, hk⟩)
    · exact ⟨k, Nat.lt_succ_self k, hP, fun m hkm hm =>
        absurd hm (Nat.not_lt.mpr (Nat.succ_le_of_lt hkm))⟩
    · refine ⟨j, Nat.lt_succ_of_lt hj, hP, fun m hjm hm => ?_⟩
      obtain hmk | rfl := Nat.lt_succ_iff_lt_or_eq.mp hm
      · exact hQ m hjm hmk
      · exact hk

/-- **The rule for latches**: a property that the events `P` set and the events `Q` reset holds at
event number `k` exactly if it has been set since it was last reset, or was there from the start. -/
theorem latch_iff_since {P Q : σ → ε → Prop} {I F : σ → Prop}
    (hstep : ∀ a e b, I a → S.step a e = .ok b → (F b ↔ P a e ∨ (F a ∧ ¬Q a e))) {s a : σ}
    {es : List ε} {k : ℕ} (hk : k ≤ es.length)
    (hI : ∀ i < k, ∀ b, S.exec s (es.take i) = .ok b → I b) (h : S.exec s (es.take k) = .ok a) :
    F a ↔ S.Since P Q s es k ∨ (F s ∧ ∀ m < k, ¬S.Turn Q s es m) := by
  induction k generalizing a with
  | zero =>
    obtain rfl := Except.ok.inj h
    exact ⟨fun hF => Or.inr ⟨hF, fun m hm => absurd hm (Nat.not_lt_zero m)⟩,
      fun hF => hF.elim (fun ⟨j, hj, _⟩ => absurd hj (Nat.not_lt_zero j)) And.left⟩
  | succ k ih =>
    have hget : es[k]? = some es[k] := List.getElem?_eq_getElem hk
    rw [List.take_succ_eq_append_getElem hk, exec_concat] at h
    cases hexec : S.exec s (es.take k) with
    | error b =>
      rw [hexec] at h
      cases h
    | ok b =>
      rw [hexec] at h
      rw [hstep b _ a (hI k (Nat.lt_succ_self k) b hexec) h,
        ih (Nat.le_of_lt hk) (fun i hi => hI i (Nat.lt_succ_of_lt hi)) hexec, since_succ_iff,
        turn_iff hget hexec, turn_iff hget hexec, or_and_right, or_assoc, and_assoc]
      refine or_congr_right (or_congr_right (and_congr_right fun _ => ?_))
      rw [Nat.forall_lt_succ_right, turn_iff hget hexec]

theorem reachable_of_exec {s : σ} {es : List ε} (h : S.exec S.init es = .ok s) :
    S.Reachable s :=
  leads_of_exec h

/-- **The rule for stops**: if the guard forbids exactly the events that stop for the reason `b`, it
allows exactly the schedules that do not stop for it. -/
theorem exec_ne_error_iff {g : σ → ε → Prop} {b : β}
    (hstep : ∀ s e, S.step s e ≠ .error b ↔ g s e) (s : σ) (es : List ε) :
    S.exec s es ≠ .error b ↔ S.Allows g s es := by
  induction es generalizing s with
  | nil => exact iff_of_true (by rintro ⟨⟩) trivial
  | cons e es ih =>
    rw [exec, Allows, ← hstep]
    cases S.step s e with
    | error b' =>
      refine ⟨fun hne => ⟨fun hstop => hne ?_, by rintro s' ⟨⟩⟩, fun h hstop => h.1 ?_⟩
      · exact congrArg Except.error (Except.error.inj hstop)
      · exact congrArg Except.error (Except.error.inj hstop)
    | ok s' =>
      refine (ih s').trans ⟨fun h => ⟨by rintro ⟨⟩, ?_⟩, fun h => h.2 s' rfl⟩
      rintro _ ⟨⟩
      exact h

/-- **The flag rule**: if a property, once it holds, goes on to hold, and otherwise begins to hold
with the events that `g` describes, then it holds after a schedule exactly if it did before or the
schedule has such an event. -/
theorem exec_flag_iff {g : σ → ε → Prop} {I P : σ → Prop}
    (hI : ∀ s e s', I s → S.step s e = .ok s' → I s')
    (hP : ∀ s e s', I s → S.step s e = .ok s' → (P s' ↔ P s ∨ g s e)) {s s' : σ} {es : List ε}
    (hs : I s) (h : S.exec s es = .ok s') :
    P s' ↔ P s ∨ ∃ as e bs a, es = as ++ e :: bs ∧ S.exec s as = .ok a ∧ g a e := by
  induction es generalizing s with
  | nil =>
    obtain rfl := Except.ok.inj h
    simp
  | cons e es ih =>
    rw [exec] at h
    cases hstep : S.step s e with
    | error b =>
      rw [hstep] at h
      cases h
    | ok s₁ =>
      rw [hstep] at h
      rw [ih (hI s e s₁ hs hstep) h, hP s e s₁ hs hstep, or_assoc]
      refine or_congr_right ⟨?_, ?_⟩
      · rintro (hg | ⟨as, e', bs, a, rfl, ha, hg⟩)
        · exact ⟨[], e, es, s, rfl, rfl, hg⟩
        · exact ⟨e :: as, e', bs, a, rfl, by rw [exec, hstep]; exact ha, hg⟩
      · rintro ⟨as, e', bs, a, hes, ha, hg⟩
        cases as with
        | nil =>
          obtain ⟨rfl, rfl⟩ := List.cons.inj hes
          obtain rfl := Except.ok.inj ha
          exact Or.inl hg
        | cons e'' as =>
          obtain ⟨rfl, rfl⟩ := List.cons.inj hes
          rw [exec, hstep] at ha
          exact Or.inr ⟨as, e', bs, a, rfl, ha, hg⟩

/-- Guards that agree on the events of a schedule allow the same. -/
theorem allows_congr {g g' : σ → ε → Prop} {es : List ε} (h : ∀ e ∈ es, ∀ s, g s e ↔ g' s e)
    (s : σ) : S.Allows g s es ↔ S.Allows g' s es := by
  induction es generalizing s with
  | nil => exact Iff.rfl
  | cons e es ih =>
    refine and_congr (h e List.mem_cons_self s) (forall₂_congr fun s' _ => ?_)
    exact ih (fun e' he' => h e' (List.mem_cons_of_mem e he')) s'

/-- The end of a schedule is one of the states that it passes through. -/
theorem Always.exec {P : σ → Prop} {s s' : σ} {es : List ε} (h : S.Always P s es)
    (hexec : S.exec s es = .ok s') : P s' := by
  induction es generalizing s with
  | nil =>
    obtain rfl := Except.ok.inj hexec
    exact h
  | cons e es ih =>
    rw [FallibleSystem.exec] at hexec
    cases hs : S.step s e with
    | error b =>
      rw [hs] at hexec
      cases hexec
    | ok s₁ =>
      rw [hs] at hexec
      exact ih (h.2 s₁ hs) hexec

/-- **The rule for exact guards**: if an event keeps the property exactly when the guard allows it,
then a schedule keeps it throughout exactly when the guard allows all its events. -/
theorem always_iff_allows {g : σ → ε → Prop} {I P : σ → Prop}
    (hstep : ∀ s e, I s → P s → ∃ s', S.step s e = .ok s' ∧ I s' ∧ (P s' ↔ g s e)) {s : σ}
    (hI : I s) (hP : P s) (es : List ε) : S.Always P s es ↔ S.Allows g s es := by
  induction es generalizing s with
  | nil => exact iff_of_true hP trivial
  | cons e es ih =>
    obtain ⟨s', hs', hI', hiff⟩ := hstep s e hI hP
    have hnext : ∀ {Q : σ → Prop}, (∀ t, S.step s e = .ok t → Q t) ↔ Q s' :=
      ⟨fun h => h s' hs', fun h t ht => Except.ok.inj (hs'.symm.trans ht) ▸ h⟩
    rw [Always, Allows, hnext, hnext, and_iff_right hP, ← hiff]
    constructor
    · intro h
      have hP' : P s' := by
        cases es with
        | nil => exact h
        | cons e' es => exact h.1
      exact ⟨hP', (ih hI' hP').mp h⟩
    · rintro ⟨hP', h⟩
      exact (ih hI' hP').mpr h

/-- A guarded execution is a guarded run. -/
theorem reachableWith_of_execWith {g : σ → ε → Prop} [∀ s e, Decidable (g s e)] {s : σ}
    {es : List ε} (h : S.execWith g S.init es = some s) : S.ReachableWith g s := by
  suffices hrun : ∀ a, S.execWith g a es = some s →
      Relation.ReflTransGen (fun a b => ∃ e, g a e ∧ S.step a e = .ok b) a s from hrun _ h
  clear h
  induction es with
  | nil =>
    intro a h
    obtain rfl := Option.some.inj h
    exact Relation.ReflTransGen.refl
  | cons e es ih =>
    intro a h
    rw [execWith] at h
    split_ifs at h with hg
    cases hs : S.step a e with
    | error b => simp [hs] at h
    | ok s' =>
      rw [hs] at h
      exact Relation.ReflTransGen.head ⟨e, hg, hs⟩ (ih s' h)

/-- A schedule whose outcome has been computed, as far as `f` shows it. -/
theorem exists_exec {α : Type*} {f : σ → α} {v : α} {s : σ} {es : List ε}
    (h : (S.exec s es).toOption.map f = some v) : ∃ s', S.exec s es = .ok s' ∧ f s' = v :=
  Except.exists_of_toOption_map h

end FallibleSystem
