import JRaid.Requests.Solo

/-!
# Draining the list of stripes to be handled

`jraid5d` handles stripes until `handle_list` is empty. Nothing clears the bit
`STRIPE_HANDLE` of a stripe before `__init_stripe`, so a stripe that is handled with the bit
set goes back to the list. The bit is set for a bio to an absent member, which stays queued:
from then on the loop does not end. If all calls go to present members, the bit is never set
and there is nothing to drain (`drains_iff`).
-/

namespace JRaid

variable {N : ℕ} {τ : Type}

/-- The members that the calls go to are all present. -/
def Env.TargetsPresent (env : Env N τ) : Prop :=
  ∀ t b, env.thread t = .makeRequest b → (env.conf.disks (env.dev t)).jrdev ≠ none

namespace State

variable [DecidableEq τ] {env : Env N τ} {s s' : State N τ} {d t : τ} {sh : Fin N}

/-- A run without end from a reachable state in which the daemon `d` is at the head of its loop.
No new request arrives, the daemon takes a step again and again, and every request that is in
flight completes: as long as there is one, the oldest completes at some time. -/
structure DrainRun (env : Env N τ) (d : τ) (σ : ℕ → State N τ) (e : ℕ → Event τ) : Prop where
  reachable : env.machine.Reachable (σ 0)
  head : (σ 0).pc d = .pop
  step : ∀ n, env.machine.step (σ n) (e n) = .ok (σ (n + 1))
  quiet : ∀ n t b, env.thread t = .makeRequest b → e n = .run t → (σ n).pc t ≠ .start
  fair : ∀ n, ∃ m, n ≤ m ∧ e m = .run d
  completes : ∀ n, (σ n).inflight ≠ [] → ∃ m, n ≤ m ∧ e m = .complete 0

theorem DrainRun.reachable_all {σ : ℕ → State N τ} {e : ℕ → Event τ} (h : DrainRun env d σ e)
    (n : ℕ) : env.machine.Reachable (σ n) := by
  induction n with
  | zero => exact h.reachable
  | succ n ih => exact ih.step (h.step n)

/-! ### Nothing to drain -/

/-- If all calls go to present members, no stripe is marked and `handle_list` is empty. -/
theorem handleList_eq_nil [Fintype τ] (hv : env.Supported) (h : env.TargetsPresent)
    (hs : env.machine.Reachable s) : s.cache.handleList = [] := by
  have hinv := Inv.reachable hv hs
  refine List.eq_nil_iff_forall_not_mem.mpr fun sh hsh => ?_
  obtain ⟨i, rw, habsent, hne⟩ := hinv.queues.marked sh ((hinv.counts.pool.mem_work sh).mp hsh).2
  obtain ⟨u, hu⟩ := List.exists_mem_of_ne_nil _ hne
  have hq := hinv.queues.queued _ _ _ u hu
  obtain ⟨b, hb⟩ := hq.call
  exact h u b hb (hq.dev ▸ habsent)

/-- Until its first step the daemon stays at the head of its loop. -/
private theorem DrainRun.pc_eq_pop {σ : ℕ → State N τ} {e : ℕ → Event τ}
    (h : DrainRun env d σ e) {n : ℕ} (hn : ∀ m < n, e m ≠ .run d) : (σ n).pc d = .pop := by
  induction n with
  | zero => exact h.head
  | succ n ih =>
    have hpop := ih fun m hm => hn m (Nat.lt_succ_of_lt hm)
    obtain ⟨t, het, hrun⟩ | heq | ⟨k, req, -, hdone⟩ := step_cases (h.step n)
    · have hne : d ≠ t := fun hdt => hn n (Nat.lt_succ_self n) (hdt ▸ het)
      rw [pc_of_runs_of_ne hrun hne, hpop]
    · rw [heq, hpop]
    · rw [hdone.pc, hpop]

/-- A drain run with an empty list ends at the first step of the daemon. -/
private theorem DrainRun.ends {σ : ℕ → State N τ} {e : ℕ → Event τ} (h : DrainRun env d σ e)
    (hd : env.thread d = .jraid5d) (hnil : ∀ n, (σ n).cache.handleList = []) :
    ∃ n, (σ n).pc d = .done ∧ (σ n).cache.handleList = [] := by
  classical
  have hex : ∃ m, e m = .run d := (h.fair 0).imp fun m hm => hm.2
  have hpop := h.pc_eq_pop fun m hm => Nat.find_min hex hm
  have hstep := h.step (Nat.find hex)
  rw [Nat.find_spec hex] at hstep
  change (σ (Nat.find hex)).runThread env d = _ at hstep
  rw [runThread, hpop, hd, Cache.takeHandled, hnil] at hstep
  refine ⟨Nat.find hex + 1, ?_, hnil _⟩
  rw [← Except.ok.inj hstep, pc_goto_self]

/-! ### A stripe that keeps coming back -/

/-- The daemon works on its own, and a marked stripe is on `handle_list` or held by the daemon. -/
structure Spins (env : Env N τ) (d : τ) (sh : Fin N) (s : State N τ) : Prop where
  reachable : env.machine.Reachable s
  inflight : s.inflight = []
  absent : ∀ x i rw, s.queue x i rw ≠ [] → (env.conf.disks i).jrdev = none
  marked : s.cache.pool.marked sh = true
  others : ∀ u, u ≠ d → (s.pc u).held = none
  pc : s.pc d ≠ .done

/-- At the head of the loop the stripe is on the list. -/
private theorem Spins.mem_handleList [Fintype τ] (h : Spins env d sh s) (hpc : s.pc d = .pop) :
    sh ∈ s.cache.handleList := by
  have hcount := CountInv.reachable h.reachable
  have hnone : ∀ u, (s.pc u).held = none := fun u => by
    rcases eq_or_ne u d with rfl | hne
    · rw [hpc]
      rfl
    · exact h.others u hne
  have hrefs : s.refs sh = 0 := by simp [refs, hnone, h.inflight]
  exact (hcount.pool.mem_of_refs_eq_zero hrefs).2.mpr h.marked

/-- A step of the daemon on its own leaves the other threads and the bios alone. -/
private theorem Spins.keep (h : Spins env d sh s) {p : Pc N}
    (hstep : env.machine.step s (.run d) = .ok s') (hpc : s'.pc = Function.update s.pc d p)
    (hp : p ≠ .done) (hin : s'.inflight = s.inflight) (hqueue : s'.queue = s.queue)
    (hmarked : s.cache.pool.marked sh = true → s'.cache.pool.marked sh = true) :
    Spins env d sh s' where
  reachable := h.reachable.step hstep
  inflight := hin.trans h.inflight
  absent x i rw hne := h.absent x i rw (hqueue ▸ hne)
  marked := hmarked h.marked
  others u hu := by
    rw [hpc, Function.update_of_ne hu]
    exact h.others u hu
  pc := by
    rw [hpc, Function.update_self]
    exact hp

/-- The daemon can always make a step. -/
private theorem exists_step [Fintype τ] (hinv : Inv env s) (hd : env.thread d = .jraid5d) :
    ∃ s', env.machine.step s (.run d) = .ok s' := by
  cases hstep : env.machine.step s (.run d) with
  | ok s' => exact ⟨s', rfl⟩
  | error b =>
    exfalso
    obtain ⟨hpc, hget⟩ | ⟨-, htake⟩ := runThread_eq_error hstep
    · -- only a call can fail to get a stripe
      rcases hpc with hpc | hpc
      all_goals
        have hidle : s.runThread env d = .ok s := by rw [runThread, hpc, hd]
        cases hstep.symm.trans hidle
    · -- a stripe on `handle_list` has no reference
      obtain ⟨x, rest, hwork, hc⟩ := Cache.takeHandled_eq_error htake
      obtain ⟨hr, -⟩ := (hinv.counts.pool.mem_work x).mp (hwork ▸ List.mem_cons_self)
      rw [hinv.counts.pool.count_eq, hr] at hc
      exact absurd rfl hc

/-- **The loop of the daemon does not end**: whatever its next step is, the daemon can make it,
and the stripe is still marked. -/
private theorem Spins.step [Fintype τ] (hv : env.Supported) (hd : env.thread d = .jraid5d)
    (h : Spins env d sh s) :
    ∃ s', env.machine.step s (.run d) = .ok s' ∧ Spins env d sh s' := by
  have hinv := Inv.reachable hv h.reachable
  obtain ⟨s', hstep⟩ := exists_step hinv hd
  refine ⟨s', hstep, ?_⟩
  have call : ∀ {b : Bio}, env.thread d = .makeRequest b → Spins env d sh s' := fun ht => by
    rw [hd] at ht
    cases ht
  -- the steps of a call are not the daemon's; the others keep queues and marks
  have hrun := runThread_runs hstep
  cases hrun with
  | idle => exact h
  | start ht => exact call ht
  | hit ht => exact call ht
  | miss ht => exact call ht
  | exhausted ht => exact call ht
  | add ht => exact call ht
  | release ht => exact call ht
  | finish ht => exact call ht
  | startDaemon ht hpc => exact h.keep (p := .pop) hstep rfl (by simp) rfl rfl id
  | @scan x i hpc =>
    refine h.keep (p := .scan x i) hstep rfl (by simp) rfl ?_ fun hm => ?_
    · exact QueueInv.queue_modifyDev (f := R5dev.scan) rfl fun rw => R5dev.queue_scan _ _
    · exact (Cache.pool_modifyDev s.cache x i R5dev.scan).symm ▸ hm
  | @parity x hpc =>
    refine h.keep (p := .submit x env.conf.numDisks) hstep rfl (by simp) rfl ?_ fun hm => ?_
    · exact QueueInv.queue_modifyDev (f := R5dev.markParity) rfl fun rw =>
        R5dev.queue_markParity _ _
    · exact (Cache.pool_modifyDev s.cache x _ R5dev.markParity).symm ▸ hm
  | @skip x i hpc hdir => exact h.keep (p := .submit x i) hstep rfl (by simp) rfl rfl id
  | @request x i req c hpc hsub =>
    -- a request goes to a present member
    obtain ⟨jrdev, hdisk, -⟩ := hsub.member
    have hne := hinv.queues.want x i req.rw (R5dev.want_of_submitDir hsub.dir)
    rw [h.absent x i req.rw hne] at hdisk
    cases hdisk
  | @postpone x i rw c hpc hpost =>
    refine h.keep (p := .submit x i) hstep rfl (by simp) rfl ?_ fun hm => ?_
    · exact QueueInv.queue_modifyDev hpost.row fun rw' =>
        (R5dev.queue_unlock _ _).trans (R5dev.queue_setWant _ _ _ _)
    · -- an absent member marks its stripe again
      change c.pool.marked sh = true
      rw [show c.pool.marked = Function.update s.cache.pool.marked x true from
        congrArg RefPool.marked hpost.pool, Function.update_apply]
      split_ifs
      · rfl
      · exact hm
  | @releaseDaemon x ht hpc =>
    refine h.keep (p := .pop) hstep rfl (by simp) rfl ?_ fun hm => ?_
    · exact congrArg (fun r : Fin N → Row τ => fun y i rw => ((r y).dev i).queue rw)
        (Cache.row_releaseStripe s.cache x)
    · change (s.cache.releaseStripe x).pool.marked sh = true
      rwa [Cache.pool_releaseStripe, RefPool.marked_put]
  | @take x c ht hpc htaken =>
    refine h.keep (p := .scan x env.conf.numDisks) hstep rfl (by simp) rfl ?_ fun hm => ?_
    · exact congrArg (fun r : Fin N → Row τ => fun y i rw => ((r y).dev i).queue rw) htaken.row
    · change c.pool.marked sh = true
      rw [htaken.pool]
      exact hm
  | drained ht hpc hwork =>
    -- between two stripes the marked one is on the list
    have hmem := h.mem_handleList hpc
    rw [show s.cache.handleList = [] from hwork] at hmem
    cases hmem

/-- A call to an absent member that runs alone, in a new array, leaves the daemon a stripe to
handle for ever. -/
private theorem exists_spins [Fintype τ] {b : Bio} (hv : env.Supported) (hN : 0 < N)
    (hd : env.thread d = .jraid5d) (ht : env.thread t = .makeRequest b)
    (habsent : (env.conf.disks (env.dev t)).jrdev = none) :
    ∃ s sh, s.pc d = .pop ∧ Spins env d sh s := by
  obtain ⟨sh, s₁, s₂, hs₁, hserved, hnil, hpc, -, hmarked⟩ := exists_first_served hv hN ht
  have hs₂ := hs₁.trans hserved.leads
  have hinv := Inv.reachable hv hs₂
  have hdt : d ≠ t := fun e => by
    rw [e, ht] at hd
    cases hd
  have hstep : env.machine.step s₂ (.run d) = .ok (s₂.goto d .pop) := by
    change s₂.runThread env d = _
    rw [runThread, hpc d hdt, hd]
  have hqueue : ∀ x i rw, s₂.queue x i rw ≠ [] → (env.conf.disks i).jrdev = none := by
    intro x i rw hne
    obtain ⟨u, hu⟩ := List.exists_mem_of_ne_nil _ hne
    obtain hold | ⟨-, -, rfl, -, -⟩ := (hserved.queue x i rw u).mp hu
    · rw [hnil] at hold
      cases hold
    · exact habsent
  refine ⟨s₂.goto d .pop, sh, pc_goto_self .., hs₂.step hstep, ?_, hqueue, hmarked habsent,
    fun u hu => ?_, ?_⟩
  · -- a request in flight would be one for an absent member
    refine List.eq_nil_iff_forall_not_mem.mpr fun req hreq => ?_
    have hj := hinv.queues.inflight req hreq
    obtain ⟨jrdev, hdisk⟩ := hj.present
    obtain ⟨v, hv⟩ := List.exists_mem_of_ne_nil _ hj.bios
    rw [hqueue _ _ _ (List.ne_nil_of_mem (hj.queued hv))] at hdisk
    cases hdisk
  · rw [pc_goto_of_ne _ _ hu]
    rcases eq_or_ne u t with rfl | hut
    · rw [hserved.pc]
      rfl
    · rw [hpc u hut]
      rfl
  · rw [pc_goto_self]
    simp

/-- The daemon can go on for ever after a call to an absent member. -/
theorem exists_drainRun [Fintype τ] {b : Bio} (hv : env.Supported) (hN : 0 < N)
    (hd : env.thread d = .jraid5d) (ht : env.thread t = .makeRequest b)
    (habsent : (env.conf.disks (env.dev t)).jrdev = none) :
    ∃ σ e, DrainRun env d σ e ∧ ∀ n, (σ n).pc d ≠ .done := by
  obtain ⟨s, sh, hpc, hspins⟩ := exists_spins hv hN hd ht habsent
  obtain ⟨σ, hσ, hrun⟩ := FallibleSystem.exists_forever (S := env.machine) (J := Spins env d sh)
    (e := .run d) (fun s hs => hs.step hv hd) hspins
  refine ⟨σ, fun _ => .run d, ⟨?_, ?_, fun n => (hrun n).2, fun n u b hu he => ?_,
    fun n => ⟨n, le_rfl, rfl⟩, fun n hne => absurd (hrun n).1.inflight hne⟩, fun n => (hrun n).1.pc⟩
  · rw [hσ]
    exact hspins.reachable
  · rw [hσ]
    exact hpc
  · obtain rfl : d = u := Event.run.inj he
    rw [hd] at hu
    cases hu

/-- **Draining ends in every run exactly when all calls go to present members.** -/
theorem drains_iff [Fintype τ] (env : Env N τ) (hv : env.Supported) (hN : 0 < N) (d : τ)
    (hd : env.thread d = .jraid5d) :
    (∀ σ e, DrainRun env d σ e → ∃ n, (σ n).pc d = .done ∧ (σ n).cache.handleList = []) ↔
      env.TargetsPresent := by
  constructor
  · intro h t b ht habsent
    obtain ⟨σ, e, hrun, hnever⟩ := exists_drainRun hv hN hd ht habsent
    obtain ⟨n, hdone, -⟩ := h σ e hrun
    exact hnever n hdone
  · intro h σ e hrun
    exact hrun.ends hd fun n => handleList_eq_nil hv h (hrun.reachable_all n)

/-- Three disks of which the first is missing: the daemon handles the stripe of a write to it
for ever. -/
theorem drain_never_ends :
    let env : Env nrStripes (Fin 2) :=
      { smallArray nrStripes (fun i => if i = 0 then ⟨none⟩ else allPresent i)
          [⟨0, 4096, .write⟩, ⟨0, 4096, .write⟩] with
        thread := fun t => if t = 0 then .makeRequest ⟨0, 4096, .write⟩ else .jraid5d }
    ∃ σ e, DrainRun env 1 σ e ∧ ∀ n, (σ n).pc 1 ≠ .done := by
  intro env
  have hv : env.Supported := ⟨Or.inr rfl, Or.inr (Or.inr (Or.inl rfl)), by decide, by decide⟩
  have hd : env.thread 1 = .jraid5d := rfl
  exact exists_drainRun (t := 0) hv (by decide) hd rfl (by decide)

/-- Three disks that are all present. -/
theorem drains_iff_present :
    let env : Env nrStripes (Fin 2) :=
      { smallArray nrStripes allPresent [⟨0, 4096, .write⟩, ⟨0, 4096, .write⟩] with
        thread := fun t => if t = 0 then .makeRequest ⟨0, 4096, .write⟩ else .jraid5d }
    ∀ σ e, DrainRun env 1 σ e → ∃ n, (σ n).pc 1 = .done ∧ (σ n).cache.handleList = [] := by
  intro env
  have hv : env.Supported := ⟨Or.inr rfl, Or.inr (Or.inr (Or.inl rfl)), by decide, by decide⟩
  have hd : env.thread 1 = .jraid5d := rfl
  exact (drains_iff env hv (by decide) 1 hd).mpr fun t b _ => by simp [env, smallArray, allPresent]

end State

end JRaid
