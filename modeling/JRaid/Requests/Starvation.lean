import JRaid.Requests.Queues

/-!
# Stripes that never come back

A bio for an absent member stays queued, and its stripe stays marked with `STRIPE_HANDLE`: only
`__init_stripe` clears the bit, and it is given free stripes, which are not marked. So a marked
stripe keeps its sector for ever and is never free again (`State.marked_forever`). When all stripes
of the pool are marked, a call that asks for a sector of none of them waits for ever, whatever the
other calls, the daemon and the members do (`State.waits_forever`).
-/

namespace JRaid

variable {N : ℕ} {τ : Type}

namespace State

variable {env : Env N τ} {s s' : State N τ} {t : τ} {sh : Fin N}

/-- What a stripe keeps for ever once it is marked. -/
structure KeepsMark (s s' : State N τ) (sh : Fin N) : Prop where
  marked : s'.cache.pool.marked sh = true
  sector : (s'.cache.row sh).sector = (s.cache.row sh).sector
  hashed : s'.cache.Hashed sh ↔ s.cache.Hashed sh

/-- What a marked stripe keeps through one run it keeps through a longer one. -/
theorem KeepsMark.trans {s'' : State N τ} (h : KeepsMark s s' sh) (h' : KeepsMark s' s'' sh) :
    KeepsMark s s'' sh :=
  ⟨h'.marked, h'.sector.trans h.sector, h'.hashed.trans h.hashed⟩

variable [DecidableEq τ] [Fintype τ]

/-- A stripe that is not free is left in its place by a miss, and nothing else moves a stripe. -/
theorem KeepsMark.of_step (hinv : Inv env s) {e : Event τ}
    (hstep : env.machine.step s e = .ok s') (hm : s.cache.pool.marked sh = true) :
    KeepsMark s s' sh := by
  obtain hkeep | ⟨t, x, c, -, -, hmiss, rfl⟩ := hinv.keeps_or_miss hstep
  · exact ⟨hkeep.marked_mono sh hm, hkeep.sector sh, by rw [Cache.Hashed, hkeep.table]; rfl⟩
  · obtain ⟨rest, hfree⟩ := hmiss.free
    obtain ⟨-, hx⟩ := (hinv.counts.pool.mem_free x).mp (hfree ▸ List.mem_cons_self)
    have hne : sh ≠ x := fun h => by
      rw [← h, hm] at hx
      cases hx
    refine ⟨?_, ?_, ?_⟩
    · change c.pool.marked sh = true
      rw [hmiss.pool]
      exact (Function.update_of_ne hne _ _).trans hm
    · change (c.row sh).sector = _
      rw [hmiss.row, Function.update_of_ne hne]
    · exact (hinv.table.hashed_relink hmiss.table sh).trans (or_iff_right hne)

theorem KeepsMark.of_leads (hv : env.Supported) (hs : env.machine.Reachable s)
    (hm : s.cache.pool.marked sh = true) (h : env.machine.Leads s s') : KeepsMark s s' sh := by
  induction h with
  | refl => exact ⟨hm, rfl, Iff.rfl⟩
  | tail hlead hnext ih =>
    obtain ⟨e, hstep⟩ := hnext
    exact ih.trans (of_step (Inv.reachable hv (hs.trans hlead)) hstep ih.marked)

/-- **A marked stripe never comes back.** From the time at which a stripe is marked with
`STRIPE_HANDLE`, it is never free, and it is never reused for another sector. -/
theorem marked_forever (env : Env N τ) (hv : env.Supported) {s s' : State N τ}
    (hs : env.machine.Reachable s) {sh : Fin N} (hm : s.cache.pool.marked sh = true)
    (h : env.machine.Leads s s') :
    s'.cache.pool.marked sh = true ∧ sh ∉ s'.cache.inactiveList ∧
      (s'.cache.row sh).sector = (s.cache.row sh).sector := by
  have hkeep := KeepsMark.of_leads hv hs hm h
  refine ⟨hkeep.marked, fun hfree => ?_, hkeep.sector⟩
  obtain ⟨-, hm'⟩ := ((CountInv.reachable (hs.trans h)).pool.mem_free sh).mp hfree
  rw [hkeep.marked] at hm'
  cases hm'

/-- The array of three disks of which the first is missing, with a pool of one stripe: a write to
the missing disk and one to the next row. -/
def missingFirst : Env 1 (Fin 2) :=
  smallArray 1 (fun i => if i = 0 then ⟨none⟩ else allPresent i)
    [⟨0, 4096, .write⟩, ⟨16, 4096, .write⟩]

theorem supported_missingFirst : missingFirst.Supported :=
  ⟨Or.inr rfl, Or.inr (Or.inr (Or.inl rfl)), by decide, by decide⟩

/-- The stripe of the write to the missing disk. -/
theorem marked_forever_one :
    ∃ s, missingFirst.machine.exec missingFirst.init (List.replicate 12 (.run 0)) = .ok s ∧
      s.pc 0 = .done ∧ ∀ s', missingFirst.machine.Leads s s' → 0 ∉ s'.cache.inactiveList := by
  obtain ⟨s, hs, hshow⟩ := FallibleSystem.exists_exec
    (f := fun s : State 1 (Fin 2) => (s.pc 0, (s.cache.stripe 0).handle)) (v := (.done, true))
    (show (missingFirst.machine.exec missingFirst.init
      (List.replicate 12 (.run 0))).toOption.map _ = _ by decide +kernel)
  obtain ⟨hpc, hm⟩ := Prod.mk.inj hshow
  exact ⟨s, hs, hpc, fun s' h => (marked_forever missingFirst supported_missingFirst
    (FallibleSystem.reachable_of_exec hs) hm h).2.1⟩

/-! ### A pool without free stripes -/

/-- All stripes are marked, and none of those in the table has the sector that a call asks for. -/
structure Starved (env : Env N τ) (s : State N τ) (t : τ) : Prop where
  marked : ∀ sh, s.cache.pool.marked sh = true
  other : ∀ sh, s.cache.Hashed sh → (s.cache.row sh).sector ≠ (env.place t).newSector

instance (env : Env N τ) (s : State N τ) (t : τ) : Decidable (Starved env s t) :=
  decidable_of_iff ((∀ sh, s.cache.pool.marked sh = true) ∧
    ∀ sh, (s.cache.stripe sh).hashPprev ≠ none →
      (s.cache.row sh).sector ≠ (env.place t).newSector)
    ⟨fun h => ⟨h.1, h.2⟩, fun h => ⟨h.marked, h.other⟩⟩

private theorem Starved.of_leads (h : Starved env s t) (hv : env.Supported)
    (hs : env.machine.Reachable s) (hlead : env.machine.Leads s s') : Starved env s' t := by
  have hkeep := fun sh => KeepsMark.of_leads hv hs (h.marked sh) hlead
  refine ⟨fun sh => (hkeep sh).marked, fun sh hsh => ?_⟩
  rw [(hkeep sh).sector]
  exact h.other sh ((hkeep sh).hashed.mp hsh)

/-- A call that asks for a stripe in vain goes on waiting. -/
private theorem Starved.waits_of_step (h : Starved env s t) (hinv : Inv env s) {e : Event τ}
    (hstep : env.machine.step s e = .ok s') (hpc : s.pc t = .get ∨ s.pc t = .wait) :
    s'.pc t = .get ∨ s'.pc t = .wait := by
  obtain ⟨u, -, hrun⟩ | rfl | ⟨k, req, -, hdone⟩ := step_cases hstep
  · rcases eq_or_ne t u with rfl | hne
    · -- it finds no stripe, and no stripe is free
      have hno : ∀ {p : Pc N}, s.pc t = p → p ≠ .get → p ≠ .wait → False :=
        fun hp hget hwait => hpc.elim (fun h => hget (hp.symm.trans h)) fun h =>
          hwait (hp.symm.trans h)
      cases hrun with
      | idle => exact hpc
      | exhausted ht hpc' hfree => exact Or.inr (pc_goto_self ..)
      | hit ht hpc' hhit =>
        obtain ⟨hhashed, hsector⟩ := hinv.table.hashed_of_find hhit.find
        exact absurd hsector (h.other _ hhashed)
      | miss ht hpc' hmiss =>
        obtain ⟨rest, hfree⟩ := hmiss.free
        obtain ⟨-, hm⟩ := (hinv.counts.pool.mem_free _).mp (hfree ▸ List.mem_cons_self)
        rw [h.marked] at hm
        cases hm
      | start ht hp | startDaemon ht hp | add ht hp | release ht hp | releaseDaemon ht hp
      | finish ht hp | take ht hp htaken | drained ht hp hwork =>
        exact (hno hp (by simp) (by simp)).elim
      | scan hp | parity hp | skip hp hdir | request hp hsub | postpone hp hpost =>
        exact (hno hp (by simp) (by simp)).elim
    · rwa [pc_of_runs_of_ne hrun hne]
  · exact hpc
  · rwa [hdone.pc]

/-- **A call that waits for ever.** If all stripes of the pool are marked, and a call asks for a
sector that no hashed stripe has, then it asks or waits in every state that the array can reach
from then on. -/
theorem waits_forever (env : Env N τ) (hv : env.Supported) {s s' : State N τ}
    (hs : env.machine.Reachable s) {t : τ} (hpc : s.pc t = .get ∨ s.pc t = .wait)
    (hstarved : Starved env s t) (h : env.machine.Leads s s') :
    s'.pc t = .get ∨ s'.pc t = .wait := by
  induction h with
  | refl => exact hpc
  | tail hlead hnext ih =>
    obtain ⟨e, hstep⟩ := hnext
    exact (hstarved.of_leads hv hs hlead).waits_of_step (Inv.reachable hv (hs.trans hlead)) hstep ih

/-- After the write to the missing disk, the write to the next row never gets a stripe. -/
theorem waits_forever_one :
    ∃ s, missingFirst.machine.exec missingFirst.init
        (List.replicate 12 (.run 0) ++ [.run 1]) = .ok s ∧ s.pc 0 = .done ∧
      ∀ s', missingFirst.machine.Leads s s' → s'.pc 1 = .get ∨ s'.pc 1 = .wait := by
  obtain ⟨s, hs, hshow⟩ := FallibleSystem.exists_exec
    (f := fun s : State 1 (Fin 2) => (s.pc 0, s.pc 1, decide (Starved missingFirst s 1)))
    (v := (.done, .get, true))
    (show (missingFirst.machine.exec missingFirst.init (List.replicate 12 (.run 0) ++
      [.run 1])).toOption.map _ = _ by decide +kernel)
  obtain ⟨h0, hshow⟩ := Prod.mk.inj hshow
  obtain ⟨h1, hstarved⟩ := Prod.mk.inj hshow
  exact ⟨s, hs, h0, fun s' h => waits_forever missingFirst supported_missingFirst
    (FallibleSystem.reachable_of_exec hs) (Or.inl h1) (of_decide_eq_true hstarved) h⟩

end State

end JRaid
