import JRaid.Requests.Solo

/-!
# Reusing stripes

Nothing takes a bio off the queues of a stripe, so a stripe is clean when it comes to the
free list only if it has never been used, and `__init_stripe` reaches its `BUG()` once the
pool has been used up. The one exception are stripes whose bios all go to absent members:
such a stripe is marked by its first handler and goes to `handle_list` for ever. This rests
on an invariant: a stripe with a queued bio is marked or attended to, which means that a
thread will still ask for the request of the bio or, the request being asked for, will still
submit it.
-/

namespace JRaid

variable {N : ℕ} {τ : Type}

/-! ### Attended bios -/

/-- The first loop of `handle_stripe` has still to visit a device. -/
def Pc.Scans (sh : Fin N) (i : ℕ) : Pc N → Prop
  | .scan x j => x = sh ∧ i < j
  | _ => False

/-- The last loop of `handle_stripe` has still to visit a device. -/
def Pc.Submits (sh : Fin N) (i : ℕ) : Pc N → Prop
  | .scan x _ => x = sh
  | .submit x j => x = sh ∧ i < j
  | _ => False

theorem Pc.Scans.held {p : Pc N} {sh : Fin N} {i : ℕ} (h : p.Scans sh i) : p.held = some sh := by
  cases p with
  | scan x j => exact congrArg some h.1
  | _ => cases h

theorem Pc.Submits.held {p : Pc N} {sh : Fin N} {i : ℕ} (h : p.Submits sh i) :
    p.held = some sh := by
  cases p with
  | scan x j => exact congrArg some h
  | submit x j => exact congrArg some h.1
  | _ => cases h

namespace State

/-- A stripe is marked, or a thread will still submit the request of a device. -/
def Attended (s : State N τ) (sh : Fin N) (i : ℕ) (rw : Dir) : Prop :=
  s.cache.pool.marked sh = true ∨ (∃ t, (s.pc t).Scans sh i) ∨
    (s.want sh i rw = true ∧ ∃ t, (s.pc t).Submits sh i)

variable [DecidableEq τ] {env : Env N τ} {s s' : State N τ} {t : τ} {sh : Fin N} {i : ℕ} {rw : Dir}

/-- A thread moves on, and does or leaves to itself what it had to do for a device. -/
private theorem Attended.move {p : Pc N} (h : Attended s sh i rw)
    (hpc : s'.pc = Function.update s.pc t p)
    (hmark : s.cache.pool.marked sh = true → s'.cache.pool.marked sh = true)
    (hwant : s.want sh i rw = true → s'.want sh i rw = true)
    (hscan : (s.pc t).Scans sh i → p.Scans sh i ∨ (s'.want sh i rw = true ∧ p.Submits sh i))
    (hsubmit : s.want sh i rw = true → (s.pc t).Submits sh i → p.Submits sh i) :
    Attended s' sh i rw := by
  have hself : s'.pc t = p := by rw [hpc, Function.update_self]
  have hother : ∀ u, u ≠ t → s'.pc u = s.pc u := fun u hu => by rw [hpc, Function.update_of_ne hu]
  obtain hm | ⟨u, hu⟩ | ⟨hw, u, hu⟩ := h
  · exact Or.inl (hmark hm)
  · by_cases hut : u = t
    · obtain hp | ⟨hw, hp⟩ := hscan (hut ▸ hu)
      · exact Or.inr (Or.inl ⟨t, hself.symm ▸ hp⟩)
      · exact Or.inr (Or.inr ⟨hw, t, hself.symm ▸ hp⟩)
    · exact Or.inr (Or.inl ⟨u, by rwa [hother u hut]⟩)
  · refine Or.inr (Or.inr ⟨hwant hw, ?_⟩)
    by_cases hut : u = t
    · exact ⟨t, hself.symm ▸ hsubmit hw (hut ▸ hu)⟩
    · exact ⟨u, by rwa [hother u hut]⟩

/-- Every queued bio is attended to. -/
def AttendInv (s : State N τ) : Prop := ∀ sh i rw, s.queue sh i rw ≠ [] → Attended s sh i rw

/-- A thread that has nothing left to do for any device moves on, and the rows stay. -/
private theorem AttendInv.row {p : Pc N} (h : AttendInv s)
    (hpc : s'.pc = Function.update s.pc t p) (hrow : s'.cache.row = s.cache.row)
    (hmark : s'.cache.pool.marked = s.cache.pool.marked)
    (hidle : ∀ sh i, ¬(s.pc t).Scans sh i ∧ ¬(s.pc t).Submits sh i) : AttendInv s' := by
  have hq : s'.queue = s.queue := by unfold State.queue; rw [hrow]
  have hw : s'.want = s.want := by unfold State.want; rw [hrow]
  intro sh i rw hne
  refine (h sh i rw (hq ▸ hne)).move hpc (fun hm => hmark ▸ hm) (fun hv => hw ▸ hv)
    (fun hs => absurd hs (hidle sh i).1) fun _ hs => absurd hs (hidle sh i).2

/-- The thread that holds a stripe works on one of its devices. -/
private theorem AttendInv.dev {x : Fin N} {k : ℕ} {f : R5dev τ → R5dev τ} {p : Pc N}
    (h : AttendInv s) (hpc : s'.pc = Function.update s.pc t p) (hheld : (s.pc t).held = some x)
    (hrow : s'.cache.row = (s.cache.modifyDev x k f).row)
    (hqueue : ∀ rw, (f ((s.cache.row x).dev k)).queue rw = s.queue x k rw)
    (hmark : ∀ sh, s.cache.pool.marked sh = true → s'.cache.pool.marked sh = true)
    (hself : ∀ i rw, s.queue x i rw ≠ [] → Attended s x i rw → Attended s' x i rw) :
    AttendInv s' := by
  intro sh i rw hne
  rw [QueueInv.queue_modifyDev hrow hqueue] at hne
  by_cases hx : sh = x
  · subst hx
    exact hself i rw hne (h sh i rw hne)
  · -- the thread has nothing to do for the other stripes
    refine (h sh i rw hne).move hpc (hmark sh) (fun hw => ?_) (fun hs => ?_) fun _ hs => ?_
    · rw [want_modifyDev s s' x hrow, if_neg fun e => hx e.1]
      exact hw
    · exact absurd (Option.some.inj (hs.held.symm.trans hheld)) hx
    · exact absurd (Option.some.inj (hs.held.symm.trans hheld)) hx

/-- Queueing a bio: the thread will scan its device. -/
private theorem AttendInv.add (hv : env.Supported) (h : AttendInv s) {b : Bio}
    (ht : env.thread t = .makeRequest b) (hpc : s.pc t = .add sh) :
    AttendInv ({ s with cache :=
      (s.cache.addStripeBio env.bio sh t (env.place t).ddIdx.toNat b.biRw).2 }.goto t
        (.scan sh env.conf.numDisks)) := by
  intro x i rw hne
  let s₁ : State N τ := { s with cache :=
    (s.cache.addStripeBio env.bio sh t (env.place t).ddIdx.toNat b.biRw).2 }.goto t
      (.scan sh env.conf.numDisks)
  obtain ⟨u, hu⟩ := List.exists_mem_of_ne_nil _ hne
  obtain hold | ⟨rfl, rfl, rfl, -⟩ := (mem_queue_added s s₁ ht rfl x i rw u).mp hu
  · refine (h x i rw (List.ne_nil_of_mem hold)).move rfl (fun hm => ?_) (fun hw => ?_)
      (fun hs => ?_) fun _ hs => ?_
    · change ((s.cache.addStripeBio env.bio sh t (env.place t).ddIdx.toNat b.biRw).2).pool.marked x
        = true
      rwa [Cache.pool_addStripeBio]
    · have hrow : s₁.cache.row = (s.cache.modifyDev sh (env.place t).ddIdx.toNat
          fun d => (d.addBio env.bio t b.biRw).2).row := rfl
      change s₁.want x i rw = true
      rw [want_modifyDev s s₁ sh hrow]
      split_ifs with hx
      · rw [(R5dev.addBio_frame env.bio t _ b.biRw rw).1]
        exact hx.1 ▸ hx.2 ▸ hw
      · exact hw
    · rw [hpc] at hs
      cases hs
    · rw [hpc] at hs
      cases hs
  · refine Or.inr (Or.inl ⟨u, ?_⟩)
    rw [pc_goto_self]
    exact ⟨rfl, hv.dev_lt u⟩

/-- The first loop of `handle_stripe` asks for the request of a device with a queued bio. -/
private theorem AttendInv.scan (h : AttendInv s) {k : ℕ} (hpc : s.pc t = .scan sh (k + 1)) :
    AttendInv ({ s with cache := s.cache.scanDev sh k }.goto t (.scan sh k)) := by
  let s₁ : State N τ := { s with cache := s.cache.scanDev sh k }.goto t (.scan sh k)
  have hrow : s₁.cache.row = (s.cache.modifyDev sh k R5dev.scan).row := rfl
  have hmark : ∀ x, s.cache.pool.marked x = true → s₁.cache.pool.marked x = true := fun x hm =>
    (Cache.pool_modifyDev s.cache sh k R5dev.scan).symm ▸ hm
  refine h.dev (f := R5dev.scan) (k := k) rfl (by rw [hpc]; rfl) hrow
    (fun rw => R5dev.queue_scan _ rw) hmark fun i rw hne hatt => ?_
  refine hatt.move rfl (hmark sh) (fun hw => ?_) (fun hs => ?_) fun _ _ => rfl
  · rw [want_modifyDev s s₁ sh hrow]
    split_ifs with hi
    · exact (R5dev.want_scan _ _).mpr (Or.inl (hi.2 ▸ hw))
    · exact hw
  · rw [hpc] at hs
    rcases Nat.lt_or_ge i k with hlt | hge
    · exact Or.inl ⟨rfl, hlt⟩
    · obtain rfl : i = k := by have := hs.2; omega
      refine Or.inr ⟨?_, rfl⟩
      rw [want_modifyDev s s₁ sh hrow, if_pos ⟨rfl, rfl⟩]
      exact (R5dev.want_scan _ _).mpr (Or.inr hne)

/-- Between the loops the thread has all devices left to submit. -/
private theorem AttendInv.parity (hv : env.Supported) (h : AttendInv s) (hq : QueueInv env s)
    (hpc : s.pc t = .scan sh 0) :
    AttendInv ({ s with cache := s.cache.markParity sh }.goto t
      (.submit sh env.conf.numDisks)) := by
  let k := (s.cache.stripe sh).pdIdx.toNatClampNeg
  let s₁ : State N τ := { s with cache := s.cache.markParity sh }.goto t
    (.submit sh env.conf.numDisks)
  have hrow : s₁.cache.row = (s.cache.modifyDev sh k R5dev.markParity).row := rfl
  have hmark : ∀ x, s.cache.pool.marked x = true → s₁.cache.pool.marked x = true := fun x hm =>
    (Cache.pool_modifyDev s.cache sh k R5dev.markParity).symm ▸ hm
  refine h.dev (f := R5dev.markParity) (k := k) rfl (by rw [hpc]; rfl) hrow
    (fun rw => R5dev.queue_markParity _ rw) hmark fun i rw hne hatt => ?_
  refine hatt.move rfl (hmark sh) (fun hw => ?_) (fun hs => ?_) fun _ _ => ⟨rfl, ?_⟩
  · rw [want_modifyDev s s₁ sh hrow, R5dev.want_markParity]
    split_ifs with hi
    · exact hi.2 ▸ hw
    · exact hw
  · rw [hpc] at hs
    exact absurd hs.2 (Nat.not_lt_zero _)
  · obtain ⟨u, hu⟩ := List.exists_mem_of_ne_nil _ hne
    exact (hq.queued _ _ _ u hu).dev ▸ hv.dev_lt u

/-- Nothing is asked of the device. -/
private theorem AttendInv.skip (h : AttendInv s) {k : ℕ} (hpc : s.pc t = .submit sh (k + 1))
    (hdir : ((s.cache.row sh).dev k).submitDir = none) : AttendInv (s.goto t (.submit sh k)) := by
  intro x i rw hne
  refine (h x i rw hne).move rfl id id (fun hs => ?_) fun hw hs => ?_
  · rw [hpc] at hs
    cases hs
  · rw [hpc] at hs
    obtain ⟨rfl, hi⟩ := hs
    refine ⟨rfl, lt_of_le_of_ne (Nat.lt_succ_iff.mp hi) fun e => ?_⟩
    have hnone := (R5dev.submitDir_eq_none _).mp hdir rw
    rw [e] at hw
    exact absurd (hnone.symm.trans hw) (by decide)

/-- A request is postponed and its stripe is marked. -/
private theorem AttendInv.postpone (h : AttendInv s) {k : ℕ} {rw : Dir} {c : Cache N τ}
    (hpc : s.pc t = .submit sh (k + 1)) (hpost : Cache.Postponed env.conf s.cache sh k rw c) :
    AttendInv ({ s with cache := c }.goto t (.submit sh k)) := by
  have hmarked : c.pool.marked = Function.update s.cache.pool.marked sh true :=
    congrArg RefPool.marked hpost.pool
  refine h.dev rfl (by rw [hpc]; rfl) hpost.row (fun rw' => ?_) (fun x hm => ?_)
    fun i rw' _ _ => Or.inl ?_
  · exact (R5dev.queue_unlock _ _).trans (R5dev.queue_setWant _ _ _ _)
  · change c.pool.marked x = true
    rw [hmarked, Function.update_apply]
    split_ifs
    · rfl
    · exact hm
  · change c.pool.marked sh = true
    rw [hmarked, Function.update_self]

/-- A miss takes a stripe on which nothing is queued. -/
private theorem AttendInv.miss (hv : env.Supported) (h : AttendInv s) (hq : QueueInv env s)
    {sector : UInt64} {pdIdx : Int32} {c : Cache N τ} (hpc : s.pc t = .get ∨ s.pc t = .wait)
    (hm : Cache.Miss env.conf s.cache sector pdIdx sh c) :
    AttendInv ({ s with cache := c }.goto t (.add sh)) := by
  intro x i rw hne
  change ((c.row x).dev i).queue rw ≠ [] at hne
  rw [hm.queue] at hne
  have hx : x ≠ sh := fun e => hne (e ▸ hq.queue_eq_nil_of_miss hv hm i rw)
  have hidle : ∀ x i, ¬(s.pc t).Scans x i ∧ ¬(s.pc t).Submits x i := fun x i => by
    rcases hpc with hpc | hpc <;> rw [hpc] <;> exact ⟨id, id⟩
  refine (h x i rw hne).move rfl (fun hmark => ?_) (fun hw => ?_)
    (fun hs => absurd hs (hidle x i).1) fun _ hs => absurd hs (hidle x i).2
  · change c.pool.marked x = true
    rw [hm.pool]
    exact (Function.update_of_ne hx _ _).trans hmark
  · change ((c.row x).dev i).want rw = true
    rw [hm.row, Function.update_of_ne hx]
    exact hw

variable [Fintype τ]

/-- **A step of a thread leaves every queued bio attended to**, if all bios go to absent
members. -/
private theorem AttendInv.runs (hv : env.Supported) (habsent : env.TargetsAbsent)
    (hinv : Inv env s) (h : AttendInv s) (hrun : Runs env s t s') : AttendInv s' := by
  -- outside of `handle_stripe` there is no loop in which a bio could be passed by
  have idle : ∀ {p : Pc N}, s.pc t = p → (∀ sh i, ¬p.Scans sh i ∧ ¬p.Submits sh i) →
      ∀ sh i, ¬(s.pc t).Scans sh i ∧ ¬(s.pc t).Submits sh i := fun hp h sh i => hp ▸ h sh i
  cases hrun with
  | idle => exact h
  | start ht hpc =>
    exact h.row (p := .get) rfl rfl rfl (idle hpc fun _ _ => ⟨id, id⟩)
  | startDaemon ht hpc =>
    exact h.row (p := .pop) rfl rfl rfl (idle hpc fun _ _ => ⟨id, id⟩)
  | @hit b sh c ht hpc hhit =>
    refine h.row (p := .add sh) rfl hhit.row ?_ ?_
    · exact (congrArg RefPool.marked hhit.pool).trans (RefPool.marked_claim _ _)
    · rcases hpc with hpc | hpc <;> exact idle hpc fun _ _ => ⟨id, id⟩
  | miss ht hpc hmiss => exact h.miss hv hinv.queues hpc hmiss
  | exhausted ht hpc hfree =>
    refine h.row (p := .wait) rfl rfl rfl ?_
    rcases hpc with hpc | hpc <;> exact idle hpc fun _ _ => ⟨id, id⟩
  | add ht hpc => exact h.add hv ht hpc
  | scan hpc => exact h.scan hpc
  | parity hpc => exact h.parity hv hinv.queues hpc
  | skip hpc hdir => exact h.skip hpc hdir
  | @request sh i req c hpc hsub =>
    -- a request goes to a present member for a queued bio, of which there is none
    obtain ⟨jrdev, hdisk, -⟩ := hsub.member
    have hne := hinv.queues.want sh i req.rw (R5dev.want_of_submitDir hsub.dir)
    rw [hinv.queues.absent_of_queue_ne_nil habsent hne] at hdisk
    cases hdisk
  | postpone hpc hpost => exact h.postpone hpc hpost
  | @release b sh ht hpc =>
    refine h.row (p := .finish) rfl (Cache.row_releaseStripe _ _) ?_ (idle hpc fun x i => ?_)
    · exact (congrArg RefPool.marked (Cache.pool_releaseStripe _ _)).trans (RefPool.marked_put _ _)
    · exact ⟨id, fun hs => Nat.not_lt_zero _ hs.2⟩
  | @releaseDaemon sh ht hpc =>
    refine h.row (p := .pop) rfl (Cache.row_releaseStripe _ _) ?_ (idle hpc fun x i => ?_)
    · exact (congrArg RefPool.marked (Cache.pool_releaseStripe _ _)).trans (RefPool.marked_put _ _)
    · exact ⟨id, fun hs => Nat.not_lt_zero _ hs.2⟩
  | finish ht hpc =>
    obtain ⟨hcache, hpc', -, -⟩ := finish_frame s t
    exact h.row hpc' (by rw [hcache]) (by rw [hcache]) (idle hpc fun _ _ => ⟨id, id⟩)
  | @take sh c ht hpc htaken =>
    refine h.row (p := .scan sh env.conf.numDisks) rfl htaken.row ?_ (idle hpc fun _ _ => ⟨id, id⟩)
    exact (congrArg RefPool.marked htaken.pool).trans rfl
  | drained ht hpc hwork =>
    exact h.row (p := .done) rfl rfl rfl (idle hpc fun _ _ => ⟨id, id⟩)

/-- If all bios go to absent members, every queued bio is attended to. -/
theorem AttendInv.reachable (hv : env.Supported) (habsent : env.TargetsAbsent)
    (hs : env.machine.Reachable s) : AttendInv s := by
  refine hs.invariant (I := AttendInv) (fun sh i rw hne => ?_) fun s e s' hs h hstep => ?_
  · exact absurd ((QueueInv.init_dev env sh i).1 rw) hne
  · have hinv := Inv.reachable hv hs
    obtain ⟨t, -, hrun⟩ | rfl | ⟨k, req, -, hdone⟩ := step_cases hstep
    · exact h.runs hv habsent hinv hrun
    · exact h
    · -- nothing is in flight
      have hget := hdone.get
      rw [hinv.queues.inflight_eq_nil habsent] at hget
      cases hget

/-- If all bios go to absent members, the free stripes are clean. -/
theorem clean_of_targetsAbsent (hv : env.Supported) (habsent : env.TargetsAbsent)
    (hs : env.machine.Reachable s) (hfree : sh ∈ s.cache.inactiveList) : s.cache.Clean sh := by
  have hinv := Inv.reachable hv hs
  obtain ⟨hrefs, hmarked⟩ := (hinv.counts.pool.mem_free sh).mp hfree
  have hnil : ∀ i rw, s.queue sh i rw = [] := by
    intro i rw
    by_contra hne
    obtain hm | ⟨t, ht⟩ | ⟨-, t, ht⟩ := AttendInv.reachable hv habsent hs sh i rw hne
    · exact absurd (hmarked.symm.trans hm) (by decide)
    · exact refs_ne_zero_of_held ht.held hrefs
    · exact refs_ne_zero_of_held ht.held hrefs
  intro i
  obtain ⟨hwritten, hlocked⟩ := hinv.queues.block sh i
  simp only [R5dev.Pending, not_or, not_not]
  exact ⟨hnil i .read, hnil i .write, hwritten, by rw [hlocked]; decide⟩

/-! ### Calls one after another -/

/-- The calls of a list have run one after another, and their bios are queued. -/
structure Rested (env : Env N τ) (ts : List τ) (s : State N τ) : Prop where
  reachable : env.machine.Reachable s
  inflight : s.inflight = []
  pc : ∀ u, s.pc u = if u ∈ ts then .done else .start
  queued : ∀ t ∈ ts, ∃ sh, t ∈ s.queue sh (env.dev t) (env.bio t).biRw

/-- A run can stop with the `BUG()` about a pending device. -/
def CanStop (env : Env N τ) : Prop :=
  ∃ s e, env.machine.Reachable s ∧ env.machine.step s e = .error .initPending

omit [Fintype τ] in
private theorem Rested.init (env : Env N τ) : Rested env [] env.init :=
  ⟨FallibleSystem.reachable_init, rfl, fun _ => rfl, fun _ ht => absurd ht List.not_mem_nil⟩

/-- Between two calls every stripe is free, if the bios have gone to present members. -/
private theorem Rested.mem_free (hv : env.Supported) {ts : List τ} (h : Rested env ts s)
    (hpresent : ∀ t ∈ ts, (env.conf.disks (env.dev t)).jrdev ≠ none) (sh : Fin N) :
    sh ∈ s.cache.pool.free := by
  have hinv := Inv.reachable hv h.reachable
  refine (hinv.counts.pool.mem_free sh).mpr ⟨?_, Bool.eq_false_of_not_eq_true fun hm => ?_⟩
  · have hheld : ∀ t, (s.pc t).held = none := fun t => by
      rw [h.pc]
      split_ifs <;> rfl
    simp [refs, hheld, h.inflight]
  · obtain ⟨i, rw, hdisk, hne⟩ := hinv.queues.marked sh hm
    obtain ⟨u, hu⟩ := List.exists_mem_of_ne_nil _ hne
    have hq := hinv.queues.queued _ _ _ u hu
    have hadded := hq.added
    rw [h.pc] at hadded
    split_ifs at hadded with hut
    · exact hpresent u hut (hq.dev ▸ hdisk)
    · cases hadded

/-- A call for another row gets a stripe, or stops at a stripe that is not clean. -/
private theorem Rested.opened (hv : env.Supported) (hN : 0 < N) {ts : List τ}
    (h : Rested env ts s) (hpresent : ∀ t ∈ ts, (env.conf.disks (env.dev t)).jrdev ≠ none)
    {b : Bio} (ht : env.thread t = .makeRequest b) (hnew : t ∉ ts) :
    CanStop env ∨ ∃ sh s', Opened env t sh s s' := by
  have hinv := Inv.reachable hv h.reachable
  have hpc : s.pc t = .start := by rw [h.pc, if_neg hnew]
  obtain ⟨f, hfind, hf⟩ := hinv.table.findStripe (env.place t).newSector
  cases f with
  | some x =>
    obtain ⟨hhashed, hsector⟩ := (hf x).mp rfl
    exact Or.inr ⟨x, exists_opened_of_hashed hinv ht hpc hhashed hsector⟩
  | none =>
    obtain ⟨sh, rest, hfree⟩ :=
      List.exists_cons_of_ne_nil (List.ne_nil_of_mem (h.mem_free hv hpresent ⟨0, hN⟩))
    by_cases hp : ∃ i < env.conf.numDisks, ((s.cache.row sh).dev i).Pending
    · obtain ⟨s', hleads, hstop⟩ := exists_stop_of_pending hinv ht hpc hfind hfree hp
      exact Or.inl ⟨s', _, h.reachable.trans hleads, hstop⟩
    · obtain ⟨s', hopen, -⟩ := exists_opened_of_free hinv ht hpc hfind hfree
        fun i hi hpi => hp ⟨i, hi, hpi⟩
      exact Or.inr ⟨sh, s', hopen⟩

/-- A call for a row of its own runs after the others. -/
private theorem Rested.next (hv : env.Supported) (hN : 0 < N) {ts : List τ}
    (h : Rested env ts s) (hpresent : ∀ t ∈ ts, (env.conf.disks (env.dev t)).jrdev ≠ none)
    {b : Bio} (ht : env.thread t = .makeRequest b) (hnew : t ∉ ts)
    (hsector : ∀ u ∈ ts, (env.place u).newSector ≠ (env.place t).newSector) :
    CanStop env ∨ ∃ s', Rested env (t :: ts) s' := by
  obtain hstop | ⟨sh, s₁, hopen⟩ := h.opened hv hN hpresent ht hnew
  · exact Or.inl hstop
  have hs₁ := h.reachable.trans hopen.leads
  have hinv₁ := Inv.reachable hv hs₁
  -- the call returns, and the requests it has made complete
  obtain ⟨s₂, hserved, -⟩ := exists_served ht hopen.pc hopen.physSegments
  obtain ⟨s₃, hleads, hin, hpc, hqueue, -⟩ := exists_drained env s₂
  have hpc₃ : ∀ u, u ≠ t → s₃.pc u = s.pc u := fun u hu => by
    rw [hpc, hserved.others u hu, hopen.others u hu]
  have hacc : Accepts env s₁ t sh := by
    refine accepts_of_queue_eq_nil (List.eq_nil_iff_forall_not_mem.mpr fun u hu => ?_)
    -- a bio that is queued here already would belong to a call for the same row
    have hq := hinv₁.queues.queued _ _ _ u hu
    have hfit := hinv₁.queues.held t sh (by rw [hopen.pc]; rfl)
    rw [Fits, ht] at hfit
    have hut : u ≠ t := fun e => by
      have hadded := hq.added
      rw [e, hopen.pc] at hadded
      cases hadded
    have hadded := hq.added
    rw [hopen.others u hut, h.pc] at hadded
    split_ifs at hadded with hmem
    · exact hsector u hmem (hq.sector.symm.trans hfit.1)
    · cases hadded
  refine Or.inr ⟨s₃, (hs₁.trans hserved.leads).trans hleads, hin, fun u => ?_, fun u hu => ?_⟩
  · by_cases hut : u = t
    · rw [hut, if_pos List.mem_cons_self, hpc, hserved.pc]
    · rw [hpc₃ u hut, h.pc]
      simp only [List.mem_cons, hut, false_or]
  · rw [hqueue]
    obtain rfl | hu := List.mem_cons.mp hu
    · exact ⟨sh, (hserved.queue _ _ _ _).mpr (Or.inr ⟨rfl, rfl, rfl, rfl, hacc⟩)⟩
    · obtain ⟨x, hx⟩ := h.queued u hu
      rw [← hopen.queue] at hx
      exact ⟨x, (hserved.queue _ _ _ _).mpr (Or.inl hx)⟩

/-- Between two calls the stripes that have been used are free and not clean. -/
private theorem Rested.not_clean (hv : env.Supported) {ts : List τ} (h : Rested env ts s)
    (hpresent : ∀ t ∈ ts, (env.conf.disks (env.dev t)).jrdev ≠ none) (ht : t ∈ ts) :
    ∃ sh ∈ s.cache.inactiveList, ¬s.cache.Clean sh := by
  obtain ⟨sh, hsh⟩ := h.queued t ht
  refine ⟨sh, h.mem_free hv hpresent sh, fun hclean => hclean (env.dev t) ?_⟩
  have hne : ((s.cache.row sh).dev (env.dev t)).queue (env.bio t).biRw ≠ [] :=
    List.ne_nil_of_mem hsh
  cases hdir : (env.bio t).biRw with
  | read =>
    rw [hdir] at hne
    exact Or.inl hne
  | write =>
    rw [hdir] at hne
    exact Or.inr (Or.inl hne)

/-- Where a step stops, a free stripe is not clean. -/
private theorem not_clean_of_stop (hs : env.machine.Reachable s) {e : Event τ} {b : Stop}
    (hstop : env.machine.step s e = .error b) : ∃ sh ∈ s.cache.inactiveList, ¬s.cache.Clean sh := by
  obtain ⟨-, sh, rest, hfree, i, -, hp⟩ := stop_eq_initPending hs hstop
  refine ⟨sh, ?_, fun hclean => hclean i hp⟩
  exact (show s.cache.inactiveList = sh :: rest from hfree) ▸ List.mem_cons_self

/-- After a call to a present member a free stripe is not clean. -/
private theorem exists_not_clean (hv : env.Supported) (hN : 0 < N) {b : Bio}
    (ht : env.thread t = .makeRequest b) (hdisk : (env.conf.disks (env.dev t)).jrdev ≠ none) :
    ∃ s, env.machine.Reachable s ∧ ∃ sh ∈ s.cache.inactiveList, ¬s.cache.Clean sh := by
  have hnil : ∀ {u : τ}, u ∉ ([] : List τ) := List.not_mem_nil
  obtain ⟨s, e, hs, hstop⟩ | ⟨s, hrest⟩ := (Rested.init env).next hv hN
    (fun u hu => absurd hu hnil) ht hnil fun u hu => absurd hu hnil
  · exact ⟨s, hs, not_clean_of_stop hs hstop⟩
  · exact ⟨s, hrest.reachable, hrest.not_clean hv
      (fun u hu => (List.mem_singleton.mp hu).symm ▸ hdisk) (List.mem_singleton_self t)⟩

/-- Calls for rows of their own, to present members, run one after another or stop. -/
private theorem Rested.exists_list (hv : env.Supported) (hN : 0 < N) {ts : List τ}
    (hnodup : ts.Nodup) (hcall : ∀ t ∈ ts, ∃ b, env.thread t = .makeRequest b)
    (hpresent : ∀ t ∈ ts, (env.conf.disks (env.dev t)).jrdev ≠ none)
    (hsector : ∀ t ∈ ts, ∀ u ∈ ts, (env.place t).newSector = (env.place u).newSector → t = u) :
    CanStop env ∨ ∃ s, Rested env ts s := by
  induction ts with
  | nil => exact Or.inr ⟨_, Rested.init env⟩
  | cons t ts ih =>
    obtain ⟨hnew, hnodup⟩ := List.nodup_cons.mp hnodup
    have htail : ∀ {u}, u ∈ ts → u ∈ t :: ts := fun hu => List.mem_cons_of_mem _ hu
    obtain hstop | ⟨s, hrest⟩ := ih hnodup (fun u hu => hcall u (htail hu))
      (fun u hu => hpresent u (htail hu)) fun u hu v hv => hsector u (htail hu) v (htail hv)
    · exact Or.inl hstop
    · obtain ⟨b, ht⟩ := hcall t List.mem_cons_self
      refine hrest.next hv hN (fun u hu => hpresent u (htail hu)) ht hnew fun u hu e => hnew ?_
      rw [← hsector u (htail hu) t List.mem_cons_self e]
      exact hu

/-- **A run that touches more rows than the pool has stripes can stop**, if the calls go to
present members. -/
theorem canStop_of_card_lt (hv : env.Supported) (hN : 0 < N) {ts : List τ} (hnodup : ts.Nodup)
    (hcall : ∀ t ∈ ts, ∃ b, env.thread t = .makeRequest b)
    (hpresent : ∀ t ∈ ts, (env.conf.disks (env.dev t)).jrdev ≠ none)
    (hsector : ∀ t ∈ ts, ∀ u ∈ ts, (env.place t).newSector = (env.place u).newSector → t = u)
    (hlt : N < ts.length) : CanStop env := by
  obtain hstop | ⟨s, hrest⟩ := Rested.exists_list hv hN hnodup hcall hpresent hsector
  · exact hstop
  exfalso
  have hinv := Inv.reachable hv hrest.reachable
  -- two of the calls would have their bios on one stripe
  have : Nonempty (Fin N) := ⟨⟨0, hN⟩⟩
  choose! f hf using hrest.queued
  have hcard : (Finset.univ : Finset (Fin N)).card < ts.toFinset.card := by
    rwa [Finset.card_univ, Fintype.card_fin, List.toFinset_card_of_nodup hnodup]
  obtain ⟨t, ht, u, hu, hne, he⟩ :=
    Finset.exists_ne_map_eq_of_card_lt_of_maps_to hcard fun t _ => Finset.mem_univ (f t)
  rw [List.mem_toFinset] at ht hu
  have hqt := (hinv.queues.queued _ _ _ t (hf t ht)).sector
  have hqu := (hinv.queues.queued _ _ _ u (hf u hu)).sector
  rw [he] at hqt
  exact hne (hsector t ht u hu (hqt.symm.trans hqu))

/-- **The free stripes are clean and no run stops, in every run, exactly when all calls go to
absent members.** -/
theorem free_clean_iff (env : Env N τ) (hv : env.Supported) (hN : 0 < N) :
    (∀ s, env.machine.Reachable s → (∀ sh ∈ s.cache.inactiveList, s.cache.Clean sh) ∧
      ∀ e b, env.machine.step s e ≠ .error b) ↔ env.TargetsAbsent := by
  constructor
  · intro h t b ht
    by_contra hdisk
    obtain ⟨s, hs, sh, hsh, hclean⟩ := exists_not_clean hv hN ht hdisk
    exact hclean ((h s hs).1 sh hsh)
  · intro habsent s hs
    have hclean : ∀ sh ∈ s.cache.inactiveList, s.cache.Clean sh := fun sh hsh =>
      clean_of_targetsAbsent hv habsent hs hsh
    refine ⟨hclean, fun e b hstop => ?_⟩
    obtain ⟨sh, hsh, hdirty⟩ := not_clean_of_stop hs hstop
    exact hdirty (hclean sh hsh)

/-- One write to each of 1025 rows, with a pool of 1024 stripes: the run stops. Already after
the first write a free stripe is not clean. -/
theorem reuse_stops :
    let env : Env nrStripes (Fin (nrStripes + 1)) :=
      { conf := ⟨4096, 5, algorithmLeftSymmetric, 3, 4096, allPresent⟩
        thread := fun t => .makeRequest ⟨UInt64.ofNat (16 * t), 4096, .write⟩
        page := fun _ _ _ => 0
        memory := fun _ _ => 0
        disk := fun _ _ _ => 0
        transfer := MemberReq.copy }
    (∃ s, env.machine.Reachable s ∧ ∃ sh ∈ s.cache.inactiveList, ¬s.cache.Clean sh) ∧
      CanStop env := by
  intro env
  have hv : env.Supported :=
    ⟨Or.inr rfl, Or.inr (Or.inr (Or.inl rfl)), by decide, by decide⟩
  have hpresent : ∀ t, (env.conf.disks (env.dev t)).jrdev ≠ none := fun t => Option.some_ne_none _
  have hsector : ∀ t, (env.place t).newSector.toNat = 8 * t := fun t => by
    obtain ⟨-, hnew, -⟩ :=
      JRaid5Conf.toNat_mapSector hv.layout hv.disks hv.chunk (env.bio t).biSector 0
    have hlt : t.val < 1025 := t.isLt
    have hbio : (env.bio t).biSector.toNat = 16 * t := Nat.mod_eq_of_lt (by omega)
    have hc : env.conf.sectorsPerChunk = 8 := by decide
    have hn : env.conf.numDisks - 1 = 2 := by decide
    refine hnew.trans ?_
    change (env.bio t).biSector.toNat / env.conf.sectorsPerChunk / (env.conf.numDisks - 1) *
      env.conf.sectorsPerChunk + (env.bio t).biSector.toNat % env.conf.sectorsPerChunk = _
    rw [hbio, hc, hn]
    omega
  have hstop : CanStop env := by
    refine canStop_of_card_lt hv (by decide) (List.nodup_finRange _) (fun t _ => ⟨_, rfl⟩)
      (fun t _ => hpresent t) (fun t _ u _ e => Fin.ext ?_) (by rw [List.length_finRange]; omega)
    have := congrArg UInt64.toNat e
    rw [hsector, hsector] at this
    omega
  exact ⟨exists_not_clean (t := 0) hv (by decide) rfl (hpresent 0), hstop⟩

/-- A write to the only absent member of three. -/
theorem free_clean_iff_absent :
    let env := smallArray nrStripes (fun i => ⟨if i = 0 then none else some ⟨i⟩⟩)
      [⟨0, 4096, .write⟩]
    ∀ s, env.machine.Reachable s → (∀ sh ∈ s.cache.inactiveList, s.cache.Clean sh) ∧
      ∀ e b, env.machine.step s e ≠ .error b := by
  intro env
  have habsent : ∀ t, (env.conf.disks (env.dev t)).jrdev = none := by decide
  exact (free_clean_iff env (Env.supported_smallArray _ _ _) (by decide)).mpr
    fun t _ _ => habsent t

end State

end JRaid
