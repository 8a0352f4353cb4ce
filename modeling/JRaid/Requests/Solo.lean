import JRaid.Requests.Queues

/-!
# Calls that run alone

What a call of `jraid5_make_request` does when no other thread and no completion comes
between its steps: it gets its stripe (`Opened`), its `handle_stripe` asks for a request
wherever a bio is queued and submits those whose members are present, and it returns
(`Served`). Then the requests in flight can complete (`exists_drained`). These are the runs
that show where the driver fails its contract, from any reachable state that they can start
in.
-/

namespace JRaid

variable {N : ℕ} {τ : Type} [DecidableEq τ]

namespace State

variable {env : Env N τ} {s s' s'' : State N τ} {t : τ} {sh : Fin N}

/-! ### One pass of `handle_stripe` -/

/-- A thread has run alone inside `handle_stripe` and has submitted the requests `l`. -/
structure Alone (env : Env N τ) (t : τ) (l : List (MemberReq N τ)) (s s' : State N τ) : Prop where
  leads : env.machine.Leads s s'
  others : ∀ u, u ≠ t → s'.pc u = s.pc u
  queue : s'.queue = s.queue
  inflight : s'.inflight = s.inflight ++ l
  ended : s'.ended = s.ended
  physSegments : s'.physSegments = s.physSegments

theorem Alone.trans {l l' : List (MemberReq N τ)} (h : Alone env t l s s')
    (h' : Alone env t l' s' s'') : Alone env t (l ++ l') s s'' where
  leads := h.leads.trans h'.leads
  others u hu := (h'.others u hu).trans (h.others u hu)
  queue := h'.queue.trans h.queue
  inflight := by rw [h'.inflight, h.inflight, List.append_assoc]
  ended := h'.ended.trans h.ended
  physSegments := h'.physSegments.trans h.physSegments

/-- One step inside `handle_stripe`, which works on one device. -/
private theorem alone_step {c : Cache N τ} {l : List (MemberReq N τ)} {p : Pc N}
    (hstep : env.machine.step s (.run t) =
      .ok ({ s with cache := c, inflight := s.inflight ++ l }.goto t p))
    (hqueue : ({ s with cache := c, inflight := s.inflight ++ l }.goto t p).queue = s.queue) :
    Alone env t l s ({ s with cache := c, inflight := s.inflight ++ l }.goto t p) where
  leads := FallibleSystem.Leads.step hstep
  others _ hu := pc_goto_of_ne _ _ hu
  queue := hqueue
  inflight := rfl
  ended := rfl
  physSegments := rfl

/-- **The first loop of `handle_stripe`** asks for a request wherever a bio is queued. -/
theorem exists_scanned (env : Env N τ) {j : ℕ} (hpc : s.pc t = .scan sh j) :
    ∃ s', Alone env t [] s s' ∧ s'.pc t = .submit sh env.conf.numDisks ∧
      (∀ i rw, s.want sh i rw = true → s'.want sh i rw = true) ∧
      ∀ i < j, ∀ rw, s.queue sh i rw ≠ [] → s'.want sh i rw = true := by
  induction j generalizing s with
  | zero =>
    let s₁ : State N τ := { s with
      cache := s.cache.markParity sh
      inflight := s.inflight ++ [] }.goto t (.submit sh env.conf.numDisks)
    have hstep : env.machine.step s (.run t) = .ok s₁ := by
      change s.runThread env t = _
      rw [runThread, hpc]
      simp only [s₁, List.append_nil]
    refine ⟨s₁, alone_step hstep ?_, pc_goto_self .., fun i rw hw => ?_, fun i hi => ?_⟩
    · exact QueueInv.queue_modifyDev (f := R5dev.markParity) rfl fun rw =>
        R5dev.queue_markParity _ _
    · rw [want_modifyDev s s₁ sh rfl, R5dev.want_markParity]
      split_ifs with hi
      · exact hi.2 ▸ hw
      · exact hw
    · omega
  | succ j ih =>
    let s₁ : State N τ := { s with
      cache := s.cache.scanDev sh j
      inflight := s.inflight ++ [] }.goto t (.scan sh j)
    have hstep : env.machine.step s (.run t) = .ok s₁ := by
      change s.runThread env t = _
      rw [runThread, hpc]
      simp only [s₁, List.append_nil]
    have hone := alone_step hstep (QueueInv.queue_modifyDev (f := R5dev.scan) rfl fun rw =>
      R5dev.queue_scan _ _)
    have hwant := want_modifyDev s s₁ sh (f := R5dev.scan) rfl sh
    obtain ⟨s', hrest, hpc', hkeep, hscan⟩ := ih (s := s₁) (pc_goto_self ..)
    refine ⟨s', hone.trans hrest, hpc', fun i rw hw => hkeep i rw ?_, fun i hi rw hq => ?_⟩
    · rw [hwant]
      split_ifs with hij
      · exact (R5dev.want_scan _ _).mpr (Or.inl (hij.2 ▸ hw))
      · exact hw
    · rcases Nat.lt_or_ge i j with hlt | hge
      · exact hscan i hlt rw (by rwa [hone.queue])
      · obtain rfl : i = j := by omega
        refine hkeep i rw ?_
        rw [hwant, if_pos ⟨rfl, rfl⟩]
        exact (R5dev.want_scan _ _).mpr (Or.inr hq)

/-- The last loop of `handle_stripe`, for one device. -/
private theorem exists_submitted_one (env : Env N τ) {i : ℕ} (hpc : s.pc t = .submit sh (i + 1)) :
    ∃ l s', Alone env t l s s' ∧ s'.pc t = .submit sh i ∧
      (∀ j, j ≠ i → ∀ rw, s'.want sh j rw = s.want sh j rw) ∧
      (s.cache.pool.marked sh = true → s'.cache.pool.marked sh = true) ∧
      ((∃ rw, s.want sh i rw = true) →
        ((env.conf.disks i).jrdev ≠ none → ∃ req ∈ l, req.sh = sh ∧ req.dev = i) ∧
        ((env.conf.disks i).jrdev = none → s'.cache.pool.marked sh = true)) := by
  obtain ⟨hdir, heq⟩ | ⟨req, c, heq, hsub⟩ | ⟨rw, c, heq, hpost⟩ :=
    Cache.submitDev_cases env.conf s.cache sh i
  · let s₁ : State N τ := { s with
      cache := s.cache
      inflight := s.inflight ++ [] }.goto t (.submit sh i)
    have hstep : env.machine.step s (.run t) = .ok s₁ := by
      change s.runThread env t = _
      rw [runThread, hpc]
      simp only [heq, Option.toList_none, s₁]
    refine ⟨[], s₁, alone_step hstep rfl, pc_goto_self .., fun j _ rw => rfl, id, ?_⟩
    rintro ⟨rw, hw⟩
    have hnone := (R5dev.submitDir_eq_none _).mp hdir rw
    exact absurd (hnone.symm.trans hw) (by decide)
  · let s₁ : State N τ := { s with
      cache := c
      inflight := s.inflight ++ [req] }.goto t (.submit sh i)
    have hstep : env.machine.step s (.run t) = .ok s₁ := by
      change s.runThread env t = _
      rw [runThread, hpc]
      simp only [heq, Option.toList_some, s₁]
    obtain ⟨jrdev, hdisk, hreq⟩ := hsub.member
    have hmarked : s₁.cache.pool.marked = s.cache.pool.marked := by
      rw [show s₁.cache.pool = _ from hsub.pool]
      rfl
    refine ⟨[req], s₁, alone_step hstep ?_, pc_goto_self .., fun j hj rw => ?_,
      fun hm => hmarked ▸ hm, fun _ => ⟨fun _ => ⟨req, List.mem_singleton_self _, ?_⟩, fun h => ?_⟩⟩
    · exact QueueInv.queue_modifyDev hsub.row fun rw => R5dev.queue_setWant _ _ _ _
    · rw [want_modifyDev s s₁ sh hsub.row, if_neg fun h => hj h.2]
    · rw [hreq]
      exact ⟨rfl, rfl⟩
    · rw [h] at hdisk
      cases hdisk
  · let s₁ : State N τ := { s with
      cache := c
      inflight := s.inflight ++ [] }.goto t (.submit sh i)
    have hstep : env.machine.step s (.run t) = .ok s₁ := by
      change s.runThread env t = _
      rw [runThread, hpc]
      simp only [heq, Option.toList_none, s₁]
    have hmarked : s₁.cache.pool.marked sh = true := by
      rw [show s₁.cache.pool = _ from hpost.pool]
      exact Function.update_self ..
    refine ⟨[], s₁, alone_step hstep ?_, pc_goto_self .., fun j hj rw' => ?_, fun _ => hmarked,
      fun _ => ⟨fun hdisk => absurd hpost.absent hdisk, fun _ => hmarked⟩⟩
    · exact QueueInv.queue_modifyDev hpost.row fun rw' =>
        (R5dev.queue_unlock _ _).trans (R5dev.queue_setWant _ _ _ _)
    · rw [want_modifyDev s s₁ sh hpost.row, if_neg fun h => hj h.2]

/-- **The last loop of `handle_stripe`** submits a request for every device of a present member
for which one is asked, and marks the stripe if one is asked for an absent member. -/
theorem exists_submitted (env : Env N τ) {j : ℕ} (hpc : s.pc t = .submit sh j) :
    ∃ l s', Alone env t l s s' ∧ s'.pc t = .submit sh 0 ∧
      (s.cache.pool.marked sh = true → s'.cache.pool.marked sh = true) ∧
      ∀ i < j, (∃ rw, s.want sh i rw = true) →
        ((env.conf.disks i).jrdev ≠ none → ∃ req ∈ l, req.sh = sh ∧ req.dev = i) ∧
        ((env.conf.disks i).jrdev = none → s'.cache.pool.marked sh = true) := by
  induction j generalizing s with
  | zero =>
    refine ⟨[], s, ⟨Relation.ReflTransGen.refl, fun _ _ => rfl, rfl, ?_, rfl, rfl⟩, hpc, id, ?_⟩
    · rw [List.append_nil]
    · intro i hi
      omega
  | succ j ih =>
    obtain ⟨l, s₁, hone, hpc₁, hwant, hkeep, hreq⟩ := exists_submitted_one env hpc
    obtain ⟨l', s', hrest, hpc', hkeep', hreq'⟩ := ih hpc₁
    refine ⟨l ++ l', s', hone.trans hrest, hpc', fun hm => hkeep' (hkeep hm), fun i hi hw => ?_⟩
    -- the loop goes down, so device `j` is served first
    rcases Nat.lt_or_ge i j with hlt | hge
    · obtain ⟨rw, hw⟩ := hw
      obtain ⟨hpresent, habsent⟩ := hreq' i hlt ⟨rw, by rwa [hwant i hlt.ne]⟩
      refine ⟨fun hdisk => ?_, habsent⟩
      obtain ⟨req, hmem, h⟩ := hpresent hdisk
      exact ⟨req, List.mem_append_right _ hmem, h⟩
    · obtain rfl : i = j := by omega
      obtain ⟨hpresent, habsent⟩ := hreq hw
      refine ⟨fun hdisk => ?_, fun hdisk => hkeep' (habsent hdisk)⟩
      obtain ⟨req, hmem, h⟩ := hpresent hdisk
      exact ⟨req, List.mem_append_left _ hmem, h⟩

/-! ### A whole call -/

/-- A call has started and has got its stripe. -/
structure Opened (env : Env N τ) (t : τ) (sh : Fin N) (s s' : State N τ) : Prop where
  leads : env.machine.Leads s s'
  pc : s'.pc t = .add sh
  others : ∀ u, u ≠ t → s'.pc u = s.pc u
  queue : s'.queue = s.queue
  inflight : s'.inflight = s.inflight
  ended : s'.ended = s.ended
  physSegments : s'.physSegments t = 1

/-- The first step of a call. -/
private theorem step_start {b : Bio} (ht : env.thread t = .makeRequest b)
    (hpc : s.pc t = .start) : env.machine.step s (.run t) =
      .ok ({ s with physSegments := Function.update s.physSegments t 1 }.goto t .get) := by
  change s.runThread env t = _
  rw [runThread, hpc, ht]

private theorem exists_opened {b : Bio} {c : Cache N τ} (ht : env.thread t = .makeRequest b)
    (hpc : s.pc t = .start)
    (hget : Cache.getActiveStripe env.conf s.cache (env.place t).newSector
      (env.place t).pdIdx.toInt32 false = .ok (.stripe sh, c))
    (hqueue : ∀ x i rw, ((c.row x).dev i).queue rw = s.queue x i rw) :
    ∃ s', Opened env t sh s s' ∧ s'.cache = c := by
  let s₁ : State N τ := { s with physSegments := Function.update s.physSegments t 1 }.goto t .get
  have hpc₁ : s₁.pc t = .get := pc_goto_self ..
  have hstart : env.machine.step s (.run t) = .ok s₁ := step_start ht hpc
  have hstep : env.machine.step s₁ (.run t) = .ok ({ s₁ with cache := c }.goto t (.add sh)) := by
    change s₁.runThread env t = _
    rw [runThread, hpc₁, ht]
    change s₁.getStripe env t = _
    rw [getStripe, show s₁.cache = s.cache from rfl, hget]
    rfl
  refine ⟨{ s₁ with cache := c }.goto t (.add sh), ⟨?_, pc_goto_self .., fun u hu => ?_, ?_,
    rfl, rfl, Function.update_self ..⟩, rfl⟩
  · exact (FallibleSystem.Leads.step hstart).trans (FallibleSystem.Leads.step hstep)
  · exact (pc_goto_of_ne _ _ hu).trans (pc_goto_of_ne _ _ hu)
  · funext x i rw
    exact hqueue x i rw

/-- A call whose sector is hashed gets the stripe of the sector. -/
theorem exists_opened_of_hashed [Fintype τ] {b : Bio} (h : Inv env s)
    (ht : env.thread t = .makeRequest b) (hpc : s.pc t = .start) (hsh : s.cache.Hashed sh)
    (hsector : (s.cache.row sh).sector = (env.place t).newSector) :
    ∃ s', Opened env t sh s s' := by
  obtain ⟨f, hfind, hf⟩ := h.table.findStripe (env.place t).newSector
  rw [(hf sh).mpr ⟨hsh, hsector⟩] at hfind
  -- a stripe without references waits on a list, from which it is taken
  obtain ⟨c, hget⟩ := Cache.exists_getActiveStripe_hit (env.place t).pdIdx.toInt32 false hfind
    fun hc => by
      rw [h.counts.pool.count_eq] at hc
      obtain ⟨hfree, hwork⟩ := h.counts.pool.mem_of_refs_eq_zero (x := sh) (by exact_mod_cast hc)
      cases hm : s.cache.pool.marked sh with
      | false => exact Or.inl (hfree.mpr hm)
      | true => exact Or.inr (hwork.mpr hm)
  obtain ⟨s', hopen, -⟩ := exists_opened ht hpc hget fun x i rw => by
    obtain ⟨x', e, hhit⟩ | ⟨x', -, hmiss⟩ | ⟨e, -⟩ := Cache.getActiveStripe_eq_ok hget
    · rw [hhit.row]
      rfl
    · exact hmiss.queue x i rw
    · cases e
  exact ⟨s', hopen⟩

/-- A call whose sector is not hashed takes the first free stripe, if it is clean. -/
theorem exists_opened_of_free [Fintype τ] {b : Bio} {rest : List (Fin N)} (h : Inv env s)
    (ht : env.thread t = .makeRequest b) (hpc : s.pc t = .start)
    (hfind : Cache.findStripe env.conf s.cache (env.place t).newSector = some none)
    (hfree : s.cache.pool.free = sh :: rest)
    (hclean : ∀ i < env.conf.numDisks, ¬((s.cache.row sh).dev i).Pending) :
    ∃ s', Opened env t sh s s' ∧ Cache.Miss env.conf s.cache (env.place t).newSector
      (env.place t).pdIdx.toInt32 sh s'.cache := by
  obtain ⟨hrefs, hmarked⟩ := (h.counts.pool.mem_free sh).mp (hfree ▸ List.mem_cons_self)
  have hcount : s.cache.pool.count sh = 0 := by
    rw [h.counts.pool.count_eq, hrefs]
    rfl
  obtain ⟨c, hget⟩ := Cache.exists_getActiveStripe_miss (env.place t).pdIdx.toInt32 false hfind
    hfree hcount hmarked hclean
  obtain ⟨x, -, hhit⟩ | ⟨x, e, hmiss⟩ | ⟨e, -⟩ := Cache.getActiveStripe_eq_ok hget
  · cases hfind.symm.trans hhit.find
  · obtain rfl : sh = x := by injection e
    obtain ⟨s', hopen, rfl⟩ := exists_opened ht hpc hget hmiss.queue
    exact ⟨s', hopen, hmiss⟩
  · cases e

/-- A call whose sector is not hashed stops at the first free stripe, if it is not clean. -/
theorem exists_stop_of_pending [Fintype τ] {b : Bio} {rest : List (Fin N)} (h : Inv env s)
    (ht : env.thread t = .makeRequest b) (hpc : s.pc t = .start)
    (hfind : Cache.findStripe env.conf s.cache (env.place t).newSector = some none)
    (hfree : s.cache.pool.free = sh :: rest)
    (hp : ∃ i < env.conf.numDisks, ((s.cache.row sh).dev i).Pending) :
    ∃ s', env.machine.Leads s s' ∧ env.machine.step s' (.run t) = .error .initPending := by
  obtain ⟨hrefs, hmarked⟩ := (h.counts.pool.mem_free sh).mp (hfree ▸ List.mem_cons_self)
  have hcount : s.cache.pool.count sh = 0 := by
    rw [h.counts.pool.count_eq, hrefs]
    rfl
  let s₁ : State N τ := { s with physSegments := Function.update s.physSegments t 1 }.goto t .get
  have hpc₁ : s₁.pc t = .get := pc_goto_self ..
  have hstart : env.machine.step s (.run t) = .ok s₁ := step_start ht hpc
  refine ⟨s₁, FallibleSystem.Leads.step hstart, ?_⟩
  change s₁.runThread env t = _
  rw [runThread, hpc₁, ht]
  change s₁.getStripe env t = _
  rw [getStripe, show s₁.cache = s.cache from rfl,
    Cache.getActiveStripe_of_pending _ false hfind hfree hcount hmarked hp]
  rfl

/-- In a new array a call takes the first stripe of the pool. -/
theorem exists_opened_init [Fintype τ] {b : Bio} (hv : env.Supported) (hN : 0 < N)
    (ht : env.thread t = .makeRequest b) :
    ∃ sh s', Opened env t sh env.init s' ∧ Cache.Miss env.conf env.init.cache
      (env.place t).newSector (env.place t).pdIdx.toInt32 sh s'.cache := by
  have hinv : Inv env env.init := Inv.reachable hv FallibleSystem.reachable_init
  have hpool : env.init.cache.pool = _ := Cache.pool_growStripes N τ env.conf env.page
  have htable : env.init.cache.table = _ := Cache.table_growStripes N τ env.conf env.page
  obtain ⟨sh, rest, hfree⟩ := List.exists_cons_of_ne_nil
    (List.ne_nil_of_mem (List.mem_finRange (⟨0, hN⟩ : Fin N)))
  have hfind : Cache.findStripe env.conf env.init.cache (env.place t).newSector = some none := by
    obtain ⟨f, hfind, hf⟩ := hinv.table.findStripe (env.place t).newSector
    cases f with
    | none => exact hfind
    | some x =>
      have hx := ((hf x).mp rfl).1
      rw [Cache.Hashed, htable] at hx
      exact absurd rfl hx
  refine ⟨sh, exists_opened_of_free hinv ht rfl hfind (by rw [hpool]; exact hfree) fun i _ => ?_⟩
  obtain ⟨hqueue, -, hwritten, hlocked⟩ := QueueInv.init_dev env sh i
  simp only [R5dev.Pending, not_or, not_not]
  exact ⟨hqueue .read, hqueue .write, hwritten, by rw [hlocked]; decide⟩

/-- A call that has got its stripe has handled it and returned. -/
structure Served (env : Env N τ) (t : τ) (sh : Fin N) (s s' : State N τ) : Prop where
  last : ∃ a, env.machine.Leads s a ∧ a.ended = s.ended ∧ env.machine.step a (.run t) = .ok s'
  pc : s'.pc t = .done
  others : ∀ u, u ≠ t → s'.pc u = s.pc u
  ended : ∃ bytes, s'.ended = (t, bytes) :: s.ended
  queue : ∀ x i rw u, u ∈ s'.queue x i rw ↔ u ∈ s.queue x i rw ∨
    (u = t ∧ x = sh ∧ i = env.dev t ∧ rw = (env.bio t).biRw ∧ Accepts env s t sh)
  inflight : ∃ l, s'.inflight = s.inflight ++ l ∧ ∀ i < env.conf.numDisks, ∀ rw,
    s'.queue sh i rw ≠ [] → (env.conf.disks i).jrdev ≠ none → ∃ req ∈ l, req.sh = sh ∧ req.dev = i

theorem Served.leads (h : Served env t sh s s') : env.machine.Leads s s' := by
  obtain ⟨a, hleads, -, hstep⟩ := h.last
  exact hleads.trans (FallibleSystem.Leads.step hstep)

/-- What `__add_stripe_bio` does to the queues of the array. -/
theorem mem_queue_added (s s' : State N τ) {b : Bio} (ht : env.thread t = .makeRequest b)
    (hcache : s'.cache = (s.cache.addStripeBio env.bio sh t (env.place t).ddIdx.toNat b.biRw).2)
    (x : Fin N) (i : ℕ) (rw : Dir) (u : τ) : u ∈ s'.queue x i rw ↔ u ∈ s.queue x i rw ∨
      (u = t ∧ x = sh ∧ i = env.dev t ∧ rw = (env.bio t).biRw ∧ Accepts env s t sh) := by
  have hbio : env.bio t = b := by rw [Env.bio, ht]
  have hmem := R5dev.mem_queue_addBio env.bio t ((s.cache.row sh).dev (env.dev t)) b.biRw rw u
  rw [State.queue, hcache, Accepts, hbio, Cache.addStripeBio, Cache.dev_modifyDev,
    show (env.place t).ddIdx.toNat = env.dev t from rfl]
  by_cases hx : x = sh ∧ i = env.dev t
  · rw [if_pos hx, hx.1, hx.2]
    refine hmem.trans (or_congr_right (and_congr_right fun _ => ?_))
    simp
  · rw [if_neg hx, State.queue]
    tauto

/-- **A call that runs alone returns**, after it has submitted a request for every device of
its stripe on which a bio is queued and whose member is present. A bio for an absent member
leaves the stripe marked. -/
theorem exists_served {b : Bio} (ht : env.thread t = .makeRequest b) (hpc : s.pc t = .add sh)
    (hphys : s.physSegments t = 1) : ∃ s', Served env t sh s s' ∧
      ∀ i < env.conf.numDisks, ∀ rw, s'.queue sh i rw ≠ [] → (env.conf.disks i).jrdev = none →
        s'.cache.pool.marked sh = true := by
  let s₁ : State N τ := { s with
    cache := (s.cache.addStripeBio env.bio sh t (env.place t).ddIdx.toNat b.biRw).2 }.goto t
      (.scan sh env.conf.numDisks)
  have hadd : env.machine.step s (.run t) = .ok s₁ := by
    change s.runThread env t = _
    rw [runThread, hpc, ht]
  obtain ⟨s₂, h₂, hpc₂, -, hscan⟩ := exists_scanned env (s := s₁) (pc_goto_self ..)
  obtain ⟨l, s₃, h₃, hpc₃, -, hreq⟩ := exists_submitted env hpc₂
  have h₁₃ := h₂.trans h₃
  let s₄ : State N τ := { s₃ with cache := s₃.cache.releaseStripe sh }.goto t .finish
  have hpc₄ : s₄.pc t = .finish := pc_goto_self ..
  have hrelease : env.machine.step s₃ (.run t) = .ok s₄ := by
    change s₃.runThread env t = _
    rw [runThread, hpc₃, ht]
  have hfinish : env.machine.step s₄ (.run t) = .ok (s₄.finish t) := by
    change s₄.runThread env t = _
    rw [runThread, hpc₄, ht]
  obtain ⟨hcache, hpc', hin, -⟩ := finish_frame s₄ t
  have hqueue : (s₄.finish t).queue = s₁.queue := by
    rw [← h₁₃.queue]
    funext x i rw
    rw [State.queue, hcache, State.queue]
    exact congrArg (fun r : Fin N → Row τ => ((r x).dev i).queue rw)
      (Cache.row_releaseStripe s₃.cache sh)
  refine ⟨s₄.finish t, ⟨⟨s₄, ?_, h₁₃.ended, hfinish⟩, ?_, fun u hu => ?_, ⟨s₄.memory t, ?_⟩,
    fun x i rw u => ?_, l, ?_, fun i hi rw hne hdisk => ?_⟩, fun i hi rw hne hdisk => ?_⟩
  · exact ((FallibleSystem.Leads.step hadd).trans h₁₃.leads).trans
      (FallibleSystem.Leads.step hrelease)
  · rw [hpc', Function.update_self]
  · rw [hpc', Function.update_of_ne hu]
    exact (pc_goto_of_ne _ _ hu).trans ((h₁₃.others u hu).trans (pc_goto_of_ne _ _ hu))
  · have hphys₄ : s₄.physSegments t = 1 := (congrFun h₁₃.physSegments t).trans hphys
    have hended₄ : s₄.ended = s.ended := h₁₃.ended
    simp [finish, hphys₄, hended₄, goto]
  · rw [hqueue]
    exact mem_queue_added s s₁ ht rfl x i rw u
  · rw [hin]
    exact h₁₃.inflight
  · refine (hreq i hi ⟨rw, hscan i hi rw ?_⟩).1 hdisk
    rwa [← hqueue]
  · rw [hcache, show s₄.cache.pool = _ from Cache.pool_releaseStripe s₃.cache sh,
      RefPool.marked_put]
    refine (hreq i hi ⟨rw, hscan i hi rw ?_⟩).2 hdisk
    rwa [← hqueue]

/-- The first call of a new array runs alone; its bio is then the only one that is queued. -/
theorem exists_first_served [Fintype τ] {b : Bio} (hv : env.Supported) (hN : 0 < N)
    (ht : env.thread t = .makeRequest b) :
    ∃ sh s₁ s₂, env.machine.Reachable s₁ ∧ Served env t sh s₁ s₂ ∧
      (∀ x i rw, s₁.queue x i rw = []) ∧ (∀ u, u ≠ t → s₂.pc u = .start) ∧
      t ∈ s₂.queue sh (env.dev t) (env.bio t).biRw ∧
      ((env.conf.disks (env.dev t)).jrdev = none → s₂.cache.pool.marked sh = true) := by
  obtain ⟨sh, s₁, hopen, -⟩ := exists_opened_init hv hN ht
  obtain ⟨s₂, hserved, hmarked⟩ := exists_served ht hopen.pc hopen.physSegments
  have hnil : ∀ x i rw, s₁.queue x i rw = [] := fun x i rw => by
    rw [hopen.queue]
    exact (QueueInv.init_dev env x i).1 rw
  refine ⟨sh, s₁, s₂, FallibleSystem.reachable_init.trans hopen.leads, hserved, hnil,
    fun u hu => (hserved.others u hu).trans (hopen.others u hu), ?_⟩
  have hmem : t ∈ s₂.queue sh (env.dev t) (env.bio t).biRw := (hserved.queue _ _ _ _).mpr
    (Or.inr ⟨rfl, rfl, rfl, rfl, accepts_of_queue_eq_nil (hnil _ _ _)⟩)
  exact ⟨hmem, hmarked _ (hv.dev_lt t) _ (List.ne_nil_of_mem hmem)⟩

/-- A call for the row of a queued bio runs alone on the stripe of the bio. -/
theorem exists_next_served [Fintype τ] {u : τ} {b : Bio} {i : ℕ} {rw : Dir} (hv : env.Supported)
    (hs : env.machine.Reachable s) (hu : u ∈ s.queue sh i rw)
    (ht : env.thread t = .makeRequest b) (hpc : s.pc t = .start)
    (hrow : (env.place u).newSector = (env.place t).newSector) :
    ∃ s₁ s₂, Opened env t sh s s₁ ∧ Served env t sh s₁ s₂ := by
  have hinv := Inv.reachable hv hs
  have hq := hinv.queues.queued _ _ _ u hu
  obtain ⟨s₁, hopen⟩ := exists_opened_of_hashed hinv ht hpc hq.hashed (hq.sector.trans hrow)
  obtain ⟨s₂, hserved, -⟩ := exists_served ht hopen.pc hopen.physSegments
  exact ⟨s₁, s₂, hopen, hserved⟩

/-! ### Completions -/

/-- The requests in flight can complete one after another. -/
theorem exists_drained (env : Env N τ) (s : State N τ) : ∃ s', env.machine.Leads s s' ∧
    s'.inflight = [] ∧ s'.pc = s.pc ∧ s'.queue = s.queue ∧ s'.ended = s.ended := by
  generalize hl : s.inflight = l
  induction l generalizing s with
  | nil => exact ⟨s, Relation.ReflTransGen.refl, hl, rfl, rfl, rfl⟩
  | cons req l ih =>
    have hstep : env.machine.step s (.complete 0) = .ok (s.complete env 0) := rfl
    obtain ⟨hpc, hended, hin, hqueue⟩ : (s.complete env 0).pc = s.pc ∧
        (s.complete env 0).ended = s.ended ∧ (s.complete env 0).inflight = l ∧
        (s.complete env 0).queue = s.queue := by
      obtain ⟨req', h⟩ : ∃ req', Completes s 0 req' (s.complete env 0) := by
        obtain heq | h := complete_cases env s 0
        · have hin := congrArg State.inflight heq
          simp only [complete, hl, List.getElem?_cons_zero, List.eraseIdx_zero,
            List.tail_cons] at hin
          exact absurd hin (List.cons_ne_self _ _).symm
        · exact h
      obtain ⟨page, hrow⟩ := h.row
      refine ⟨h.pc, h.ended, by rw [h.inflight, hl]; rfl, ?_⟩
      exact QueueInv.queue_modifyDev hrow fun rw => by cases rw <;> rfl
    obtain ⟨s', hleads, hnil, hpc', hqueue', hended'⟩ := ih (s.complete env 0) hin
    exact ⟨s', (FallibleSystem.Leads.step hstep).trans hleads, hnil, hpc'.trans hpc,
      hqueue'.trans hqueue, hended'.trans hended⟩

end State

end JRaid
