import JRaid.Requests.Solo

/-!
# When a bio is acknowledged

`jraid5_make_request` counts its own reference in `bi_phys_segments` and nothing else, and
does not look at what `__add_stripe_bio` returns. A bio is therefore acknowledged as soon as
its call returns, with its member requests still in flight, and also if it was rejected. This
module proves when neither shows: no member request is in flight as long as no call goes to
a present member, and no bio is rejected as long as no two bios of one direction start at
the same sector.
-/

namespace JRaid

variable {N : ℕ} {τ : Type} [DecidableEq τ]

namespace State

variable {env : Env N τ} {s s' : State N τ} {t : τ}

/-- A step calls `bio_endio` on the bio of a call. -/
def Acknowledges (env : Env N τ) (t : τ) (s s' : State N τ) : Prop :=
  env.machine.Next s s' ∧ ∃ bytes, s'.ended = (t, bytes) :: s.ended

/-- A bio is acknowledged at the end of its call. -/
theorem Acknowledges.finish (h : Acknowledges env t s s') :
    (∃ b, env.thread t = .makeRequest b) ∧ s.pc t = .finish ∧ s'.queue = s.queue := by
  obtain ⟨⟨e, hstep⟩, bytes, hended⟩ := h
  obtain ⟨u, -, hrun⟩ | rfl | ⟨k, req, -, hdone⟩ := step_cases hstep
  · cases hrun with
    | @finish b ht hpc =>
      have hut : u = t := by
        unfold State.finish at hended
        dsimp only at hended
        split_ifs at hended
        · exact congrArg Prod.fst (List.cons.inj hended).1
        · exact absurd hended.symm (List.cons_ne_self _ _)
      refine ⟨⟨b, hut ▸ ht⟩, hut ▸ hpc, ?_⟩
      unfold State.queue
      rw [(finish_frame s u).1]
    | _ => exact absurd hended.symm (List.cons_ne_self _ _)
  · exact absurd hended.symm (List.cons_ne_self _ _)
  · rw [hdone.ended] at hended
    exact absurd hended.symm (List.cons_ne_self _ _)

/-- The last step of a call that runs alone acknowledges its bio. -/
theorem Served.acknowledges {sh : Fin N} (h : Served env t sh s s') :
    ∃ a, env.machine.Leads s a ∧ Acknowledges env t a s' := by
  obtain ⟨a, hleads, hended, hstep⟩ := h.last
  obtain ⟨bytes, hnew⟩ := h.ended
  exact ⟨a, hleads, ⟨_, hstep⟩, bytes, by rw [hnew, hended]⟩

/-! ### Member requests in flight -/

variable [Fintype τ]

/-- A call to a present member that runs alone is acknowledged too early. -/
private theorem exists_early_acknowledge {b : Bio} (hv : env.Supported) (hN : 0 < N)
    (ht : env.thread t = .makeRequest b) (hdisk : (env.conf.disks (env.dev t)).jrdev ≠ none) :
    ∃ s s', env.machine.Reachable s ∧ Acknowledges env t s s' ∧
      ∃ req ∈ s'.inflight, t ∈ req.bios := by
  obtain ⟨sh, s₁, s₂, hs₁, hserved, hnil, -, hmem, -⟩ := exists_first_served hv hN ht
  obtain ⟨a, hleads, hack⟩ := hserved.acknowledges
  have hs₂ := hs₁.trans hserved.leads
  obtain ⟨l, hin, hreq⟩ := hserved.inflight
  obtain ⟨req, hl, -⟩ := hreq _ (hv.dev_lt t) _ (List.ne_nil_of_mem hmem) hdisk
  have hreq₂ : req ∈ s₂.inflight := hin ▸ List.mem_append_right _ hl
  -- the bios of the request are queued, and only the bio of this call is
  have hj := (Inv.reachable hv hs₂).queues.inflight req hreq₂
  obtain ⟨u, hu⟩ := List.exists_mem_of_ne_nil _ hj.bios
  obtain hold | ⟨rfl, -⟩ := (hserved.queue _ _ _ _).mp (hj.queued hu)
  · rw [hnil] at hold
    cases hold
  · exact ⟨a, s₂, hs₁.trans hleads, hack, req, hreq₂, hu⟩

/-- **No bio is acknowledged with a member request in flight, in any run, exactly when no call
goes to a present member.** -/
theorem no_early_acknowledge_iff (env : Env N τ) (hv : env.Supported) (hN : 0 < N) :
    (∀ s s' t, env.machine.Reachable s → Acknowledges env t s s' →
      ∀ req ∈ s'.inflight, t ∉ req.bios) ↔ env.TargetsAbsent := by
  constructor
  · intro h t b ht
    by_contra hdisk
    obtain ⟨s, s', hs, hack, req, hreq, hmem⟩ := exists_early_acknowledge hv hN ht hdisk
    exact h s s' t hs hack req hreq hmem
  · intro habsent s s' t hs hack req hreq
    obtain ⟨e, hstep⟩ := hack.1
    rw [(Inv.reachable hv (hs.step hstep)).queues.inflight_eq_nil habsent] at hreq
    cases hreq

/-- One write to an array of three present members: its member request is in flight when its
bio is acknowledged. -/
theorem early_acknowledge :
    let env := smallArray nrStripes allPresent [⟨0, 4096, .write⟩]
    ∃ s s', env.machine.Reachable s ∧ Acknowledges env 0 s s' ∧ ∃ req ∈ s'.inflight, 0 ∈ req.bios :=
  exists_early_acknowledge (Env.supported_smallArray _ _ _) (by decide) rfl (by decide)

/-- A write to the only absent member of three. -/
theorem no_early_acknowledge_iff_absent :
    let env := smallArray nrStripes (fun i => ⟨if i = 0 then none else some ⟨i⟩⟩)
      [⟨0, 4096, .write⟩]
    ∀ s s' t, env.machine.Reachable s → Acknowledges env t s s' →
      ∀ req ∈ s'.inflight, t ∉ req.bios := by
  intro env
  have habsent : ∀ t, (env.conf.disks (env.dev t)).jrdev = none := by decide
  exact (no_early_acknowledge_iff env (Env.supported_smallArray _ _ _) (by decide)).mpr
    fun t _ _ => habsent t

/-! ### Rejected bios -/

/-- Every call that is past `__add_stripe_bio` has its bio queued on its device. -/
def Linked (env : Env N τ) (s : State N τ) : Prop :=
  ∀ t b, env.thread t = .makeRequest b → (s.pc t).added = true →
    ∃ sh, t ∈ s.queue sh (env.dev t) (env.bio t).biRw

/-- No two bios of one direction start at the same sector, if the second covers a sector. -/
def NoOverlap (env : Env N τ) : Prop :=
  ∀ t u, t ≠ u → (∃ b, env.thread t = .makeRequest b) → (∃ b, env.thread u = .makeRequest b) →
    (env.bio t).biRw = (env.bio u).biRw → (env.bio t).biSector = (env.bio u).biSector →
      ¬(env.bio t).biSector < (env.bio t).sectorEnd

omit [DecidableEq τ] [Fintype τ] in
/-- A bio is rejected exactly if another one is queued and it covers a sector. -/
private theorem accepts_iff (hv : env.Supported) (h : QueueInv env s) {b : Bio} {sh : Fin N}
    (ht : env.thread t = .makeRequest b) (hpc : s.pc t = .add sh) :
    ¬Accepts env s t sh ↔ s.queue sh (env.dev t) (env.bio t).biRw ≠ [] ∧
      (env.bio t).biSector < (env.bio t).sectorEnd := by
  have hfit := h.held t sh (by rw [hpc]; rfl)
  rw [Fits, ht] at hfit
  rw [Accepts, Bool.not_eq_true, R5dev.addBio_eq_false_iff]
  exact insertBio_eq_none_iff fun u hu => (h.queued _ _ _ u hu).sector_eq hv hfit.1

omit [Fintype τ] in
/-- Only `__add_stripe_bio` takes a call past itself. -/
private theorem added_cases (hrun : Runs env s t s') {u : τ} {b : Bio}
    (hu : env.thread u = .makeRequest b) (hadded : (s'.pc u).added = true) :
    (s.pc u).added = true ∨ (u = t ∧ ∃ sh, s.pc t = .add sh ∧
      s'.cache = (s.cache.addStripeBio env.bio sh t (env.place t).ddIdx.toNat b.biRw).2) := by
  have move : ∀ {p : Pc N}, s'.pc = Function.update s.pc t p →
      (u = t → p.added = true → (s.pc t).added = true) → (s.pc u).added = true := by
    intro p hpc hp
    rw [hpc, Function.update_apply] at hadded
    split_ifs at hadded with hut
    · exact hut ▸ hp hut hadded
    · exact hadded
  cases hrun with
  | idle => exact Or.inl hadded
  | start ht hpc => exact Or.inl (move (p := .get) rfl fun _ h => by cases h)
  | startDaemon ht hpc =>
    refine Or.inl (move (p := .pop) rfl fun hut => ?_)
    rw [← hut, hu] at ht
    cases ht
  | @hit b sh c ht hpc hhit => exact Or.inl (move (p := .add sh) rfl fun _ h => by cases h)
  | @miss b sh c ht hpc hmiss => exact Or.inl (move (p := .add sh) rfl fun _ h => by cases h)
  | exhausted ht hpc hfree => exact Or.inl (move (p := .wait) rfl fun _ h => by cases h)
  | @add b' sh ht hpc =>
    by_cases hut : u = t
    · obtain rfl : b = b' := by
        rw [← hut, hu] at ht
        exact Thread.makeRequest.inj ht
      exact Or.inr ⟨hut, sh, hpc, rfl⟩
    · exact Or.inl (move (p := .scan sh env.conf.numDisks) rfl fun h => absurd h hut)
  | @scan sh i hpc => exact Or.inl (move (p := .scan sh i) rfl fun _ _ => by rw [hpc]; rfl)
  | @parity sh hpc =>
    exact Or.inl (move (p := .submit sh env.conf.numDisks) rfl fun _ _ => by rw [hpc]; rfl)
  | @skip sh i hpc hdir => exact Or.inl (move (p := .submit sh i) rfl fun _ _ => by rw [hpc]; rfl)
  | @request sh i req c hpc hsub =>
    exact Or.inl (move (p := .submit sh i) rfl fun _ _ => by rw [hpc]; rfl)
  | @postpone sh i rw c hpc hpost =>
    exact Or.inl (move (p := .submit sh i) rfl fun _ _ => by rw [hpc]; rfl)
  | release ht hpc => exact Or.inl (move (p := .finish) rfl fun _ _ => by rw [hpc]; rfl)
  | releaseDaemon ht hpc => exact Or.inl (move (p := .pop) rfl fun _ _ => by rw [hpc]; rfl)
  | finish ht hpc =>
    exact Or.inl (move (p := .done) (finish_frame s t).2.1 fun _ _ => by rw [hpc]; rfl)
  | @take sh c ht hpc htaken =>
    exact Or.inl (move (p := .scan sh env.conf.numDisks) rfl fun _ _ => by rw [hpc]; rfl)
  | drained ht hpc hwork => exact Or.inl (move (p := .done) rfl fun _ _ => by rw [hpc]; rfl)

/-- If no two bios overlap, none is rejected. -/
theorem Linked.reachable (hv : env.Supported) (hno : NoOverlap env)
    (hs : env.machine.Reachable s) : Linked env s := by
  refine hs.invariant (I := Linked env) (fun t b _ h => by cases h) fun s e s' hs h hstep => ?_
  have hinv := Inv.reachable hv hs
  have hmono := hinv.queue_mono hstep
  intro u b hu hadded
  obtain hold | ⟨sh, hpc, hcache⟩ : (s.pc u).added = true ∨ ∃ sh, s.pc u = .add sh ∧
      s'.cache = (s.cache.addStripeBio env.bio sh u (env.place u).ddIdx.toNat b.biRw).2 := by
    obtain ⟨t, -, hrun⟩ | rfl | ⟨k, req, -, hdone⟩ := step_cases hstep
    · obtain hold | ⟨rfl, hadd⟩ := added_cases hrun hu hadded
      · exact Or.inl hold
      · exact Or.inr hadd
    · exact Or.inl hadded
    · exact Or.inl (hdone.pc ▸ hadded)
  · obtain ⟨sh, hmem⟩ := h u b hu hold
    exact ⟨sh, hmono _ _ _ hmem⟩
  · refine ⟨sh, (mem_queue_added s s' hu hcache _ _ _ _).mpr (Or.inr ⟨rfl, rfl, rfl, rfl, ?_⟩)⟩
    by_contra hrej
    -- the bio that is in the way belongs to another call
    obtain ⟨hne, hlt⟩ := (accepts_iff hv hinv.queues hu hpc).mp hrej
    obtain ⟨v, hmem⟩ := List.exists_mem_of_ne_nil _ hne
    have hq := hinv.queues.queued _ _ _ v hmem
    have hfit := hinv.queues.held u sh (by rw [hpc]; rfl)
    rw [Fits, hu] at hfit
    have huv : u ≠ v := fun e => by
      have hadded := hq.added
      rw [← e, hpc] at hadded
      cases hadded
    exact hno u v huv ⟨b, hu⟩ hq.call hq.dir.symm (hq.sector_eq hv hfit.1).symm hlt

/-- If two bios overlap and the first call runs before the second, the second bio is lost. -/
private theorem exists_lost_request {u : τ} {b b' : Bio} (hv : env.Supported) (hN : 0 < N)
    (htu : t ≠ u) (ht : env.thread t = .makeRequest b) (hu : env.thread u = .makeRequest b')
    (hdir : (env.bio t).biRw = (env.bio u).biRw)
    (hsector : (env.bio t).biSector = (env.bio u).biSector)
    (hlt : (env.bio t).biSector < (env.bio t).sectorEnd) :
    ∃ s s', env.machine.Reachable s ∧ Acknowledges env t s s' ∧
      ∀ sh i rw, t ∉ s'.queue sh i rw := by
  have hplace : env.place u = env.place t := by rw [Env.place, Env.place, hsector]
  -- the other call runs first and leaves its bio on the stripe
  obtain ⟨sh, s₁, s₂, hs₁, hserved, -, hpc, hmem, -⟩ := exists_first_served hv hN hu
  have hs₂ := hs₁.trans hserved.leads
  rw [Env.dev, hplace, ← hdir] at hmem
  obtain ⟨s₃, s₄, hopen', hserved'⟩ := exists_next_served hv hs₂ hmem ht (hpc t htu)
    (congrArg Place.newSector hplace)
  have hs₃ := hs₂.trans hopen'.leads
  have hinv₃ := Inv.reachable hv hs₃
  obtain ⟨a, hleads, hack⟩ := hserved'.acknowledges
  refine ⟨a, s₄, hs₃.trans hleads, hack, fun x i rw hlinked => ?_⟩
  obtain hold | ⟨-, -, -, -, hacc⟩ := (hserved'.queue _ _ _ _).mp hlinked
  · have hadded := (hinv₃.queues.queued _ _ _ t hold).added
    rw [hopen'.pc] at hadded
    cases hadded
  · refine (accepts_iff hv hinv₃.queues ht hopen'.pc).mpr ⟨?_, hlt⟩ hacc
    rw [hopen'.queue]
    exact List.ne_nil_of_mem hmem

/-- **Every acknowledged bio has been accepted, in every run, exactly when no two bios
overlap.** -/
theorem no_lost_request_iff (env : Env N τ) (hv : env.Supported) (hN : 0 < N) :
    (∀ s s' t, env.machine.Reachable s → Acknowledges env t s s' →
      ∃ sh, t ∈ s'.queue sh (env.dev t) (env.bio t).biRw) ↔ NoOverlap env := by
  constructor
  · rintro h t u htu ⟨b, ht⟩ ⟨b', hu⟩ hdir hsector hlt
    obtain ⟨s, s', hs, hack, hlost⟩ := exists_lost_request hv hN htu ht hu hdir hsector hlt
    obtain ⟨sh, hlinked⟩ := h s s' t hs hack
    exact hlost sh _ _ hlinked
  · intro hno s s' t hs hack
    obtain ⟨⟨b, ht⟩, hpc, hqueue⟩ := hack.finish
    rw [hqueue]
    exact Linked.reachable hv hno hs t b ht (by rw [hpc]; rfl)

/-- Two writes to one block: the second is acknowledged and queued nowhere. -/
theorem lost_request :
    let env := smallArray nrStripes allPresent [⟨0, 4096, .write⟩, ⟨0, 4096, .write⟩]
    ∃ s s', env.machine.Reachable s ∧ Acknowledges env 1 s s' ∧
      ∀ sh i rw, 1 ∉ s'.queue sh i rw :=
  exists_lost_request (u := 0) (Env.supported_smallArray _ _ _) (by decide) (by decide) rfl rfl rfl
    rfl (by decide)

/-- A write and a read of one block, and a write to the next one. -/
theorem no_lost_request_iff_three :
    let env := smallArray nrStripes allPresent
      [⟨0, 4096, .write⟩, ⟨0, 4096, .read⟩, ⟨8, 4096, .write⟩]
    ∀ s s' t, env.machine.Reachable s → Acknowledges env t s s' →
      ∃ sh, t ∈ s'.queue sh (env.dev t) (env.bio t).biRw := by
  intro env
  have hdistinct : ∀ t u, t ≠ u → (env.bio t).biRw = (env.bio u).biRw →
      (env.bio t).biSector ≠ (env.bio u).biSector := by decide
  exact (no_lost_request_iff env (Env.supported_smallArray _ _ _) (by decide)).mpr
    fun t u htu _ _ hdir hsector _ => hdistinct t u htu hdir hsector

end State

end JRaid
