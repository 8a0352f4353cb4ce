import JRaid.Requests.Reuse

/-!
# One submission of a request at a time

The request of a device is embedded in the stripe, and nothing keeps a handler of the
stripe from submitting it again while it is in flight: `R5_LOCKED` is cleared and tested
but never set. As the bios stay on their queues, every later handler of the stripe asks for
the requests of all earlier bios once more. A request is therefore submitted only once at a
time exactly when no call shares the row of another one that goes to a present member. Then
a bio for a present member is alone on its stripe (`Alone.bio`), only its own call works on
the stripe (`Alone.holder`), and in `SubmitInv` that call either has its request still to
submit, with none in flight, or asks for nothing any more.
-/

namespace JRaid

variable {N : ℕ} {τ : Type}

/-- No two calls share a row, unless both go to absent members. -/
def Env.RowsUnshared (env : Env N τ) : Prop :=
  ∀ t u, t ≠ u → (∃ b, env.thread t = .makeRequest b) → (∃ b, env.thread u = .makeRequest b) →
    (env.place t).newSector = (env.place u).newSector → (env.conf.disks (env.dev t)).jrdev = none

/-- The request of a device: which stripe and which device it is embedded in. -/
def MemberReq.key (req : MemberReq N τ) : Fin N × ℕ := (req.sh, req.dev)

namespace State

variable {env : Env N τ} {s s' : State N τ} {t u : τ} {sh : Fin N} {i : ℕ} {rw : Dir}

/-! ### A bio for a present member is alone on its stripe -/

/-- A bio is queued for a present member. -/
structure OnMember (env : Env N τ) (s : State N τ) (u : τ) (sh : Fin N) (i : ℕ) (rw : Dir) :
    Prop where
  queued : u ∈ s.queue sh i rw
  present : (env.conf.disks i).jrdev ≠ none

/-- No other bio is queued on the stripe. -/
theorem OnMember.bio (h : OnMember env s u sh i rw) (hrows : env.RowsUnshared)
    (hq : QueueInv env s) {v : τ} {j : ℕ} {rw' : Dir} (hv : v ∈ s.queue sh j rw') : v = u := by
  by_contra hne
  have hqu := hq.queued _ _ _ u h.queued
  have hqv := hq.queued _ _ _ v hv
  refine h.present ?_
  rw [hqu.dev]
  exact hrows u v (Ne.symm hne) hqu.call hqv.call (hqu.sector.symm.trans hqv.sector)

/-- Nobody holds the stripe but the call of the bio. -/
theorem OnMember.holder (h : OnMember env s u sh i rw) (hrows : env.RowsUnshared)
    (hq : QueueInv env s) (ht : (s.pc t).held = some sh) : t = u := by
  have hqu := hq.queued _ _ _ u h.queued
  have hfit := hq.held t sh ht
  cases hthread : env.thread t with
  | makeRequest b =>
    rw [Fits, hthread] at hfit
    by_contra hne
    refine h.present ?_
    rw [hqu.dev]
    exact hrows u t (Ne.symm hne) hqu.call ⟨b, hthread⟩ (hqu.sector.symm.trans hfit.1)
  | jraid5d =>
    -- a marked stripe has a bio for an absent member
    rw [Fits, hthread] at hfit
    obtain ⟨j, rw', habs, hne⟩ := hq.marked sh hfit
    obtain ⟨v, hv⟩ := List.exists_mem_of_ne_nil _ hne
    have hvu := h.bio hrows hq hv
    have hqv := hq.queued _ _ _ v hv
    rw [hqv.dev, hvu, ← hqu.dev] at habs
    exact absurd habs h.present

/-! ### The invariant -/

/-- The call of a bio has its request still to submit and none is in flight for the stripe, or
no request of the device is asked for any more. -/
structure Settled (s : State N τ) (u : τ) (sh : Fin N) (i : ℕ) : Prop where
  idle : (s.pc u).Submits sh i → ∀ req ∈ s.inflight, req.sh ≠ sh
  quiet : ¬(s.pc u).Submits sh i → ∀ rw, s.want sh i rw = false

/-- What keeps a bio settled. -/
private theorem Settled.congr (h : Settled s u sh i)
    (hpc : (s'.pc u).Submits sh i ↔ (s.pc u).Submits sh i)
    (hin : ∀ req ∈ s'.inflight, req ∈ s.inflight ∨ req.sh ≠ sh)
    (hwant : ∀ rw, s'.want sh i rw = true → s.want sh i rw = true) : Settled s' u sh i := by
  refine ⟨fun hu req hreq => ?_, fun hu rw => Bool.eq_false_of_not_eq_true fun hw => ?_⟩
  · exact (hin req hreq).elim (h.idle (hpc.mp hu) req) id
  · exact absurd (hwant rw hw) (by rw [h.quiet (mt hpc.mpr hu)]; decide)

/-- The submission invariant. -/
structure SubmitInv (env : Env N τ) (s : State N τ) : Prop where
  nodup : (s.inflight.map MemberReq.key).Nodup
  settled : ∀ u sh i rw, OnMember env s u sh i rw → Settled s u sh i

namespace SubmitInv

theorem init (env : Env N τ) : SubmitInv env env.init := by
  refine ⟨List.nodup_nil, fun u sh i rw h => ?_⟩
  have hu := h.queued
  rw [(QueueInv.init_dev env sh i).1] at hu
  cases hu

variable [DecidableEq τ]

/-- A thread moves without passing a device, and the rows and the requests in flight stay. -/
private theorem row {p : Pc N} (h : SubmitInv env s) (hpc : s'.pc = Function.update s.pc t p)
    (hrow : s'.cache.row = s.cache.row) (hin : s'.inflight = s.inflight)
    (hp : ∀ sh i rw, OnMember env s t sh i rw → (p.Submits sh i ↔ (s.pc t).Submits sh i)) :
    SubmitInv env s' := by
  have hq : s'.queue = s.queue := by unfold State.queue; rw [hrow]
  have hw : s'.want = s.want := by unfold State.want; rw [hrow]
  refine ⟨by rw [hin]; exact h.nodup, fun u sh i rw hu => ?_⟩
  have hold : OnMember env s u sh i rw := ⟨hq ▸ hu.queued, hu.present⟩
  refine (h.settled u sh i rw hold).congr ?_ (fun req hreq => Or.inl (hin ▸ hreq))
    fun rw hv => hw ▸ hv
  rw [hpc, Function.update_apply]
  split_ifs with hut
  · rw [hut]
    exact hp sh i rw (hut ▸ hold)
  · exact Iff.rfl

/-- The thread that holds a stripe works on one of its devices: what has to be shown about the
bio that is alone on the stripe. -/
private theorem dev {x : Fin N} {k : ℕ} {f : R5dev τ → R5dev τ} {p : Pc N}
    (hrows : env.RowsUnshared) (hq : QueueInv env s) (h : SubmitInv env s)
    (hpc : s'.pc = Function.update s.pc t p) (hheld : (s.pc t).held = some x)
    (hheld' : p.held = some x) (hrow : s'.cache.row = (s.cache.modifyDev x k f).row)
    (hqueue : ∀ rw, (f ((s.cache.row x).dev k)).queue rw = s.queue x k rw)
    (hnodup : (s'.inflight.map MemberReq.key).Nodup)
    (hin : ∀ req ∈ s'.inflight, req ∈ s.inflight ∨ req.sh = x)
    (hself : ∀ i rw, OnMember env s t x i rw → Settled s t x i → Settled s' t x i) :
    SubmitInv env s' := by
  refine ⟨hnodup, fun u sh i rw hu => ?_⟩
  have hold : OnMember env s u sh i rw :=
    ⟨QueueInv.queue_modifyDev hrow hqueue ▸ hu.queued, hu.present⟩
  have hset := h.settled u sh i rw hold
  by_cases hx : sh = x
  · subst hx
    obtain rfl := hold.holder hrows hq hheld
    exact hself i rw hold hset
  · refine hset.congr ?_ (fun req hreq => ?_) fun rw hw => ?_
    · rw [hpc, Function.update_apply]
      split_ifs with hut
      · -- the thread has nothing to do for another stripe
        rw [hut]
        refine iff_of_false (fun hs => hx ?_) fun hs => hx ?_
        · exact Option.some.inj (hs.held.symm.trans hheld')
        · exact Option.some.inj (hs.held.symm.trans hheld)
      · exact Iff.rfl
    · exact (hin req hreq).imp_right fun e hsh => hx (hsh.symm.trans e)
    · rwa [want_modifyDev s s' x hrow, if_neg fun e => hx e.1] at hw

/-- Queueing a bio: if it is for a present member, nothing is in flight for its stripe. -/
private theorem add (hrows : env.RowsUnshared) (hq : QueueInv env s) (h : SubmitInv env s)
    {b : Bio} (ht : env.thread t = .makeRequest b) (hpc : s.pc t = .add sh)
    (hadd : ({ s with cache :=
      (s.cache.addStripeBio env.bio sh t (env.place t).ddIdx.toNat b.biRw).2 }.goto t
        (.scan sh env.conf.numDisks)) = s') : SubmitInv env s' := by
  have hrow : s'.cache.row = (s.cache.modifyDev sh (env.place t).ddIdx.toNat
      fun d => (d.addBio env.bio t b.biRw).2).row := by rw [← hadd]; rfl
  have hcache : s'.cache = (s.cache.addStripeBio env.bio sh t (env.place t).ddIdx.toNat b.biRw).2 :=
    by rw [← hadd]; rfl
  have hin : s'.inflight = s.inflight := by rw [← hadd]; rfl
  have hpc' : s'.pc = Function.update s.pc t (.scan sh env.conf.numDisks) := by rw [← hadd]; rfl
  refine ⟨by rw [hin]; exact h.nodup, fun u x i rw hu => ?_⟩
  obtain hold | ⟨rfl, rfl, rfl, rfl, -⟩ := (mem_queue_added s s' ht hcache x i rw u).mp hu.queued
  · have hut : u ≠ t := fun e => by
      have hadded := (hq.queued _ _ _ u hold).added
      rw [e, hpc] at hadded
      cases hadded
    refine (h.settled u x i rw ⟨hold, hu.present⟩).congr ?_ (fun req hreq => Or.inl (hin ▸ hreq))
      fun rw' hw => ?_
    · rw [hpc', Function.update_of_ne hut]
    · rw [want_modifyDev s s' sh hrow] at hw
      split_ifs at hw with hx
      · rw [(R5dev.addBio_frame env.bio t _ b.biRw rw').1] at hw
        exact hx.1 ▸ hx.2 ▸ hw
      · exact hw
  · have hself : s'.pc u = .scan x env.conf.numDisks := by rw [hpc', Function.update_self]
    refine ⟨fun _ req hreq hsh => ?_, fun hno => absurd ?_ hno⟩
    · -- the request was submitted for a bio of another call for the same row
      have hj := hq.inflight req (hin ▸ hreq)
      obtain ⟨v, hv⟩ := List.exists_mem_of_ne_nil _ hj.bios
      have hqv := hq.queued _ _ _ v (hj.queued hv)
      have hfit := hq.held u x (by rw [hpc]; rfl)
      rw [Fits, ht] at hfit
      have hvu : v ≠ u := fun e => by
        have hadded := hqv.added
        rw [e, hpc] at hadded
        cases hadded
      obtain ⟨jrdev, hdisk⟩ := hj.present
      rw [hqv.dev, hrows v u hvu hqv.call ⟨b, ht⟩
        (hqv.sector.symm.trans (hsh ▸ hfit.1))] at hdisk
      cases hdisk
    · rw [hself]
      exact rfl

/-- The first loop of `handle_stripe`. -/
private theorem scan (hrows : env.RowsUnshared) (hq : QueueInv env s) (h : SubmitInv env s)
    {k : ℕ} (hpc : s.pc t = .scan sh (k + 1)) :
    SubmitInv env ({ s with cache := s.cache.scanDev sh k }.goto t (.scan sh k)) := by
  refine h.dev hrows hq rfl (by rw [hpc]; rfl) rfl (f := R5dev.scan) (k := k) rfl
    (fun rw => R5dev.queue_scan _ rw) h.nodup (fun req => Or.inl) fun i rw _ hset => ?_
  refine ⟨fun _ => hset.idle (by rw [hpc]; exact rfl), fun hno => absurd ?_ hno⟩
  rw [pc_goto_self]
  exact rfl

/-- Between the loops of `handle_stripe`. -/
private theorem parity (hv : env.Supported) (hrows : env.RowsUnshared) (hq : QueueInv env s)
    (h : SubmitInv env s) (hpc : s.pc t = .scan sh 0) :
    SubmitInv env ({ s with cache := s.cache.markParity sh }.goto t
      (.submit sh env.conf.numDisks)) := by
  refine h.dev hrows hq rfl (by rw [hpc]; rfl) rfl (f := R5dev.markParity)
    (k := (s.cache.stripe sh).pdIdx.toNatClampNeg) rfl
    (fun rw => R5dev.queue_markParity _ rw) h.nodup (fun req => Or.inl) fun i rw hon hset => ?_
  refine ⟨fun _ => hset.idle (by rw [hpc]; exact rfl), fun hno => absurd ?_ hno⟩
  rw [pc_goto_self]
  exact ⟨rfl, (hq.queued _ _ _ t hon.queued).dev ▸ hv.dev_lt t⟩

/-- Nothing is asked of the device. -/
private theorem skip (h : SubmitInv env s) {k : ℕ} (hpc : s.pc t = .submit sh (k + 1))
    (hdir : ((s.cache.row sh).dev k).submitDir = none) :
    SubmitInv env (s.goto t (.submit sh k)) := by
  refine ⟨h.nodup, fun u x i rw hu => ?_⟩
  have hset := h.settled u x i rw ⟨hu.queued, hu.present⟩
  by_cases hut : u = t
  · have hpc' : (s.goto t (.submit sh k)).pc u = .submit sh k := hut ▸ pc_goto_self ..
    rw [← hut] at hpc
    refine ⟨fun hs => hset.idle ?_, fun hno rw' => ?_⟩
    · rw [hpc'] at hs
      rw [hpc]
      exact ⟨hs.1, Nat.lt_succ_of_lt hs.2⟩
    · rw [hpc'] at hno
      by_cases hx : sh = x ∧ i = k
      · obtain ⟨rfl, rfl⟩ := hx
        exact (R5dev.submitDir_eq_none _).mp hdir rw'
      · refine hset.quiet (fun hs => ?_) rw'
        rw [hpc] at hs
        obtain ⟨rfl, hi⟩ := hs
        exact hno ⟨rfl, lt_of_le_of_ne (Nat.lt_succ_iff.mp hi) fun e => hx ⟨rfl, e⟩⟩
  · refine hset.congr ?_ (fun req => Or.inl) fun _ => id
    rw [pc_goto_of_ne _ _ hut]

/-- **A request that is submitted is not in flight**: the call of its bio has it still to
submit. -/
private theorem request (hrows : env.RowsUnshared) (hq : QueueInv env s) (h : SubmitInv env s)
    {k : ℕ} {req : MemberReq N τ} {c : Cache N τ} (hpc : s.pc t = .submit sh (k + 1))
    (hsub : Cache.Submitted env.conf s.cache sh k req c) :
    SubmitInv env ({ s with cache := c, inflight := s.inflight ++ [req] }.goto t
      (.submit sh k)) := by
  obtain ⟨jrdev, hdisk, hreq⟩ := hsub.member
  have hkey : req.sh = sh ∧ req.dev = k := by
    rw [hreq]
    exact ⟨rfl, rfl⟩
  have hheld : (s.pc t).held = some sh := by rw [hpc]; rfl
  -- the bio is that of the thread
  obtain ⟨v, hv⟩ := List.exists_mem_of_ne_nil _
    (hq.want sh k req.rw (R5dev.want_of_submitDir hsub.dir))
  have hon : OnMember env s v sh k req.rw := ⟨hv, by rw [hdisk]; exact Option.some_ne_none _⟩
  obtain rfl := hon.holder hrows hq hheld
  have hidle := (h.settled t sh k req.rw hon).idle (by rw [hpc]; exact ⟨rfl, Nat.lt_succ_self k⟩)
  refine h.dev hrows hq rfl hheld rfl hsub.row (fun rw => R5dev.queue_setWant _ _ _ _) ?_
    (fun r hr => ?_) fun i rw hon' _ => ?_
  · rw [goto, List.map_append, List.nodup_append]
    refine ⟨h.nodup, List.nodup_singleton _, ?_⟩
    rintro _ hmem _ hnew rfl
    obtain ⟨r, hr, hrk⟩ := List.mem_map.mp hmem
    have hrk' : r.key = req.key := hrk.trans (List.mem_singleton.mp hnew)
    exact hidle r hr ((congrArg Prod.fst hrk').trans hkey.1)
  · obtain hr | hr := List.mem_append.mp hr
    · exact Or.inl hr
    · exact Or.inr ((congrArg MemberReq.sh (List.mem_singleton.mp hr)).trans hkey.1)
  · -- the request was the only one that was asked for
    obtain rfl : i = k := (hq.queued _ _ _ t hon'.queued).dev.trans (hq.queued _ _ _ t hv).dev.symm
    refine ⟨fun hs => ?_, fun _ rw' => Bool.eq_false_of_not_eq_true fun hw => ?_⟩
    · rw [pc_goto_self] at hs
      exact absurd hs.2 (Nat.lt_irrefl i)
    · rw [want_modifyDev s _ sh hsub.row, if_pos ⟨rfl, rfl⟩, R5dev.want_setWant] at hw
      split_ifs at hw with hrw
      obtain ⟨w, hw'⟩ := List.exists_mem_of_ne_nil _ (hq.want sh i rw' hw)
      obtain rfl := hon.bio hrows hq hw'
      exact hrw ((hq.queued _ _ _ w hw').dir.symm.trans (hq.queued _ _ _ w hv).dir)

/-- A request is postponed: no bio on the stripe is for a present member. -/
private theorem postpone (hrows : env.RowsUnshared) (hq : QueueInv env s) (h : SubmitInv env s)
    {k : ℕ} {rw : Dir} {c : Cache N τ} (hpc : s.pc t = .submit sh (k + 1))
    (hpost : Cache.Postponed env.conf s.cache sh k rw c) :
    SubmitInv env ({ s with cache := c }.goto t (.submit sh k)) := by
  refine h.dev hrows hq rfl (by rw [hpc]; rfl) rfl hpost.row (fun rw' => ?_) h.nodup
    (fun req => Or.inl) fun i rw' hon _ => ?_
  · exact (R5dev.queue_unlock _ _).trans (R5dev.queue_setWant _ _ _ _)
  · obtain ⟨v, hv⟩ := List.exists_mem_of_ne_nil _
      (hq.want sh k rw (R5dev.want_of_submitDir hpost.dir))
    obtain rfl := hon.bio hrows hq hv
    refine absurd ?_ hon.present
    rw [(hq.queued _ _ _ v hon.queued).dev, ← (hq.queued _ _ _ v hv).dev]
    exact hpost.absent

/-- A miss takes a stripe on which nothing is queued. -/
private theorem miss (hv : env.Supported) (hq : QueueInv env s) (h : SubmitInv env s)
    {sector : UInt64} {pdIdx : Int32} {c : Cache N τ} (hpc : s.pc t = .get ∨ s.pc t = .wait)
    (hm : Cache.Miss env.conf s.cache sector pdIdx sh c) :
    SubmitInv env ({ s with cache := c }.goto t (.add sh)) := by
  refine ⟨h.nodup, fun u x i rw hu => ?_⟩
  have hmem : u ∈ s.queue x i rw := by
    have hmem := hu.queued
    change u ∈ ((c.row x).dev i).queue rw at hmem
    rwa [hm.queue] at hmem
  have hx : x ≠ sh := fun e => by
    rw [e, hq.queue_eq_nil_of_miss hv hm] at hmem
    cases hmem
  have hut : u ≠ t := fun e => by
    have hadded := (hq.queued _ _ _ u hmem).added
    rw [e] at hadded
    rcases hpc with hpc | hpc <;> rw [hpc] at hadded <;> cases hadded
  refine (h.settled u x i rw ⟨hmem, hu.present⟩).congr ?_ (fun req => Or.inl) fun rw' hw => ?_
  · rw [pc_goto_of_ne _ _ hut]
  · change ((c.row x).dev i).want rw' = true at hw
    rwa [hm.row, Function.update_of_ne hx] at hw

variable [Fintype τ]

/-- **A step of a thread keeps the submission invariant.** -/
private theorem runs (hv : env.Supported) (hrows : env.RowsUnshared) (hinv : Inv env s)
    (h : SubmitInv env s) (hrun : Runs env s t s') : SubmitInv env s' := by
  have hq := hinv.queues
  -- a bio is queued by a call that is past `__add_stripe_bio`
  have early : ∀ {q : Pc N} {P : Fin N → ℕ → Dir → Prop}, s.pc t = q → q.added = false →
      ∀ sh i rw, OnMember env s t sh i rw → P sh i rw := fun hpc hno sh i rw hon => by
    have hadded := (hq.queued _ _ _ t hon.queued).added
    rw [hpc, hno] at hadded
    cases hadded
  have daemon : ∀ {P : Fin N → ℕ → Dir → Prop}, env.thread t = .jraid5d →
      ∀ sh i rw, OnMember env s t sh i rw → P sh i rw := fun ht sh i rw hon => by
    obtain ⟨b, hb⟩ := (hq.queued _ _ _ t hon.queued).call
    rw [ht] at hb
    cases hb
  cases hrun with
  | idle => exact h
  | start ht hpc => exact h.row (p := .get) rfl rfl rfl (early hpc rfl)
  | startDaemon ht hpc => exact h.row (p := .pop) rfl rfl rfl (early hpc rfl)
  | @hit b sh c ht hpc hhit =>
    refine h.row (p := .add sh) rfl hhit.row rfl ?_
    rcases hpc with hpc | hpc <;> exact early hpc rfl
  | miss ht hpc hmiss => exact h.miss hv hq hpc hmiss
  | exhausted ht hpc hfree =>
    refine h.row (p := .wait) rfl rfl rfl ?_
    rcases hpc with hpc | hpc <;> exact early hpc rfl
  | add ht hpc => exact h.add hrows hq ht hpc rfl
  | scan hpc => exact h.scan hrows hq hpc
  | parity hpc => exact h.parity hv hrows hq hpc
  | skip hpc hdir => exact h.skip hpc hdir
  | request hpc hsub => exact h.request hrows hq hpc hsub
  | postpone hpc hpost => exact h.postpone hrows hq hpc hpost
  | release ht hpc =>
    refine h.row (p := .finish) rfl (Cache.row_releaseStripe _ _) rfl fun x i _ _ => ?_
    rw [hpc]
    exact iff_of_false id fun hs => Nat.not_lt_zero _ hs.2
  | releaseDaemon ht hpc =>
    exact h.row (p := .pop) rfl (Cache.row_releaseStripe _ _) rfl (daemon ht)
  | finish ht hpc =>
    obtain ⟨hcache, hpc', hin, -⟩ := finish_frame s t
    refine h.row hpc' (by rw [hcache]) hin fun x i _ _ => ?_
    rw [hpc]
    exact iff_of_false id id
  | @take sh c ht hpc htaken =>
    exact h.row (p := .scan sh env.conf.numDisks) rfl htaken.row rfl (daemon ht)
  | drained ht hpc hwork => exact h.row (p := .done) rfl rfl rfl (daemon ht)

omit [DecidableEq τ] [Fintype τ] in
/-- A completion keeps the submission invariant. -/
private theorem completes (h : SubmitInv env s) {k : ℕ} {req : MemberReq N τ}
    (hk : Completes s k req s') : SubmitInv env s' := by
  obtain ⟨page, hrow⟩ := hk.row
  have hsub : s'.inflight.Sublist s.inflight := hk.inflight ▸ List.eraseIdx_sublist _ _
  refine ⟨h.nodup.sublist (hsub.map _), fun u x i rw hu => ?_⟩
  have hmem : u ∈ s.queue x i rw := by
    have hmem := hu.queued
    rwa [QueueInv.queue_modifyDev hrow fun rw => by cases rw <;> rfl] at hmem
  refine (h.settled u x i rw ⟨hmem, hu.present⟩).congr (by rw [hk.pc])
    (fun r hr => Or.inl (hsub.subset hr)) fun rw' hw => ?_
  rw [want_modifyDev s s' req.sh hrow] at hw
  split_ifs at hw with hx
  · obtain ⟨rfl, rfl⟩ := hx
    cases rw' <;> exact hw
  · exact hw

theorem reachable (hv : env.Supported) (hrows : env.RowsUnshared)
    (hs : env.machine.Reachable s) : SubmitInv env s := by
  refine hs.invariant (SubmitInv.init env) fun s e s' hs h hstep => ?_
  obtain ⟨t, -, hrun⟩ | rfl | ⟨k, req, -, hdone⟩ := step_cases hstep
  · exact h.runs hv hrows (Inv.reachable hv hs) hrun
  · exact h
  · exact h.completes hdone

end SubmitInv

/-! ### When a request is submitted twice -/

variable [DecidableEq τ] [Fintype τ]

/-- If a call to a present member runs first and another call for its row runs next, the request
of the member is submitted twice. -/
private theorem exists_submitted_twice {b b' : Bio} (hv : env.Supported) (hN : 0 < N)
    (htu : t ≠ u) (ht : env.thread t = .makeRequest b) (hu : env.thread u = .makeRequest b')
    (hrow : (env.place t).newSector = (env.place u).newSector)
    (hdisk : (env.conf.disks (env.dev t)).jrdev ≠ none) :
    ∃ s, env.machine.Reachable s ∧ ¬(s.inflight.map MemberReq.key).Nodup := by
  obtain ⟨sh, s₁, s₂, hs₁, hserved, -, hpc, hmem, -⟩ := exists_first_served hv hN ht
  have hs₂ := hs₁.trans hserved.leads
  obtain ⟨l, hin, hreq⟩ := hserved.inflight
  obtain ⟨r, hr, hrsh, hrdev⟩ := hreq _ (hv.dev_lt t) _ (List.ne_nil_of_mem hmem) hdisk
  -- the second call finds the stripe and asks for the request of the first one again
  obtain ⟨s₃, s₄, hopen', hserved'⟩ := exists_next_served hv hs₂ hmem hu (hpc u htu.symm) hrow
  have hmem' : t ∈ s₄.queue sh (env.dev t) (env.bio t).biRw := by
    refine (hserved'.queue _ _ _ _).mpr (Or.inl ?_)
    rwa [hopen'.queue]
  obtain ⟨l', hin', hreq'⟩ := hserved'.inflight
  obtain ⟨r', hr', hrsh', hrdev'⟩ := hreq' _ (hv.dev_lt t) _ (List.ne_nil_of_mem hmem') hdisk
  refine ⟨s₄, (hs₂.trans hopen'.leads).trans hserved'.leads, fun hnodup => ?_⟩
  rw [hin', hopen'.inflight, List.map_append, List.nodup_append] at hnodup
  have hkey : r.key = r'.key := Prod.ext (hrsh.trans hrsh'.symm) (hrdev.trans hrdev'.symm)
  refine hnodup.2.2 _ (List.mem_map_of_mem ?_) _ (List.mem_map_of_mem hr') hkey
  rw [hin]
  exact List.mem_append_right _ hr

/-- **No request is in flight twice, in any run, exactly when no two calls share a row, unless
both go to absent members.** -/
theorem single_submission_iff (env : Env N τ) (hv : env.Supported) (hN : 0 < N) :
    (∀ s, env.machine.Reachable s → (s.inflight.map MemberReq.key).Nodup) ↔ env.RowsUnshared := by
  constructor
  · rintro h t u htu ⟨b, ht⟩ ⟨b', hu⟩ hrow
    by_contra hdisk
    obtain ⟨s, hs, htwice⟩ := exists_submitted_twice hv hN htu ht hu hrow hdisk
    exact htwice (h s hs)
  · intro hrows s hs
    exact (SubmitInv.reachable hv hrows hs).nodup

/-- Two writes to the two data blocks of a row: the second call submits the request of the first
one again. -/
theorem submitted_twice :
    let env := smallArray nrStripes allPresent [⟨0, 4096, .write⟩, ⟨8, 4096, .write⟩]
    ∃ s, env.machine.Reachable s ∧ ¬(s.inflight.map MemberReq.key).Nodup :=
  exists_submitted_twice (t := 0) (u := 1) (Env.supported_smallArray _ _ _) (by decide) (by decide)
    rfl rfl (by decide) (by decide)

/-- Two writes to two rows. -/
theorem single_submission_iff_two_rows :
    let env := smallArray nrStripes allPresent [⟨0, 4096, .write⟩, ⟨16, 4096, .write⟩]
    ∀ s, env.machine.Reachable s → (s.inflight.map MemberReq.key).Nodup := by
  intro env
  have hdistinct : ∀ t u, t ≠ u → (env.place t).newSector ≠ (env.place u).newSector := by decide
  exact (single_submission_iff env (Env.supported_smallArray _ _ _) (by decide)).mpr
    fun t u htu _ _ hrow => absurd hrow (hdistinct t u htu)

end State

end JRaid
