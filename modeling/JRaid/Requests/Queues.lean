import JRaid.Requests.Counts

/-!
# Queues, wishes and requests in flight

What the devices of the stripes have to do with the calls that are under way, in every
reachable state of an array with a supported layout. A queued bio belongs to a call that has
been through `__add_stripe_bio` and whose place is the device it is queued on; a request is
asked for only where a bio is queued; a thread that holds a stripe is a call for the
stripe's sector or a daemon that handles a marked stripe; a stripe is marked only if a bio
is queued for an absent member; and a request in flight has been submitted for queued bios
of a present member.

Every step but a miss of `get_active_stripe` keeps the rows where they are, lets queues grow
and marks stay (`QueueInv.keep`). A miss takes a stripe that nobody refers to and on which
nothing is queued.
-/

namespace JRaid

variable {N : ℕ} {τ : Type}

/-- The layouts for which `jraid5_compute_sector` is a bijection. -/
structure Env.Supported (env : Env N τ) : Prop where
  level : env.conf.level = 4 ∨ env.conf.level = 5
  algorithm : env.conf.SupportedAlgorithm
  disks : 2 ≤ env.conf.numDisks
  chunk : 1 ≤ env.conf.sectorsPerChunk

theorem Env.Supported.layout {env : Env N τ} (h : env.Supported) : env.conf.SupportedLayout :=
  h.level.imp id fun h5 => ⟨h5, h.algorithm⟩

/-- The device of a call. -/
def Env.dev (env : Env N τ) (t : τ) : ℕ := (env.place t).ddIdx.toNat

theorem Env.Supported.dev_lt {env : Env N τ} (h : env.Supported) (t : τ) :
    env.dev t < env.conf.numDisks := by
  obtain ⟨hdd, -, -⟩ := JRaid5Conf.toNat_mapSector h.layout h.disks h.chunk (env.bio t).biSector 0
  exact hdd.trans_lt (RowLayout.place_lt h.disks _)

theorem Env.supported_smallArray (N : ℕ) (disks : ℕ → DiskInfo) (bios : List Bio) :
    (smallArray N disks bios).Supported where
  level := Or.inr rfl
  algorithm := Or.inr (Or.inr (Or.inl rfl))
  disks := show 2 ≤ (3 : Int32).toNatClampNeg by decide
  chunk := show 1 ≤ ((4096 : Int32) >>> 9).toNatClampNeg by decide

/-- The members that the calls go to are all absent. -/
def Env.TargetsAbsent (env : Env N τ) : Prop :=
  ∀ t b, env.thread t = .makeRequest b → (env.conf.disks (env.dev t)).jrdev = none

/-- A call goes to a data disk. -/
theorem Env.Supported.dev_ne_parity {env : Env N τ} (h : env.Supported) (t : τ) :
    env.dev t ≠
      env.conf.parityDisk ((env.place t).newSector.toNat / env.conf.sectorsPerChunk) := by
  obtain ⟨hdd, hnew, -⟩ :=
    JRaid5Conf.toNat_mapSector h.layout h.disks h.chunk (env.bio t).biSector 0
  have := RowLayout.place_ne_parity (L := env.conf.layout h.disks) h.disks h.chunk
    (env.bio t).biSector.toNat
  rwa [JRaid5Conf.layout_parity, ← hdd, ← hnew] at this

/-- Past `__add_stripe_bio`, for a call. -/
def Pc.added : Pc N → Bool
  | .start | .get | .wait | .add _ => false
  | _ => true

namespace State

/-- What is known of a bio queued on a device. -/
structure Queued (env : Env N τ) (s : State N τ) (u : τ) (sh : Fin N) (i : ℕ) (rw : Dir) :
    Prop where
  call : ∃ b, env.thread u = .makeRequest b
  dir : (env.bio u).biRw = rw
  sector : (s.cache.row sh).sector = (env.place u).newSector
  dev : i = env.dev u
  hashed : s.cache.Hashed sh
  added : (s.pc u).added = true

/-- What is known of a stripe held by a thread. -/
def Fits (env : Env N τ) (s : State N τ) (t : τ) (sh : Fin N) : Prop :=
  match env.thread t with
  | .makeRequest _ => (s.cache.row sh).sector = (env.place t).newSector ∧ s.cache.Hashed sh
  | .jraid5d => s.cache.pool.marked sh = true

/-- The bios queued on a device of a stripe in one direction. -/
def queue (s : State N τ) (sh : Fin N) (i : ℕ) (rw : Dir) : List τ :=
  ((s.cache.row sh).dev i).queue rw

/-- `__add_stripe_bio` accepts the bio of a call on a stripe. -/
def Accepts (env : Env N τ) (s : State N τ) (t : τ) (sh : Fin N) : Prop :=
  (((s.cache.row sh).dev (env.dev t)).addBio env.bio t (env.bio t).biRw).1 = true

/-- A bio is accepted where none is queued. -/
theorem accepts_of_queue_eq_nil {env : Env N τ} {s : State N τ} {t : τ} {sh : Fin N}
    (h : s.queue sh (env.dev t) (env.bio t).biRw = []) : Accepts env s t sh := by
  refine Bool.of_not_eq_false fun hrej => ?_
  rw [R5dev.addBio_eq_false_iff, ← State.queue, h] at hrej
  cases hrej

/-- Bios that are queued on the device of a call start where the bio of the call does. -/
theorem Queued.sector_eq {env : Env N τ} {s : State N τ} {t u : τ} {sh : Fin N} {rw : Dir}
    (h : Queued env s u sh (env.dev t) rw) (hv : env.Supported)
    (hsh : (s.cache.row sh).sector = (env.place t).newSector) :
    (env.bio u).biSector = (env.bio t).biSector :=
  JRaid5Conf.mapSector_inj hv.layout hv.disks hv.chunk 0 0 (h.sector.symm.trans hsh) h.dev.symm

/-- A request is asked for. -/
def want (s : State N τ) (sh : Fin N) (i : ℕ) (rw : Dir) : Bool :=
  ((s.cache.row sh).dev i).want rw

/-- Writing a device, as far as the wishes show it. -/
theorem want_modifyDev (s s' : State N τ) (sh : Fin N) {i : ℕ} {f : R5dev τ → R5dev τ}
    (hrow : s'.cache.row = (s.cache.modifyDev sh i f).row) (x : Fin N) (j : ℕ) (rw : Dir) :
    s'.want x j rw =
      if x = sh ∧ j = i then (f ((s.cache.row sh).dev i)).want rw else s.want x j rw := by
  rw [want, hrow, Cache.dev_modifyDev]
  split_ifs <;> rfl

/-- A request that was submitted for queued bios of a present member. -/
structure Justified (env : Env N τ) (s : State N τ) (req : MemberReq N τ) : Prop where
  present : ∃ jrdev, (env.conf.disks req.dev).jrdev = some jrdev
  bios : req.bios ≠ []
  queued : req.bios ⊆ s.queue req.sh req.dev req.rw

/-- The queue invariant. -/
structure QueueInv (env : Env N τ) (s : State N τ) : Prop where
  block : ∀ sh i, ((s.cache.row sh).dev i).written = [] ∧
    ((s.cache.row sh).dev i).flags.locked = false
  queued : ∀ sh i rw, ∀ u ∈ s.queue sh i rw, Queued env s u sh i rw
  want : ∀ sh i rw, s.want sh i rw = true → s.queue sh i rw ≠ []
  held : ∀ t sh, (s.pc t).held = some sh → Fits env s t sh
  marked : ∀ sh, s.cache.pool.marked sh = true →
    ∃ i rw, (env.conf.disks i).jrdev = none ∧ s.queue sh i rw ≠ []
  inflight : ∀ req ∈ s.inflight, Justified env s req

namespace QueueInv

variable {env : Env N τ} {s s' : State N τ} {t : τ}

/-- What a step that reuses no stripe may change. -/
structure Keeps (env : Env N τ) (s s' : State N τ) : Prop where
  sector : ∀ sh, (s'.cache.row sh).sector = (s.cache.row sh).sector
  pdIdx : ∀ sh, (s'.cache.row sh).pdIdx = (s.cache.row sh).pdIdx
  table : s'.cache.table = s.cache.table
  block : ∀ sh i, ((s.cache.row sh).dev i).SameBlock ((s'.cache.row sh).dev i)
  added : ∀ u, (s.pc u).added = true → (s'.pc u).added = true
  mono : ∀ sh i rw, s.queue sh i rw ⊆ s'.queue sh i rw
  queued : ∀ sh i rw, ∀ u ∈ s'.queue sh i rw, u ∈ s.queue sh i rw ∨ Queued env s' u sh i rw
  want : ∀ sh i rw, s'.want sh i rw = true → s.want sh i rw = true ∨ s.queue sh i rw ≠ []
  held : ∀ u sh, (s'.pc u).held = some sh → (s.pc u).held = some sh ∨ Fits env s' u sh
  marked_mono : ∀ sh, s.cache.pool.marked sh = true → s'.cache.pool.marked sh = true
  marked : ∀ sh, s'.cache.pool.marked sh = true → s.cache.pool.marked sh = true ∨
    ∃ i rw, (env.conf.disks i).jrdev = none ∧ s'.queue sh i rw ≠ []
  inflight : ∀ req ∈ s'.inflight, req ∈ s.inflight ∨ Justified env s' req

/-- A step that reuses no stripe keeps the invariant. -/
theorem keep (h : QueueInv env s) (k : Keeps env s s') : QueueInv env s' := by
  have hashed : ∀ sh, s.cache.Hashed sh → s'.cache.Hashed sh := fun sh hsh => by
    rwa [Cache.Hashed, k.table]
  have nonempty : ∀ {sh i rw}, s.queue sh i rw ≠ [] → s'.queue sh i rw ≠ [] := by
    intro sh i rw hne hnil
    obtain ⟨u, hu⟩ := List.exists_mem_of_ne_nil _ hne
    exact List.not_mem_nil (hnil ▸ k.mono sh i rw hu)
  refine ⟨fun sh i => ?_, fun sh i rw u hu => ?_, fun sh i rw hw => ?_, fun t sh ht => ?_,
    fun sh hm => ?_, fun req hreq => ?_⟩
  · exact ⟨(k.block sh i).written.trans (h.block sh i).1, (k.block sh i).locked (h.block sh i).2⟩
  · obtain hold | hnew := k.queued sh i rw u hu
    · have hq := h.queued sh i rw u hold
      exact ⟨hq.call, hq.dir, (k.sector sh).trans hq.sector, hq.dev, hashed sh hq.hashed,
        k.added u hq.added⟩
    · exact hnew
  · exact nonempty ((k.want sh i rw hw).elim (h.want sh i rw) id)
  · obtain hold | hnew := k.held t sh ht
    · have hfit := h.held t sh hold
      unfold Fits at hfit ⊢
      cases ht : env.thread t with
      | makeRequest b =>
        rw [ht] at hfit
        exact ⟨(k.sector sh).trans hfit.1, hashed sh hfit.2⟩
      | jraid5d =>
        rw [ht] at hfit
        exact k.marked_mono sh hfit
    · exact hnew
  · obtain hold | hnew := k.marked sh hm
    · obtain ⟨i, rw, habs, hne⟩ := h.marked sh hold
      exact ⟨i, rw, habs, nonempty hne⟩
    · exact hnew
  · obtain hold | hnew := k.inflight req hreq
    · have hj := h.inflight req hold
      exact ⟨hj.present, hj.bios, fun u hu => k.mono _ _ _ (hj.queued hu)⟩
    · exact hnew

/-- Writing a device without touching its queues. -/
theorem queue_modifyDev {sh : Fin N} {i : ℕ} {f : R5dev τ → R5dev τ}
    (hrow : s'.cache.row = (s.cache.modifyDev sh i f).row)
    (hf : ∀ rw, (f ((s.cache.row sh).dev i)).queue rw = s.queue sh i rw) :
    s'.queue = s.queue := by
  funext x j rw
  rw [State.queue, hrow, Cache.dev_modifyDev]
  split_ifs with hx
  · obtain ⟨rfl, rfl⟩ := hx
    exact hf rw
  · rfl

/-- A device of a new stripe. -/
theorem init_dev (env : Env N τ) (sh : Fin N) (i : ℕ) :
    (∀ rw, env.init.queue sh i rw = []) ∧ (∀ rw, env.init.want sh i rw = false) ∧
      ((env.init.cache.row sh).dev i).written = [] ∧
      ((env.init.cache.row sh).dev i).flags.locked = false := by
  have hcache : env.init.cache = _ := Cache.growStripes_eq N τ env.conf env.page
  unfold State.queue State.want
  rw [hcache]
  simp only [Cache.row, StripeHead.row, Cache.growBuffers, StripeHead.zero]
  split_ifs <;> exact ⟨fun rw => by cases rw <;> rfl, fun rw => by cases rw <;> rfl, rfl, rfl⟩

theorem init (env : Env N τ) : QueueInv env env.init := by
  have hpool : env.init.cache.pool = _ := Cache.pool_growStripes N τ env.conf env.page
  refine ⟨fun sh i => (init_dev env sh i).2.2, fun sh i rw u hu => ?_, fun sh i rw hw => ?_,
    fun t sh ht => ?_, fun sh hm => ?_, fun req hreq => ?_⟩
  · rw [(init_dev env sh i).1] at hu
    cases hu
  · rw [(init_dev env sh i).2.1] at hw
    cases hw
  · cases ht
  · rw [hpool] at hm
    cases hm
  · cases hreq

/-! ### Steps that keep the rows -/

theorem keeps_refl : Keeps env s s :=
  ⟨fun _ => rfl, fun _ => rfl, rfl, fun _ _ => ⟨rfl, rfl, id⟩, fun _ => id,
    fun _ _ _ => List.Subset.refl _, fun _ _ _ _ => Or.inl, fun _ _ _ => Or.inl, fun _ _ => Or.inl,
    fun _ => id, fun _ => Or.inl, fun _ => Or.inl⟩

/-- One device is written. -/
private theorem keeps_dev {sh : Fin N} {i : ℕ} {f : R5dev τ → R5dev τ}
    (hrow : s'.cache.row = (s.cache.modifyDev sh i f).row)
    (htable : s'.cache.table = s.cache.table)
    (hsame : ((s.cache.row sh).dev i).SameBlock (f ((s.cache.row sh).dev i)))
    (hmono : ∀ rw, s.queue sh i rw ⊆ (f ((s.cache.row sh).dev i)).queue rw)
    (hqueued : ∀ rw, ∀ u ∈ (f ((s.cache.row sh).dev i)).queue rw,
      u ∈ s.queue sh i rw ∨ Queued env s' u sh i rw)
    (hwant : ∀ rw, (f ((s.cache.row sh).dev i)).want rw = true →
      s.want sh i rw = true ∨ s.queue sh i rw ≠ [])
    (hmono' : ∀ x, s.cache.pool.marked x = true → s'.cache.pool.marked x = true)
    (hmarked : ∀ x, s'.cache.pool.marked x = true → s.cache.pool.marked x = true ∨
      ∃ i rw, (env.conf.disks i).jrdev = none ∧ s'.queue x i rw ≠ [])
    (hin : ∀ req ∈ s'.inflight, req ∈ s.inflight ∨ Justified env s' req)
    (hadded : ∀ u, (s.pc u).added = true → (s'.pc u).added = true)
    (hheld : ∀ u sh, (s'.pc u).held = some sh → (s.pc u).held = some sh ∨ Fits env s' u sh) :
    Keeps env s s' := by
  have hdev : ∀ x j, (s'.cache.row x).dev j =
      if x = sh ∧ j = i then f ((s.cache.row sh).dev i) else (s.cache.row x).dev j := fun x j => by
    rw [hrow, Cache.dev_modifyDev]
  refine ⟨fun x => by rw [hrow, Cache.sector_modifyDev],
    fun x => by rw [hrow, Cache.pdIdx_modifyDev], htable, fun x j => ?_,
    hadded, fun x j rw => ?_, fun x j rw u hu => ?_, fun x j rw hw => ?_,
    hheld, hmono', hmarked, hin⟩
  all_goals by_cases hx : x = sh ∧ j = i
  · obtain ⟨rfl, rfl⟩ := hx
    rw [hdev, if_pos ⟨rfl, rfl⟩]
    exact hsame
  · rw [hdev, if_neg hx]
    exact ⟨rfl, rfl, id⟩
  · obtain ⟨rfl, rfl⟩ := hx
    rw [queue, queue, hdev, if_pos ⟨rfl, rfl⟩]
    exact hmono rw
  · rw [queue, queue, hdev, if_neg hx]
    exact List.Subset.refl _
  · obtain ⟨rfl, rfl⟩ := hx
    rw [queue, hdev, if_pos ⟨rfl, rfl⟩] at hu
    exact hqueued rw u hu
  · rw [queue, hdev, if_neg hx] at hu
    exact Or.inl hu
  · obtain ⟨rfl, rfl⟩ := hx
    rw [State.want, hdev, if_pos ⟨rfl, rfl⟩] at hw
    exact hwant rw hw
  · rw [State.want, hdev, if_neg hx] at hw
    exact Or.inl hw

variable [DecidableEq τ]

section Moves

variable {p : Pc N} (hpc : s'.pc = Function.update s.pc t p)

include hpc in
private theorem added_move (hp : (s.pc t).added = true → p.added = true) (u : τ)
    (hu : (s.pc u).added = true) : (s'.pc u).added = true := by
  rw [hpc, Function.update_apply]
  split_ifs with hut
  · exact hp (hut ▸ hu)
  · exact hu

include hpc in
private theorem held_move (hp : ∀ sh, p.held = some sh → (s.pc t).held = some sh ∨ Fits env s' t sh)
    (u : τ) (sh : Fin N) (hu : (s'.pc u).held = some sh) :
    (s.pc u).held = some sh ∨ Fits env s' u sh := by
  rw [hpc, Function.update_apply] at hu
  split_ifs at hu with hut
  · exact hut ▸ hp sh hu
  · exact Or.inl hu

include hpc in
/-- A thread moves and the rows stay as they are. -/
private theorem keeps_row (hrow : s'.cache.row = s.cache.row)
    (htable : s'.cache.table = s.cache.table)
    (hmarked : s'.cache.pool.marked = s.cache.pool.marked) (hin : s'.inflight = s.inflight)
    (hadded : (s.pc t).added = true → p.added = true)
    (hheld : ∀ sh, p.held = some sh → (s.pc t).held = some sh ∨ Fits env s' t sh) :
    Keeps env s s' := by
  have hq : s'.queue = s.queue := by unfold State.queue; rw [hrow]
  have hw : s'.want = s.want := by unfold State.want; rw [hrow]
  refine ⟨fun sh => by rw [hrow], fun sh => by rw [hrow], htable, fun sh i => ?_,
    added_move hpc hadded,
    fun sh i rw => ?_, fun sh i rw u hu => Or.inl (hq ▸ hu), fun sh i rw h => Or.inl (hw ▸ h),
    held_move hpc hheld, fun sh h => hmarked ▸ h, fun sh h => Or.inl (hmarked ▸ h),
    fun req h => Or.inl (hin ▸ h)⟩
  · rw [hrow]
    exact ⟨rfl, rfl, id⟩
  · rw [hq]
    exact List.Subset.refl _

end Moves

/-! ### The steps -/

/-- Queueing a bio. -/
private theorem keeps_add (h : QueueInv env s) {b : Bio} {sh : Fin N} {c : Cache N τ}
    (ht : env.thread t = .makeRequest b) (hpc : s.pc t = .add sh)
    (hrow : c.row = (s.cache.modifyDev sh (env.dev t) fun d => (d.addBio env.bio t b.biRw).2).row)
    (htable : c.table = s.cache.table) (hpool : c.pool = s.cache.pool) :
    Keeps env s ({ s with cache := c }.goto t (.scan sh env.conf.numDisks)) := by
  have hfit := h.held t sh (by rw [hpc]; rfl)
  rw [Fits, ht] at hfit
  have hbio : env.bio t = b := by rw [Env.bio, ht]
  have hframe := fun rw' =>
    R5dev.addBio_frame env.bio t ((s.cache.row sh).dev (env.dev t)) b.biRw rw'
  have hmem := fun rw' u =>
    R5dev.mem_queue_addBio env.bio t ((s.cache.row sh).dev (env.dev t)) b.biRw rw' u
  have hqueued : Queued env ({ s with cache := c }.goto t (.scan sh env.conf.numDisks)) t sh
      (env.dev t) b.biRw := by
    refine ⟨⟨b, ht⟩, by rw [hbio], ?_, rfl, ?_, ?_⟩
    · change (c.row sh).sector = _
      rw [hrow, Cache.sector_modifyDev]
      exact hfit.1
    · change c.table.pprev sh ≠ none
      rw [htable]
      exact hfit.2
    · simp [goto, Pc.added]
  refine keeps_dev hrow htable
    ⟨(hframe .read).2.2.2.1, (hframe .read).2.2.1, fun hl => (hframe .read).2.1.trans hl⟩
    (fun rw' u hu => (hmem rw' u).mpr (Or.inl hu)) (fun rw' u hu => ?_)
    (fun rw' hw => Or.inl ((hframe rw').1.symm.trans hw)) (fun x hx => ?_) (fun x hx => Or.inl ?_)
    (fun req hreq => Or.inl hreq) (added_move rfl fun _ => rfl)
    (held_move rfl fun x hx => Or.inl ?_)
  · obtain hold | ⟨rfl, rfl, -⟩ := (hmem rw' u).mp hu
    · exact Or.inl hold
    · exact Or.inr hqueued
  · change c.pool.marked x = true
    rw [hpool]
    exact hx
  · change c.pool.marked x = true at hx
    rwa [hpool] at hx
  · rw [hpc]
    exact hx

/-- Setting flags of a device. -/
private theorem keeps_flags {sh : Fin N} {i : ℕ} {f : R5dev τ → R5dev τ} {p : Pc N}
    (hsame : ∀ d : R5dev τ, d.SameBlock (f d)) (hqueue : ∀ d rw, (f d).queue rw = d.queue rw)
    (hwant : ∀ d rw, (f d).want rw = true → d.want rw = true ∨ d.queue rw ≠ [])
    (hadded : p.added = true) (hheld : p.held = (s.pc t).held) :
    Keeps env s ({ s with cache := s.cache.modifyDev sh i f }.goto t p) := by
  refine keeps_dev rfl (Cache.table_modifyDev _ _ _ _) (hsame _)
    (fun rw u hu => (hqueue _ rw).symm ▸ hu) (fun rw u hu => Or.inl (by rwa [hqueue] at hu))
    (hwant _) (fun x hx => ?_) (fun x hx => Or.inl ?_) (fun req hreq => Or.inl hreq)
    (added_move rfl fun _ => hadded) (held_move rfl fun x hx => Or.inl (hheld ▸ hx))
  · exact (Cache.pool_modifyDev s.cache sh i f).symm ▸ hx
  · exact (Cache.pool_modifyDev s.cache sh i f) ▸ hx

/-- Submitting, or postponing, the request of a device. -/
private theorem keeps_submitted {sh : Fin N} {i : ℕ} {rw : Dir} {c : Cache N τ}
    {f : R5dev τ → R5dev τ} {l : List (MemberReq N τ)} (hpc : s.pc t = .submit sh (i + 1))
    (hrow : c.row = (s.cache.modifyDev sh i f).row) (htable : c.table = s.cache.table)
    (hf : f = (fun d => d.setWant false rw) ∨ f = fun d => (d.setWant false rw).unlock)
    (hmono : ∀ x, s.cache.pool.marked x = true → c.pool.marked x = true)
    (hmarked : ∀ x, c.pool.marked x = true → s.cache.pool.marked x = true ∨
      ∃ i rw, (env.conf.disks i).jrdev = none ∧ s.queue x i rw ≠ [])
    (hin : ∀ req ∈ l, req ∈ s.inflight ∨ Justified env s req) :
    Keeps env s ({ s with cache := c, inflight := l }.goto t (.submit sh i)) := by
  have hq : ∀ d : R5dev τ, ∀ rw', (f d).queue rw' = d.queue rw' := fun d rw' => by
    obtain rfl | rfl := hf <;> simp
  have hw : ∀ d : R5dev τ, ∀ rw', (f d).want rw' = true → d.want rw' = true := fun d rw' hw => by
    obtain rfl | rfl := hf <;> simp at hw <;> exact hw.2
  have hsame : ∀ d : R5dev τ, d.SameBlock (f d) := fun d => by
    obtain rfl | rfl := hf
    · exact d.setWant_same rw false
    · exact (d.setWant_same rw false).trans (R5dev.unlock_same _)
  have hqueue : ({ s with cache := c, inflight := l }.goto t (.submit sh i)).queue = s.queue :=
    queue_modifyDev hrow fun rw' => hq _ rw'
  refine keeps_dev hrow htable (hsame _)
    (fun rw' u hu => (hq _ rw').symm ▸ hu) (fun rw' u hu => Or.inl (by rwa [hq] at hu))
    (fun rw' hw' => Or.inl (hw _ rw' hw')) hmono (fun x hx => ?_) (fun req hreq => ?_)
    (added_move rfl fun _ => rfl) (held_move rfl fun x hx => Or.inl ?_)
  · rw [hqueue]
    exact hmarked x hx
  · obtain hold | hj := hin req hreq
    · exact Or.inl hold
    · exact Or.inr ⟨hj.present, hj.bios, hqueue ▸ hj.queued⟩
  · rw [hpc]
    exact hx

omit [DecidableEq τ] in
/-- Nothing is queued on a stripe that a miss takes. -/
theorem queue_eq_nil_of_miss (hv : env.Supported) (h : QueueInv env s) {sector : UInt64}
    {pdIdx : Int32} {sh : Fin N} {c : Cache N τ}
    (hm : Cache.Miss env.conf s.cache sector pdIdx sh c) (i : ℕ) (rw : Dir) :
    s.queue sh i rw = [] := by
  rcases Nat.lt_or_ge i env.conf.numDisks with hi | hi
  · have hclean := hm.clean i hi
    simp only [R5dev.Pending, not_or, not_not] at hclean
    cases rw
    · exact hclean.1
    · exact hclean.2.1
  · -- beyond the last disk there is no call to queue
    refine List.eq_nil_iff_forall_not_mem.mpr fun u hu => ?_
    have hdev := (h.queued sh i rw u hu).dev
    have hlt := hv.dev_lt u
    omega

variable [Fintype τ]

/-- A thread that holds a stripe does not hold the free one that a miss takes. -/
theorem fits_of_miss (h : QueueInv env s) (hh : Cache.HashInv env.conf s.cache) {sector : UInt64}
    {pdIdx : Int32} {sh : Fin N} {c : Cache N τ} (hrefs : s.refs sh = 0)
    (hm : Cache.Miss env.conf s.cache sector pdIdx sh c) {u : τ} {x : Fin N}
    (hu : (s.pc u).held = some x) : Fits env ({ s with cache := c }.goto t (.add sh)) u x := by
  have hx : x ≠ sh := fun e => refs_ne_zero_of_held hu (e ▸ hrefs)
  have hmarked : c.pool.marked = Function.update s.cache.pool.marked sh false := by
    rw [hm.pool]
    rfl
  have hfit := h.held u x hu
  unfold Fits at hfit ⊢
  dsimp only [goto]
  rw [hm.row, hmarked, Function.update_of_ne hx, Function.update_of_ne hx]
  cases hthread : env.thread u with
  | makeRequest b =>
    rw [hthread] at hfit
    exact ⟨hfit.1, (hh.hashed_relink hm.table x).mpr (Or.inr hfit.2)⟩
  | jraid5d =>
    rw [hthread] at hfit
    exact hfit

/-- **A miss keeps the invariant**: nobody refers to the stripe and nothing is queued on it. -/
theorem miss (hv : env.Supported) (h : QueueInv env s) (hc : CountInv s)
    (hh : Cache.HashInv env.conf s.cache) {b : Bio} {sh : Fin N} {c : Cache N τ}
    (ht : env.thread t = .makeRequest b) (hpc : s.pc t = .get ∨ s.pc t = .wait)
    (hm : Cache.Miss env.conf s.cache (env.place t).newSector (env.place t).pdIdx.toInt32 sh c) :
    QueueInv env ({ s with cache := c }.goto t (.add sh)) := by
  have hnil := h.queue_eq_nil_of_miss hv hm
  obtain ⟨rest, hfree⟩ := hm.free
  have hrefs : s.refs sh = 0 := ((hc.pool.mem_free sh).mp (hfree ▸ List.mem_cons_self)).1
  have hrow : ∀ x, x ≠ sh → c.row x = s.cache.row x := fun x hx => by
    rw [hm.row, Function.update_of_ne hx]
  have hqueue : ∀ x i rw, ((c.row x).dev i).queue rw = s.queue x i rw := hm.queue
  have hhashed : ∀ x, x = sh ∨ s.cache.Hashed x → c.Hashed x := fun x hx =>
    (hh.hashed_relink hm.table x).mpr hx
  have hmarked : c.pool.marked = Function.update s.cache.pool.marked sh false := by
    rw [hm.pool]
    rfl
  -- for each part: the stripe that is taken, and the others, which stay
  refine ⟨fun x i => ?_, fun x i rw u hu => ?_, fun x i rw hw => ?_, fun u x hu => ?_,
    fun x hx => ?_, fun req hreq => ?_⟩
  · change ((c.row x).dev i).written = [] ∧ ((c.row x).dev i).flags.locked = false
    obtain ⟨hwritten, hflags | hflags⟩ := hm.written_flags x i
    · rw [hwritten, hflags]
      exact ⟨(h.block x i).1, rfl⟩
    · rw [hwritten, hflags]
      exact h.block x i
  · change u ∈ ((c.row x).dev i).queue rw at hu
    rw [hqueue] at hu
    have hx : x ≠ sh := fun e => by rw [e, hnil] at hu; cases hu
    -- a queued call has gone past the request for its stripe
    have hold := h.queued x i rw u hu
    refine ⟨hold.call, hold.dir, (congrArg Row.sector (hrow x hx)).trans hold.sector, hold.dev,
      hhashed x (Or.inr hold.hashed), ?_⟩
    have hut : u ≠ t := fun e => by
      have hadded := hold.added
      rw [e] at hadded
      rcases hpc with hpc | hpc <;> rw [hpc] at hadded <;> cases hadded
    rw [pc_goto_of_ne _ _ hut]
    exact hold.added
  · change ((c.row x).dev i).want rw = true at hw
    change ((c.row x).dev i).queue rw ≠ []
    rw [hqueue]
    obtain ⟨-, hflags | hflags⟩ := hm.written_flags x i
    · rw [R5dev.want_congr (d := R5dev.zero) hflags] at hw
      cases rw <;> cases hw
    · rw [R5dev.want_congr hflags] at hw
      exact h.want x i rw hw
  · by_cases hut : u = t
    · subst hut
      rw [pc_goto_self] at hu
      obtain rfl : sh = x := Option.some.inj hu
      rw [Fits, ht]
      exact ⟨hm.sector_self, hhashed sh (Or.inl rfl)⟩
    · rw [pc_goto_of_ne _ _ hut] at hu
      exact h.fits_of_miss hh hrefs hm hu
  · change c.pool.marked x = true at hx
    have hxs : x ≠ sh := fun e => by rw [hmarked, e, Function.update_self] at hx; cases hx
    rw [hmarked, Function.update_of_ne hxs] at hx
    obtain ⟨i, rw, habs, hne⟩ := h.marked x hx
    refine ⟨i, rw, habs, ?_⟩
    change ((c.row x).dev i).queue rw ≠ []
    rwa [hqueue]
  · have hj := h.inflight req hreq
    refine ⟨hj.present, hj.bios, fun u hu => ?_⟩
    change u ∈ ((c.row req.sh).dev req.dev).queue req.rw
    rw [hqueue]
    exact hj.queued hu

/-- **A step of a thread reuses a stripe in a miss, or keeps the rows.** -/
theorem keeps_or_miss (hc : CountInv s) (hh : Cache.HashInv env.conf s.cache)
    (h : QueueInv env s) (hrun : Runs env s t s') : Keeps env s s' ∨
      ∃ sh c, (s.pc t = .get ∨ s.pc t = .wait) ∧ (∃ b, env.thread t = .makeRequest b) ∧
        Cache.Miss env.conf s.cache (env.place t).newSector (env.place t).pdIdx.toInt32 sh c ∧
        s' = { s with cache := c }.goto t (.add sh) := by
  -- a thread that keeps its stripe, or has none, fits as before
  have still : ∀ {p : Pc N} {s' : State N τ}, p.held = (s.pc t).held → ∀ sh, p.held = some sh →
      (s.pc t).held = some sh ∨ Fits env s' t sh := fun hp sh hsh => Or.inl (hp ▸ hsh)
  have gone : ∀ {p : Pc N} {s' : State N τ}, p.held = none → ∀ sh, p.held = some sh →
      (s.pc t).held = some sh ∨ Fits env s' t sh := fun hp sh hsh => by rw [hp] at hsh; cases hsh
  cases hrun with
  | idle => exact Or.inl keeps_refl
  | start ht hpc =>
    exact Or.inl (keeps_row (p := .get) rfl rfl rfl rfl rfl (by rw [hpc]; exact id) (gone rfl))
  | startDaemon ht hpc =>
    exact Or.inl (keeps_row (p := .pop) rfl rfl rfl rfl rfl (fun _ => rfl) (gone rfl))
  | @hit b sh c ht hpc hhit =>
    refine Or.inl (keeps_row (p := .add sh) rfl hhit.row hhit.table ?_ rfl ?_ fun x hx => ?_)
    · exact (congrArg RefPool.marked hhit.pool).trans (RefPool.marked_claim _ _)
    · rcases hpc with hpc | hpc <;> rw [hpc] <;> exact id
    · -- the stripe was found by the sector of the call
      obtain rfl : sh = x := Option.some.inj hx
      obtain ⟨hhashed, hsector⟩ := hh.hashed_of_find hhit.find
      refine Or.inr ?_
      rw [Fits, ht]
      dsimp only [goto]
      rw [hhit.row, Cache.Hashed, hhit.table]
      exact ⟨hsector, hhashed⟩
  | @miss b sh c ht hpc hmiss => exact Or.inr ⟨sh, c, hpc, ⟨b, ht⟩, hmiss, rfl⟩
  | exhausted ht hpc hfree =>
    refine Or.inl (keeps_row (p := .wait) rfl rfl rfl rfl rfl ?_ (gone rfl))
    rcases hpc with hpc | hpc <;> rw [hpc] <;> exact id
  | add ht hpc =>
    exact Or.inl (h.keeps_add ht hpc rfl (Cache.table_addStripeBio _ _ _ _)
      (Cache.pool_addStripeBio _ _ _ _))
  | @scan sh i hpc =>
    exact Or.inl (keeps_flags R5dev.scan_same R5dev.queue_scan
      (fun d rw' hw => (R5dev.want_scan d rw').mp hw) rfl (by rw [hpc]; rfl))
  | @parity sh hpc =>
    exact Or.inl (keeps_flags R5dev.markParity_same R5dev.queue_markParity
      (fun d rw' hw => Or.inl ((R5dev.want_markParity d rw').symm.trans hw)) rfl (by rw [hpc]; rfl))
  | @skip sh i hpc hdir =>
    exact Or.inl (keeps_row (p := .submit sh i) rfl rfl rfl rfl rfl (fun _ => rfl)
      (still (by rw [hpc]; rfl)))
  | @request sh i req c hpc hsub =>
    have hmarked : c.pool.marked = s.cache.pool.marked := by rw [hsub.pool]; rfl
    obtain ⟨jrdev, hdisk, hreq⟩ := hsub.member
    refine Or.inl (keeps_submitted hpc hsub.row hsub.table (Or.inl rfl)
      (fun x hx => hmarked ▸ hx) (fun x hx => Or.inl (hmarked ▸ hx)) fun r hr => ?_)
    obtain hr | hr := List.mem_append.mp hr
    · exact Or.inl hr
    · -- the new request carries what is queued for its direction
      obtain rfl := List.mem_singleton.mp hr
      refine Or.inr ⟨?_, ?_, ?_⟩
      all_goals rw [hreq]
      · exact ⟨jrdev, hdisk⟩
      · exact h.want sh i r.rw (R5dev.want_of_submitDir hsub.dir)
      · exact List.Subset.refl _
  | @postpone sh i rw c hpc hpost =>
    have hmarked : c.pool.marked = Function.update s.cache.pool.marked sh true :=
      congrArg RefPool.marked hpost.pool
    refine Or.inl (keeps_submitted hpc hpost.row hpost.table (Or.inr rfl) (fun x hx => ?_)
      (fun x hx => ?_) fun r hr => Or.inl hr)
    · rw [hmarked, Function.update_apply]
      split_ifs
      · rfl
      · exact hx
    · rw [hmarked, Function.update_apply] at hx
      split_ifs at hx with hxs
      · -- the stripe is marked for the request that could not be made
        subst hxs
        exact Or.inr ⟨i, rw, hpost.absent, h.want _ _ _ (R5dev.want_of_submitDir hpost.dir)⟩
      · exact Or.inl hx
  | @release b sh ht hpc =>
    refine Or.inl (keeps_row (p := .finish) rfl (Cache.row_releaseStripe _ _)
      (Cache.table_releaseStripe _ _) ?_ rfl (fun _ => rfl) (gone rfl))
    exact (congrArg RefPool.marked (Cache.pool_releaseStripe _ _)).trans (RefPool.marked_put _ _)
  | @releaseDaemon sh ht hpc =>
    refine Or.inl (keeps_row (p := .pop) rfl (Cache.row_releaseStripe _ _)
      (Cache.table_releaseStripe _ _) ?_ rfl (fun _ => rfl) (gone rfl))
    exact (congrArg RefPool.marked (Cache.pool_releaseStripe _ _)).trans (RefPool.marked_put _ _)
  | finish ht hpc =>
    obtain ⟨hcache, hpc', hin, -⟩ := finish_frame s t
    exact Or.inl (keeps_row (p := .done) hpc' (by rw [hcache]) (by rw [hcache]) (by rw [hcache]) hin
      (fun _ => rfl) (gone rfl))
  | @take sh c ht hpc htaken =>
    have hmarked : c.pool.marked = s.cache.pool.marked := by rw [htaken.pool]; rfl
    refine Or.inl (keeps_row (p := .scan sh env.conf.numDisks) rfl htaken.row htaken.table
      hmarked rfl (fun _ => rfl) fun x hx => Or.inr ?_)
    obtain rfl : sh = x := Option.some.inj hx
    obtain ⟨rest, hwork⟩ := htaken.work
    rw [Fits, ht]
    dsimp only [goto]
    rw [hmarked]
    exact ((hc.pool.mem_work sh).mp (hwork ▸ List.mem_cons_self)).2
  | drained ht hpc hwork =>
    exact Or.inl (keeps_row (p := .done) rfl rfl rfl rfl rfl (fun _ => rfl) (gone rfl))

omit [DecidableEq τ] [Fintype τ] in
/-- A completion keeps the rows. -/
theorem keeps_completes {k : ℕ} {req : MemberReq N τ} (hk : Completes s k req s') :
    Keeps env s s' := by
  obtain ⟨page, hrow⟩ := hk.row
  have hmarked : s'.cache.pool.marked = s.cache.pool.marked := by
    rw [hk.pool, RefPool.marked_put]
  refine keeps_dev hrow hk.table ⟨rfl, rfl, id⟩ (fun rw => ?_) (fun rw u hu => Or.inl ?_)
    (fun rw hw => Or.inl ?_) (fun x hx => hmarked ▸ hx) (fun x hx => Or.inl (hmarked ▸ hx))
    (fun r hr => Or.inl ?_) (fun u hu => hk.pc ▸ hu) (fun u x hu => Or.inl (hk.pc ▸ hu))
  · cases rw <;> exact List.Subset.refl _
  · cases rw <;> exact hu
  · cases rw <;> exact hw
  · rw [hk.inflight] at hr
    exact List.mem_of_mem_eraseIdx hr

omit [DecidableEq τ] [Fintype τ] in
/-- If all calls go to absent members, bios are queued for absent members only. -/
theorem absent_of_queue_ne_nil (h : QueueInv env s) (habsent : env.TargetsAbsent) {sh : Fin N}
    {i : ℕ} {rw : Dir} (hne : s.queue sh i rw ≠ []) : (env.conf.disks i).jrdev = none := by
  obtain ⟨u, hu⟩ := List.exists_mem_of_ne_nil _ hne
  have hq := h.queued _ _ _ u hu
  obtain ⟨b, hb⟩ := hq.call
  rw [hq.dev]
  exact habsent u b hb

omit [DecidableEq τ] [Fintype τ] in
/-- If all calls go to absent members, no request is ever in flight. -/
theorem inflight_eq_nil (h : QueueInv env s) (habsent : env.TargetsAbsent) : s.inflight = [] := by
  refine List.eq_nil_iff_forall_not_mem.mpr fun req hreq => ?_
  have hj := h.inflight req hreq
  obtain ⟨jrdev, hdisk⟩ := hj.present
  obtain ⟨u, hu⟩ := List.exists_mem_of_ne_nil _ hj.bios
  rw [h.absent_of_queue_ne_nil habsent (List.ne_nil_of_mem (hj.queued hu))] at hdisk
  cases hdisk

end QueueInv

/-! ### All invariants together -/

variable [Fintype τ]

/-- The invariants of the running array. -/
structure Inv (env : Env N τ) (s : State N τ) : Prop where
  counts : CountInv s
  table : Cache.HashInv env.conf s.cache
  queues : QueueInv env s

variable [DecidableEq τ] {env : Env N τ} {s s' : State N τ}

/-- **What a step can do** to an array in which the invariants hold: a call misses and takes a
stripe for its sector, or the rows stay where they are. -/
theorem Inv.keeps_or_miss (h : Inv env s) {e : Event τ} (hstep : env.machine.step s e = .ok s') :
    QueueInv.Keeps env s s' ∨
      ∃ t sh c, (s.pc t = .get ∨ s.pc t = .wait) ∧ (∃ b, env.thread t = .makeRequest b) ∧
        Cache.Miss env.conf s.cache (env.place t).newSector (env.place t).pdIdx.toInt32 sh c ∧
        s' = { s with cache := c }.goto t (.add sh) := by
  obtain ⟨t, -, hrun⟩ | rfl | ⟨k, req, -, hdone⟩ := step_cases hstep
  · exact (h.queues.keeps_or_miss h.counts h.table hrun).imp_right fun hm => ⟨t, hm⟩
  · exact Or.inl QueueInv.keeps_refl
  · exact Or.inl (QueueInv.keeps_completes hdone)

/-- No step takes a bio off a queue. -/
theorem Inv.queue_mono (h : Inv env s) {e : Event τ} (hstep : env.machine.step s e = .ok s')
    (sh : Fin N) (i : ℕ) (rw : Dir) : s.queue sh i rw ⊆ s'.queue sh i rw := by
  obtain hkeep | ⟨t, x, c, -, -, hm, rfl⟩ := h.keeps_or_miss hstep
  · exact hkeep.mono sh i rw
  · intro u hu
    change u ∈ ((c.row sh).dev i).queue rw
    rwa [hm.queue]

/-- **The invariants hold in every reachable state** of an array with a supported layout. -/
theorem Inv.reachable (hv : env.Supported) (hs : env.machine.Reachable s) : Inv env s := by
  refine ⟨CountInv.reachable hs, hashInv_reachable hs, ?_⟩
  refine hs.invariant (QueueInv.init env) fun s e s' hs h hstep => ?_
  have hinv : Inv env s := ⟨CountInv.reachable hs, hashInv_reachable hs, h⟩
  obtain hkeep | ⟨t, sh, c, hpc, ⟨b, ht⟩, hm, rfl⟩ := hinv.keeps_or_miss hstep
  · exact h.keep hkeep
  · exact h.miss hv hinv.counts hinv.table ht hpc hm

end State

end JRaid
