import JRaid.Requests.Reuse

/-!
# Whether an accepted read is issued

The first loop of `handle_stripe` opens a wish for a read or a write of each device on which such
bios are queued, and the last loop takes one wish of each device back, that for a write first; no
other step touches a wish while a call holds the stripe (`want_step_iff`). So the read of a call is
issued in the call exactly if, when its last loop comes to the device, no wish for a write is open
there and none of the other passes has taken back the wish for the read (`read_issued_iff`).

Nothing takes a write off `towrite` again. A call that runs alone from its `__add_stripe_bio` on
makes the steps of `handleStripe` (`exec_handled`) and issues its read exactly if no write was ever
accepted on its device since the stripe was set up (`exists_isReadOf_iff`).
-/

namespace JRaid

variable {N : ℕ} {τ : Type} [DecidableEq τ]

namespace State

variable {env : Env N τ} {s : State N τ} {t : τ} {sh : Fin N}

/-! ### A call that runs alone -/

/-- A thread runs on. -/
private theorem exec_run {s' : State N τ} (h : s.runThread env t = .ok s') (n : ℕ) :
    env.machine.exec s (List.replicate (n + 1) (.run t)) =
      env.machine.exec s' (List.replicate n (.run t)) := by
  have hstep : env.machine.step s (.run t) = .ok s' := h
  rw [List.replicate_succ, FallibleSystem.exec, hstep]
  rfl

private theorem goto_self {p : Pc N} (h : s.pc t = p) : s.goto t p = s := by
  rw [goto, ← h, Function.update_eq_self]

private theorem goto_goto (s : State N τ) (t : τ) (p p' : Pc N) :
    (s.goto t p).goto t p' = s.goto t p' := by
  simp only [goto, Function.update_idem]

/-- The first loop of `handle_stripe`. -/
theorem exec_scan (env : Env N τ) {j : ℕ} (hpc : s.pc t = .scan sh j) :
    env.machine.exec s (List.replicate j (.run t)) =
      .ok ({ s with cache := Cache.scanDevs sh j s.cache }.goto t (.scan sh 0)) := by
  induction j generalizing s with
  | zero => rw [Cache.scanDevs, goto_self hpc]; rfl
  | succ j ih =>
    have hstep : s.runThread env t =
        .ok ({ s with cache := s.cache.scanDev sh j }.goto t (.scan sh j)) := by
      rw [runThread, hpc]
    rw [exec_run hstep, ih (pc_goto_self ..)]
    exact congrArg Except.ok (goto_goto { s with cache := _ } t _ _)

/-- The last loop of `handle_stripe`. -/
theorem exec_submit (env : Env N τ) {j : ℕ} (hpc : s.pc t = .submit sh j) :
    env.machine.exec s (List.replicate j (.run t)) =
      .ok ({ s with
        cache := (Cache.submitDevs env.conf sh j s.cache).2
        inflight := s.inflight ++ (Cache.submitDevs env.conf sh j s.cache).1 }.goto t
          (.submit sh 0)) := by
  induction j generalizing s with
  | zero => rw [Cache.submitDevs, List.append_nil, goto_self hpc]; rfl
  | succ j ih =>
    have hstep : s.runThread env t = .ok ({ s with
        cache := (Cache.submitDev env.conf s.cache sh j).2
        inflight := s.inflight ++ (Cache.submitDev env.conf s.cache sh j).1.toList }.goto t
          (.submit sh j)) := by
      rw [runThread, hpc]
    rw [exec_run hstep, ih (pc_goto_self ..), Cache.submitDevs]
    dsimp only
    rw [← List.append_assoc]
    exact congrArg Except.ok (goto_goto { s with cache := _, inflight := _ } t _ _)

/-- **A call that runs alone** from its `__add_stripe_bio` to the end of its `handle_stripe`. -/
theorem exec_handled {b : Bio} (ht : env.thread t = .makeRequest b) (hpc : s.pc t = .add sh) :
    let c := (s.cache.addStripeBio env.bio sh t (env.place t).ddIdx.toNat b.biRw).2
    env.machine.exec s (List.replicate (2 * env.conf.numDisks + 2) (.run t)) =
      .ok ({ s with
        cache := (c.handleStripe env.conf sh).2
        inflight := s.inflight ++ (c.handleStripe env.conf sh).1 }.goto t (.submit sh 0)) := by
  intro c
  set n := env.conf.numDisks with hn
  let s₁ : State N τ := { s with cache := c }.goto t (.scan sh n)
  let s₂ : State N τ := { s₁ with cache := Cache.scanDevs sh n c }.goto t (.scan sh 0)
  let s₃ : State N τ := { s₂ with cache := (Cache.scanDevs sh n c).markParity sh }.goto t
    (.submit sh n)
  have hadd : s.runThread env t = .ok s₁ := by rw [runThread, hpc, ht]
  have hscan : env.machine.exec s₁ (List.replicate n (.run t)) = .ok s₂ :=
    exec_scan env (pc_goto_self ..)
  have hparity : s₂.runThread env t = .ok s₃ := by
    rw [runThread, show s₂.pc t = .scan sh 0 from pc_goto_self ..]
    rfl
  have hpc₃ : s₃.pc t = .submit sh n := pc_goto_self ..
  have hsubmit := exec_submit env hpc₃
  rw [show 2 * n + 2 = n + (n + 1) + 1 by omega, exec_run hadd, List.replicate_add,
    FallibleSystem.exec_append, hscan, Except.bind, exec_run hparity, hsubmit]
  refine congrArg Except.ok ?_
  simp only [s₃, s₂, s₁, goto, Function.update_idem]
  rfl

/-! ### Reads -/

omit [DecidableEq τ] in
/-- After the first loop a device asks for a write if one is queued, otherwise for the read. -/
theorem submitDir_scan {d : R5dev τ} (hwant : d.want .write = true → d.queue .write ≠ [])
    (hread : d.queue .read ≠ []) :
    d.scan.submitDir = some (if d.queue .write = [] then .read else .write) := by
  have hw : d.scan.want .write = true ↔ d.queue .write ≠ [] :=
    (d.want_scan .write).trans (or_iff_right_of_imp hwant)
  have hr : d.scan.want .read = true := (d.want_scan .read).mpr (Or.inr hread)
  rw [R5dev.submitDir, if_pos hr]
  by_cases hq : d.queue .write = []
  · rw [if_pos hq, if_neg fun h => hw.mp h hq]
  · rw [if_neg hq, if_pos (hw.mpr hq)]

omit [DecidableEq τ] in
/-- What the device of a call asks for when the last loop comes to it, after the call has added a
read. -/
theorem submitDir_handled (env : Env N τ) (c : Cache N τ) {i : ℕ} (hi : i < env.conf.numDisks)
    (hwant : ((c.row sh).dev i).want .write = true → ((c.row sh).dev i).queue .write ≠ [])
    (hacc : (((c.row sh).dev i).addBio env.bio t .read).1 = true) :
    let c' := Cache.scanDevs sh env.conf.numDisks (c.addStripeBio env.bio sh t i .read).2
    (((c'.markParity sh).row sh).dev i).submitDir =
      some (if ((c.row sh).dev i).queue .write = [] then .read else .write) := by
  intro c'
  set d := (c.row sh).dev i with hd
  have hmark : (((c'.markParity sh).row sh).dev i).submitDir = ((c'.row sh).dev i).submitDir := by
    rw [Cache.markParity, Cache.dev_modifyDev]
    split_ifs with h
    · rw [R5dev.submitDir, R5dev.submitDir, R5dev.want_markParity, R5dev.want_markParity, h.2]
    · rfl
  have hscan : (c'.row sh).dev i = (d.addBio env.bio t .read).2.scan := by
    rw [Cache.dev_scanDevs, if_pos hi, Cache.addStripeBio, Cache.dev_modifyDev, if_pos ⟨rfl, rfl⟩]
  have hwrite : (d.addBio env.bio t .read).2.queue .write = d.queue .write := by
    obtain ⟨h, -⟩ | ⟨l, -, -, h⟩ := d.queue_addBio env.bio t .read .write
    · exact h
    · exact h.trans (if_neg (by decide))
  have hread : t ∈ (d.addBio env.bio t .read).2.queue .read :=
    (d.mem_queue_addBio env.bio t .read .read t).mpr (Or.inr ⟨rfl, rfl, hacc⟩)
  have hwant' : (d.addBio env.bio t .read).2.want .write = d.want .write :=
    (d.addBio_frame env.bio t .read .write).1
  rw [hmark, hscan, submitDir_scan (by rwa [hwant', hwrite]) (List.ne_nil_of_mem hread), hwrite]

/-- The read of the stripe's sector from the member of a call. -/
def IsReadOf (env : Env N τ) (s : State N τ) (t : τ) (sh : Fin N) (jrdev : JmdRdev)
    (req : MemberReq N τ) : Prop :=
  req.sh = sh ∧ req.dev = env.dev t ∧ req.rw = .read ∧ req.bdev = jrdev.bdev ∧
    req.sector = (s.cache.row sh).sector

section

variable [Fintype τ] {b : Bio} {jrdev : JmdRdev}

/-- `handle_stripe` after an accepted read submits the read exactly if no write is queued. -/
theorem exists_isReadOf_iff (hv : env.Supported) (hs : env.machine.Reachable s)
    (ht : env.thread t = .makeRequest b) (hread : b.biRw = .read) (hacc : Accepts env s t sh)
    (hdisk : (env.conf.disks (env.dev t)).jrdev = some jrdev) :
    let c := (s.cache.addStripeBio env.bio sh t (env.place t).ddIdx.toNat b.biRw).2
    (∃ req ∈ (c.handleStripe env.conf sh).1, IsReadOf env s t sh jrdev req) ↔
      s.queue sh (env.dev t) .write = [] := by
  have hbio : env.bio t = b := by rw [Env.bio, ht]
  have hinv := Inv.reachable hv hs
  rw [Accepts, hbio, hread] at hacc
  have hdir := submitDir_handled env s.cache (hv.dev_lt t) (hinv.queues.want sh _ .write) hacc
  have hsector : (((Cache.scanDevs sh env.conf.numDisks
      (s.cache.addStripeBio env.bio sh t (env.dev t) .read).2).markParity sh).row sh).sector =
      (s.cache.row sh).sector := by
    rw [Cache.markParity, Cache.sector_modifyDev, Cache.sector_scanDevs, Cache.addStripeBio,
      Cache.sector_modifyDev]
  dsimp only at hdir
  rw [hread, show (env.place t).ddIdx.toNat = env.dev t from rfl]
  simp only [Cache.handleStripe, Cache.mem_submitDevs]
  constructor
  · rintro ⟨req, ⟨i, -, rw', jrdev', hdir', -, rfl⟩, -, hdev, hrw, -⟩
    obtain rfl : i = env.dev t := hdev
    obtain rfl : rw' = .read := hrw
    by_contra hq
    rw [hdir] at hdir'
    exact absurd (hdir'.symm.trans (congrArg some (if_neg hq))) (by decide)
  · intro hq
    refine ⟨_, ⟨env.dev t, hv.dev_lt t, .read, jrdev, ?_, hdisk, rfl⟩, rfl, rfl, rfl, rfl, hsector⟩
    rw [hdir]
    exact congrArg some (if_pos hq)

end

/-! ### A call among others -/

/-- The call submits a read of the stripe's sector to the member. -/
def IssuesRead (env : Env N τ) (s : State N τ) (t : τ) (sh : Fin N) (jrdev : JmdRdev)
    (a : State N τ) (e : Event τ) : Prop :=
  e = .run t ∧ ∃ a' req, env.machine.step a e = .ok a' ∧ a'.inflight = a.inflight ++ [req] ∧
    IsReadOf env s t sh jrdev req

/-- The last loop of the call comes to its device. -/
def VisitsDev (env : Env N τ) (t : τ) (sh : Fin N) (a : State N τ) (e : Event τ) : Prop :=
  e = .run t ∧ a.pc t = .submit sh (env.dev t + 1)

/-- It finds `R5_Wantwrite` clear and `R5_Wantread` set there. -/
def FindsRead (env : Env N τ) (t : τ) (sh : Fin N) (a : State N τ) (e : Event τ) : Prop :=
  VisitsDev env t sh a e ∧ a.want sh (env.dev t) .write = false ∧
    a.want sh (env.dev t) .read = true

omit [DecidableEq τ] in
theorem submitDir_eq_read_iff (a : State N τ) (sh : Fin N) (i : ℕ) :
    ((a.cache.row sh).dev i).submitDir = some .read ↔
      a.want sh i .write = false ∧ a.want sh i .read = true := by
  rw [R5dev.submitDir, want, want]
  cases ((a.cache.row sh).dev i).want .write <;> cases ((a.cache.row sh).dev i).want .read <;>
    simp

omit [DecidableEq τ] in
/-- While a call holds a stripe, the stripe keeps its sector. -/
theorem sector_of_held {b : Bio} {p : Pc N} (hq : QueueInv env s)
    (ht : env.thread t = .makeRequest b) (hpc : s.pc t = p) (hp : p.held = some sh) :
    (s.cache.row sh).sector = (env.place t).newSector := by
  have hfits := hq.held t sh (hpc ▸ hp)
  rw [Fits, ht] at hfits
  exact hfits.1

section

variable [Fintype τ] {b : Bio} {jrdev : JmdRdev}

/-- **A step that issues the read** is the visit of the last loop to the device, if the flags say
so. -/
theorem issuesRead_iff (hv : env.Supported) {a : State N τ} (hs : env.machine.Reachable s)
    (ha : env.machine.Reachable a) (ht : env.thread t = .makeRequest b) (hpc : s.pc t = .add sh)
    (hdisk : (env.conf.disks (env.dev t)).jrdev = some jrdev) (e : Event τ) :
    IssuesRead env s t sh jrdev a e ↔ FindsRead env t sh a e := by
  have hsector : (s.cache.row sh).sector = (env.place t).newSector :=
    sector_of_held (Inv.reachable hv hs).queues ht hpc rfl
  constructor
  · rintro ⟨rfl, a', req, hstep, hin, hreq⟩
    obtain ⟨hsh, hdev, hrw, -⟩ := hreq
    have hne : a'.inflight ≠ a.inflight := fun heq => by
      have hlen := congrArg List.length (hin.symm.trans heq)
      simp at hlen
    have hrun := runThread_runs hstep
    cases hrun with
    | request hpc' hsub =>
      obtain ⟨jrdev', -, heq⟩ := hsub.member
      obtain rfl := List.singleton_injective (List.append_cancel_left hin)
      rw [heq] at hsh hdev
      obtain rfl := hsh
      obtain rfl := hdev
      exact ⟨⟨rfl, hpc'⟩, (submitDir_eq_read_iff a _ _).mp (hrw ▸ hsub.dir)⟩
    | finish _ _ => exact absurd (finish_frame a t).2.2.1 hne
    | _ => exact absurd rfl hne
  · rintro ⟨⟨rfl, hpc'⟩, hwant⟩
    have hdir := (submitDir_eq_read_iff a sh (env.dev t)).mpr hwant
    have hreq := (Cache.submitDev_eq_some_iff env.conf a.cache sh (env.dev t) _).mpr
      ⟨.read, jrdev, hdir, hdisk, rfl⟩
    refine ⟨rfl, { a with
      cache := (Cache.submitDev env.conf a.cache sh (env.dev t)).2
      inflight := a.inflight ++ [a.cache.request sh (env.dev t) .read jrdev] }.goto t
        (.submit sh (env.dev t)), a.cache.request sh (env.dev t) .read jrdev, ?_, rfl, rfl, rfl,
      rfl, rfl, (sector_of_held (Inv.reachable hv ha).queues ht hpc' rfl).trans hsector.symm⟩
    change a.runThread env t = _
    rw [runThread, hpc']
    dsimp only
    rw [hreq]
    rfl

/-- The first loop of a pass over the stripe asks for a request of the device: it finds a bio
queued. -/
def Asks (sh : Fin N) (i : ℕ) (rw : Dir) (a : State N τ) (e : Event τ) : Prop :=
  ∃ u, e = .run u ∧ a.pc u = .scan sh (i + 1) ∧ a.queue sh i rw ≠ []

/-- The last loop of a pass over the stripe takes the wish back. -/
def Takes (sh : Fin N) (i : ℕ) (rw : Dir) (a : State N τ) (e : Event τ) : Prop :=
  ∃ u, e = .run u ∧ a.pc u = .submit sh (i + 1) ∧
    ((a.cache.row sh).dev i).submitDir = some rw

/-- At event number `k` a wish for a request of the device is open: a pass has asked for it since
it was last taken back, or it was open from the start. -/
def Wished (env : Env N τ) (s : State N τ) (es : List (Event τ)) (sh : Fin N) (i : ℕ) (rw : Dir)
    (k : ℕ) : Prop :=
  env.machine.Since (Asks sh i rw) (Takes sh i rw) s es k ∨
    (s.want sh i rw = true ∧ ∀ m < k, ¬env.machine.Turn (Takes sh i rw) s es m)

/-- Outside of the loops a thread touches no wish of a stripe that is held. -/
private theorem want_of_runs (hinv : Inv env s) (hheld : (s.pc t).held = some sh) {u : τ}
    {s' : State N τ} (hrun : Runs env s u s') (hscan : ∀ j, s.pc u ≠ .scan sh (j + 1))
    (hsubmit : ∀ j, s.pc u ≠ .submit sh (j + 1)) (i : ℕ) (rw : Dir) :
    s'.want sh i rw = s.want sh i rw := by
  have same : s'.cache.row = s.cache.row → s'.want sh i rw = s.want sh i rw :=
    fun hrow => by rw [want, hrow, want]
  -- in the loops the thread works on another stripe
  have elsewhere : ∀ {x : Fin N} {j : ℕ} {f : R5dev τ → R5dev τ}, x ≠ sh →
      s'.cache.row = (s.cache.modifyDev x j f).row → s'.want sh i rw = s.want sh i rw :=
    fun hx hrow => by rw [want_modifyDev s s' _ hrow, if_neg fun h => hx h.1.symm]
  cases hrun with
  | idle | start | startDaemon | exhausted | drained | skip => rfl
  | hit _ _ hhit => exact same hhit.row
  | @miss _ x c _ _ hmiss =>
    have hx : sh ≠ x := by
      rintro rfl
      obtain ⟨rest, hfree⟩ := hmiss.free
      have hrefs := (hinv.counts.pool.mem_free sh).mp (hfree ▸ List.mem_cons_self)
      exact refs_ne_zero_of_held hheld hrefs.1
    change ((c.row sh).dev i).want rw = _
    rw [hmiss.row, Function.update_of_ne hx]
    rfl
  | @add b x _ _ =>
    rw [want_modifyDev s _ x (i := (env.place u).ddIdx.toNat)
      (f := fun d => (d.addBio env.bio u b.biRw).2) rfl, (R5dev.addBio_frame env.bio u _ _ rw).1]
    split_ifs with hx
    · rw [hx.1, hx.2, want]
    · rfl
  | scan hpc => exact elsewhere (fun hx => hscan _ (hx ▸ hpc)) rfl
  | @parity x _ =>
    rw [want_modifyDev s _ x (f := R5dev.markParity) rfl, R5dev.want_markParity]
    split_ifs with hx
    · rw [hx.1, hx.2, want]
    · rfl
  | request hpc hsub => exact elsewhere (fun hx => hsubmit _ (hx ▸ hpc)) hsub.row
  | postpone hpc hpost => exact elsewhere (fun hx => hsubmit _ (hx ▸ hpc)) hpost.row
  | release | releaseDaemon => exact same (Cache.row_releaseStripe _ _)
  | finish _ _ => exact same (congrArg Cache.row (finish_frame s u).1)
  | take _ _ htaken => exact same htaken.row

omit [Fintype τ] in
/-- The first loop asks for what is queued on its device. -/
private theorem want_scanned {u : τ} {x : Fin N} {j : ℕ} {s' : State N τ}
    (hpc : s.pc u = .scan x (j + 1)) (h : s.runThread env u = .ok s') (i : ℕ) (rw : Dir) :
    s'.want sh i rw = true ↔
      s.want sh i rw = true ∨ ((sh = x ∧ i = j) ∧ s.queue sh i rw ≠ []) := by
  rw [runThread, hpc] at h
  rw [← Except.ok.inj h, want_modifyDev s _ x rfl]
  split_ifs with hx
  · obtain ⟨rfl, rfl⟩ := hx
    rw [R5dev.want_scan, and_iff_right ⟨rfl, rfl⟩]
    rfl
  · simp only [hx, false_and, or_false]

omit [Fintype τ] in
/-- The last loop takes back the wish that it attends to. -/
private theorem want_submitted {u : τ} {x : Fin N} {j : ℕ} {s' : State N τ}
    (hpc : s.pc u = .submit x (j + 1)) (h : s.runThread env u = .ok s') (i : ℕ) (rw : Dir) :
    s'.want sh i rw = true ↔ s.want sh i rw = true ∧
      ¬((sh = x ∧ i = j) ∧ ((s.cache.row sh).dev i).submitDir = some rw) := by
  -- one wish for the device is taken back
  have one : ∀ {f : R5dev τ → R5dev τ} {rw' : Dir},
      ((s.cache.row x).dev j).submitDir = some rw' →
      (∀ d, (f d).want rw = if rw = rw' then false else d.want rw) →
      s'.cache.row = (s.cache.modifyDev x j f).row →
      (s'.want sh i rw = true ↔ s.want sh i rw = true ∧
        ¬((sh = x ∧ i = j) ∧ ((s.cache.row sh).dev i).submitDir = some rw)) := by
    intro f rw' hdir hf hrow
    rw [want_modifyDev s s' x hrow, hf]
    split_ifs with hx hrw
    · obtain ⟨rfl, rfl⟩ := hx
      simp [hdir, hrw]
    · obtain ⟨rfl, rfl⟩ := hx
      simp [hdir, Ne.symm hrw, want]
    · simp [hx]
  rw [runThread, hpc] at h
  dsimp only at h
  obtain ⟨hdir, heq⟩ | ⟨req, c, heq, hsub⟩ | ⟨rw', c, heq, hpost⟩ :=
    Cache.submitDev_cases env.conf s.cache x j
  all_goals
    rw [heq] at h
    have hs' := Except.ok.inj h
  · rw [← hs']
    refine (and_iff_left ?_).symm
    rintro ⟨⟨rfl, rfl⟩, hsome⟩
    rw [hdir] at hsome
    cases hsome
  · exact one hsub.dir (fun d => R5dev.want_setWant ..) (hs' ▸ hsub.row)
  · exact one hpost.dir (fun d => (R5dev.want_unlock ..).trans (R5dev.want_setWant ..))
      (hs' ▸ hpost.row)

/-- **What opens and closes a wish**: while a thread holds the stripe, the first loop of a pass
opens it and the last loop takes it back, and nothing else touches it. -/
theorem want_step_iff (hinv : Inv env s) (hheld : (s.pc t).held = some sh) {e : Event τ}
    {s' : State N τ} (hstep : env.machine.step s e = .ok s') (i : ℕ) (rw : Dir) :
    s'.want sh i rw = true ↔
      Asks sh i rw s e ∨ (s.want sh i rw = true ∧ ¬Takes sh i rw s e) := by
  cases e with
  | complete k =>
    have hasks : ¬Asks sh i rw s (.complete k) := fun ⟨_, h, _⟩ => by cases h
    have htakes : ¬Takes sh i rw s (.complete k) := fun ⟨_, h, _⟩ => by cases h
    rw [or_iff_right hasks, and_iff_left htakes]
    obtain ⟨u, h, -⟩ | rfl | ⟨k, req, -, hdone⟩ := step_cases hstep
    · cases h
    · rfl
    · obtain ⟨page, hrow⟩ := hdone.row
      rw [want_modifyDev s s' _ hrow]
      split_ifs with hx
      · rw [hx.1, hx.2]
        rfl
      · rfl
  | run u =>
    have hasks : Asks sh i rw s (.run u) ↔ s.pc u = .scan sh (i + 1) ∧ s.queue sh i rw ≠ [] :=
      ⟨fun ⟨v, h, hrest⟩ => Event.run.inj h ▸ hrest, fun h => ⟨u, rfl, h⟩⟩
    have htakes : Takes sh i rw s (.run u) ↔ s.pc u = .submit sh (i + 1) ∧
        ((s.cache.row sh).dev i).submitDir = some rw :=
      ⟨fun ⟨v, h, hrest⟩ => Event.run.inj h ▸ hrest, fun h => ⟨u, rfl, h⟩⟩
    rw [hasks, htakes]
    by_cases hscan : ∃ j, s.pc u = .scan sh (j + 1)
    · obtain ⟨j, hpc⟩ := hscan
      rw [want_scanned hpc hstep, hpc]
      simp only [Pc.scan.injEq, true_and, Nat.add_right_cancel_iff, reduceCtorEq, false_and,
        not_false_eq_true, and_true, eq_comm, or_comm]
    · by_cases hsubmit : ∃ j, s.pc u = .submit sh (j + 1)
      · obtain ⟨j, hpc⟩ := hsubmit
        rw [want_submitted hpc hstep, hpc]
        simp only [Pc.submit.injEq, true_and, Nat.add_right_cancel_iff, reduceCtorEq, false_and,
          false_or, eq_comm]
      · rw [want_of_runs hinv hheld (runThread_runs hstep) (not_exists.mp hscan)
          (not_exists.mp hsubmit), or_iff_right fun h => hscan ⟨i, h.1⟩,
          and_iff_left fun h => hsubmit ⟨i, h.1⟩]

/-- The call has still to come to its device. -/
def Ahead (env : Env N τ) (t : τ) (sh : Fin N) (a : State N τ) : Prop :=
  a.pc t = .add sh ∨ (a.pc t).Submits sh (env.dev t)

omit [Fintype τ] in
/-- A call passes its device in the last loop only. -/
theorem ahead_of_step (hv : env.Supported) {a a' : State N τ} {e : Event τ}
    (ha : Ahead env t sh a) (hstep : env.machine.step a e = .ok a') :
    Ahead env t sh a' ∨ VisitsDev env t sh a e := by
  obtain ⟨u, rfl, hrun⟩ | rfl | ⟨k, req, -, hdone⟩ := step_cases hstep
  · by_cases hu : t = u
    · subst hu
      have moves : ∀ {x : Fin N} {i : ℕ}, a.pc t = .submit x (i + 1) → a'.pc t = .submit x i →
          Ahead env t sh a' ∨ VisitsDev env t sh a (.run t) := fun hpc hpc' => by
        obtain hadd | hsub := ha
        · cases hpc.symm.trans hadd
        rw [hpc] at hsub
        obtain ⟨rfl, hlt⟩ := hsub
        obtain hlt | rfl := Nat.lt_succ_iff_lt_or_eq.mp hlt
        · exact Or.inl (Or.inr (by rw [hpc']; exact ⟨rfl, hlt⟩))
        · exact Or.inr ⟨rfl, hpc⟩
      have other : ∀ {p : Pc N}, a.pc t = p → p ≠ .add sh → ¬p.Submits sh (env.dev t) →
          Ahead env t sh a' ∨ VisitsDev env t sh a (.run t) := fun hpc hadd hsub => by
        rw [Ahead, hpc] at ha
        exact absurd ha (not_or.mpr ⟨hadd, hsub⟩)
      cases hrun with
      | idle => exact Or.inl ha
      | start _ hpc | startDaemon _ hpc | release _ hpc | releaseDaemon _ hpc | finish _ hpc
      | take _ hpc | drained _ hpc => exact other hpc (by simp) (by simp [Pc.Submits])
      | hit _ hpc | miss _ hpc | exhausted _ hpc =>
        rcases hpc with hpc | hpc <;> exact other hpc (by simp) (by simp [Pc.Submits])
      | @add _ x _ hpc =>
        have hx : x = sh := by
          obtain hadd | hsub := ha
          · exact Pc.add.inj (hpc.symm.trans hadd)
          · rw [hpc] at hsub
            cases hsub
        exact Or.inl (Or.inr (by rw [pc_goto_self]; exact hx))
      | scan hpc =>
        obtain hadd | hsub := ha
        · cases hpc.symm.trans hadd
        · rw [hpc] at hsub
          exact Or.inl (Or.inr (by rw [pc_goto_self]; exact hsub))
      | parity hpc =>
        obtain hadd | hsub := ha
        · cases hpc.symm.trans hadd
        · rw [hpc] at hsub
          exact Or.inl (Or.inr (by rw [pc_goto_self]; exact ⟨hsub, hv.dev_lt t⟩))
      | skip hpc hdir => exact moves hpc (pc_goto_self ..)
      | request hpc hsub => exact moves hpc (pc_goto_self ..)
      | postpone hpc hpost => exact moves hpc (pc_goto_self ..)
    · rw [Ahead, pc_of_runs_of_ne hrun hu]
      exact Or.inl ha
  · exact Or.inl ha
  · rw [Ahead, hdone.pc]
    exact Or.inl ha

omit [Fintype τ] in
/-- **In any schedule a call comes to its device once**, on the way from its `__add_stripe_bio` to
the end of its `handle_stripe`. -/
theorem exists_visitsDev_iff (hv : env.Supported) (ht : env.thread t = .makeRequest b)
    (hpc : s.pc t = .add sh) {es : List (Event τ)} {s' : State N τ}
    (hrun : env.machine.exec s es = .ok s') (hend : s'.pc t = .submit sh 0) :
    ∃ k, ∀ j, env.machine.Turn (VisitsDev env t sh) s es j ↔ j = k := by
  have hpast : ¬Ahead env t sh s' := by
    rintro (hadd | hsub)
    · cases hend.symm.trans hadd
    · rw [hend] at hsub
      exact Nat.not_lt_zero _ hsub.2
  obtain ⟨k, a, e, hget, hexec, hahead, a', hstep, hpassed⟩ :=
    FallibleSystem.exists_turn_of_not hrun (Or.inl hpc : Ahead env t sh s) hpast
  have hvisit := (ahead_of_step hv hahead hstep).resolve_left hpassed
  -- after a visit the call has fewer steps to make than before it
  have hunique : ∀ {i j : ℕ}, i < j → ¬(env.machine.Turn (VisitsDev env t sh) s es i ∧
      env.machine.Turn (VisitsDev env t sh) s es j) := by
    rintro i j hij ⟨⟨a, e, hget, ha, he, hpca⟩, ⟨c, f, -, hc, -, hpcc⟩⟩
    subst he
    obtain ⟨a', hstep, hleads⟩ := FallibleSystem.leads_of_lt hij hget ha hc
    have hle := rank_of_leads ht hleads
    have hne : a'.pc t ≠ a.pc t := by
      change a.runThread env t = .ok a' at hstep
      rw [runThread, hpca] at hstep
      rw [← Except.ok.inj hstep, pc_goto_self, hpca]
      simp
    have hlt := (rank_of_runs ht (runThread_runs hstep)).resolve_left hne
    rw [hpcc, ← hpca] at hle
    exact absurd hle (Nat.not_le.mpr hlt)
  refine ⟨k, fun j => ⟨fun hj => ?_, fun hj => hj ▸ ⟨a, e, hget, hexec, hvisit⟩⟩⟩
  rcases Nat.lt_trichotomy j k with hlt | heq | hgt
  · exact absurd ⟨hj, a, e, hget, hexec, hvisit⟩ (hunique hlt)
  · exact heq
  · exact absurd ⟨⟨a, e, hget, hexec, hvisit⟩, hj⟩ (hunique hgt)

omit [Fintype τ] in
/-- Until then it has not come to its device. -/
theorem ahead_before (hv : env.Supported) (hpc : s.pc t = .add sh) {es : List (Event τ)} {k i : ℕ}
    (hk : ∀ j, env.machine.Turn (VisitsDev env t sh) s es j ↔ j = k) (hi : i ≤ k) {a : State N τ}
    (ha : env.machine.exec s (es.take i) = .ok a) : Ahead env t sh a := by
  by_contra hpast
  obtain ⟨j, c, e, hget, hexec, hahead, c', hstep, hpassed⟩ :=
    FallibleSystem.exists_turn_of_not ha (Or.inl hpc : Ahead env t sh s) hpast
  have hvisit := (ahead_of_step hv hahead hstep).resolve_left hpassed
  obtain ⟨hji, hturn⟩ := FallibleSystem.Turn.of_take ⟨c, e, hget, hexec, hvisit⟩
  rw [(hk j).mp hturn] at hji
  exact absurd hji (Nat.not_lt.mpr hi)

/-- **The wishes that a call finds** on its device are those that are open there. -/
theorem want_iff_wished (hv : env.Supported) (hs : env.machine.Reachable s)
    (hpc : s.pc t = .add sh) {es : List (Event τ)} {k : ℕ}
    (hk : ∀ j, env.machine.Turn (VisitsDev env t sh) s es j ↔ j = k) {a : State N τ}
    (ha : env.machine.exec s (es.take k) = .ok a) (rw : Dir) :
    a.want sh (env.dev t) rw = true ↔ Wished env s es sh (env.dev t) rw k := by
  obtain ⟨c, e, hget, -⟩ := (hk k).mpr rfl
  obtain ⟨hlt, -⟩ := List.getElem?_eq_some_iff.mp hget
  refine FallibleSystem.latch_iff_since (F := fun a => a.want sh (env.dev t) rw = true)
    (I := fun a => Inv env a ∧ (a.pc t).held = some sh)
    (fun a e b hI hstep => want_step_iff hI.1 hI.2 hstep (env.dev t) rw) (Nat.le_of_lt hlt)
    (fun i hi b hb => ⟨?_, ?_⟩) ha
  · exact Inv.reachable hv (hs.trans (FallibleSystem.leads_of_exec hb))
  · rcases ahead_before hv hpc hk (Nat.le_of_lt hi) hb with hadd | hsub
    · rw [hadd]
      rfl
    · exact hsub.held

/-- **Whether an accepted read is issued.** In any reachable state, let a call be about to add its
bio, which may be a read that the device will accept, and let the member be present. In whatever
schedule the call then comes to the end of its `handle_stripe`, its last loop comes to the device
once, and the call submits a read of the stripe's sector to the member exactly if no wish for a
write of the device is open there and the wish for a read is. -/
theorem read_issued_iff (env : Env N τ) (hv : env.Supported) (hs : env.machine.Reachable s)
    (ht : env.thread t = .makeRequest b) (hpc : s.pc t = .add sh)
    (hdisk : (env.conf.disks (env.dev t)).jrdev = some jrdev) {es : List (Event τ)} {s' : State N τ}
    (hrun : env.machine.exec s es = .ok s') (hend : s'.pc t = .submit sh 0) :
    ∃ k, (∀ j, env.machine.Turn (VisitsDev env t sh) s es j ↔ j = k) ∧
      ((∃ j, env.machine.Turn (IssuesRead env s t sh jrdev) s es j) ↔
        ¬Wished env s es sh (env.dev t) .write k ∧ Wished env s es sh (env.dev t) .read k) := by
  obtain ⟨k, hk⟩ := exists_visitsDev_iff hv ht hpc hrun hend
  have hissues : ∀ j, env.machine.Turn (IssuesRead env s t sh jrdev) s es j ↔
      env.machine.Turn (FindsRead env t sh) s es j := fun j =>
    exists_congr fun a => exists_congr fun e => and_congr_right fun _ => and_congr_right fun ha =>
      issuesRead_iff hv hs (hs.trans (FallibleSystem.leads_of_exec ha)) ht hpc hdisk e
  obtain ⟨a, e, hget, ha, hvisit⟩ := (hk k).mpr rfl
  have hfinds : env.machine.Turn (FindsRead env t sh) s es k ↔
      ¬Wished env s es sh (env.dev t) .write k ∧ Wished env s es sh (env.dev t) .read k := by
    rw [FallibleSystem.turn_iff hget ha, FindsRead, and_iff_right hvisit,
      ← want_iff_wished hv hs hpc hk ha .write, ← want_iff_wished hv hs hpc hk ha .read,
      Bool.not_eq_true]
  refine ⟨k, hk, ?_⟩
  simp only [hissues]
  rw [← hfinds]
  constructor
  · rintro ⟨j, hj⟩
    obtain ⟨c, f, hget', hc, hfound⟩ := hj
    obtain rfl := (hk j).mp ⟨c, f, hget', hc, hfound.1⟩
    exact ⟨c, f, hget', hc, hfound⟩
  · exact fun h => ⟨k, h⟩

/-- A read of a block that has been written before is not issued. -/
theorem exists_unissued (hv : env.Supported) (hN : 0 < N) {u : τ} {b' : Bio} (htu : t ≠ u)
    (hu : env.thread u = .makeRequest b') (hwrite : b'.biRw = .write)
    (ht : env.thread t = .makeRequest b) (hread : b.biRw = .read)
    (hplace : env.place u = env.place t)
    (hdisk : (env.conf.disks (env.dev t)).jrdev = some jrdev) :
    ∃ s sh, env.machine.Reachable s ∧ s.pc t = .add sh ∧ Accepts env s t sh ∧
      ∀ s' l, env.machine.exec s (List.replicate (2 * env.conf.numDisks + 2) (.run t)) = .ok s' →
        s'.inflight = s.inflight ++ l → ¬∃ req ∈ l, IsReadOf env s t sh jrdev req := by
  obtain ⟨sh, s₁, s₂, hs₁, hserved, hnil, hpc, hmem, -⟩ := exists_first_served hv hN hu
  have hs₂ := hs₁.trans hserved.leads
  have hinv := Inv.reachable hv hs₂
  have hq := hinv.queues.queued _ _ _ u hmem
  obtain ⟨s₃, hopen⟩ := exists_opened_of_hashed hinv ht (hpc t htu) hq.hashed
    (hq.sector.trans (congrArg Place.newSector hplace))
  have hs₃ := hs₂.trans hopen.leads
  have hbio : env.bio t = b := by rw [Env.bio, ht]
  have hbio' : env.bio u = b' := by rw [Env.bio, hu]
  have hacc : Accepts env s₃ t sh := by
    refine accepts_of_queue_eq_nil (List.eq_nil_iff_forall_not_mem.mpr fun x hx => ?_)
    rw [hopen.queue, hserved.queue, hnil, hbio, hread, hbio', hwrite] at hx
    obtain hx | ⟨-, -, -, hdir, -⟩ := hx
    · cases hx
    · cases hdir
  refine ⟨s₃, sh, hs₃, hopen.pc, hacc, fun s' l hrun hl hissued => ?_⟩
  rw [exec_handled ht hopen.pc] at hrun
  obtain rfl := Except.ok.inj hrun
  obtain rfl := List.append_cancel_left hl
  have hempty := (exists_isReadOf_iff hv hs₃ ht hread hacc hdisk).mp hissued
  rw [hbio', hwrite, Env.dev, hplace] at hmem
  rw [hopen.queue, Env.dev] at hempty
  rw [hempty] at hmem
  cases hmem

end

/-- A block is written and then read. -/
theorem read_not_issued :
    let env := smallArray nrStripes allPresent [⟨0, 4096, .write⟩, ⟨0, 4096, .read⟩]
    ∃ s sh, env.machine.Reachable s ∧ s.pc 1 = .add sh ∧ Accepts env s 1 sh ∧
      ∀ s' l, env.machine.exec s (List.replicate (2 * env.conf.numDisks + 2) (.run 1)) = .ok s' →
        s'.inflight = s.inflight ++ l → ¬∃ req ∈ l, IsReadOf env s 1 sh ⟨env.dev 1⟩ req :=
  exists_unissued (t := 1) (u := 0) (Env.supported_smallArray _ _ _) (by decide) (by decide) rfl rfl
    rfl rfl rfl rfl

/-- A block is read by one call and written by another one. -/
def readAndWrite : Env 1 (Fin 2) :=
  smallArray 1 allPresent [⟨0, 4096, .read⟩, ⟨0, 4096, .write⟩]

/-- The reader gets its stripe. -/
def readerOpens {ι : Type} (reader : ι) : List (Event ι) := [.run reader, .run reader]

/-- The write is added before the reader handles the stripe. -/
def writeComesFirst {ι : Type} (reader writer : ι) : List (Event ι) :=
  List.replicate 3 (.run writer) ++ List.replicate 7 (.run reader)

/-- The write is added when the first loop of the reader has passed the device. -/
def writeComesLater {ι : Type} (reader writer : ι) : List (Event ι) :=
  List.replicate 4 (.run reader) ++ List.replicate 3 (.run writer) ++
    List.replicate 3 (.run reader)

/-- What a state shows of the reader and its device, and where the reader goes next. -/
def showReader (reader : Fin 2) (s : State 1 (Fin 2)) :
    Pc 1 × Option (Pc 1) × List (Fin 2) × Bool × Bool :=
  (s.pc reader, (readAndWrite.machine.step s (.run reader)).toOption.map fun s' => s'.pc reader,
    s.queue 0 0 .write, s.want 0 0 .write, s.want 0 0 .read)

/-- A visit of the reader to its device, as a computed run shows it. -/
private theorem exists_visit {s : State 1 (Fin 2)} (es : List (Event (Fin 2)))
    (v : List (Fin 2) × Bool × Bool)
    (hopen : readAndWrite.machine.exec readAndWrite.init (readerOpens 0) = .ok s)
    (hshow : (readAndWrite.machine.exec readAndWrite.init (readerOpens 0 ++ es)).toOption.map
      (showReader 0) = some (.submit 0 1, some (.submit 0 0), v)) :
    ∃ a s', readAndWrite.machine.exec s es = .ok a ∧
      readAndWrite.machine.exec s ((es ++ [Event.run 0]).take es.length) = .ok a ∧
      readAndWrite.machine.exec s (es ++ [.run 0]) = .ok s' ∧ s'.pc 0 = .submit 0 0 ∧
      readAndWrite.machine.Turn (VisitsDev readAndWrite 0 0) s (es ++ [.run 0]) es.length ∧
      a.queue 0 0 .write = v.1 ∧ a.want 0 0 .write = v.2.1 ∧ a.want 0 0 .read = v.2.2 := by
  obtain ⟨a, ha, hv⟩ := FallibleSystem.exists_exec hshow
  rw [FallibleSystem.exec_append, hopen] at ha
  change readAndWrite.machine.exec s es = .ok a at ha
  obtain ⟨hpc, hrest⟩ := Prod.mk.inj hv
  obtain ⟨hnext, hrest⟩ := Prod.mk.inj hrest
  obtain ⟨s', hstep, hpc'⟩ := Except.exists_of_toOption_map hnext
  refine ⟨a, s', ha, ?_, ?_, hpc', ?_, ?_, ?_, ?_⟩
  · rw [List.take_left' rfl]
    exact ha
  · rw [FallibleSystem.exec_concat, ha]
    exact hstep
  · exact (FallibleSystem.turn_concat_iff ha _ _).mpr (Or.inr ⟨rfl, rfl, hpc⟩)
  all_goals rw [← hrest]

/-- In the first schedule the read is not issued; in the second one it is, though a write is queued
by then. -/
theorem read_issued_iff_two :
    ∃ s s₁ s₂ a, readAndWrite.machine.Reachable s ∧ s.pc 0 = .add 0 ∧ Accepts readAndWrite s 0 0 ∧
      readAndWrite.machine.exec s (writeComesFirst 0 1 ++ [.run 0]) = .ok s₁ ∧
      s₁.pc 0 = .submit 0 0 ∧
      readAndWrite.machine.exec s (writeComesLater 0 1 ++ [.run 0]) = .ok s₂ ∧
      s₂.pc 0 = .submit 0 0 ∧
      readAndWrite.machine.exec s (writeComesLater 0 1) = .ok a ∧ a.queue 0 0 .write = [1] ∧
      (¬∃ j, readAndWrite.machine.Turn (IssuesRead readAndWrite s 0 0 ⟨0⟩) s
        (writeComesFirst 0 1 ++ [.run 0]) j) ∧
      ∃ j, readAndWrite.machine.Turn (IssuesRead readAndWrite s 0 0 ⟨0⟩) s
        (writeComesLater 0 1 ++ [.run 0]) j := by
  have hv : readAndWrite.Supported := Env.supported_smallArray _ _ _
  have hdisk : (readAndWrite.conf.disks (readAndWrite.dev 0)).jrdev = some ⟨0⟩ := rfl
  have hopens : (readAndWrite.machine.exec readAndWrite.init (readerOpens 0)).toOption.map
      (fun s => (s.pc 0, s.queue 0 0 .read)) = some (.add 0, []) := by decide +kernel
  obtain ⟨s, hopen, hshow⟩ := FallibleSystem.exists_exec hopens
  have hs : readAndWrite.machine.Reachable s := FallibleSystem.reachable_of_exec hopen
  obtain ⟨hpc, hqueue⟩ := Prod.mk.inj hshow
  have hacc : Accepts readAndWrite s 0 0 := accepts_of_queue_eq_nil hqueue
  -- what the reader finds on its device
  obtain ⟨a₁, s₁, -, ha₁, hrun₁, hend₁, hturn₁, -, hw₁, -⟩ :=
    exists_visit (writeComesFirst 0 1) ([1], true, true) hopen (by decide +kernel)
  obtain ⟨a₂, s₂, hpast, ha₂, hrun₂, hend₂, hturn₂, hq₂, hw₂, hr₂⟩ :=
    exists_visit (writeComesLater 0 1) ([1], false, true) hopen (by decide +kernel)
  obtain ⟨k₁, hk₁, hiff₁⟩ := read_issued_iff readAndWrite hv hs (t := 0) rfl hpc hdisk hrun₁ hend₁
  obtain ⟨k₂, hk₂, hiff₂⟩ := read_issued_iff readAndWrite hv hs (t := 0) rfl hpc hdisk hrun₂ hend₂
  obtain rfl := (hk₁ _).mp hturn₁
  obtain rfl := (hk₂ _).mp hturn₂
  refine ⟨s, s₁, s₂, a₂, hs, hpc, hacc, hrun₁, hend₁, hrun₂, hend₂, hpast, hq₂, fun hissued => ?_,
    hiff₂.mpr ?_⟩
  · exact (hiff₁.mp hissued).1 ((want_iff_wished hv hs hpc hk₁ ha₁ .write).mp hw₁)
  · exact ⟨fun h => absurd (hw₂.symm.trans ((want_iff_wished hv hs hpc hk₂ ha₂ .write).mpr h))
      (by decide), (want_iff_wished hv hs hpc hk₂ ha₂ .read).mp hr₂⟩

end State

end JRaid
