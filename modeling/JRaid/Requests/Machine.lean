import JRaid.Stripe.AddStripeBio
import JRaid.Stripe.HandleStripe
import JRaid.ForMathlib.FallibleSystem

/-!
# The running array

Any number of threads, each a call of `jraid5_make_request` or a run of `jraid5d`, work on
one stripe cache while the requests that they have submitted complete. A step is a section
under `device_lock`, the release of a stripe, or the work of `handle_stripe` on one device;
an event lets a thread make its next step or lets a submitted request complete. Threads and
completions come in any order, and every submitted request completes at most once.

The upper-level bios are addressed by the threads that submit them: each call has a bio of
its own, whose fields are taken to stay as they are after `bio_endio`. The memory of a bio
is a function of the byte offset. The daemon of the driver is one thread, whose runs follow
each other; here they may also overlap. Its update of a dirty superblock touches no stripe
and is left out. What the block layer does with a request (`Env.transfer`) is a parameter.

`Runs` lists what a step of a thread can do. The invariants of the following modules are
proved by going through its cases.
-/

namespace JRaid

/-- What a thread does. -/
inductive Thread where
  | makeRequest (bio : Bio)
  | jraid5d

/-- Where a thread is. In `scan sh i` and `submit sh i`, the loop of `handle_stripe` has
still to visit the devices below `i`. -/
inductive Pc (N : ℕ) where
  | start
  | get
  | wait
  | add (sh : Fin N)
  | scan (sh : Fin N) (i : ℕ)
  | submit (sh : Fin N) (i : ℕ)
  | finish
  | pop
  | done
  deriving DecidableEq

/-- The stripe a thread holds a reference to. -/
def Pc.held {N : ℕ} : Pc N → Option (Fin N)
  | .add sh | .scan sh _ | .submit sh _ => some sh
  | _ => none

/-- How many steps a thread has still to make at most, on an array of `n` disks. A step that
submits a request counts twice, once for the completion of the request. -/
def Pc.rank (n : ℕ) : Pc N → ℕ
  | .start => 3 * n + 7
  | .get => 3 * n + 6
  | .wait => 3 * n + 5
  | .add _ => 3 * n + 4
  | .scan _ i => 2 * n + i + 3
  | .submit _ i => 2 * i + 2
  | .finish | .pop => 1
  | .done => 0

/-- The contents of a member device: 512 bytes for each sector. -/
abbrev Disk := UInt64 → Fin 512 → UInt8

/-- What a run depends on besides the schedule. -/
structure Env (N : ℕ) (τ : Type) where
  conf : JRaid5Conf
  thread : τ → Thread
  /-- what the pages hold that `grow_buffers` allocates -/
  page : Fin N → ℕ → Page
  /-- what the memory of the bios holds when they are submitted -/
  memory : τ → ℕ → UInt8
  /-- what the member devices hold at the start -/
  disk : ℕ → Disk
  /-- what the block layer does with a request, to the page of the device and to the disks -/
  transfer : MemberReq N τ → Option Page → (ℕ → Disk) → Option Page × (ℕ → Disk)

/-- A state of the running array. -/
structure State (N : ℕ) (τ : Type) where
  cache : Cache N τ
  pc : τ → Pc N
  /-- the requests submitted and not completed -/
  inflight : List (MemberReq N τ)
  /-- `bi_phys_segments` of the bios -/
  physSegments : τ → UInt32
  /-- the calls of `bio_endio`, the latest first, with the memory of the bio at that time -/
  ended : List (τ × (ℕ → UInt8))
  memory : τ → ℕ → UInt8
  disk : ℕ → Disk

/-- A thread makes its next step, or the `k`-th submitted request completes. -/
inductive Event (τ : Type) where
  | run (t : τ)
  | complete (k : ℕ)
  deriving DecidableEq

variable {N : ℕ} {τ : Type} [DecidableEq τ]

/-- The bio of a thread; a run of the daemon has none. -/
def Env.bio (env : Env N τ) (t : τ) : Bio :=
  match env.thread t with
  | .makeRequest b => b
  | .jraid5d => ⟨0, 0, .read⟩

/-- What `jraid5_make_request` computes first; its variable `pd_idx` is not initialised. -/
def Env.place (env : Env N τ) (t : τ) : Place := env.conf.mapSector (env.bio t).biSector 0

namespace State

/-- A thread moves on. -/
def goto (s : State N τ) (t : τ) (p : Pc N) : State N τ :=
  { s with pc := Function.update s.pc t p }

@[simp]
theorem pc_goto_self (s : State N τ) (t : τ) (p : Pc N) : (s.goto t p).pc t = p :=
  Function.update_self ..

theorem pc_goto_of_ne (s : State N τ) {t u : τ} (p : Pc N) (h : u ≠ t) :
    (s.goto t p).pc u = s.pc u :=
  Function.update_of_ne h _ _

/-- A pass of `get_active_stripe` in `jraid5_make_request`. The direction of a bio is never
`READA`, so the call may block. -/
def getStripe (env : Env N τ) (s : State N τ) (t : τ) : Except Stop (State N τ) :=
  (Cache.getActiveStripe env.conf s.cache (env.place t).newSector
    (env.place t).pdIdx.toInt32 false).map fun (f, c) =>
      match f with
      | .stripe sh => { s with cache := c }.goto t (.add sh)
      | .null => { s with cache := c }.goto t .finish
      | .wait => { s with cache := c }.goto t .wait

/-- The end of `jraid5_make_request`. -/
def finish (s : State N τ) (t : τ) : State N τ :=
  let s := { s with physSegments := Function.update s.physSegments t (s.physSegments t - 1) }
  let s := if s.physSegments t = 0 then { s with ended := (t, s.memory t) :: s.ended } else s
  s.goto t .done

/-- The next step of a thread; a thread that has nothing to do leaves the state alone. -/
def runThread (env : Env N τ) (s : State N τ) (t : τ) : Except Stop (State N τ) :=
  match s.pc t, env.thread t with
  | .start, .makeRequest _ =>
    .ok ({ s with physSegments := Function.update s.physSegments t 1 }.goto t .get)
  | .start, .jraid5d => .ok (s.goto t .pop)
  | .get, .makeRequest _ => s.getStripe env t
  | .wait, .makeRequest _ =>
    -- `wait_event_lock_irq` looks at the list under the lock and keeps the lock if it can go on
    if s.cache.inactiveList = [] then .ok s else s.getStripe env t
  | .add sh, .makeRequest b =>
    let c := (s.cache.addStripeBio env.bio sh t (env.place t).ddIdx.toNat b.biRw).2
    .ok ({ s with cache := c }.goto t (.scan sh env.conf.numDisks))
  | .scan sh (i + 1), _ => .ok ({ s with cache := s.cache.scanDev sh i }.goto t (.scan sh i))
  | .scan sh 0, _ =>
    .ok ({ s with cache := s.cache.markParity sh }.goto t (.submit sh env.conf.numDisks))
  | .submit sh (i + 1), _ =>
    let (req, c) := Cache.submitDev env.conf s.cache sh i
    .ok ({ s with cache := c, inflight := s.inflight ++ req.toList }.goto t (.submit sh i))
  | .submit sh 0, .makeRequest _ =>
    .ok ({ s with cache := s.cache.releaseStripe sh }.goto t .finish)
  | .submit sh 0, .jraid5d => .ok ({ s with cache := s.cache.releaseStripe sh }.goto t .pop)
  | .finish, .makeRequest _ => .ok (s.finish t)
  | .pop, .jraid5d =>
    s.cache.takeHandled.map fun (f, c) =>
      match f with
      | some sh => { s with cache := c }.goto t (.scan sh env.conf.numDisks)
      | none => { s with cache := c }.goto t .done
  | _, _ => .ok s

/-- `raid5_end_read_request` and `raid5_end_write_request`. -/
def complete (env : Env N τ) (s : State N τ) (k : ℕ) : State N τ :=
  match s.inflight[k]? with
  | none => s
  | some req =>
    let done := env.transfer req ((s.cache.stripe req.sh).dev req.dev).page s.disk
    let c := s.cache.modifyDev req.sh req.dev fun d => { d with page := done.1 }
    { s with
      cache := c.releaseStripe req.sh
      inflight := s.inflight.eraseIdx k
      disk := done.2 }

end State

/-- The array that `grow_stripes` has prepared. -/
def Env.init (env : Env N τ) : State N τ where
  cache := Cache.growStripes N τ env.conf env.page
  pc _ := .start
  inflight := []
  physSegments _ := 0
  ended := []
  memory := env.memory
  disk := env.disk

/-- **The running array**: every interleaving of the threads and the completions. -/
def Env.machine (env : Env N τ) : FallibleSystem (State N τ) (Event τ) Stop where
  init := env.init
  step s
    | .run t => s.runThread env t
    | .complete k => .ok (s.complete env k)

/-! ### What a step can do -/

/-- The steps of a thread. -/
inductive Runs (env : Env N τ) (s : State N τ) (t : τ) : State N τ → Prop
  | idle : Runs env s t s
  | start {b : Bio} (ht : env.thread t = .makeRequest b) (hpc : s.pc t = .start) :
      Runs env s t ({ s with physSegments := Function.update s.physSegments t 1 }.goto t .get)
  | startDaemon (ht : env.thread t = .jraid5d) (hpc : s.pc t = .start) :
      Runs env s t (s.goto t .pop)
  | hit {b : Bio} {sh : Fin N} {c : Cache N τ} (ht : env.thread t = .makeRequest b)
      (hpc : s.pc t = .get ∨ s.pc t = .wait)
      (h : Cache.Hit env.conf s.cache (env.place t).newSector sh c) :
      Runs env s t ({ s with cache := c }.goto t (.add sh))
  | miss {b : Bio} {sh : Fin N} {c : Cache N τ} (ht : env.thread t = .makeRequest b)
      (hpc : s.pc t = .get ∨ s.pc t = .wait)
      (h : Cache.Miss env.conf s.cache (env.place t).newSector (env.place t).pdIdx.toInt32 sh c) :
      Runs env s t ({ s with cache := c }.goto t (.add sh))
  | exhausted {b : Bio} (ht : env.thread t = .makeRequest b)
      (hpc : s.pc t = .get ∨ s.pc t = .wait) (hfree : s.cache.pool.free = []) :
      Runs env s t (s.goto t .wait)
  | add {b : Bio} {sh : Fin N} (ht : env.thread t = .makeRequest b) (hpc : s.pc t = .add sh) :
      Runs env s t ({ s with cache :=
        (s.cache.addStripeBio env.bio sh t (env.place t).ddIdx.toNat b.biRw).2 }.goto t
          (.scan sh env.conf.numDisks))
  | scan {sh : Fin N} {i : ℕ} (hpc : s.pc t = .scan sh (i + 1)) :
      Runs env s t ({ s with cache := s.cache.scanDev sh i }.goto t (.scan sh i))
  | parity {sh : Fin N} (hpc : s.pc t = .scan sh 0) :
      Runs env s t ({ s with cache := s.cache.markParity sh }.goto t
        (.submit sh env.conf.numDisks))
  | skip {sh : Fin N} {i : ℕ} (hpc : s.pc t = .submit sh (i + 1))
      (hdir : ((s.cache.row sh).dev i).submitDir = none) :
      Runs env s t (s.goto t (.submit sh i))
  | request {sh : Fin N} {i : ℕ} {req : MemberReq N τ} {c : Cache N τ}
      (hpc : s.pc t = .submit sh (i + 1)) (h : Cache.Submitted env.conf s.cache sh i req c) :
      Runs env s t ({ s with cache := c, inflight := s.inflight ++ [req] }.goto t (.submit sh i))
  | postpone {sh : Fin N} {i : ℕ} {rw : Dir} {c : Cache N τ} (hpc : s.pc t = .submit sh (i + 1))
      (h : Cache.Postponed env.conf s.cache sh i rw c) :
      Runs env s t ({ s with cache := c }.goto t (.submit sh i))
  | release {b : Bio} {sh : Fin N} (ht : env.thread t = .makeRequest b)
      (hpc : s.pc t = .submit sh 0) :
      Runs env s t ({ s with cache := s.cache.releaseStripe sh }.goto t .finish)
  | releaseDaemon {sh : Fin N} (ht : env.thread t = .jraid5d) (hpc : s.pc t = .submit sh 0) :
      Runs env s t ({ s with cache := s.cache.releaseStripe sh }.goto t .pop)
  | finish {b : Bio} (ht : env.thread t = .makeRequest b) (hpc : s.pc t = .finish) :
      Runs env s t (s.finish t)
  | take {sh : Fin N} {c : Cache N τ} (ht : env.thread t = .jraid5d) (hpc : s.pc t = .pop)
      (h : Cache.Taken s.cache sh c) :
      Runs env s t ({ s with cache := c }.goto t (.scan sh env.conf.numDisks))
  | drained (ht : env.thread t = .jraid5d) (hpc : s.pc t = .pop)
      (hwork : s.cache.pool.work = []) : Runs env s t (s.goto t .done)

namespace State

variable {env : Env N τ} {s s' : State N τ} {t : τ}

/-- The end of a call changes nothing but its own counter and the calls of `bio_endio`. -/
theorem finish_frame (s : State N τ) (t : τ) :
    (s.finish t).cache = s.cache ∧ (s.finish t).pc = Function.update s.pc t .done ∧
      (s.finish t).inflight = s.inflight ∧ (s.finish t).memory = s.memory := by
  unfold finish
  dsimp only
  split_ifs <;> exact ⟨rfl, rfl, rfl, rfl⟩

/-- A step of one thread leaves the other threads where they are. -/
theorem pc_of_runs_of_ne {u : τ} (hrun : Runs env s t s') (hu : u ≠ t) : s'.pc u = s.pc u := by
  cases hrun with
  | idle => rfl
  | finish ht hpc =>
    rw [(finish_frame s t).2.1]
    exact Function.update_of_ne hu _ _
  | _ => exact pc_goto_of_ne _ _ hu

private theorem getStripe_runs {b : Bio} (ht : env.thread t = .makeRequest b)
    (hpc : s.pc t = .get ∨ s.pc t = .wait) (h : s.getStripe env t = .ok s') : Runs env s t s' := by
  rw [getStripe] at h
  cases hget : Cache.getActiveStripe env.conf s.cache (env.place t).newSector
      (env.place t).pdIdx.toInt32 false with
  | error e => simp [hget, Except.map] at h
  | ok p =>
    obtain ⟨f, c⟩ := p
    rw [hget] at h
    obtain ⟨sh, rfl, hhit⟩ | ⟨sh, rfl, hmiss⟩ | ⟨rfl, hexh⟩ := Cache.getActiveStripe_eq_ok hget
    · obtain rfl := Except.ok.inj h
      exact .hit ht hpc hhit
    · obtain rfl := Except.ok.inj h
      exact .miss ht hpc hmiss
    · obtain rfl := hexh.eq
      obtain rfl := Except.ok.inj h
      exact .exhausted ht hpc hexh.free

/-- **The cases of a step**: a thread's next step is one of `Runs`. -/
theorem runThread_runs (h : s.runThread env t = .ok s') : Runs env s t s' := by
  cases hpc : s.pc t with
  | start =>
    cases ht : env.thread t with
    | makeRequest b =>
      rw [runThread, hpc, ht] at h
      obtain rfl := Except.ok.inj h
      exact .start ht hpc
    | jraid5d =>
      rw [runThread, hpc, ht] at h
      obtain rfl := Except.ok.inj h
      exact .startDaemon ht hpc
  | get =>
    cases ht : env.thread t with
    | makeRequest b =>
      rw [runThread, hpc, ht] at h
      exact getStripe_runs ht (Or.inl hpc) h
    | jraid5d =>
      rw [runThread, hpc, ht] at h
      obtain rfl := Except.ok.inj h
      exact .idle
  | wait =>
    cases ht : env.thread t with
    | makeRequest b =>
      rw [runThread, hpc, ht] at h
      dsimp only at h
      split_ifs at h
      · obtain rfl := Except.ok.inj h
        exact .idle
      · exact getStripe_runs ht (Or.inr hpc) h
    | jraid5d =>
      rw [runThread, hpc, ht] at h
      obtain rfl := Except.ok.inj h
      exact .idle
  | add sh =>
    cases ht : env.thread t with
    | makeRequest b =>
      rw [runThread, hpc, ht] at h
      obtain rfl := Except.ok.inj h
      exact .add ht hpc
    | jraid5d =>
      rw [runThread, hpc, ht] at h
      obtain rfl := Except.ok.inj h
      exact .idle
  | scan sh i =>
    rw [runThread, hpc] at h
    cases i with
    | zero =>
      obtain rfl := Except.ok.inj h
      exact .parity hpc
    | succ i =>
      obtain rfl := Except.ok.inj h
      exact .scan hpc
  | submit sh i =>
    cases i with
    | zero =>
      cases ht : env.thread t with
      | makeRequest b =>
        rw [runThread, hpc, ht] at h
        obtain rfl := Except.ok.inj h
        exact .release ht hpc
      | jraid5d =>
        rw [runThread, hpc, ht] at h
        obtain rfl := Except.ok.inj h
        exact .releaseDaemon ht hpc
    | succ i =>
      rw [runThread, hpc] at h
      dsimp only at h
      obtain ⟨hdir, heq⟩ | ⟨req, c, heq, hsub⟩ | ⟨rw, c, heq, hpost⟩ :=
        Cache.submitDev_cases env.conf s.cache sh i
      all_goals rw [heq] at h
      · rw [Option.toList_none, List.append_nil] at h
        obtain rfl := Except.ok.inj h
        exact .skip hpc hdir
      · obtain rfl := Except.ok.inj h
        exact .request hpc hsub
      · rw [Option.toList_none, List.append_nil] at h
        obtain rfl := Except.ok.inj h
        exact .postpone hpc hpost
  | finish =>
    cases ht : env.thread t with
    | makeRequest b =>
      rw [runThread, hpc, ht] at h
      obtain rfl := Except.ok.inj h
      exact .finish ht hpc
    | jraid5d =>
      rw [runThread, hpc, ht] at h
      obtain rfl := Except.ok.inj h
      exact .idle
  | pop =>
    cases ht : env.thread t with
    | makeRequest b =>
      rw [runThread, hpc, ht] at h
      obtain rfl := Except.ok.inj h
      exact .idle
    | jraid5d =>
      rw [runThread, hpc, ht] at h
      cases htake : s.cache.takeHandled with
      | error e => simp [htake, Except.map] at h
      | ok p =>
        obtain ⟨f, c⟩ := p
        rw [htake] at h
        obtain ⟨rfl, hwork, rfl⟩ | ⟨sh, rfl, htaken⟩ := Cache.takeHandled_eq_ok htake
        · obtain rfl := Except.ok.inj h
          exact .drained ht hpc hwork
        · obtain rfl := Except.ok.inj h
          exact .take ht hpc htaken
  | done =>
    rw [runThread, hpc] at h
    obtain rfl := Except.ok.inj h
    exact .idle

/-- Why a step of a thread stops: `get_active_stripe` or the head of the loop of `jraid5d`
does. -/
theorem runThread_eq_error {b : Stop} (h : s.runThread env t = .error b) :
    ((s.pc t = .get ∨ s.pc t = .wait) ∧
      Cache.getActiveStripe env.conf s.cache (env.place t).newSector
        (env.place t).pdIdx.toInt32 false = .error b) ∨
      (s.pc t = .pop ∧ s.cache.takeHandled = .error b) := by
  have hget : s.getStripe env t = .error b →
      Cache.getActiveStripe env.conf s.cache (env.place t).newSector
        (env.place t).pdIdx.toInt32 false = .error b := by
    intro hs
    rw [getStripe] at hs
    cases hget : Cache.getActiveStripe env.conf s.cache (env.place t).newSector
        (env.place t).pdIdx.toInt32 false with
    | error e =>
      rw [hget] at hs
      exact congrArg _ (Except.error.inj hs)
    | ok p => simp [hget, Except.map] at hs
  rw [runThread] at h
  split at h
  case h_3 hpc _ => exact Or.inl ⟨Or.inl hpc, hget h⟩
  case h_4 hpc _ =>
    split_ifs at h
    exact Or.inl ⟨Or.inr hpc, hget h⟩
  case h_12 hpc _ =>
    refine Or.inr ⟨hpc, ?_⟩
    cases htake : s.cache.takeHandled with
    | error e =>
      rw [htake] at h
      exact congrArg _ (Except.error.inj h)
    | ok p => simp [htake, Except.map] at h
  all_goals cases h

/-- What the completion of a request does. -/
structure Completes (s : State N τ) (k : ℕ) (req : MemberReq N τ) (s' : State N τ) : Prop where
  get : s.inflight[k]? = some req
  inflight : s'.inflight = s.inflight.eraseIdx k
  table : s'.cache.table = s.cache.table
  row : ∃ page, s'.cache.row =
    (s.cache.modifyDev req.sh req.dev fun d => { d with page := page }).row
  pool : s'.cache.pool = s.cache.pool.put req.sh
  report : ¬s.cache.OnList req.sh → s.cache.activeStripes ≠ 0 → s'.cache.report = s.cache.report
  pc : s'.pc = s.pc
  physSegments : s'.physSegments = s.physSegments
  ended : s'.ended = s.ended
  memory : s'.memory = s.memory

omit [DecidableEq τ] in
/-- **The cases of a completion**: there is no such request, or it completes. -/
theorem complete_cases (env : Env N τ) (s : State N τ) (k : ℕ) :
    s.complete env k = s ∨ ∃ req, Completes s k req (s.complete env k) := by
  rw [complete]
  cases hk : s.inflight[k]? with
  | none => exact Or.inl rfl
  | some req =>
    refine Or.inr ⟨req, hk, rfl, ?_, ⟨_, Cache.row_releaseStripe _ _⟩, ?_, fun hl ha => ?_, rfl,
      rfl, rfl, rfl⟩
    · exact (Cache.table_releaseStripe _ _).trans (Cache.table_modifyDev _ _ _ _)
    · exact (Cache.pool_releaseStripe _ _).trans (congrArg (fun p => p.put req.sh)
        (Cache.pool_modifyDev _ _ _ _))
    · exact Cache.report_releaseStripe _ _ hl ha

/-- The cases of a step of the machine. -/
theorem step_cases {e : Event τ} (h : env.machine.step s e = .ok s') :
    (∃ t, e = .run t ∧ Runs env s t s') ∨ s' = s ∨
      ∃ k req, e = .complete k ∧ Completes s k req s' := by
  cases e with
  | run t => exact Or.inl ⟨t, rfl, runThread_runs h⟩
  | complete k =>
    obtain rfl := Except.ok.inj h
    obtain heq | ⟨req, hreq⟩ := complete_cases env s k
    · exact Or.inr (Or.inl heq)
    · exact Or.inr (Or.inr ⟨k, req, rfl, hreq⟩)

/-- A call does not turn back: its next step, if it does anything, leaves it fewer. -/
theorem rank_of_runs {b : Bio} (ht : env.thread t = .makeRequest b) (hrun : Runs env s t s') :
    s'.pc t = s.pc t ∨
      (s'.pc t).rank env.conf.numDisks < (s.pc t).rank env.conf.numDisks := by
  have lt : ∀ {p q : Pc N}, s.pc t = p → s'.pc t = q →
      q.rank env.conf.numDisks < p.rank env.conf.numDisks → s'.pc t = s.pc t ∨
        (s'.pc t).rank env.conf.numDisks < (s.pc t).rank env.conf.numDisks :=
    fun hp hq hlt => Or.inr (by rwa [hp, hq])
  have get : ∀ {q : Pc N}, s.pc t = .get ∨ s.pc t = .wait → s'.pc t = q →
      q.rank env.conf.numDisks < 3 * env.conf.numDisks + 5 → s'.pc t = s.pc t ∨
        (s'.pc t).rank env.conf.numDisks < (s.pc t).rank env.conf.numDisks := fun hp hq hlt => by
    rcases hp with hp | hp
    · exact lt hp hq (hlt.trans (Nat.lt_succ_self _))
    · exact lt hp hq hlt
  have daemon : env.thread t ≠ .jraid5d := by rw [ht]; exact Thread.noConfusion
  cases hrun with
  | idle => exact Or.inl rfl
  | start _ hpc => exact lt hpc (pc_goto_self ..) (by simp [Pc.rank])
  | hit _ hpc hhit => exact get hpc (pc_goto_self ..) (by simp [Pc.rank])
  | miss _ hpc hmiss => exact get hpc (pc_goto_self ..) (by simp [Pc.rank])
  | exhausted _ hpc hfree =>
    rcases hpc with hpc | hpc
    · exact lt hpc (pc_goto_self ..) (by simp [Pc.rank])
    · -- a call that goes on waiting
      exact Or.inl ((pc_goto_self ..).trans hpc.symm)
  | add _ hpc => exact lt hpc (pc_goto_self ..) (by simp only [Pc.rank]; omega)
  | scan hpc => exact lt hpc (pc_goto_self ..) (by simp only [Pc.rank]; omega)
  | parity hpc => exact lt hpc (pc_goto_self ..) (by simp only [Pc.rank]; omega)
  | skip hpc hdir => exact lt hpc (pc_goto_self ..) (by simp only [Pc.rank]; omega)
  | request hpc hsub => exact lt hpc (pc_goto_self ..) (by simp only [Pc.rank]; omega)
  | postpone hpc hpost => exact lt hpc (pc_goto_self ..) (by simp only [Pc.rank]; omega)
  | release _ hpc => exact lt hpc (pc_goto_self ..) (by simp [Pc.rank])
  | finish _ hpc =>
    refine lt hpc ?_ (show Pc.rank _ (.done : Pc N) < _ by simp [Pc.rank])
    rw [(finish_frame s t).2.1, Function.update_self]
  | startDaemon hd | releaseDaemon hd | take hd | drained hd => exact absurd hd daemon

/-- Nor does it in a whole run. -/
theorem rank_of_leads {b : Bio} (ht : env.thread t = .makeRequest b)
    (h : env.machine.Leads s s') :
    (s'.pc t).rank env.conf.numDisks ≤ (s.pc t).rank env.conf.numDisks := by
  refine h.invariant
    (I := fun a => (a.pc t).rank env.conf.numDisks ≤ (s.pc t).rank env.conf.numDisks) le_rfl
    fun a e a' ih hstep => le_trans (le_of_eq_or_lt ?_) ih
  obtain ⟨u, -, hrun⟩ | rfl | ⟨k, req, -, hdone⟩ := step_cases hstep
  · by_cases hu : t = u
    · subst hu
      exact (rank_of_runs ht hrun).imp_left fun hpc => by rw [hpc]
    · exact Or.inl (by rw [pc_of_runs_of_ne hrun hu])
  · exact Or.inl rfl
  · exact Or.inl (by rw [hdone.pc])

end State

/-! ### An array to try the machine on -/

/-- A block layer that copies a page between the memory and the disk of a request. -/
def MemberReq.copy (req : MemberReq N τ) (page : Option Page) (disk : ℕ → Disk) :
    Option Page × (ℕ → Disk) :=
  match req.rw, page with
  | _, none => (none, disk)
  | .read, some _ =>
    (some fun k => disk req.bdev (req.sector + UInt64.ofNat (k / 512))
      ⟨k % 512, Nat.mod_lt _ (by decide)⟩, disk)
  | .write, some p =>
    (page, Function.update disk req.bdev fun sect k =>
      let i := (sect - req.sector).toNat * 512 + k
      if h : i < pageSize then p ⟨i, h⟩ else disk req.bdev sect k)

/-- A left-symmetric array of three blank disks with chunks of one page and a pool of `N`
stripes, on which the bios of a list are submitted. -/
def smallArray (N : ℕ) (disks : ℕ → DiskInfo) (bios : List Bio) : Env N (Fin bios.length) where
  conf := ⟨4096, 5, algorithmLeftSymmetric, 3, 4096, disks⟩
  thread t := .makeRequest (bios.get t)
  page _ _ _ := 0
  memory _ _ := 0
  disk _ _ _ := 0
  transfer := MemberReq.copy

/-- Every slot of the member table is taken. -/
def allPresent (i : ℕ) : DiskInfo := ⟨some ⟨i⟩⟩

end JRaid
