import JRaid.Stripe.Cache

/-!
# Handling a stripe

The two loops over the devices in `handle_stripe`, one device at a time, and the block
between them. The first loop (`scanDev`) asks for a request wherever a bio is queued; the
last one (`submitDev`) takes the wish back and submits the request `req` of the device, or
marks the stripe for later handling if the member is absent. `handleStripe` is the whole
function, as a call makes it that runs alone; it submits what the devices ask for after the first
loop, one request for each (`mem_submitDevs`).

The counters of the first loop are left out: nothing reads them but `written`, which is set
to 0 just before it is read, so that the block which would return write requests is not
entered and `return_bi` stays `NULL`.
-/

namespace JRaid

variable {N : ℕ} {τ : Type}

/-- A submission of the request `req` of a device: what the block layer gets to see, and for
whom. The field `bios` is not part of the request: it lists the bios that were queued on the
device in the direction of the request when `handle_stripe` submitted it. -/
structure MemberReq (N : ℕ) (τ : Type) where
  sh : Fin N
  dev : ℕ
  rw : Dir
  bdev : ℕ
  sector : UInt64
  bios : List τ

/-! ### The functions of the source -/

/-- Write the bit that asks for a request in one direction. -/
def R5dev.setWant (d : R5dev τ) (v : Bool) : Dir → R5dev τ
  | .read => { d with flags := { d.flags with wantread := v } }
  | .write => { d with flags := { d.flags with wantwrite := v } }

/-- `clear_bit(R5_LOCKED, &dev->flags)`. -/
def R5dev.unlock (d : R5dev τ) : R5dev τ := { d with flags := { d.flags with locked := false } }

/-- The first loop of `handle_stripe`, for one device. -/
def R5dev.scan (d : R5dev τ) : R5dev τ :=
  let d := if d.toread ≠ [] then d.setWant true .read else d
  if d.towrite ≠ [] then d.setWant true .write else d

/-- The flags of the parity device that `handle_stripe` sets after its first loop. -/
def R5dev.markParity (d : R5dev τ) : R5dev τ :=
  { d with flags := { d.flags with insync := true, locked := false, uptodate := true } }

/-- The direction in which the last loop of `handle_stripe` submits: a write if one is
asked for, else a read. -/
def R5dev.submitDir (d : R5dev τ) : Option Dir :=
  if d.want .write then some .write else if d.want .read then some .read else none

namespace Cache

/-- The first loop of `handle_stripe`, for device `i`. -/
def scanDev (c : Cache N τ) (sh : Fin N) (i : ℕ) : Cache N τ := c.modifyDev sh i R5dev.scan

/-- What `handle_stripe` does between its loops, to the device `sh->dev[sh->pd_idx]`. -/
def markParity (c : Cache N τ) (sh : Fin N) : Cache N τ :=
  c.modifyDev sh (c.stripe sh).pdIdx.toNatClampNeg R5dev.markParity

/-- The last loop of `handle_stripe`, for device `i`. -/
def submitDev (conf : JRaid5Conf) (c : Cache N τ) (sh : Fin N) (i : ℕ) :
    Option (MemberReq N τ) × Cache N τ :=
  match ((c.stripe sh).dev i).submitDir with
  | none => (none, c)
  | some rw =>
    let c := c.modifyDev sh i fun d => d.setWant false rw
    match (conf.disks i).jrdev with
    | some jrdev =>
      (some ⟨sh, i, rw, jrdev.bdev, (c.stripe sh).sector, ((c.stripe sh).dev i).queue rw⟩,
        c.holdStripe sh)
    | none =>
      let c := c.modifyDev sh i R5dev.unlock
      (none, c.setHandle sh)

/-- The first loop of `handle_stripe`, from the device below `i` down. -/
def scanDevs (sh : Fin N) : ℕ → Cache N τ → Cache N τ
  | 0, c => c
  | i + 1, c => scanDevs sh i (c.scanDev sh i)

/-- The last loop of `handle_stripe`, from the device below `i` down, with the requests that it
submits. -/
def submitDevs (conf : JRaid5Conf) (sh : Fin N) :
    ℕ → Cache N τ → List (MemberReq N τ) × Cache N τ
  | 0, c => ([], c)
  | i + 1, c =>
    let (req, c) := submitDev conf c sh i
    let (reqs, c) := submitDevs conf sh i c
    (req.toList ++ reqs, c)

/-- `handle_stripe`. -/
def handleStripe (conf : JRaid5Conf) (c : Cache N τ) (sh : Fin N) :
    List (MemberReq N τ) × Cache N τ :=
  submitDevs conf sh conf.numDisks ((scanDevs sh conf.numDisks c).markParity sh)

end Cache

/-! ### What the steps do to a device -/

namespace R5dev

variable (d : R5dev τ) (rw rw' : Dir) (v : Bool)

/-- What no step of `handle_stripe` changes on a device: its logical sector, the writes that
wait to be returned, and that it is not locked. -/
structure SameBlock (d d' : R5dev τ) : Prop where
  sector : d'.sector = d.sector
  written : d'.written = d.written
  locked : d.flags.locked = false → d'.flags.locked = false

theorem SameBlock.trans {d d' d'' : R5dev τ} (h : d.SameBlock d') (h' : d'.SameBlock d'') :
    d.SameBlock d'' :=
  ⟨h'.sector.trans h.sector, h'.written.trans h.written, fun hl => h'.locked (h.locked hl)⟩

theorem setWant_same : d.SameBlock (d.setWant v rw) := by
  cases rw <;> exact ⟨rfl, rfl, id⟩

theorem scan_same : d.SameBlock d.scan := by
  unfold scan
  dsimp only
  split_ifs <;> exact ⟨rfl, rfl, id⟩

theorem markParity_same : d.SameBlock d.markParity := ⟨rfl, rfl, fun _ => rfl⟩

theorem unlock_same : d.SameBlock d.unlock := ⟨rfl, rfl, fun _ => rfl⟩

@[simp]
theorem queue_setWant : (d.setWant v rw).queue rw' = d.queue rw' := by
  cases rw <;> cases rw' <;> rfl

@[simp]
theorem want_setWant : (d.setWant v rw).want rw' = if rw' = rw then v else d.want rw' := by
  cases rw <;> cases rw' <;> rfl

@[simp]
theorem queue_unlock : d.unlock.queue rw = d.queue rw := by cases rw <;> rfl

@[simp]
theorem want_unlock : d.unlock.want rw = d.want rw := by cases rw <;> rfl

@[simp]
theorem queue_markParity : d.markParity.queue rw = d.queue rw := by cases rw <;> rfl

@[simp]
theorem want_markParity : d.markParity.want rw = d.want rw := by cases rw <;> rfl

@[simp]
theorem queue_scan : d.scan.queue rw = d.queue rw := by
  unfold scan
  dsimp only
  split_ifs <;> simp

/-- The first loop asks for a request in the directions in which bios are queued. -/
theorem want_scan : d.scan.want rw = true ↔ d.want rw = true ∨ d.queue rw ≠ [] := by
  have hread : d.toread = d.queue .read := rfl
  have hwrite : ∀ v, (d.setWant v .read).towrite = d.queue .write := fun _ => rfl
  have hwrite' : d.towrite = d.queue .write := rfl
  unfold scan
  rw [hread]
  cases rw <;> dsimp only <;> split_ifs <;> simp_all

theorem submitDir_eq_none : d.submitDir = none ↔ ∀ rw, d.want rw = false := by
  rw [submitDir]
  refine ⟨fun h rw => ?_, fun h => by simp [h]⟩
  split_ifs at h with hw hr
  cases rw
  · simpa using hr
  · simpa using hw

theorem want_of_submitDir {d : R5dev τ} {rw : Dir} (h : d.submitDir = some rw) :
    d.want rw = true := by
  rw [submitDir] at h
  split_ifs at h with hw hr
  · exact Option.some.inj h ▸ hw
  · exact Option.some.inj h ▸ hr

end R5dev

/-! ### What submitting does to the cache -/

namespace Cache

variable {conf : JRaid5Conf} {c : Cache N τ} {sh : Fin N} {i : ℕ}

theorem modifyDev_modifyDev (c : Cache N τ) (sh : Fin N) (i : ℕ) (f g : R5dev τ → R5dev τ) :
    (c.modifyDev sh i f).modifyDev sh i g = c.modifyDev sh i fun d => g (f d) := by
  rw [modifyDev, modifyDev, modify_modify, modifyDev]
  exact modify_congr c (by simp)

/-- The request that `handle_stripe` submits for a device. -/
def request (c : Cache N τ) (sh : Fin N) (i : ℕ) (rw : Dir) (jrdev : JmdRdev) : MemberReq N τ :=
  ⟨sh, i, rw, jrdev.bdev, (c.row sh).sector, ((c.row sh).dev i).queue rw⟩

/-- A request goes to a member that is present. -/
structure Submitted (conf : JRaid5Conf) (c : Cache N τ) (sh : Fin N) (i : ℕ)
    (req : MemberReq N τ) (c' : Cache N τ) : Prop where
  dir : ((c.row sh).dev i).submitDir = some req.rw
  member : ∃ jrdev, (conf.disks i).jrdev = some jrdev ∧ req = c.request sh i req.rw jrdev
  table : c'.table = c.table
  row : c'.row = (c.modifyDev sh i fun d => d.setWant false req.rw).row
  pool : c'.pool = c.pool.hold sh
  report : c'.report = c.report

/-- The member is absent: the stripe is marked for the daemon. -/
structure Postponed (conf : JRaid5Conf) (c : Cache N τ) (sh : Fin N) (i : ℕ) (rw : Dir)
    (c' : Cache N τ) : Prop where
  dir : ((c.row sh).dev i).submitDir = some rw
  absent : (conf.disks i).jrdev = none
  table : c'.table = c.table
  row : c'.row = (c.modifyDev sh i fun d => (d.setWant false rw).unlock).row
  pool : c'.pool = c.pool.mark sh
  report : c'.report = c.report

/-- **The last loop of `handle_stripe`, for one device**: nothing is asked for, or a request
is submitted, or it is postponed. -/
theorem submitDev_cases (conf : JRaid5Conf) (c : Cache N τ) (sh : Fin N) (i : ℕ) :
    (((c.row sh).dev i).submitDir = none ∧ submitDev conf c sh i = (none, c)) ∨
      (∃ req c', submitDev conf c sh i = (some req, c') ∧ Submitted conf c sh i req c') ∨
      ∃ rw c', submitDev conf c sh i = (none, c') ∧ Postponed conf c sh i rw c' := by
  have hrow : ((c.row sh).dev i) = (c.stripe sh).dev i := rfl
  rw [submitDev, hrow]
  cases hdir : ((c.stripe sh).dev i).submitDir with
  | none => exact Or.inl ⟨rfl, rfl⟩
  | some rw =>
    refine Or.inr ?_
    dsimp only
    cases hdisk : (conf.disks i).jrdev with
    | some jrdev =>
      refine Or.inl ⟨_, _, rfl, hdir, ⟨jrdev, hdisk, ?_⟩, ?_, ?_, ?_, rfl⟩
      · have hs := sector_modifyDev c sh i (fun d => d.setWant false rw) sh
        have hd := dev_modifyDev c sh i (fun d => d.setWant false rw) sh i
        rw [if_pos ⟨rfl, rfl⟩] at hd
        have hq := congrArg (fun d => R5dev.queue d rw) hd
        rw [R5dev.queue_setWant] at hq
        exact congr (congrArg (MemberReq.mk sh i rw jrdev.bdev) hs) hq
      · rw [table_holdStripe, table_modifyDev]
      · rw [row_holdStripe]
      · rw [pool_holdStripe, pool_modifyDev]
    | none =>
      refine Or.inr ⟨rw, _, rfl, hdir, hdisk, ?_, ?_, ?_, rfl⟩
      · rw [table_setHandle, table_modifyDev, table_modifyDev]
      · rw [row_setHandle, modifyDev_modifyDev]
      · rw [pool_setHandle, pool_modifyDev, pool_modifyDev]

/-! ### What the loops do to the devices -/

section

variable (sh i)

/-- What a device has become after the first loop. -/
theorem dev_scanDevs (j : ℕ) (c : Cache N τ) : ((scanDevs sh j c).row sh).dev i =
    if i < j then ((c.row sh).dev i).scan else (c.row sh).dev i := by
  induction j generalizing c with
  | zero => rfl
  | succ j ih =>
    rw [scanDevs, ih, scanDev, dev_modifyDev]
    rcases Nat.lt_trichotomy i j with hlt | rfl | hgt
    · rw [if_pos hlt, if_neg fun h => hlt.ne h.2, if_pos (by omega)]
    · rw [if_neg (Nat.lt_irrefl _), if_pos ⟨rfl, rfl⟩, if_pos (Nat.lt_succ_self _)]
    · rw [if_neg (by omega), if_neg fun h => hgt.ne' h.2, if_neg (by omega)]

theorem sector_scanDevs (j : ℕ) (c : Cache N τ) :
    ((scanDevs sh j c).row sh).sector = (c.row sh).sector := by
  induction j generalizing c with
  | zero => rfl
  | succ j ih => rw [scanDevs, ih, scanDev, sector_modifyDev]

variable (conf c)

/-- Submitting for one device leaves the other ones alone. -/
theorem submitDev_frame : ((submitDev conf c sh i).2.row sh).sector = (c.row sh).sector ∧
    ∀ k, k ≠ i → ((submitDev conf c sh i).2.row sh).dev k = (c.row sh).dev k := by
  obtain ⟨-, heq⟩ | ⟨req, c', heq, hsub⟩ | ⟨rw', c', heq, hpost⟩ := submitDev_cases conf c sh i
  · rw [heq]
    exact ⟨rfl, fun _ _ => rfl⟩
  · rw [heq, hsub.row]
    exact ⟨sector_modifyDev .., fun k hk => by rw [dev_modifyDev, if_neg fun h => hk h.2]⟩
  · rw [heq, hpost.row]
    exact ⟨sector_modifyDev .., fun k hk => by rw [dev_modifyDev, if_neg fun h => hk h.2]⟩

/-- The request for one device. -/
theorem submitDev_eq_some_iff (req : MemberReq N τ) : (submitDev conf c sh i).1 = some req ↔
    ∃ rw jrdev, ((c.row sh).dev i).submitDir = some rw ∧ (conf.disks i).jrdev = some jrdev ∧
      req = c.request sh i rw jrdev := by
  obtain ⟨hdir, heq⟩ | ⟨req', c', heq, hsub⟩ | ⟨rw', c', heq, hpost⟩ := submitDev_cases conf c sh i
  · simp [heq, hdir]
  · obtain ⟨jrdev, hdisk, hreq⟩ := hsub.member
    simp only [heq, hsub.dir, hdisk, Option.some.injEq]
    constructor
    · rintro rfl
      exact ⟨_, _, rfl, rfl, hreq⟩
    · rintro ⟨_, _, rfl, rfl, rfl⟩
      exact hreq
  · simp [heq, hpost.absent]

variable {conf c}

/-- **The requests of the last loop**: one for each device that asks for it and whose member is
present. -/
theorem mem_submitDevs (j : ℕ) (c : Cache N τ) (req : MemberReq N τ) :
    req ∈ (submitDevs conf sh j c).1 ↔ ∃ i < j, ∃ rw jrdev,
      ((c.row sh).dev i).submitDir = some rw ∧ (conf.disks i).jrdev = some jrdev ∧
        req = c.request sh i rw jrdev := by
  induction j generalizing c with
  | zero => simp [submitDevs]
  | succ j ih =>
    obtain ⟨hsector, hdev⟩ := submitDev_frame conf c sh j
    -- the devices below `j` are as they were before device `j` was served
    have hrest : (∃ i < j, ∃ rw jrdev,
        (((submitDev conf c sh j).2.row sh).dev i).submitDir = some rw ∧
          (conf.disks i).jrdev = some jrdev ∧
          req = (submitDev conf c sh j).2.request sh i rw jrdev) ↔
        ∃ i < j, ∃ rw jrdev, ((c.row sh).dev i).submitDir = some rw ∧
          (conf.disks i).jrdev = some jrdev ∧ req = c.request sh i rw jrdev :=
      exists_congr fun i => and_congr_right fun hi => by
        simp only [request, hdev i hi.ne, hsector]
    rw [submitDevs]
    dsimp only
    rw [List.mem_append, Option.mem_toList, submitDev_eq_some_iff, ih, hrest]
    constructor
    · rintro (h | ⟨i, hi, h⟩)
      · exact ⟨j, Nat.lt_succ_self j, h⟩
      · exact ⟨i, Nat.lt_succ_of_lt hi, h⟩
    · rintro ⟨i, hi, h⟩
      rcases Nat.lt_succ_iff_lt_or_eq.mp hi with hlt | rfl
      · exact Or.inr ⟨i, hlt, h⟩
      · exact Or.inl h

end

end Cache

end JRaid
