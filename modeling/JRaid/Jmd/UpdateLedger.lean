import JRaid.ForMathlib.Ledger
import JRaid.Jmd.Run
import JRaid.Jmd.UpdatePass

/-!
# What an update of the superblocks acquires

`write_disk_sb` acquires a bio and a page for each write. When the write is complete
`super_written` puts the bio. Nothing frees the page, and if the member is skipped, or its
superblock has not the magic number, nothing puts the bio.

Here the calls come with a ledger. They are numbered by the pass of `jmd_update_sb` and by the place
of the member in the list, so that what one of them acquires is not what another one acquires
(`Jmddev.leads_updateLog`). The only update that a call of `add_store` makes is at the end of
`do_jmd_run` (`Jmddev.doJmdRun_endsWith`): `jraid5d` makes one if `sb_dirty` is set, and nothing
sets it.
-/

namespace JRaid

namespace Jmd

open Ledger

/-- What a call of `write_disk_sb` acquires. -/
inductive SbResource where
  | bio
  | page
  deriving DecidableEq

/-! ### `write_disk_sb` -/

/-- `write_disk_sb`, with its ledger, up to the completion of the write that it submits. -/
def Jmddev.writeDiskSbLedger (jmddev : Jmddev) (env : WriteEnv) (jrdev : Rdev) :
    Int32 × Option SbWrite × List (Entry SbResource) :=
  if !env.bio then (-enomem, none, [])
  else
    match env.page with
    | none => (-enomem, none, [.acquire .bio, .release .bio])
    | some page =>
      let log := [.acquire .bio, .acquire .page]
      if jrdev.faulty then (-1, none, log)
      else if jrdev.sb.mdMagic ≠ mdSbMagic then (-1, none, log)
      else
        let sbOffset := jmddev.calcDevSboffset jrdev.dev true
        if jrdev.sbOffset ≠ sbOffset then (1, none, log)
        else if jmddev.calcDevSize jrdev.dev true ≠ jrdev.size then (1, none, log)
        else (0, some ⟨jrdev.dev, sbOffset, page.withSb jrdev.sb, env.io⟩, log ++ [.release .bio])

/-- Without the ledger it is `write_disk_sb`. -/
theorem Jmddev.map_writeDiskSbLedger (jmddev : Jmddev) (env : WriteEnv) (jrdev : Rdev) :
    ((jmddev.writeDiskSbLedger env jrdev).1, (jmddev.writeDiskSbLedger env jrdev).2.1) =
      jmddev.writeDiskSb env jrdev := by
  unfold writeDiskSbLedger writeDiskSb
  cases env.page with
  | none => split_ifs <;> rfl
  | some page =>
    dsimp only
    split_ifs <;> rfl

/-- What a call of `write_disk_sb` does not give back: the page, and the bio unless a write is
submitted. -/
def Jmddev.sbKept (jmddev : Jmddev) (env : WriteEnv) (jrdev : Rdev) : Set SbResource :=
  {r | env.bio = true ∧ env.page.isSome ∧ (r = .bio → (jmddev.writeDiskSb env jrdev).2 = none)}

theorem Jmddev.leads_writeDiskSbLedger (jmddev : Jmddev) (env : WriteEnv) (jrdev : Rdev) :
    Leads ∅ (jmddev.writeDiskSbLedger env jrdev).2.2 (jmddev.sbKept env jrdev) := by
  have hboth : Leads ∅ [.acquire SbResource.bio, .acquire .page] Set.univ := by
    refine ⟨Set.notMem_empty _, by simp, ?_⟩
    ext r
    cases r <;> simp
  rw [sbKept, ← jmddev.map_writeDiskSbLedger]
  unfold writeDiskSbLedger
  cases hbio : env.bio with
  | false => simp [Leads]
  | true =>
    cases hpage : env.page with
    | none => simp [Leads]
    | some page =>
      simp only [Bool.not_true, Bool.false_eq_true, if_false]
      split_ifs
      case neg =>
        refine (congrArg (Leads _ _) ?_).mp (hboth.append (Leads.release (Set.mem_univ _)))
        ext r
        cases r <;> simp
      all_goals simpa using hboth

/-! ### `jmd_update_sb` -/

/-- The calls of `write_disk_sb` in a pass: the members, with their places in the list. -/
def Pass.calls (p : Pass) : List (Rdev × ℕ) :=
  if p.synced.sb.map Superblock.notPersistent = some 0 then
    p.synced.disks.zipIdx.filter fun m => !m.1.faulty
  else []

/-- What the calls of a pass acquire and release. -/
def Pass.ledger (p : Pass) (env : PassEnv) : List (Entry (ℕ × SbResource)) :=
  p.calls.flatMap fun m =>
    (p.synced.writeDiskSbLedger (env.write m.2) m.1).2.2.map (Entry.map (Prod.mk m.2))

/-- What `jmd_update_sb` acquires and releases. Pass number `k` leaves `99 - k` passes over. -/
def Jmddev.updateLog (jmddev : Jmddev) (env : ℕ → PassEnv) :
    List (Entry (ℕ × ℕ × SbResource)) :=
  (jmddev.passes env 100).zipIdx.flatMap fun p =>
    (p.1.ledger (env (99 - p.2))).map (Entry.map (Prod.mk p.2))

/-- Each pass has its answers. -/
theorem Jmddev.of_getElem_passes {s : Jmddev} {env : ℕ → PassEnv} {count k : ℕ} {p : Pass}
    (h : (s.passes env count)[k]? = some p) :
    ∃ (t : Jmddev) (sb : Superblock), t.sb = some sb ∧ p = t.onePass sb (env (count - 1 - k)) := by
  induction count generalizing s k with
  | zero => cases h
  | succ count ih =>
    cases hsb : s.sb with
    | none =>
      rw [passes, hsb] at h
      cases h
    | some sb =>
      rw [passes_succ hsb] at h
      cases k with
      | zero => exact ⟨s, sb, hsb, (Option.some.inj h).symm⟩
      | succ k =>
        rw [List.getElem?_cons_succ] at h
        split at h
        · have hindex : count + 1 - 1 - (k + 1) = count - 1 - k := by omega
          rw [hindex]
          exact ih h
        · cases h

/-- **Without the ledger** the calls of a pass give its codes and its writes. -/
theorem Jmddev.map_ledger_passes {s : Jmddev} {env : ℕ → PassEnv} {k : ℕ} {p : Pass}
    (h : (s.passes env 100)[k]? = some p) :
    let calls := p.calls.map fun m =>
      p.synced.writeDiskSbLedger ((env (99 - k)).write m.2) m.1
    p.codes = calls.map Prod.fst ∧ p.log = calls.filterMap fun r => r.2.1 := by
  obtain ⟨t, sb, hsb, rfl⟩ := Jmddev.of_getElem_passes h
  intro calls
  have hcalls : calls.map (fun r => (r.1, r.2.1)) =
      if (sb.nextPass (env (99 - k)).seconds).notPersistent ≠ 0 then [] else
        (t.syncPass sb (env (99 - k)).seconds).writeDiskSbs (env (99 - k)).write := by
    have hpers : (t.onePass sb (env (99 - k))).synced.sb.map Superblock.notPersistent =
        some (sb.nextPass (env (99 - k)).seconds).notPersistent := rfl
    simp only [calls, List.map_map, Function.comp_def, map_writeDiskSbLedger, Pass.calls, hpers,
      Option.some_inj]
    split_ifs <;> first | rfl | contradiction
  rw [onePass, ← hcalls]
  exact ⟨by simp, by simp [List.filterMap_map]⟩

/-- What `jmd_update_sb` does not give back. -/
def Jmddev.updateKept (jmddev : Jmddev) (env : ℕ → PassEnv) : Set (ℕ × ℕ × SbResource) :=
  {x | ∃ p m, (jmddev.passes env 100)[x.1]? = some p ∧ (m, x.2.1) ∈ p.calls ∧
    x.2.2 ∈ p.synced.sbKept ((env (99 - x.1)).write x.2.1) m}

theorem Pass.nodup_calls (p : Pass) : (p.calls.map Prod.snd).Nodup := by
  rw [calls]
  split_ifs
  · refine List.Nodup.sublist (List.filter_sublist.map Prod.snd) ?_
    rw [List.zipIdx_map_snd]
    exact List.nodup_range'
  · exact List.nodup_nil

/-- **What an update leaves in the ledger.** -/
theorem Jmddev.leads_updateLog (s : Jmddev) (env : ℕ → PassEnv) :
    Leads ∅ (s.updateLog env) (s.updateKept env) := by
  have hname : ∀ {β : Type} (k k' : ℕ) (b b' : β), (k, b) = (k', b') → k = k' ∧ b = b' :=
    fun _ _ _ _ => Prod.mk.inj
  have hpass := fun p : Pass × ℕ => Leads.flatMap (l := p.1.calls) hname p.1.nodup_calls
    fun m _ => p.1.synced.leads_writeDiskSbLedger ((env (99 - p.2)).write m.2) m.1
  have hupdate := Leads.flatMap (l := (s.passes env 100).zipIdx) hname
    (by rw [List.zipIdx_map_snd]; exact List.nodup_range') fun p _ => hpass p
  refine (congrArg (Leads _ _) ?_).mp hupdate
  ext ⟨k, j, r⟩
  constructor
  · rintro ⟨⟨p, k'⟩, hp, b, ⟨⟨m, j'⟩, hm, r', hr, rfl⟩, heq⟩
    cases heq
    exact ⟨p, m, List.mem_zipIdx_iff_getElem?.mp hp, hm, hr⟩
  · rintro ⟨p, m, hp, hm, hr⟩
    exact ⟨(p, k), List.mem_zipIdx_iff_getElem?.mpr hp, (j, r), ⟨(m, j), hm, r, hr, rfl⟩, rfl⟩

/-! ### `do_jmd_run` -/

/-- The part of `do_jmd_run` after the checks, up to the call of `jmd_update_sb`: the array that it
is called for, if it is. -/
def Jmddev.persUpdate (jmddev : Jmddev) (sb : Superblock) (env : RunEnv) : Option Jmddev :=
  let sized := jmddev.deviceSizeCalculation sb
  if sized.1 ≠ 0 then none
  else
    match { sized.2 with pers := true }.jraid5Run sb env with
    | .error _ => none
    | .ok (err, jmddev) =>
      if err ≠ 0 then none else some { jmddev with sb := jmddev.sb.map Superblock.clearClean }

/-- `do_jmd_run` up to the call of `jmd_update_sb`. -/
def Jmddev.runUpdate (jmddev : Jmddev) (env : RunEnv) : Option Jmddev :=
  if jmddev.nbDev = 0 then none
  else if jmddev.pers then none
  else
    match { jmddev with jmdSize := 0 }.analyzeSbs env.sb with
    | .error _ => none
    | .ok (err, jmddev) =>
      if err ≠ 0 then none
      else
        match jmddev.sb with
        | none => none
        | some sb => if !sb.checkGeometry env then none else jmddev.persUpdate sb env

/-- What `do_jmd_run` answers is decided by the update that it comes to: if it comes to none, it
fails. -/
def EndsWith (env : RunEnv) (r : Except Fault (Int32 × Jmddev)) : Option Jmddev → Prop
  | none => ∀ s', r ≠ .ok (0, s')
  | some t => r = (t.jmdUpdateSb env.update).map fun r =>
      (0, { r.1 with nrSects := ulong (r.1.jmdSize <<< 1) })

/-- **The update of `do_jmd_run`** is the last thing that it does. -/
theorem Jmddev.doJmdRun_endsWith (s : Jmddev) (env : RunEnv) :
    EndsWith env (s.doJmdRun env) (s.runUpdate env) := by
  have hcode : ∀ {err : Int32} {t : Jmddev}, err ≠ 0 → EndsWith env (.ok (err, t)) none :=
    fun hne s' h => hne (Prod.mk.inj (Except.ok.inj h)).1
  have hfault : ∀ f : Fault, EndsWith env (.error f) none := fun f s' h => by cases h
  have heinval : -einval ≠ 0 := by decide
  unfold runUpdate doJmdRun
  split_ifs
  · exact hcode heinval
  · exact hcode (show -ebusy ≠ 0 by decide)
  cases Jmddev.analyzeSbs _ env.sb with
  | error f => exact hfault f
  | ok r =>
    obtain ⟨err, a⟩ := r
    dsimp only
    split_ifs
    · exact hcode heinval
    cases a.sb with
    | none => exact hfault _
    | some sb =>
      dsimp only
      split_ifs
      · exact hcode heinval
      unfold persUpdate startPers
      dsimp only
      split_ifs
      · exact hcode heinval
      cases Jmddev.jraid5Run _ sb env with
      | error f => exact hfault f
      | ok r =>
        obtain ⟨err, a⟩ := r
        dsimp only
        split_ifs
        · exact hcode heinval
        rw [EndsWith]
        cases Jmddev.jmdUpdateSb _ env.update <;> rfl

/-- What `do_jmd_run` acquires and releases, but for the superblock of the array and for what
`jraid5_run` acquires. -/
def Jmddev.runLog (jmddev : Jmddev) (env : RunEnv) : List (Entry (ℕ × ℕ × SbResource)) :=
  match jmddev.runUpdate env with
  | none => []
  | some t => t.updateLog env.update

/-- What it does not give back. -/
def Jmddev.runKept (jmddev : Jmddev) (env : RunEnv) : Set (ℕ × ℕ × SbResource) :=
  {x | ∃ t, jmddev.runUpdate env = some t ∧ x ∈ t.updateKept env.update}

theorem Jmddev.leads_runLog (s : Jmddev) (env : RunEnv) :
    Leads ∅ (s.runLog env) (s.runKept env) := by
  unfold runLog runKept
  cases s.runUpdate env with
  | none => simp [Leads]
  | some t => simpa using t.leads_updateLog env.update

end Jmd

end JRaid
