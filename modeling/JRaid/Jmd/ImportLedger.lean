import JRaid.ForMathlib.Ledger
import JRaid.Jmd.Device

/-!
# What an import acquires

`jmd_import_device` acquires the `jmd_rdev`, a page for the superblock and the claim of the block
device, and has one label for all its failures. What is released there is decided by the fields
`sb` and `bdev` alone. `sb` is set after the claim, so that a refused claim leaves the page behind;
every other failure releases what was acquired (`failed_import_clean_iff`).

Here `jmd_import_device` comes with a ledger of what it acquires and releases. Without the ledger it
is the function of `JRaid.Jmd.Device` (`map_jmdImportLedger`).
-/

namespace JRaid

namespace Jmd

open Ledger

/-- What `jmd_import_device` acquires. -/
inductive ImportResource where
  | rdev
  | sbPage
  /-- the claim of the block device -/
  | claim
  deriving DecidableEq

/-- The pointers of a `jmd_rdev` that is being imported, set or `NULL`, and the ledger. -/
structure Import where
  sbPage : Bool
  sb : Bool
  bdev : Bool
  log : List (Entry ImportResource)

namespace Import

/-- `kmalloc` and `memset` of the `jmd_rdev`. -/
def start : Import := ⟨false, false, false, [.acquire .rdev]⟩

/-- `alloc_disk_sb`, when it is granted. -/
def allocDiskSb (i : Import) : Import :=
  { i with sbPage := true, log := i.log ++ [.acquire .sbPage] }

/-- `lock_jrdev`, when it is granted. -/
def lockJrdev (i : Import) : Import := { i with bdev := true, log := i.log ++ [.acquire .claim] }

/-- `jrdev->sb = page_address(jrdev->sb_page)`. -/
def setSb (i : Import) : Import := { i with sb := true }

/-- `unlock_jrdev`. -/
def unlockJrdev (i : Import) : Import := { i with bdev := false, log := i.log ++ [.release .claim] }

/-- `free_disk_sb`. Without a page it only reports. -/
def freeDiskSb (i : Import) : Import :=
  if i.sbPage then { i with sbPage := false, sb := false, log := i.log ++ [.release .sbPage] }
  else i

/-- What follows the label `abort_free`. -/
def abortFree (i : Import) : List (Entry ImportResource) :=
  let i := if i.sb then (if i.bdev then i.unlockJrdev else i).freeDiskSb else i
  i.log ++ [.release .rdev]

end Import

/-- `jmd_import_device`: the error code or the new `jmd_rdev`, the state in which it returns, and
the ledger. A working device keeps its page. -/
def Jmddev.jmdImportLedger (jmddev : Jmddev) (env : ImportEnv) (newdev : DevT) (onDisk : Bool) :
    Except Fault (Except Int32 Rdev × Jmddev × List (Entry ImportResource)) :=
  if newdev ∈ jmddev.all then .ok (.error (-eexist), jmddev, [])
  else if !env.rdev then .ok (.error (-enomem), jmddev, [])
  else
    let i := Import.start
    if env.activeSuper then .ok (.error (-ebusy), jmddev, i.abortFree)
    else
      match env.page with
      | none => .ok (.error (-enomem), jmddev, i.abortFree)
      | some page =>
        let i := i.allocDiskSb
        if !env.lock then .ok (.error (-einval), jmddev, i.abortFree)
        else
          let i := i.lockJrdev.setSb
          let jrdev := Rdev.fresh newdev page
          let listed := { jmddev with all := newdev :: jmddev.all }
          if onDisk then
            match jrdev.readDiskSb (jmddev.device newdev) env with
            | .error f => .error f
            | .ok (.error err) => .ok (.error err, jmddev, i.abortFree)
            | .ok (.ok jrdev) =>
              if jrdev.checkDiskSb ≠ 0 then .ok (.error jrdev.checkDiskSb, jmddev, i.abortFree)
              else
                .ok (.ok { jrdev with
                  oldDev := jrdev.sb.thisDisk.dev
                  descNr := jrdev.sb.thisDisk.number.toInt32 }, listed, i.log)
          else .ok (.ok jrdev, listed, i.log)

/-- Without the ledger it is `jmd_import_device`. -/
theorem Jmddev.map_jmdImportLedger (jmddev : Jmddev) (env : ImportEnv) (newdev : DevT)
    (onDisk : Bool) :
    (jmddev.jmdImportLedger env newdev onDisk).map (fun r => r.1.map fun jrdev => (jrdev, r.2.1)) =
      jmddev.jmdImportDevice env newdev onDisk := by
  unfold jmdImportLedger jmdImportDevice
  by_cases hall : newdev ∈ jmddev.all
  · rw [if_pos hall, if_pos hall]
    rfl
  rw [if_neg hall, if_neg hall]
  cases env.rdev with
  | false => rfl
  | true =>
    cases env.activeSuper with
    | true => rfl
    | false =>
      cases env.page with
      | none => rfl
      | some page =>
        cases env.lock with
        | false => rfl
        | true =>
          cases onDisk with
          | false => rfl
          | true =>
            simp only [Bool.not_true, Bool.false_eq_true, if_false, if_true]
            cases (Rdev.fresh newdev page).readDiskSb (jmddev.device newdev) env with
            | error f => rfl
            | ok r =>
              cases r with
              | error err => rfl
              | ok jrdev =>
                dsimp only
                split_ifs <;> rfl

/-! ### The five failures -/

/-- Nothing but the `jmd_rdev` has been acquired. -/
theorem leads_abortFree_start : Leads ∅ Import.start.abortFree ∅ :=
  ⟨Set.notMem_empty _, Set.mem_insert _ _, by simp [Leads]⟩

/-- `sb` has not been set when the claim is refused. -/
theorem leads_abortFree_allocDiskSb : Leads ∅ Import.start.allocDiskSb.abortFree {.sbPage} := by
  refine ⟨Set.notMem_empty _, by simp, by simp, ?_⟩
  ext x
  cases x <;> simp

/-- Everything has been acquired. -/
theorem leads_abortFree_setSb : Leads ∅ Import.start.allocDiskSb.lockJrdev.setSb.abortFree ∅ := by
  refine ⟨Set.notMem_empty _, by simp, by simp, by simp, by simp, by simp, ?_⟩
  ext x
  cases x <;> simp

/-- How an import fails: with what it leaves behind. -/
inductive Jmddev.ImportFails (jmddev : Jmddev) (env : ImportEnv) (newdev : DevT) :
    Set ImportResource → Prop
  | listed (h : newdev ∈ jmddev.all) : ImportFails jmddev env newdev ∅
  | rdev (h : env.rdev = false) : ImportFails jmddev env newdev ∅
  | activeSuper (h : env.activeSuper = true) : ImportFails jmddev env newdev ∅
  | page (h : env.page = none) : ImportFails jmddev env newdev ∅
  | claim (hnew : newdev ∉ jmddev.all) (hrdev : env.rdev = true)
      (hsuper : env.activeSuper = false) (hpage : env.page ≠ none) (h : env.lock = false) :
      ImportFails jmddev env newdev {.sbPage}
  /-- the superblock is not read, or not accepted -/
  | read (h : env.lock = true) : ImportFails jmddev env newdev ∅

/-- **What a failed import does.** -/
theorem Jmddev.importFails {jmddev jmddev' : Jmddev} {env : ImportEnv} {newdev : DevT}
    {onDisk : Bool} {err : Int32} {log : List (Entry ImportResource)}
    (h : jmddev.jmdImportLedger env newdev onDisk = .ok (.error err, jmddev', log)) :
    jmddev' = jmddev ∧ ∃ held, Leads ∅ log held ∧ jmddev.ImportFails env newdev held := by
  unfold jmdImportLedger at h
  by_cases hall : newdev ∈ jmddev.all
  · rw [if_pos hall] at h
    cases h
    exact ⟨rfl, ∅, Leads.nil _, .listed hall⟩
  rw [if_neg hall] at h
  cases hrdev : env.rdev with
  | false =>
    rw [hrdev] at h
    cases h
    exact ⟨rfl, ∅, Leads.nil _, .rdev hrdev⟩
  | true =>
    cases hsuper : env.activeSuper with
    | true =>
      rw [hrdev, hsuper] at h
      cases h
      exact ⟨rfl, ∅, leads_abortFree_start, .activeSuper hsuper⟩
    | false =>
      cases hpage : env.page with
      | none =>
        rw [hrdev, hsuper, hpage] at h
        cases h
        exact ⟨rfl, ∅, leads_abortFree_start, .page hpage⟩
      | some page =>
        cases hlock : env.lock with
        | false =>
          rw [hrdev, hsuper, hpage, hlock] at h
          cases h
          exact ⟨rfl, _, leads_abortFree_allocDiskSb,
            .claim hall hrdev hsuper (by simp [hpage]) hlock⟩
        | true =>
          rw [hrdev, hsuper, hpage, hlock] at h
          simp only [Bool.not_true, Bool.false_eq_true, if_false] at h
          suffices hend : jmddev' = jmddev ∧
              log = Import.start.allocDiskSb.lockJrdev.setSb.abortFree from
            ⟨hend.1, ∅, hend.2 ▸ leads_abortFree_setSb, .read hlock⟩
          cases onDisk with
          | false => cases h
          | true =>
            rw [if_pos rfl] at h
            cases hread : (Rdev.fresh newdev page).readDiskSb (jmddev.device newdev) env with
            | error f =>
              rw [hread] at h
              cases h
            | ok r =>
              rw [hread] at h
              cases r with
              | error err' =>
                cases h
                exact ⟨rfl, rfl⟩
              | ok jrdev =>
                dsimp only at h
                split_ifs at h
                · cases h
                  exact ⟨rfl, rfl⟩
                · cases h

/-- **When a failed import releases everything**: when it is not the claim of the device that
fails. -/
theorem failed_import_clean_iff {jmddev jmddev' : Jmddev} {env : ImportEnv} {newdev : DevT}
    {onDisk : Bool} {err : Int32} {log : List (Entry ImportResource)}
    (h : jmddev.jmdImportLedger env newdev onDisk = .ok (.error err, jmddev', log)) :
    (Leads ∅ log ∅ ∧ jmddev'.all = jmddev.all) ↔
      newdev ∈ jmddev.all ∨ env.rdev = false ∨ env.activeSuper = true ∨ env.page = none ∨
        env.lock = true := by
  obtain ⟨rfl, held, hleads, hfails⟩ := Jmddev.importFails h
  have hheld : Leads ∅ log ∅ ↔ held = ∅ :=
    ⟨fun hempty => hempty.unique hleads, fun hempty => hempty ▸ hleads⟩
  rw [hheld, and_iff_left rfl]
  cases hfails with
  | listed h => exact iff_of_true rfl (Or.inl h)
  | rdev h => exact iff_of_true rfl (Or.inr (Or.inl h))
  | activeSuper h => exact iff_of_true rfl (Or.inr (Or.inr (Or.inl h)))
  | page h => exact iff_of_true rfl (Or.inr (Or.inr (Or.inr (Or.inl h))))
  | claim hnew hrdev hsuper hpage h =>
    refine iff_of_false (Set.singleton_nonempty _).ne_empty ?_
    rintro (h' | h' | h' | h' | h')
    · exact hnew h'
    · simp [hrdev] at h'
    · simp [hsuper] at h'
    · exact hpage h'
    · simp [h] at h'
  | read h => exact iff_of_true rfl (Or.inr (Or.inr (Or.inr (Or.inr h))))

/-- A kernel that grants everything but the claim of the device. -/
def noClaim : ImportEnv := { importAll with lock := false }

/-- An array without members, and devices without sectors. -/
def noDevices : Jmddev := .fresh fun _ => ⟨0, by decide, fun _ => 0⟩

/-- The ledger of an import for which the claim is refused. -/
theorem noClaim_fails : noDevices.jmdImportLedger noClaim 2049 true =
    .ok (.error (-einval), noDevices, Import.start.allocDiskSb.abortFree) := rfl

theorem failed_import_clean_iff_claim : ∃ err jmddev' log,
    noDevices.jmdImportLedger noClaim 2049 true = .ok (.error err, jmddev', log) ∧
      ((Leads ∅ log ∅ ∧ jmddev'.all = noDevices.all) ↔
        2049 ∈ noDevices.all ∨ noClaim.rdev = false ∨ noClaim.activeSuper = true ∨
          noClaim.page = none ∨ noClaim.lock = true) :=
  ⟨_, _, _, noClaim_fails, failed_import_clean_iff noClaim_fails⟩

/-- The page stays behind when the claim is refused. -/
theorem page_left : ∃ err jmddev' log,
    noDevices.jmdImportLedger noClaim 2049 true = .ok (.error err, jmddev', log) ∧
      .acquire .sbPage ∈ log ∧ .release .sbPage ∉ log ∧ ¬ Leads ∅ log ∅ :=
  ⟨_, _, _, noClaim_fails, by decide, by decide, fun h =>
    Set.singleton_ne_empty _ (h.unique leads_abortFree_allocDiskSb)⟩

end Jmd

end JRaid
