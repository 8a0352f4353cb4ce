import JRaid.Jmd.ImportLedger
import JRaid.Jmd.Reachable
import JRaid.Jmd.UpdateLedger

/-!
# What a call of `add_store` acquires

`add_store` opens the device by its name, to learn its number, and has two labels for the failures
of its allocations. Neither of them closes the device again. `add_new_disk` then opens the device by
its number, through `jmd_import_device`, and what it acquires goes to the member. `get_super` is
asked whether a file system is mounted from the device; what it gets for an answer is not put. If
the array is complete it is started, which ends with an update of the superblocks.

Here the functions come with a ledger. The calls are numbered, so that what one of them acquires is
not what another one acquires. `leads_addStoreLedger` says what a call leaves in the ledger: the
device that is still open (`AddStoreCall.Abandons`), the page of a refused claim
(`Jmddev.LosesPage`), a file system (`Jmddev.KeepsSuper`), or the three things that make up a member
(`Jmddev.BindsDevice`), and what the update does not give back (`Jmddev.Updates`).

The superblock of the array is allocated by `set_array_info` or by `analyze_sbs`, where there is
none. Nothing frees it. What `jraid5_run` acquires belongs to another module, and is in
`JRaid.Jmd.FailedStart`.
-/

namespace JRaid

namespace Jmd

open Ledger

/-- What a call of `add_store` acquires. -/
inductive StoreResource where
  | dtdev
  /-- the device, opened by its name -/
  | path
  | arrayInfo
  | info
  | imported (r : ImportResource)
  /-- the file system that `get_super` has found on the device -/
  | super
  /-- what `write_disk_sb` acquires in pass `k` for member `j` of the list -/
  | write (k j : ℕ) (r : SbResource)
  deriving DecidableEq

/-- What the import of a device acquires. -/
def StoreResource.OfImport : StoreResource → Prop
  | .imported _ | .super => True
  | _ => False

/-- What the module `jmd` acquires. -/
inductive JmdResource where
  /-- the major number -/
  | major
  | recoveryThread
  | mddev
  | queue
  | disk
  | kobj
  /-- the files in the directory of the array -/
  | files
  | arraySb
  /-- what call number `i` of `add_store` acquires -/
  | store (i : ℕ) (r : StoreResource)
  deriving DecidableEq

/-! ### The functions with their ledgers -/

/-- `get_super` is called, and finds a file system. -/
def ImportEnv.findsSuper (env : ImportEnv) : Bool := env.rdev && env.activeSuper

/-- `jmd_import_device`, with what `get_super` gets. -/
def Jmddev.importLedger (jmddev : Jmddev) (env : ImportEnv) (newdev : DevT) (onDisk : Bool) :
    Except Fault (Except Int32 Rdev × Jmddev × List (Entry StoreResource)) :=
  (jmddev.jmdImportLedger env newdev onDisk).map fun r =>
    (r.1, r.2.1,
      if newdev ∉ jmddev.all ∧ env.findsSuper = true then
        [.acquire (.imported .rdev), .acquire .super, .release (.imported .rdev)]
      else r.2.2.map (Entry.map .imported))

/-- `export_jrdev`. -/
def exportLog : List (Entry StoreResource) :=
  [.release (.imported .claim), .release (.imported .sbPage), .release (.imported .rdev)]

/-- The branch of `add_new_disk` for an array that has no superblock yet. -/
def Jmddev.addOnDiskLedger (jmddev : Jmddev) (env : ImportEnv) (dev : DevT) :
    Except Fault (Int32 × Jmddev × List (Entry StoreResource)) :=
  match jmddev.importLedger env dev true with
  | .error f => .error f
  | .ok (.error _, _, log) => .ok (-einval, jmddev, log)
  | .ok (.ok jrdev, imported, log) =>
    match jmddev.disks.head? with
    | none => .ok (0, imported.bindRdevToArray jrdev, log)
    | some jrdev0 =>
      if !uuidEqual jrdev0 jrdev then .ok (-einval, jmddev, log ++ exportLog)
      else .ok (0, imported.bindRdevToArray jrdev, log)

/-- `add_new_disk`. -/
def Jmddev.addNewDiskLedger (jmddev : Jmddev) (env : ImportEnv) (info : JmdDiskInfo) :
    Except Fault (Int32 × Jmddev × List (Entry StoreResource)) :=
  if info.dev ∈ jmddev.all then .ok (-ebusy, jmddev, [])
  else
    match jmddev.sb with
    | none => jmddev.addOnDiskLedger env info.dev
    | some sb =>
      let nr := info.number.toUInt32
      if sb.nrDisks ≤ nr then .ok (-einval, jmddev, [])
      else if h : nr.toNat < mdSbDisks then
        let sb := sb.assign ⟨nr.toNat, h⟩ info
        let jmddev := { jmddev with sb := some sb }
        if info.faulty then
          .ok (0, { jmddev with disks := syncSbs sb jmddev.disks }, [])
        else
          match jmddev.importLedger env info.dev false with
          | .error f => .error f
          | .ok (.error _, _, log) => .ok (-einval, jmddev, log)
          | .ok (.ok jrdev, jmddev, log) =>
            .ok (0, jmddev.bindImported sb
              { jrdev with oldDev := info.dev, descNr := info.number }, log)
      else .error .outOfTable

/-- The superblock of the array has been allocated on the way from `s` to `s'`. -/
def sbLog (s s' : Jmddev) : List (Entry JmdResource) :=
  if s.sb.isNone && s'.sb.isSome then [.acquire .arraySb] else []

/-- `do_jmd_run`, if the array is complete. -/
def Jmddev.runIfComplete (jmddev : Jmddev) (call : AddStoreCall) : Except Fault Jmddev :=
  if (jmddev.nbDev : ℤ) = call.totalNum.toInt then
    ((jmddev.publish call.totalNum).doJmdRun call.env.run).map Prod.snd
  else .ok jmddev

/-- What `do_jmd_run` acquires for the update of the superblocks, if the array is complete. -/
def Jmddev.runLogIfComplete (jmddev : Jmddev) (call : AddStoreCall) : List (Entry StoreResource) :=
  if (jmddev.nbDev : ℤ) = call.totalNum.toInt then
    ((jmddev.publish call.totalNum).runLog call.env.run).map
      (Entry.map fun x => .write x.1 x.2.1 x.2.2)
  else []

/-- What a call acquires before `set_array_info`. -/
def startLog : List (Entry StoreResource) :=
  [.acquire .dtdev, .acquire .path, .acquire .arrayInfo, .acquire .info]

/-- What a call releases at its end. -/
def endLog : List (Entry StoreResource) := [.release .info, .release .arrayInfo, .release .dtdev]

/-- `blkdev_get_by_path`. -/
def openLog (bdev : Option (Int32 × Int32)) : List (Entry StoreResource) :=
  if bdev.isSome then [.acquire .path] else []

/-- The entries of call number `i`. -/
def ofCall (i : ℕ) (log : List (Entry StoreResource)) : List (Entry JmdResource) :=
  log.map (Entry.map (.store i))

/-- `add_store`, for call number `i`. -/
def Jmddev.addStoreLedger (jmddev : Jmddev) (i : ℕ) (call : AddStoreCall) :
    Except Fault (Int64 × Jmddev × List (Entry JmdResource)) :=
  if !call.env.dtdev then .ok ((-enomem).toInt64, jmddev, [])
  else if !call.env.arrayInfo then
    .ok ((-enomem).toInt64, jmddev,
      ofCall i (.acquire .dtdev :: (openLog call.env.bdev ++ [.release .dtdev])))
  else if !call.env.info then
    .ok ((-enomem).toInt64, jmddev, ofCall i (.acquire .dtdev :: (openLog call.env.bdev ++
      [.acquire .arrayInfo, .release .arrayInfo, .release .dtdev])))
  else
    match call.env.bdev with
    | none => .error .badPointer
    | some bdev =>
      let prepared := jmddev.prepare call
      match prepared.addNewDiskLedger call.env.add (call.diskInfo bdev) with
      | .error f => .error f
      | .ok (_, added, log) =>
        match added.runIfComplete call with
        | .error f => .error f
        | .ok jmddev' =>
          .ok (call.cnt, jmddev', ofCall i startLog ++ (sbLog jmddev prepared ++
            (ofCall i (.release .path :: log) ++
              (sbLog added jmddev' ++ ofCall i (added.runLogIfComplete call ++ endLog)))))

/-! ### Without the ledgers -/

/-- Without the ledger it is `jmd_import_device`. -/
theorem Jmddev.map_importLedger (jmddev : Jmddev) (env : ImportEnv) (newdev : DevT)
    (onDisk : Bool) :
    (jmddev.importLedger env newdev onDisk).map (fun r => r.1.map fun jrdev => (jrdev, r.2.1)) =
      jmddev.jmdImportDevice env newdev onDisk := by
  rw [← map_jmdImportLedger, importLedger]
  cases jmddev.jmdImportLedger env newdev onDisk <;> rfl

theorem Jmddev.map_addOnDiskLedger (jmddev : Jmddev) (env : ImportEnv) (dev : DevT) :
    (jmddev.addOnDiskLedger env dev).map (fun r => (r.1, r.2.1)) = jmddev.addOnDisk env dev := by
  unfold addOnDiskLedger addOnDisk
  rw [← map_importLedger]
  cases jmddev.importLedger env dev true with
  | error f => rfl
  | ok r =>
    obtain ⟨r, imported, log⟩ := r
    cases r with
    | error err => rfl
    | ok jrdev =>
      cases jmddev.disks.head? with
      | none => simp only [Except.map]
      | some jrdev0 =>
        simp only [Except.map]
        split_ifs <;> rfl

/-- Without the ledger it is `add_new_disk`. -/
theorem Jmddev.map_addNewDiskLedger (jmddev : Jmddev) (env : ImportEnv) (info : JmdDiskInfo) :
    (jmddev.addNewDiskLedger env info).map (fun r => (r.1, r.2.1)) =
      jmddev.addNewDisk env info := by
  unfold addNewDiskLedger addNewDisk
  split
  · rfl
  cases jmddev.sb with
  | none => exact jmddev.map_addOnDiskLedger env info.dev
  | some sb =>
    dsimp only
    split
    · rfl
    split
    · split
      · rfl
      rw [← map_importLedger]
      cases Jmddev.importLedger _ env info.dev false with
      | error f => rfl
      | ok r =>
        obtain ⟨r, imported, log⟩ := r
        cases r <;> rfl
    · rfl

/-- Without the ledger it is `add_store`. -/
theorem Jmddev.map_addStoreLedger (jmddev : Jmddev) (i : ℕ) (call : AddStoreCall) :
    (jmddev.addStoreLedger i call).map (fun r => (r.1, r.2.1)) = jmddev.addStore call := by
  unfold addStoreLedger addStore
  split
  · rfl
  split
  · rfl
  split
  · rfl
  cases call.env.bdev with
  | none => rfl
  | some bdev =>
    dsimp only
    rw [addMember, ← map_addNewDiskLedger]
    cases (jmddev.prepare call).addNewDiskLedger call.env.add (call.diskInfo bdev) with
    | error f => rfl
    | ok r =>
      obtain ⟨err, added, log⟩ := r
      simp only [Except.map, runIfComplete]
      by_cases hcomplete : (added.nbDev : ℤ) = call.totalNum.toInt
      · simp only [if_pos hcomplete]
        cases (added.publish call.totalNum).doJmdRun call.env.run <;> rfl
      · simp only [if_neg hcomplete]

/-! ### What an added device holds -/

/-- A device that has been imported holds all that an import acquires. -/
theorem leads_jmdImportLedger {s s' : Jmddev} {env : ImportEnv} {newdev : DevT} {onDisk : Bool}
    {jrdev : Rdev} {log : List (Entry ImportResource)}
    (h : s.jmdImportLedger env newdev onDisk = .ok (.ok jrdev, s', log)) :
    Leads ∅ log Set.univ ∧ s' = { s with all := newdev :: s.all } := by
  suffices hend : log = Import.start.allocDiskSb.lockJrdev.setSb.log ∧
      s' = { s with all := newdev :: s.all } by
    rw [hend.1]
    refine ⟨⟨Set.notMem_empty _, by simp, by simp, ?_⟩, hend.2⟩
    ext r
    cases r <;> simp
  unfold Jmddev.jmdImportLedger at h
  split at h
  · cases h
  split at h
  · cases h
  dsimp only at h
  split at h
  · cases h
  split at h
  · cases h
  split at h
  · cases h
  split at h
  · split at h
    · cases h
    · cases h
    · split at h
      · cases h
      · cases h
        exact ⟨rfl, rfl⟩
  · cases h
    exact ⟨rfl, rfl⟩

/-- The claim of the device is refused when the page has been allocated. -/
structure ImportEnv.RefusesClaim (env : ImportEnv) : Prop where
  rdev : env.rdev = true
  activeSuper : env.activeSuper = false
  page : env.page ≠ none
  lock : env.lock = false

/-- A failed import leaves the page behind, if the claim is refused. -/
theorem Jmddev.ImportFails.held_eq {s : Jmddev} {env : ImportEnv} {newdev : DevT}
    {held : Set ImportResource} (h : s.ImportFails env newdev held) :
    held = {r | r = .sbPage ∧ newdev ∉ s.all ∧ env.RefusesClaim} := by
  have hnothing : ¬ (newdev ∉ s.all ∧ env.RefusesClaim) →
      ∅ = {r : ImportResource | r = .sbPage ∧ newdev ∉ s.all ∧ env.RefusesClaim} := fun hno =>
    (Set.eq_empty_of_forall_notMem fun _ hr => hno hr.2).symm
  cases h with
  | listed h => exact hnothing fun hlost => hlost.1 h
  | rdev h => exact hnothing fun hlost => by simp [hlost.2.rdev] at h
  | activeSuper h => exact hnothing fun hlost => by simp [hlost.2.activeSuper] at h
  | page h => exact hnothing fun hlost => hlost.2.page h
  | claim hnew hrdev hsuper hpage hlock =>
    have hlost : newdev ∉ s.all ∧ env.RefusesClaim := ⟨hnew, hrdev, hsuper, hpage, hlock⟩
    simp [hlost]
  | read h => exact hnothing fun hlost => by simp [hlost.2.lock] at h

/-- What a failed import leaves behind. -/
def Jmddev.importKept (s : Jmddev) (env : ImportEnv) (newdev : DevT) : Set StoreResource :=
  {r | newdev ∉ s.all ∧
    ((r = .imported .sbPage ∧ env.RefusesClaim) ∨ (r = .super ∧ env.findsSuper = true))}

/-- A file system that is found is kept, and the claim is not asked for. -/
theorem Jmddev.importKept_of_findsSuper {s : Jmddev} {env : ImportEnv} {newdev : DevT}
    (hnew : newdev ∉ s.all) (h : env.findsSuper = true) :
    s.importKept env newdev = {.super} := by
  have hclaim : ¬ env.RefusesClaim := fun hclaim => by
    simp [ImportEnv.findsSuper, hclaim.activeSuper] at h
  ext r
  simp [importKept, hnew, h, hclaim]

variable {env : ImportEnv} {info : JmdDiskInfo} {newdev : DevT} {onDisk : Bool}
  {s s' added : Jmddev} {log : List (Entry StoreResource)}

/-- **What an import leaves in the ledger if it fails.** -/
theorem Jmddev.leads_importLedger_error {err : Int32}
    (h : s.importLedger env newdev onDisk = .ok (.error err, s', log)) :
    s' = s ∧ Leads ∅ log (s.importKept env newdev) := by
  obtain ⟨⟨r, t, own⟩, himp, heq⟩ := Except.exists_of_map_eq_ok h
  obtain ⟨rfl, heq⟩ := Prod.mk.inj heq
  obtain ⟨rfl, rfl⟩ := Prod.mk.inj heq
  obtain ⟨rfl, held, hleads, hfails⟩ := importFails himp
  refine ⟨rfl, ?_⟩
  split_ifs with hsuper
  · rw [importKept_of_findsSuper hsuper.1 hsuper.2]
    refine ⟨Set.notMem_empty _, by simp, by simp, ?_⟩
    ext r
    cases r <;> simp
  · have hmap := hleads.map (f := StoreResource.imported) fun _ _ => StoreResource.imported.inj
    rw [Set.image_empty] at hmap
    refine (congrArg (Leads _ _) ?_).mp hmap
    rw [hfails.held_eq]
    ext r
    simp only [importKept, Set.mem_image, Set.mem_ofPred_eq]
    constructor
    · rintro ⟨q, ⟨rfl, hnew, hclaim⟩, rfl⟩
      exact ⟨hnew, Or.inl ⟨rfl, hclaim⟩⟩
    · rintro ⟨hnew, ⟨rfl, hclaim⟩ | ⟨-, hfound⟩⟩
      · exact ⟨_, ⟨rfl, hnew, hclaim⟩, rfl⟩
      · exact absurd ⟨hnew, hfound⟩ hsuper

/-- **What an import leaves in the ledger if it succeeds.** -/
theorem Jmddev.leads_importLedger_ok {jrdev : Rdev}
    (h : s.importLedger env newdev onDisk = .ok (.ok jrdev, s', log)) :
    s' = { s with all := newdev :: s.all } ∧ Leads ∅ log (Set.range .imported) := by
  obtain ⟨⟨r, t, own⟩, himp, heq⟩ := Except.exists_of_map_eq_ok h
  obtain ⟨rfl, heq⟩ := Prod.mk.inj heq
  obtain ⟨rfl, rfl⟩ := Prod.mk.inj heq
  obtain ⟨hleads, rfl⟩ := leads_jmdImportLedger himp
  have hopens : env.opens = true := by
    have hmap := s.map_jmdImportLedger env newdev onDisk
    rw [himp] at hmap
    exact (Jmddev.imported hmap.symm).1.opens
  have hsuper : env.findsSuper = false := by
    simp only [ImportEnv.opens, Bool.and_eq_true, Bool.not_eq_true'] at hopens
    simp [ImportEnv.findsSuper, hopens.1.1.2]
  have hmap := hleads.map (f := StoreResource.imported) fun _ _ => StoreResource.imported.inj
  rw [Set.image_empty, Set.image_univ] at hmap
  exact ⟨rfl, by simpa [hsuper] using hmap⟩

theorem Jmddev.ofImport_of_acquire {r : Except Int32 Rdev}
    (h : s.importLedger env newdev onDisk = .ok (r, s', log)) {a : StoreResource}
    (ha : .acquire a ∈ log) : a.OfImport := by
  obtain ⟨⟨r, t, own⟩, -, heq⟩ := Except.exists_of_map_eq_ok h
  obtain rfl := (Prod.mk.inj (Prod.mk.inj heq).2).2
  split_ifs at ha
  · simp only [List.mem_cons, Entry.acquire.injEq, List.not_mem_nil, or_false, reduceCtorEq] at ha
    rcases ha with rfl | rfl <;> trivial
  · obtain ⟨q, -, rfl⟩ := acquire_mem_map ha
    trivial

/-- `add_new_disk` comes to the import of a device that is not in use. -/
structure Jmddev.ReachesImport (s : Jmddev) (info : JmdDiskInfo) : Prop where
  fresh : info.dev ∉ s.all
  slot : ∀ sb, s.sb = some sb → info.number.toUInt32 < sb.nrDisks

/-- What `add_new_disk` leaves behind of a failed import. -/
def Jmddev.addKept (s : Jmddev) (env : ImportEnv) (info : JmdDiskInfo) : Set StoreResource :=
  {r | s.ReachesImport info ∧
    ((r = .imported .sbPage ∧ env.RefusesClaim) ∨ (r = .super ∧ env.findsSuper = true))}

/-- What is held after a call of `add_new_disk`: a whole member, or what a failed import has left
behind. -/
def Jmddev.AddHolds (s s' : Jmddev) (env : ImportEnv) (info : JmdDiskInfo)
    (held : Set StoreResource) : Prop :=
  (s'.nbDev = s.nbDev + 1 ∧ held = Set.range .imported) ∨
    (s'.nbDev = s.nbDev ∧ held = s.addKept env info)

/-- Nothing is held by a call that does not come to the import. -/
theorem Jmddev.AddHolds.nothing (hnb : s'.nbDev = s.nbDev) (h : ¬ s.ReachesImport info) :
    s.AddHolds s' env info ∅ :=
  Or.inr ⟨hnb, (Set.eq_empty_of_forall_notMem fun _ hr => h hr.1).symm⟩

/-- What is held after a failed import. -/
theorem Jmddev.AddHolds.importKept {t : Jmddev} (hall : t.all = s.all) (hnb : t.nbDev = s.nbDev)
    (hslot : ∀ sb, s.sb = some sb → info.number.toUInt32 < sb.nrDisks) :
    s.AddHolds t env info (t.importKept env info.dev) := by
  refine Or.inr ⟨hnb, ?_⟩
  have himports : s.ReachesImport info ↔ info.dev ∉ t.all := by
    rw [hall]
    exact ⟨ReachesImport.fresh, fun hnew => ⟨hnew, hslot⟩⟩
  simp only [Jmddev.importKept, addKept, himports]

/-- **What `add_new_disk` leaves in the ledger.** -/
theorem Jmddev.leads_addNewDiskLedger {err : Int32} (hup : info.faulty = false)
    (h : s.addNewDiskLedger env info = .ok (err, s', log)) :
    ∃ held, Leads ∅ log held ∧ (∀ a, .acquire a ∈ log → a.OfImport) ∧
      s.AddHolds s' env info held := by
  have hnil : ∀ a, .acquire a ∈ ([] : List (Entry StoreResource)) → a.OfImport := fun _ ha =>
    absurd ha List.not_mem_nil
  unfold addNewDiskLedger at h
  split at h
  · rename_i hall
    cases h
    exact ⟨∅, Leads.nil _, hnil, .nothing rfl fun himports => himports.fresh hall⟩
  split at h
  · rename_i hsb
    have hslot : ∀ sb, s.sb = some sb → info.number.toUInt32 < sb.nrDisks := fun sb hsb' =>
      absurd (hsb.symm.trans hsb') nofun
    unfold addOnDiskLedger at h
    split at h
    · cases h
    · rename_i himp
      cases h
      obtain ⟨rfl, hleads⟩ := leads_importLedger_error himp
      exact ⟨_, hleads, fun _ => ofImport_of_acquire himp, .importKept rfl rfl hslot⟩
    · rename_i jrdev imported log' himp
      obtain ⟨rfl, hleads⟩ := leads_importLedger_ok himp
      -- `uuid_equal` never says no
      have hbind : Except.ok (ε := Fault) (0, { s with
          all := info.dev :: s.all }.bindRdevToArray jrdev, log') = .ok (err, s', log) := by
        split at h
        · exact h
        · rwa [if_neg (by simp [uuidEqual])] at h
      cases hbind
      exact ⟨_, hleads, fun _ => ofImport_of_acquire himp, Or.inl ⟨rfl, rfl⟩⟩
  rename_i sb hsb
  dsimp only at h
  split at h
  · rename_i hnr
    cases h
    exact ⟨∅, Leads.nil _, hnil, .nothing rfl fun himports =>
      UInt32.not_le.mpr (himports.slot sb hsb) hnr⟩
  rename_i hnr
  have hslot : ∀ sb', s.sb = some sb' → info.number.toUInt32 < sb'.nrDisks := by
    intro sb' hsb'
    obtain rfl := Option.some.inj (hsb.symm.trans hsb')
    exact UInt32.not_le.mp hnr
  split at h
  · rename_i hlt
    rw [hup, if_neg Bool.false_ne_true] at h
    split at h
    · cases h
    · rename_i himp
      cases h
      obtain ⟨rfl, hleads⟩ := leads_importLedger_error himp
      exact ⟨_, hleads, fun _ => ofImport_of_acquire himp, .importKept rfl rfl hslot⟩
    · rename_i jrdev imported log' himp
      obtain ⟨rfl, hleads⟩ := leads_importLedger_ok himp
      cases h
      exact ⟨_, hleads, fun _ => ofImport_of_acquire himp, Or.inl ⟨rfl, rfl⟩⟩
  · cases h

/-! ### What a call holds -/

variable {call : AddStoreCall} {ret : Int64}

/-- The call opens the device by its name, and then an allocation fails. -/
structure AddStoreCall.Abandons (call : AddStoreCall) : Prop where
  dtdev : call.env.dtdev = true
  opened : call.env.bdev.isSome
  refused : call.env.granted = false

/-- The call binds its device to the array. -/
def Jmddev.BindsDevice (s : Jmddev) (call : AddStoreCall) : Prop :=
  ∃ ret s', s.addStore call = .ok (ret, s') ∧ s'.nbDev = s.nbDev + 1

/-- The call comes to the import of its device. -/
structure Jmddev.ImportsDevice (s : Jmddev) (call : AddStoreCall) (bdev : Int32 × Int32) :
    Prop where
  granted : call.env.granted = true
  opened : call.env.bdev = some bdev
  imports : (s.prepare call).ReachesImport (call.diskInfo bdev)

/-- The call claims the device in vain, and loses the page for its superblock. -/
def Jmddev.LosesPage (s : Jmddev) (call : AddStoreCall) : Prop :=
  (∃ bdev, s.ImportsDevice call bdev) ∧ call.env.add.RefusesClaim

/-- The call finds a file system on the device, and keeps it. -/
def Jmddev.KeepsSuper (s : Jmddev) (call : AddStoreCall) : Prop :=
  (∃ bdev, s.ImportsDevice call bdev) ∧ call.env.add.findsSuper = true

/-- The call completes the array and comes to the update of the superblocks of `t`. -/
structure Jmddev.Updates (s : Jmddev) (call : AddStoreCall) (t : Jmddev) : Prop where
  granted : call.env.granted = true
  reached : ∃ bdev added, call.env.bdev = some bdev ∧ s.addMember call bdev = .ok added ∧
    (added.nbDev : ℤ) = call.totalNum.toInt ∧
      (added.publish call.totalNum).runUpdate call.env.run = some t

/-- What is held after the call. -/
inductive Jmddev.Holds (s : Jmddev) (call : AddStoreCall) : StoreResource → Prop
  | path (h : call.Abandons) : Holds s call .path
  | member (h : s.BindsDevice call) (r : ImportResource) : Holds s call (.imported r)
  | page (h : s.LosesPage call) : Holds s call (.imported .sbPage)
  | super (h : s.KeepsSuper call) : Holds s call .super
  /-- an update gives back neither its pages nor the bios that it does not submit -/
  | write {t : Jmddev} (h : s.Updates call t) {k j : ℕ} {r : SbResource}
    (hkept : (k, j, r) ∈ t.updateKept call.env.run.update) : Holds s call (.write k j r)

/-- A call whose allocations are not granted holds at most the open device. -/
theorem Jmddev.holds_of_refused (h : call.env.granted = false) (r : StoreResource) :
    s.Holds call r ↔ r = .path ∧ call.Abandons := by
  have hno : call.env.granted ≠ true := fun hgranted =>
    Bool.false_ne_true (h.symm.trans hgranted)
  constructor
  · rintro (habandons | ⟨⟨ret, s', hstore, hnb⟩, r⟩ | ⟨⟨_, hcomes⟩, -⟩ | ⟨⟨_, hcomes⟩, -⟩ |
      ⟨hupdates, -⟩)
    · exact ⟨rfl, habandons⟩
    · cases Jmddev.storeOutcome hstore with
      | noMemory => exact absurd hnb (Nat.succ_ne_self _).symm
      | added hgranted => exact absurd hgranted hno
      | complete hgranted => exact absurd hgranted hno
    · exact absurd hcomes.granted hno
    · exact absurd hcomes.granted hno
    · exact absurd hupdates.granted hno
  · rintro ⟨rfl, habandons⟩
    exact .path habandons

/-- What the update at the end of the call leaves behind. -/
def Jmddev.runKeptIfComplete (s : Jmddev) (call : AddStoreCall) : Set StoreResource :=
  {r | (s.nbDev : ℤ) = call.totalNum.toInt ∧
    ∃ x ∈ (s.publish call.totalNum).runKept call.env.run, r = .write x.1 x.2.1 x.2.2}

theorem Jmddev.leads_runLogIfComplete (s : Jmddev) (call : AddStoreCall) :
    Leads ∅ (s.runLogIfComplete call) (s.runKeptIfComplete call) := by
  unfold runLogIfComplete runKeptIfComplete
  split_ifs with hcomplete
  · have hinj : Function.Injective fun x : ℕ × ℕ × SbResource =>
        StoreResource.write x.1 x.2.1 x.2.2 := by
      rintro ⟨k, j, r⟩ ⟨k', j', r'⟩ heq
      obtain ⟨rfl, rfl, rfl⟩ := StoreResource.write.inj heq
      rfl
    have hmap := ((s.publish call.totalNum).leads_runLog call.env.run).map hinj
    rw [Set.image_empty] at hmap
    refine (congrArg (Leads _ _) ?_).mp hmap
    ext r
    simp [hcomplete, eq_comm]
  · simp [Leads, hcomplete]

/-- The start keeps the members and the superblock. -/
theorem Jmddev.RunOutcome.keeps {s s' : Jmddev} (h : s.RunOutcome s') :
    s'.nbDev = s.nbDev ∧ (s.sb.isSome → s'.sb.isSome) := by
  cases h with
  | refused => exact ⟨rfl, id⟩
  | gaveUp => exact ⟨rfl, id⟩
  | analyzed _ f ha =>
    obtain ⟨sb, hsb, -⟩ := ha.sb
    exact ⟨ha.steady.nbDev, fun _ => by simp [hsb]⟩

theorem Jmddev.exists_write_of_acquire {a : StoreResource}
    (h : .acquire a ∈ s.runLogIfComplete call) : ∃ k j r, a = .write k j r := by
  unfold runLogIfComplete at h
  split_ifs at h
  · obtain ⟨x, -, rfl⟩ := acquire_mem_map h
    exact ⟨_, _, _, rfl⟩
  · cases h

/-- A device that is not opened is not bound. -/
theorem Jmddev.AddOutcome.nbDev_of_not_opens {err : Int32} (hadd : s.AddOutcome env info err s')
    (h : env.opens = false) : s'.nbDev = s.nbDev := by
  cases hadd with
  | known => rfl
  | noSuperblock => rfl
  | onDisk _ _ himp => exact absurd (himp.opens.symm.trans h) (by decide)
  | noSlot => rfl
  | notImported => rfl
  | faulty => rfl
  | bound _ _ _ _ _ _ _ himp => exact absurd (himp.opens.symm.trans h) (by decide)

/-- A call that binds its device has opened it. -/
theorem Jmddev.BindsDevice.opens (h : s.BindsDevice call) : call.env.add.opens = true := by
  obtain ⟨ret, s', hstore, hnb⟩ := h
  by_contra hclosed
  rw [Bool.not_eq_true] at hclosed
  suffices hsame : s'.nbDev = (s.prepare call).nbDev by
    rw [s.nbDev_prepare] at hsame
    exact Nat.succ_ne_self _ (hnb.symm.trans hsame)
  cases Jmddev.storeOutcome hstore with
  | noMemory => exact (s.nbDev_prepare call).symm
  | added _ bdev _ _ err hadd => exact hadd.nbDev_of_not_opens hclosed
  | complete _ bdev _ t _ _ err hadd _ hrun =>
    exact hrun.keeps.1.trans (hadd.nbDev_of_not_opens hclosed)

/-- A call that loses a page does not bind its device. -/
theorem Jmddev.LosesPage.not_bindsDevice (h : s.LosesPage call) : ¬ s.BindsDevice call := by
  intro hbinds
  have hopens := hbinds.opens
  simp [ImportEnv.opens, h.2.lock] at hopens

/-- A call that finds a file system does not bind its device. -/
theorem Jmddev.KeepsSuper.not_bindsDevice (h : s.KeepsSuper call) : ¬ s.BindsDevice call := by
  intro hbinds
  have hopens := hbinds.opens
  have hfound := h.2
  simp only [ImportEnv.findsSuper, Bool.and_eq_true] at hfound
  simp [ImportEnv.opens, hfound.2] at hopens

/-- A call whose allocations are granted holds what its import and its update have left in the
ledger. -/
theorem Jmddev.holds_of_granted {bdev : Int32 × Int32} {held : Set StoreResource}
    (h : call.env.granted = true) (hbdev : call.env.bdev = some bdev)
    (hstore : s.addStore call = .ok (ret, s')) (hmember : s.addMember call bdev = .ok added)
    (hnb : s'.nbDev = added.nbDev)
    (hadd : (s.prepare call).AddHolds added call.env.add (call.diskInfo bdev) held)
    (r : StoreResource) : s.Holds call r ↔ r ∈ held ∪ added.runKeptIfComplete call := by
  have hbinds : s.BindsDevice call ↔ added.nbDev = s.nbDev + 1 := by
    rw [← hnb]
    constructor
    · rintro ⟨ret', t, ht, hnb'⟩
      obtain ⟨-, rfl⟩ := Prod.mk.inj (Except.ok.inj (hstore.symm.trans ht))
      exact hnb'
    · exact fun hnb' => ⟨ret, s', hstore, hnb'⟩
  have himports : (∃ bdev, s.ImportsDevice call bdev) ↔
      (s.prepare call).ReachesImport (call.diskInfo bdev) := by
    constructor
    · rintro ⟨bdev', hcomes⟩
      obtain rfl := Option.some.inj (hbdev.symm.trans hcomes.opened)
      exact hcomes.imports
    · exact fun hcomes => ⟨bdev, h, hbdev, hcomes⟩
  have hkept : ¬ call.Abandons := fun habandons =>
    Bool.false_ne_true (habandons.refused.symm.trans h)
  rw [Jmddev.AddHolds, s.nbDev_prepare] at hadd
  constructor
  · rintro (habandons | ⟨hnew, r⟩ | hpage | hsuper | ⟨⟨-, bdev', t', hbdev', ht', hend⟩, hx⟩)
    · exact absurd habandons hkept
    · obtain ⟨-, rfl⟩ | ⟨hsame, -⟩ := hadd
      · exact Or.inl ⟨r, rfl⟩
      · exact absurd ((hbinds.mp hnew).symm.trans hsame) (Nat.succ_ne_self _)
    · obtain ⟨hnew, -⟩ | ⟨-, rfl⟩ := hadd
      · exact absurd (hbinds.mpr hnew) hpage.not_bindsDevice
      · exact Or.inl ⟨himports.mp hpage.1, Or.inl ⟨rfl, hpage.2⟩⟩
    · obtain ⟨hnew, -⟩ | ⟨-, rfl⟩ := hadd
      · exact absurd (hbinds.mpr hnew) hsuper.not_bindsDevice
      · exact Or.inl ⟨himports.mp hsuper.1, Or.inr ⟨rfl, hsuper.2⟩⟩
    · obtain rfl := Option.some.inj (hbdev.symm.trans hbdev')
      obtain rfl := Except.ok.inj (hmember.symm.trans ht')
      exact Or.inr ⟨hend.1, _, ⟨_, hend.2, hx⟩, rfl⟩
  · rintro (hheld | ⟨hcomplete, x, ⟨t, hrun, hx⟩, rfl⟩)
    · obtain ⟨hnew, rfl⟩ | ⟨-, rfl⟩ := hadd
      · obtain ⟨q, rfl⟩ := hheld
        exact .member (hbinds.mpr hnew) q
      · obtain ⟨hcomes, ⟨rfl, hclaim⟩ | ⟨rfl, hfound⟩⟩ := hheld
        · exact .page ⟨himports.mpr hcomes, hclaim⟩
        · exact .super ⟨himports.mpr hcomes, hfound⟩
    · exact .write ⟨h, bdev, added, hbdev, hmember, hcomplete, hrun⟩ hx

/-! ### The superblock of the array -/

theorem Jmddev.isSome_prepare {s : Jmddev} (call : AddStoreCall) (h : s.sb.isSome) :
    (s.prepare call).sb.isSome := by
  unfold prepare setArrayInfo
  split
  · split
    · exact h
    · rfl
  · exact h

/-- `add_new_disk` does not allocate a superblock for the array. -/
theorem Jmddev.AddOutcome.isSome_eq {s s' : Jmddev} {env : ImportEnv} {info : JmdDiskInfo}
    {err : Int32} (hadd : s.AddOutcome env info err s') : s'.sb.isSome = s.sb.isSome := by
  cases hadd with
  | known => rfl
  | noSuperblock => rfl
  | onDisk => rfl
  | noSlot => rfl
  | notImported _ sb hsb => exact (congrArg Option.isSome hsb).symm
  | faulty _ sb hsb => exact (congrArg Option.isSome hsb).symm
  | bound _ sb hsb => exact (congrArg Option.isSome hsb).symm

theorem Jmddev.runIfComplete_cases {s s' : Jmddev} {call : AddStoreCall}
    (h : s.runIfComplete call = .ok s') :
    s'.nbDev = s.nbDev ∧ (s.sb.isSome → s'.sb.isSome) := by
  unfold runIfComplete at h
  split at h
  · obtain ⟨⟨err, t⟩, hrun, rfl⟩ := Except.exists_of_map_eq_ok h
    exact (Jmddev.runOutcome hrun).keeps
  · obtain rfl := Except.ok.inj h
    exact ⟨rfl, id⟩

theorem Jmddev.AddOutcome.nbDev_cases {s s' : Jmddev} {env : ImportEnv} {info : JmdDiskInfo}
    {err : Int32} (hadd : s.AddOutcome env info err s') :
    s'.nbDev = s.nbDev ∨ s'.nbDev = s.nbDev + 1 := by
  cases hadd with
  | known => exact Or.inl rfl
  | noSuperblock => exact Or.inl rfl
  | onDisk => exact Or.inr rfl
  | noSlot => exact Or.inl rfl
  | notImported => exact Or.inl rfl
  | faulty => exact Or.inl rfl
  | bound => exact Or.inr rfl

/-- A call binds one device at most. -/
theorem Jmddev.nbDev_addStore {s s' : Jmddev} {call : AddStoreCall} {ret : Int64}
    (h : s.addStore call = .ok (ret, s')) : s'.nbDev = s.nbDev ∨ s'.nbDev = s.nbDev + 1 := by
  rw [← s.nbDev_prepare call]
  cases Jmddev.storeOutcome h with
  | noMemory => exact Or.inl (s.nbDev_prepare call).symm
  | added _ bdev _ _ err hadd => exact hadd.nbDev_cases
  | complete _ bdev _ t _ _ err hadd _ hrun =>
    rw [show s'.nbDev = t.nbDev from hrun.keeps.1]
    exact hadd.nbDev_cases

/-! ### A call -/

/-- What is held beside `A`: the superblock of the array `s`, if there is one, and what call number
`i` holds. -/
def besides (A : Set JmdResource) (s : Jmddev) (i : ℕ) (P : Set StoreResource) :
    Set JmdResource :=
  JmdResource.store i '' P ∪ (A ∪ {a | a = .arraySb ∧ s.sb.isSome})

variable {A : Set JmdResource} {i : ℕ}

/-- A call acquires and releases what is its own. -/
theorem leads_ofCall {P P' : Set StoreResource} {log : List (Entry StoreResource)}
    (hnew : ∀ r, .store i r ∉ A) (h : Leads P log P') (s : Jmddev) :
    Leads (besides A s i P) (ofCall i log) (besides A s i P') := by
  have hinj : Function.Injective (JmdResource.store i) := fun _ _ heq =>
    (JmdResource.store.inj heq).2
  have hother : ∀ r, JmdResource.store i r ∉ A ∪ {a | a = .arraySb ∧ s.sb.isSome} := by
    rintro r (hA | ⟨heq, -⟩)
    · exact hnew r hA
    · cases heq
  refine (h.map hinj).frame ?_ ?_
  · rintro a ⟨r, -, rfl⟩
    exact hother r
  · intro a ha
    obtain ⟨r, -, rfl⟩ := acquire_mem_map ha
    exact hother r

/-- The superblock of the array is allocated where there is none. -/
theorem leads_sbLog {s s' : Jmddev} (hA : .arraySb ∈ A → s.sb.isSome) (P : Set StoreResource)
    (hkeep : s.sb.isSome → s'.sb.isSome) :
    Leads (besides A s i P) (sbLog s s') (besides A s' i P) := by
  unfold sbLog
  cases hs : s.sb with
  | some sb =>
    have hs' := hkeep (by simp [hs])
    simp [Leads, besides, hs, hs']
  | none =>
    have hnone : .arraySb ∉ A := fun hmem => by simpa [hs] using hA hmem
    cases hs' : s'.sb with
    | none => simp [Leads, besides, hs, hs']
    | some sb =>
      refine ⟨by simp [besides, hs, hnone], ?_⟩
      ext a
      simp [besides, hs, hs']

/-- A call that is refused an allocation holds the open device. -/
theorem leads_refused {bdev : Option (Int32 × Int32)} {log : List (Entry StoreResource)}
    (h : ∀ P : Set StoreResource, .dtdev ∈ P → .arrayInfo ∉ P → Leads P log (P \ {.dtdev})) :
    Leads ∅ (.acquire .dtdev :: (openLog bdev ++ log)) {r | r = .path ∧ bdev.isSome} := by
  refine ⟨Set.notMem_empty _, ?_⟩
  cases bdev with
  | none =>
    refine (congrArg (Leads _ _) ?_).mp (h _ (Set.mem_insert _ _) (by simp))
    ext r
    simp
  | some bdev =>
    refine ⟨by simp, (congrArg (Leads _ _) ?_).mp (h _ (by simp) (by simp))⟩
    ext r
    cases r <;> simp

/-- What a call acquires for itself is given back at its end. What its import holds stays, and so
does what its update has kept. -/
theorem leads_granted {held kept : Set StoreResource} {update : List (Entry StoreResource)}
    (h : Leads ∅ log held) (hlog : ∀ a, .acquire a ∈ log → a.OfImport)
    (hupdate : Leads ∅ update kept)
    (hwrites : ∀ a, .acquire a ∈ update → ∃ k j r, a = .write k j r) :
    Leads ∅ startLog {.dtdev, .path, .arrayInfo, .info} ∧
      Leads {.dtdev, .path, .arrayInfo, .info} (.release .path :: log)
        (held ∪ {.dtdev, .arrayInfo, .info}) ∧
      Leads (held ∪ {.dtdev, .arrayInfo, .info}) (update ++ endLog) (held ∪ kept) := by
  have hheld : ∀ a ∈ held, a.OfImport := fun a ha => hlog a (by
    by_contra hno
    exact h.notMem (Set.notMem_empty a) hno ha)
  have hkept : ∀ a ∈ kept, ∃ k j r, a = .write k j r := fun a ha => hwrites a (by
    by_contra hno
    exact hupdate.notMem (Set.notMem_empty a) hno ha)
  refine ⟨⟨Set.notMem_empty _, by simp, by simp, by simp, ?_⟩, ⟨by simp, ?_⟩, ?_⟩
  · ext r
    cases r <;> simp
  · have hframe := h.frame (t := {.dtdev, .arrayInfo, .info})
      (fun a ha => absurd ha (Set.notMem_empty a)) fun a ha hmem => by
        obtain rfl | rfl | rfl := hmem <;> exact hlog _ ha
    rw [Set.empty_union] at hframe
    refine (congrArg (fun P => Leads P _ _) ?_).mp hframe
    ext r
    cases r <;> simp
  · have hframe := hupdate.frame (t := held ∪ {.dtdev, .arrayInfo, .info})
      (fun a ha => absurd ha (Set.notMem_empty a)) fun a ha hmem => by
        obtain ⟨k, j, r, rfl⟩ := hwrites a ha
        obtain hin | hin := hmem
        · exact hheld _ hin
        · simp at hin
    rw [Set.empty_union] at hframe
    refine hframe.append ⟨by simp, by simp, by simp, ?_⟩
    ext a
    have hown : a = .dtdev ∨ a = .arrayInfo ∨ a = .info → a ∉ held ∧ a ∉ kept := by
      rintro (rfl | rfl | rfl) <;>
        exact ⟨fun ha => hheld _ ha, fun ha => by obtain ⟨k, j, r, heq⟩ := hkept _ ha; cases heq⟩
    simp only [Set.mem_union, Set.mem_sdiff, Set.mem_insert_iff, Set.mem_singleton_iff]
    tauto

/-- **What a call leaves in the ledger**: the superblock of the array, if there is one afterwards,
and what the call holds. -/
theorem leads_addStoreLedger {s s' : Jmddev} {call : AddStoreCall} {ret : Int64}
    {log : List (Entry JmdResource)} (h : s.addStoreLedger i call = .ok (ret, s', log))
    (hsb : .arraySb ∈ A → s.sb.isSome) (hnew : ∀ r, .store i r ∉ A) :
    (s.sb.isSome → s'.sb.isSome) ∧
      Leads (besides A s i ∅) log (besides A s' i {r | s.Holds call r}) := by
  have hstore : s.addStore call = .ok (ret, s') := by
    rw [← s.map_addStoreLedger i call, h]
    rfl
  have hholds : ∀ {P : Set StoreResource}, (∀ r, s.Holds call r ↔ r ∈ P) →
      {r | s.Holds call r} = P := fun hP => Set.ext hP
  unfold Jmddev.addStoreLedger at h
  split at h
  · rename_i hdtdev
    cases h
    have hno : call.env.granted = false := by simp_all [AddStoreEnv.granted]
    rw [hholds (P := ∅) fun r => (Jmddev.holds_of_refused hno r).trans
      (iff_of_false (fun hab => by simp [hab.2.dtdev] at hdtdev) (Set.notMem_empty r))]
    exact ⟨id, Leads.nil _⟩
  rename_i hdtdev
  have hdtdev : call.env.dtdev = true := by simpa using hdtdev
  have hopened : call.env.granted = false → ∀ r, s.Holds call r ↔
      r ∈ {r : StoreResource | r = .path ∧ call.env.bdev.isSome} := fun hno r =>
    (Jmddev.holds_of_refused hno r).trans (and_congr_right fun _ =>
      ⟨fun hab => hab.opened, fun hopen => ⟨hdtdev, hopen, hno⟩⟩)
  split at h
  · cases h
    rw [hholds (hopened (by simp_all [AddStoreEnv.granted]))]
    exact ⟨id, leads_ofCall hnew (leads_refused fun P hP _ => Leads.release hP) s⟩
  split at h
  · cases h
    rw [hholds (hopened (by simp_all [AddStoreEnv.granted]))]
    refine ⟨id, leads_ofCall hnew (leads_refused fun P hP hP' => ?_) s⟩
    refine ⟨hP', Set.mem_insert _ _, by simp [hP], ?_⟩
    rw [Set.insert_sdiff_self_of_notMem hP']
    exact Leads.nil _
  rename_i harray hinfo
  have hgranted : call.env.granted = true := by simp_all [AddStoreEnv.granted]
  split at h
  · cases h
  rename_i bdev hbdev
  dsimp only at h
  split at h
  · cases h
  rename_i err added log' hadd
  split at h
  · cases h
  rename_i s₁ hrun
  cases h
  obtain ⟨hnb, hsome⟩ := Jmddev.runIfComplete_cases hrun
  obtain ⟨held, hleads, hlog, hadds⟩ :=
    Jmddev.leads_addNewDiskLedger (call.faulty_diskInfo bdev) hadd
  have hmap := (s.prepare call).map_addNewDiskLedger call.env.add (call.diskInfo bdev)
  rw [hadd] at hmap
  have hadded := (Jmddev.addOutcome hmap.symm).isSome_eq
  have hmember : s.addMember call bdev = .ok added := congrArg (Except.map Prod.snd) hmap.symm
  have hprepared : s.sb.isSome → (s.prepare call).sb.isSome := s.isSome_prepare call
  have hkept : s.sb.isSome → added.sb.isSome := fun hs => hadded.trans (hprepared hs)
  rw [hholds (Jmddev.holds_of_granted hgranted hbdev hstore hmember hnb hadds)]
  obtain ⟨hstart, hmiddle, hend⟩ := leads_granted hleads hlog (added.leads_runLogIfComplete call)
    fun _ => Jmddev.exists_write_of_acquire
  refine ⟨fun hs => hsome (hkept hs), (leads_ofCall hnew hstart s).append ?_⟩
  refine (leads_sbLog hsb _ hprepared).append ((leads_ofCall hnew hmiddle _).append ?_)
  rw [besides, ← hadded]
  exact (leads_sbLog (fun hA => hkept (hsb hA)) _ hsome).append (leads_ofCall hnew hend _)

end Jmd

end JRaid
