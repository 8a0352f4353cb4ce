import JRaid.Jmd.Restart

/-!
# Calls of `add_new_disk` that fail

`add_new_disk` gives an error for a device in use, for a number past the end of the set, and for a
device that `jmd_import_device` rejects. An array that has no superblock yet is left alone by all of
them. For the others the descriptor is written first, and a failed import does not restore it.
-/

namespace JRaid

namespace Jmd

/-- The array superblock, the members with their copies of it, their number and the list of all
devices are as before. -/
structure Jmddev.Unchanged (s s' : Jmddev) : Prop where
  sb : s'.sb = s.sb
  disks : s'.disks = s.disks
  nbDev : s'.nbDev = s.nbDev
  all : s'.all = s.all

/-- A call that returns an error leaves the array as it was, and a call whose device is not imported
does not write past the end of the descriptor table first. -/
structure Jmddev.FailsClean (s : Jmddev) (env : ImportEnv) (info : JmdDiskInfo) : Prop where
  unchanged : ∀ err s', s.addNewDisk env info = .ok (err, s') → err ≠ 0 → s.Unchanged s'
  inTable : info.faulty = false → env.opens = false →
    s.addNewDisk env info ≠ .error .outOfTable

/-- No failure leaves a changed descriptor behind: the device is in use, or needs no import, or all
requests of its import are granted, or the call writes no descriptor, or only values that the
descriptor has already. -/
def Jmddev.NothingToUndo (s : Jmddev) (env : ImportEnv) (info : JmdDiskInfo) : Prop :=
  info.dev ∈ s.all ∨ info.faulty = true ∨ env.opens = true ∨
    ∀ sb, s.sb = some sb → info.number.toUInt32 < sb.nrDisks →
      ∃ i, descIndex info.number = some i ∧ (sb.disks i).assign info = sb.disks i

/-! ### An import that is not granted all -/

theorem Jmddev.jmdImportDevice_of_not_opens (s : Jmddev) {env : ImportEnv} (newdev : DevT)
    (onDisk : Bool) (h : env.opens = false) :
    ∃ err, s.jmdImportDevice env newdev onDisk = .ok (.error err) := by
  rw [jmdImportDevice]
  by_cases hall : newdev ∈ s.all
  · exact ⟨_, if_pos hall⟩
  rw [if_neg hall]
  by_cases hrdev : (!env.rdev) = true
  · exact ⟨_, if_pos hrdev⟩
  rw [if_neg hrdev]
  by_cases hsuper : env.activeSuper = true
  · exact ⟨_, if_pos hsuper⟩
  rw [if_neg hsuper]
  cases hpage : env.page with
  | none => exact ⟨_, rfl⟩
  | some page =>
    -- what is left to be refused is the lock
    have hlock : (!env.lock) = true := by
      simp only [Bool.not_eq_true', Bool.not_eq_false] at hrdev
      simpa [ImportEnv.opens, hrdev, hsuper, hpage] using h
    exact ⟨-einval, if_pos hlock⟩

/-- The descriptor has been written when the import fails. -/
theorem Jmddev.addNewDisk_of_not_opens {s : Jmddev} {env : ImportEnv} {info : JmdDiskInfo}
    {sb : Superblock} {i : Fin mdSbDisks} (hall : info.dev ∉ s.all) (hsb : s.sb = some sb)
    (hnr : info.number.toUInt32 < sb.nrDisks) (hi : descIndex info.number = some i)
    (hup : info.faulty = false) (hopens : env.opens = false) :
    s.addNewDisk env info = .ok (-einval, { s with sb := some (sb.assign i info) }) := by
  have hlt : info.number.toUInt32.toNat = i := descIndex_eq_some_iff.mp hi
  have hi' : info.number.toUInt32.toNat < mdSbDisks := hlt ▸ i.isLt
  obtain rfl : (⟨info.number.toUInt32.toNat, hi'⟩ : Fin mdSbDisks) = i := Fin.ext hlt
  obtain ⟨err, hfail⟩ := jmdImportDevice_of_not_opens
    { s with sb := some (sb.assign ⟨info.number.toUInt32.toNat, hi'⟩ info) } info.dev false hopens
  rw [addNewDisk, if_neg hall, hsb]
  dsimp only
  rw [if_neg (UInt32.not_le.mpr hnr), dif_pos hi', if_neg (by simp [hup]), hfail]

/-! ### Calls that leave the table -/

theorem Jmddev.jmdImportDevice_ne_outOfTable (s : Jmddev) (env : ImportEnv) (newdev : DevT)
    (onDisk : Bool) : s.jmdImportDevice env newdev onDisk ≠ .error .outOfTable := by
  have hread : ∀ (m : Rdev) bdev, m.readDiskSb bdev env ≠ .error .outOfTable := by
    intro m bdev
    rw [Rdev.readDiskSb, Rdev.syncPageIo]
    split_ifs with _ hbio hio
    · simp
    · simp
    · cases bdev.read (m.bioSector 0) <;> simp
    · simp
  intro h
  unfold jmdImportDevice at h
  split at h
  · cases h
  split at h
  · cases h
  split at h
  · cases h
  split at h
  · cases h
  split at h
  · cases h
  dsimp only at h
  split at h
  · split at h
    · rename_i f hf
      exact hread _ _ (hf.trans (congrArg Except.error (Except.error.inj h)))
    · cases h
    · split at h
      · cases h
      · cases h
  · cases h

/-- **A call leaves the table exactly if it gets to a descriptor that is not there.** -/
theorem Jmddev.addNewDisk_eq_outOfTable_iff (s : Jmddev) (env : ImportEnv) (info : JmdDiskInfo) :
    s.addNewDisk env info = .error .outOfTable ↔
      info.dev ∉ s.all ∧ ∃ sb, s.sb = some sb ∧ info.number.toUInt32 < sb.nrDisks ∧
        descIndex info.number = none := by
  constructor
  · intro h
    unfold addNewDisk at h
    split at h
    · cases h
    rename_i hall
    refine ⟨hall, ?_⟩
    split at h
    · unfold addOnDisk at h
      split at h
      · rename_i f hf
        exact absurd (hf.trans (congrArg Except.error (Except.error.inj h)))
          (s.jmdImportDevice_ne_outOfTable env info.dev true)
      · cases h
      · split at h
        · cases h
        · split at h
          · cases h
          · cases h
    rename_i sb hsb
    dsimp only at h
    split at h
    · cases h
    rename_i hnr
    split at h
    · split at h
      · cases h
      split at h
      · rename_i f hf
        exact absurd (hf.trans (congrArg Except.error (Except.error.inj h)))
          (jmdImportDevice_ne_outOfTable _ env info.dev false)
      · cases h
      · cases h
    · rename_i hlt
      exact ⟨sb, hsb, UInt32.not_le.mp hnr, dif_neg hlt⟩
  · rintro ⟨hall, sb, hsb, hnr, hnone⟩
    have hlt : ¬ info.number.toUInt32.toNat < mdSbDisks := by
      intro hlt
      rw [descIndex, dif_pos hlt] at hnone
      cases hnone
    rw [addNewDisk, if_neg hall, hsb]
    dsimp only
    rw [if_neg (UInt32.not_le.mpr hnr), dif_neg hlt]

/-! ### When a failed call changes nothing -/

/-- **A failed call changes nothing exactly if there is nothing to undo.** -/
theorem failed_add_unchanged_iff (s : Jmddev) (env : ImportEnv) (info : JmdDiskInfo) :
    s.FailsClean env info ↔ s.NothingToUndo env info := by
  constructor
  · intro hclean
    by_contra hundo
    simp only [Jmddev.NothingToUndo, not_or, not_forall, Bool.not_eq_true] at hundo
    obtain ⟨hall, hup, hopens, sb, hsb, hnr, hnew⟩ := hundo
    cases hi : descIndex info.number with
    | none =>
      exact hclean.inTable hup hopens
        ((s.addNewDisk_eq_outOfTable_iff env info).mpr ⟨hall, sb, hsb, hnr, hi⟩)
    | some i =>
      have hadd := Jmddev.addNewDisk_of_not_opens hall hsb hnr hi hup hopens
      have hsame := (hclean.unchanged _ _ hadd (by decide)).sb
      rw [hsb] at hsame
      exact hnew ⟨i, hi, (sb.assign_eq_self_iff i info).mp (Option.some.inj hsame)⟩
  · intro hundo
    -- what is left of the condition when the device is new and its import fails
    have hwrite : info.dev ∉ s.all → info.faulty = false → env.opens = false → ∀ sb,
        s.sb = some sb → info.number.toUInt32 < sb.nrDisks →
          ∃ i, descIndex info.number = some i ∧ (sb.disks i).assign info = sb.disks i := by
      intro hall hup hopens
      rcases hundo with hin | hdown | hgranted | hsame
      · exact absurd hin hall
      · exact absurd (hup.symm.trans hdown) (by decide)
      · exact absurd (hopens.symm.trans hgranted) (by decide)
      · exact hsame
    refine ⟨fun err s' hadd herr => ?_, fun hup hopens hout => ?_⟩
    · cases Jmddev.addOutcome hadd with
      | known _ => exact ⟨rfl, rfl, rfl, rfl⟩
      | noSuperblock _ _ => exact ⟨rfl, rfl, rfl, rfl⟩
      | noSlot _ _ _ _ => exact ⟨rfl, rfl, rfl, rfl⟩
      | onDisk _ _ _ => exact absurd rfl herr
      | faulty _ _ _ _ _ _ => exact absurd rfl herr
      | bound _ _ _ _ _ _ _ _ => exact absurd rfl herr
      | notImported hall sb hsb hnr hlt hup hopens =>
        obtain ⟨i, hi, hsame⟩ := hwrite hall hup hopens sb hsb hnr
        obtain rfl : ⟨_, hlt⟩ = i := Fin.ext (descIndex_eq_some_iff.mp hi)
        refine ⟨?_, rfl, rfl, rfl⟩
        rw [hsb]
        exact congrArg some ((sb.assign_eq_self_iff _ info).mpr hsame)
    · obtain ⟨hall, sb, hsb, hnr, hnone⟩ := (s.addNewDisk_eq_outOfTable_iff env info).mp hout
      obtain ⟨i, hi, -⟩ := hwrite hall hup hopens sb hsb hnr
      rw [hnone] at hi
      cases hi

/-! ### A device that cannot be opened -/

/-- What the kernel answers when a device cannot be opened. -/
def importNone : ImportEnv := { importAll with lock := false }

/-- What `add_store` fills in for the second disk of an array, on device 8:16. -/
def secondInfo : JmdDiskInfo := ⟨1, 8, 16, 1, 0⟩

/-- The superblock that `set_array_info` makes for three disks. -/
def justSetSb : Superblock := Superblock.zero.setInfo ⟨true, 0, 1, 2, 3, 4⟩ arrayInfoInit

/-- An array of three disks that has just got its superblock. -/
def justSet : Jmddev :=
  ((Jmddev.fresh evenDevices).setArrayInfo ⟨true, 0, 1, 2, 3, 4⟩ arrayInfoInit).2

/-- The device is not bound, but the superblock names it. -/
theorem failed_add_written : ∃ s', justSet.addNewDisk importNone secondInfo = .ok (-einval, s') ∧
    -einval ≠ 0 ∧ ¬ justSet.Unchanged s' ∧ ¬ justSet.FailsClean importNone secondInfo := by
  have hsb : justSet.sb = some justSetSb := rfl
  have hnew : secondInfo.dev ∉ justSet.all := List.not_mem_nil
  have hi : descIndex secondInfo.number = some ⟨1, by decide⟩ := by decide
  have hadd := Jmddev.addNewDisk_of_not_opens hnew hsb (by decide) hi (by decide)
    (show importNone.opens = false by decide)
  have hchanged : ¬ justSet.Unchanged { justSet with
      sb := some (justSetSb.assign ⟨1, by decide⟩ secondInfo) } := by
    intro h
    have hsame := h.sb.trans hsb
    have hdisk := (Superblock.assign_eq_self_iff _ _ _).mp (Option.some.inj hsame)
    exact absurd (congrArg Disk.minor hdisk) (by decide)
  exact ⟨_, hadd, by decide, hchanged, fun hclean =>
    hchanged (hclean.unchanged _ _ hadd (by decide))⟩

end Jmd

end JRaid
