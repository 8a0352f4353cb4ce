import JRaid.Jmd.Device
import Mathlib.Data.List.FinRange

/-!
# Adding a device

`set_array_info`, which makes the array superblock, and `add_new_disk`, which enters a
device into its descriptor table, imports it, binds it and brings the members' copies of the
superblock up to date (`sync_sbs`).

`Jmddev.addNewDisk` has seven ways to end, listed in `AddOutcome`; what is proved about
the function is proved case by case from this list (`Jmddev.addOutcome`).
-/

namespace JRaid

namespace Jmd

/-! ### `sync_sbs` -/

/-- The first descriptor with a device number. -/
def Superblock.findDisk (sb : Superblock) (dev : DevT) : Option (Fin mdSbDisks) :=
  (List.finRange mdSbDisks).find? fun i => (sb.disks i).dev = dev

theorem Superblock.dev_of_findDisk {sb : Superblock} {dev : DevT} {i : Fin mdSbDisks}
    (h : sb.findDisk dev = some i) : (sb.disks i).dev = dev := by
  have hfound := List.find?_some (p := fun i => decide ((sb.disks i).dev = dev)) h
  exact of_decide_eq_true hfound

theorem Superblock.exists_findDisk {sb : Superblock} {dev : DevT} {i : Fin mdSbDisks}
    (h : (sb.disks i).dev = dev) : ∃ j, sb.findDisk dev = some j :=
  Option.isSome_iff_exists.mp
    (List.find?_isSome.mpr ⟨i, List.mem_finRange i, decide_eq_true h⟩)

/-- `set_this_disk`: the member's descriptor is the first with its device number. -/
def Rdev.setThisDisk (sb : Superblock) (jrdev : Rdev) : Rdev :=
  match sb.findDisk jrdev.dev with
  | none => jrdev
  | some i =>
    { jrdev.withPage (jrdev.page.withSb { jrdev.sb with thisDisk := sb.disks i }) with
      descNr := (sb.disks i).number.toInt32 }

/-- The body of the loop in `sync_sbs`, for one member. -/
def Rdev.syncSb (sb : Superblock) (jrdev : Rdev) : Rdev :=
  if jrdev.faulty then jrdev
  else
    let jrdev := (jrdev.withPage (jrdev.page.withSb sb)).setThisDisk sb
    jrdev.withPage jrdev.page.storeCsum

/-- `sync_sbs`. -/
def syncSbs (sb : Superblock) (disks : List Rdev) : List Rdev := disks.map (Rdev.syncSb sb)

/-- What `sync_sbs` leaves alone in a member. -/
structure Rdev.SameDevice (jrdev jrdev' : Rdev) : Prop where
  dev : jrdev'.dev = jrdev.dev
  oldDev : jrdev'.oldDev = jrdev.oldDev
  size : jrdev'.size = jrdev.size
  tail : jrdev'.page.tail = jrdev.page.tail
  sbOffset : jrdev'.sbOffset = jrdev.sbOffset
  faulty : jrdev'.faulty = jrdev.faulty

/-- Only the superblock in the page changes. -/
theorem Rdev.SameDevice.withPage {jrdev jrdev' : Rdev} {page : SbPage}
    (h : jrdev.SameDevice jrdev') (htail : page.tail = jrdev'.page.tail) :
    jrdev.SameDevice (jrdev'.withPage page) :=
  ⟨h.dev, h.oldDev, h.size, htail.trans h.tail, h.sbOffset, h.faulty⟩

theorem Rdev.SameDevice.rfl {jrdev : Rdev} : jrdev.SameDevice jrdev :=
  ⟨Eq.refl _, Eq.refl _, Eq.refl _, Eq.refl _, Eq.refl _, Eq.refl _⟩

theorem Rdev.SameDevice.setThisDisk {jrdev jrdev' : Rdev} (h : jrdev.SameDevice jrdev')
    (sb : Superblock) : jrdev.SameDevice (jrdev'.setThisDisk sb) := by
  unfold Rdev.setThisDisk
  split
  · exact h
  · exact ⟨h.dev, h.oldDev, h.size, h.tail, h.sbOffset, h.faulty⟩

theorem Rdev.syncSb_same (sb : Superblock) (jrdev : Rdev) :
    jrdev.SameDevice (jrdev.syncSb sb) := by
  unfold syncSb
  split
  · exact .rfl
  · have h : jrdev.SameDevice (jrdev.withPage (jrdev.page.withSb sb)) := .withPage .rfl (Eq.refl _)
    exact (h.setThisDisk sb).withPage (SbPage.tail_withCsum _ _)

@[simp]
theorem Rdev.syncSb_dev (sb : Superblock) (jrdev : Rdev) : (jrdev.syncSb sb).dev = jrdev.dev :=
  (jrdev.syncSb_same sb).dev

@[simp]
theorem length_syncSbs (sb : Superblock) (disks : List Rdev) :
    (syncSbs sb disks).length = disks.length :=
  List.length_map _

@[simp]
theorem map_dev_syncSbs (sb : Superblock) (disks : List Rdev) :
    (syncSbs sb disks).map Rdev.dev = disks.map Rdev.dev := by
  rw [syncSbs, List.map_map]
  exact List.map_congr_left fun jrdev _ => jrdev.syncSb_dev sb

theorem Rdev.setThisDisk_sb (sb : Superblock) (jrdev : Rdev) :
    ∃ d, (jrdev.setThisDisk sb).sb = { jrdev.sb with thisDisk := d } := by
  unfold setThisDisk
  split
  · exact ⟨jrdev.sb.thisDisk, rfl⟩
  · exact ⟨_, rfl⟩

/-- **The copy that `sync_sbs` makes** is the array superblock but for `this_disk` and the
checksum. -/
theorem Rdev.syncSb_sb (sb : Superblock) {jrdev : Rdev} (h : jrdev.faulty = false) :
    ∃ d c, (jrdev.syncSb sb).sb = { sb with thisDisk := d, sbCsum := c } := by
  obtain ⟨d, hd⟩ := setThisDisk_sb sb (jrdev.withPage (jrdev.page.withSb sb))
  simp only [Rdev.sb] at hd
  rw [syncSb, if_neg (by simp [h])]
  refine ⟨d, ((jrdev.withPage (jrdev.page.withSb sb)).setThisDisk sb).page.calcSbCsum, ?_⟩
  refine (SbPage.sb_withCsum _ _).trans ?_
  rw [hd]
  rfl

/-- `sync_sbs` points a member to the first descriptor with its device number. -/
theorem Rdev.syncSb_descNr {sb : Superblock} {jrdev : Rdev} {i : Fin mdSbDisks}
    (hup : jrdev.faulty = false) (h : sb.findDisk jrdev.dev = some i) :
    (jrdev.syncSb sb).descNr = (sb.disks i).number.toInt32 := by
  have hset : ∀ page, (jrdev.withPage page).setThisDisk sb =
      { jrdev.withPage (page.withSb { page.sb with thisDisk := sb.disks i }) with
        descNr := (sb.disks i).number.toInt32 } := by
    intro page
    unfold setThisDisk
    rw [show sb.findDisk (jrdev.withPage page).dev = some i from h]
    rfl
  rw [syncSb, if_neg (by simp [hup]), hset]
  rfl

/-- A copy that `sync_sbs` makes verifies. -/
theorem Rdev.syncSb_verifies (sb : Superblock) {jrdev : Rdev} (h : jrdev.faulty = false) :
    (jrdev.syncSb sb).page.calcSbCsum = (jrdev.syncSb sb).sb.sbCsum := by
  rw [syncSb, if_neg (by simp [h])]
  exact SbPage.calcSbCsum_storeCsum _

/-! ### `set_array_info` -/

/-- `struct jmd_array_info`, as far as `set_array_info` reads it. -/
structure JmdArrayInfo where
  level : Int32
  size : Int32
  nrDisks : Int32
  raidDisks : Int32
  mdMinor : Int32
  notPersistent : Int32
  state : Int32
  activeDisks : Int32
  workingDisks : Int32
  failedDisks : Int32
  spareDisks : Int32
  layout : Int32

/-- `array_info_init`. -/
def arrayInfoInit : JmdArrayInfo where
  level := 5
  size := 0
  nrDisks := 3
  raidDisks := 3
  mdMinor := 0
  notPersistent := 0
  state := 0
  activeDisks := 0
  workingDisks := 0
  failedDisks := 0
  spareDisks := 0
  layout := 0

/-- What the kernel answers during `set_array_info`. -/
structure ArrayInfoEnv where
  /-- `kzalloc` of the superblock -/
  sb : Bool
  /-- `get_seconds` -/
  seconds : UInt32
  uuid0 : UInt32
  uuid1 : UInt32
  uuid2 : UInt32
  uuid3 : UInt32

/-- `alloc_array_sb`: the superblock afterwards. It is made of zeros, and only if there is
none. -/
def allocArraySb (sb : Option Superblock) (alloc : Bool) : Option Superblock :=
  match sb with
  | some sb => some sb
  | none => if alloc then some Superblock.zero else none

/-- The fields that `set_array_info` sets. The descriptors are left as they are. -/
def Superblock.setInfo (sb : Superblock) (env : ArrayInfoEnv) (info : JmdArrayInfo) :
    Superblock :=
  { sb with
    size := info.size.toUInt32
    chunkSize := 32 * 1024
    level := info.level.toUInt32
    layout := info.layout.toUInt32
    nrDisks := info.nrDisks.toUInt32
    raidDisks := info.raidDisks.toUInt32
    mdMinor := info.mdMinor.toUInt32
    notPersistent := info.notPersistent.toUInt32
    mdMagic := mdSbMagic
    ctime := env.seconds
    state := info.state.toUInt32
    activeDisks := info.activeDisks.toUInt32
    workingDisks := info.workingDisks.toUInt32
    failedDisks := info.failedDisks.toUInt32
    spareDisks := info.spareDisks.toUInt32
    majorVersion := mdMajorVersion
    patchVersion := mdPatchlevelVersion
    setUuid0 := env.uuid0
    setUuid1 := env.uuid1
    setUuid2 := env.uuid2
    setUuid3 := env.uuid3 }

/-- `set_array_info`. -/
def Jmddev.setArrayInfo (jmddev : Jmddev) (env : ArrayInfoEnv) (info : JmdArrayInfo) :
    Int32 × Jmddev :=
  match allocArraySb jmddev.sb env.sb with
  | none => (-enomem, jmddev)
  | some sb =>
    (0, { jmddev with sb := some (sb.setInfo env info), chunkSectors := 32 * 1024 / 2 })

/-! ### `add_new_disk` -/

/-- `struct jmd_disk_info`. -/
structure JmdDiskInfo where
  number : Int32
  major : Int32
  minor : Int32
  raidDisk : Int32
  state : Int32

/-- The device number of a `jmd_disk_info`. -/
def JmdDiskInfo.dev (info : JmdDiskInfo) : DevT := mkdev info.major.toUInt32 info.minor.toUInt32

/-- The state says that the device is faulty. -/
def JmdDiskInfo.faulty (info : JmdDiskInfo) : Bool := info.state &&& ((1 : Int32) <<< 0) != 0

/-- Enter a device into a descriptor. -/
def Disk.assign (d : Disk) (info : JmdDiskInfo) : Disk :=
  { d with
    number := info.number.toUInt32
    major := info.major.toUInt32
    minor := info.minor.toUInt32
    raidDisk := info.raidDisk.toUInt32
    state := info.state.toUInt32 }

/-- Enter a device into the descriptor table. -/
def Superblock.assign (sb : Superblock) (i : Fin mdSbDisks) (info : JmdDiskInfo) : Superblock :=
  sb.setDisk i ((sb.disks i).assign info)

/-- The component size becomes the smaller one; 0 means that it is not set. -/
def Superblock.takeSize (sb : Superblock) (size : UInt32) : Superblock :=
  if sb.size = 0 ∨ size < sb.size then { sb with size := size } else sb

/-- `uuid_equal`. Both branches of the source return 1. -/
def uuidEqual (jrdev1 jrdev2 : Rdev) : Bool :=
  if jrdev1.sb.setUuid0 = jrdev2.sb.setUuid0 ∧ jrdev1.sb.setUuid1 = jrdev2.sb.setUuid1 ∧
      jrdev1.sb.setUuid2 = jrdev2.sb.setUuid2 ∧ jrdev1.sb.setUuid3 = jrdev2.sb.setUuid3 then
    true
  else true

/-- The branch of `add_new_disk` for an array that has no superblock yet. -/
def Jmddev.addOnDisk (jmddev : Jmddev) (env : ImportEnv) (dev : DevT) :
    Except Fault (Int32 × Jmddev) :=
  match jmddev.jmdImportDevice env dev true with
  | .error f => .error f
  | .ok (.error _) => .ok (-einval, jmddev)
  | .ok (.ok (jrdev, imported)) =>
    match jmddev.disks.head? with
    | none => .ok (0, imported.bindRdevToArray jrdev)
    | some jrdev0 =>
      -- `export_jrdev` takes the device out of `all_jraid_disks` again
      if !uuidEqual jrdev0 jrdev then .ok (-einval, jmddev)
      else .ok (0, imported.bindRdevToArray jrdev)

/-- The part of `add_new_disk` that binds an imported device. The device is in the member list
when its size is asked for. -/
def Jmddev.bindImported (jmddev : Jmddev) (sb : Superblock) (jrdev : Rdev) : Jmddev :=
  let persistent := sb.notPersistent = 0
  let bound := jmddev.bindRdevToArray jrdev
  let size := int32OfULong (bound.calcDevSize jrdev.dev persistent)
  let sb := sb.takeSize size.toUInt32
  let jrdev := { jrdev with sbOffset := bound.calcDevSboffset jrdev.dev persistent }
  { bound with sb := some sb, disks := syncSbs sb (jrdev :: jmddev.disks) }

/-- Binding a device changes the superblock, the member list and the number of members. -/
theorem Jmddev.exists_bindImported (jmddev : Jmddev) (sb : Superblock) (jrdev : Rdev) :
    ∃ size sbOffset, jmddev.bindImported sb jrdev =
      { jmddev with
        sb := some (sb.takeSize size)
        nbDev := jmddev.nbDev + 1
        disks := syncSbs (sb.takeSize size)
          ({ jrdev with sbOffset := sbOffset } :: jmddev.disks) } :=
  ⟨_, _, rfl⟩

/-- `add_new_disk`. -/
def Jmddev.addNewDisk (jmddev : Jmddev) (env : ImportEnv) (info : JmdDiskInfo) :
    Except Fault (Int32 × Jmddev) :=
  if info.dev ∈ jmddev.all then .ok (-ebusy, jmddev)
  else
    match jmddev.sb with
    | none => jmddev.addOnDisk env info.dev
    | some sb =>
      let nr := info.number.toUInt32
      if sb.nrDisks ≤ nr then .ok (-einval, jmddev)
      else if h : nr.toNat < mdSbDisks then
        let sb := sb.assign ⟨nr.toNat, h⟩ info
        let jmddev := { jmddev with sb := some sb }
        if info.faulty then
          .ok (0, { jmddev with disks := syncSbs sb jmddev.disks })
        else
          match jmddev.jmdImportDevice env info.dev false with
          | .error f => .error f
          | .ok (.error _) => .ok (-einval, jmddev)
          | .ok (.ok (jrdev, jmddev)) =>
            .ok (0, jmddev.bindImported sb
              { jrdev with oldDev := info.dev, descNr := info.number })
      else .error .outOfTable

/-! ### How `add_new_disk` ends -/

/-- The ways in which `add_new_disk` returns: its code and the array afterwards. -/
inductive Jmddev.AddOutcome (jmddev : Jmddev) (env : ImportEnv) (info : JmdDiskInfo) :
    Int32 → Jmddev → Prop
  /-- the device is in use -/
  | known (h : info.dev ∈ jmddev.all) : AddOutcome jmddev env info (-ebusy) jmddev
  /-- there is no array superblock and the device offers none -/
  | noSuperblock (hall : info.dev ∉ jmddev.all) (hsb : jmddev.sb = none) :
    AddOutcome jmddev env info (-einval) jmddev
  /-- there is no array superblock and the device is bound with its own -/
  | onDisk (hsb : jmddev.sb = none) (jrdev : Rdev) (h : jmddev.Imported env info.dev true jrdev) :
    AddOutcome jmddev env info 0
      ({ jmddev with all := info.dev :: jmddev.all }.bindRdevToArray jrdev)
  /-- the number is past the end of the set -/
  | noSlot (hall : info.dev ∉ jmddev.all) (sb : Superblock) (hsb : jmddev.sb = some sb)
    (h : sb.nrDisks ≤ info.number.toUInt32) : AddOutcome jmddev env info (-einval) jmddev
  /-- the descriptor has been written, but the device is not imported -/
  | notImported (hall : info.dev ∉ jmddev.all) (sb : Superblock) (hsb : jmddev.sb = some sb)
    (h : info.number.toUInt32 < sb.nrDisks) (hlt : info.number.toUInt32.toNat < mdSbDisks)
    (hup : info.faulty = false) (hopens : env.opens = false) :
    AddOutcome jmddev env info (-einval) { jmddev with sb := some (sb.assign ⟨_, hlt⟩ info) }
  /-- a faulty device: only its descriptor is entered -/
  | faulty (hall : info.dev ∉ jmddev.all) (sb : Superblock) (hsb : jmddev.sb = some sb)
    (h : info.number.toUInt32 < sb.nrDisks) (hlt : info.number.toUInt32.toNat < mdSbDisks)
    (hdown : info.faulty = true) :
    AddOutcome jmddev env info 0
      { jmddev with
        sb := some (sb.assign ⟨_, hlt⟩ info)
        disks := syncSbs (sb.assign ⟨_, hlt⟩ info) jmddev.disks }
  /-- the device is bound -/
  | bound (hall : info.dev ∉ jmddev.all) (sb : Superblock) (hsb : jmddev.sb = some sb)
    (h : info.number.toUInt32 < sb.nrDisks) (hlt : info.number.toUInt32.toNat < mdSbDisks)
    (hup : info.faulty = false) (jrdev : Rdev) (himp : jmddev.Imported env info.dev false jrdev) :
    AddOutcome jmddev env info 0
      ({ jmddev with
        sb := some (sb.assign ⟨_, hlt⟩ info)
        all := info.dev :: jmddev.all }.bindImported (sb.assign ⟨_, hlt⟩ info)
          { jrdev with oldDev := info.dev, descNr := info.number })

theorem Jmddev.addOutcome_onDisk {jmddev jmddev' : Jmddev} {env : ImportEnv}
    {info : JmdDiskInfo} {err : Int32} (hall : info.dev ∉ jmddev.all) (hsb : jmddev.sb = none)
    (h : jmddev.addOnDisk env info.dev = .ok (err, jmddev')) :
    jmddev.AddOutcome env info err jmddev' := by
  unfold addOnDisk at h
  split at h
  · cases h
  · obtain ⟨rfl, rfl⟩ := Prod.mk.inj (Except.ok.inj h)
    exact .noSuperblock hall hsb
  · rename_i jrdev jmddev₁ himp
    obtain ⟨hnew, rfl⟩ := imported himp
    -- `uuid_equal` never says no
    have hbind : Except.ok (ε := Fault) (0, { jmddev with
        all := info.dev :: jmddev.all }.bindRdevToArray jrdev) = .ok (err, jmddev') := by
      split at h
      · exact h
      · rwa [if_neg (by simp [uuidEqual])] at h
    obtain ⟨rfl, rfl⟩ := Prod.mk.inj (Except.ok.inj hbind)
    exact .onDisk hsb jrdev hnew

/-- **How `add_new_disk` ends.** -/
theorem Jmddev.addOutcome {jmddev jmddev' : Jmddev} {env : ImportEnv} {info : JmdDiskInfo}
    {err : Int32} (h : jmddev.addNewDisk env info = .ok (err, jmddev')) :
    jmddev.AddOutcome env info err jmddev' := by
  unfold addNewDisk at h
  split at h
  · obtain ⟨rfl, rfl⟩ := Prod.mk.inj (Except.ok.inj h)
    exact .known ‹_›
  rename_i hall
  split at h
  · exact addOutcome_onDisk hall ‹_› h
  rename_i sb hsb
  simp only at h
  split at h
  · obtain ⟨rfl, rfl⟩ := Prod.mk.inj (Except.ok.inj h)
    exact .noSlot hall sb hsb ‹_›
  rename_i hnr
  have hnr := UInt32.not_le.mp hnr
  split at h
  · rename_i hlt
    split at h
    · obtain ⟨rfl, rfl⟩ := Prod.mk.inj (Except.ok.inj h)
      exact .faulty hall sb hsb hnr hlt ‹_›
    · rename_i hup
      have hup : info.faulty = false := by simpa using hup
      split at h
      · cases h
      · obtain ⟨rfl, rfl⟩ := Prod.mk.inj (Except.ok.inj h)
        rename_i himp
        -- without reading a superblock, an import fails only if a request is not granted
        refine .notImported hall sb hsb hnr hlt hup (Bool.eq_false_iff.mpr fun hopens => ?_)
        obtain ⟨jrdev, jmddev', hok⟩ := jmdImportDevice_of_opens
          { jmddev with sb := some (sb.assign ⟨_, hlt⟩ info) } hall hopens
        rw [himp] at hok
        cases hok
      · rename_i jrdev jmddev₁ himp
        obtain ⟨hnew, rfl⟩ := imported himp
        obtain ⟨rfl, rfl⟩ := Prod.mk.inj (Except.ok.inj h)
        exact .bound hall sb hsb hnr hlt hup jrdev ⟨hnew.fresh, hnew.opens, hnew.dev,
          hnew.size, hnew.sbOffset, hnew.faulty, hnew.read, hnew.check, hnew.oldDev, hnew.descNr⟩
  · cases h

end Jmd

end JRaid
