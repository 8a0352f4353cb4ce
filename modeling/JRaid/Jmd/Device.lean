import JRaid.Geometry.ComputeSector
import JRaid.Jmd.Superblock

/-!
# The array and its member devices

`struct jmd_rdev`, the part of `struct jmddev` that the management functions work on, and
the functions that import a device, bind it to the array and say how much of it is used.

What the kernel answers on the way (an allocation, the claim of the device, the outcome of
a transfer) is not determined by the driver. Each function that asks takes a record of the
answers, so that a theorem about all of them holds whatever fails.

A pointer that is followed without a check, or an index that leaves its table, stops a
function with a `Fault`; the error codes of the source are ordinary results.
-/

namespace JRaid

namespace Jmd

/-! ### Error codes -/

/-- What the driver does not survive. -/
inductive Fault
  /-- a null pointer or an error pointer is followed -/
  | badPointer
  /-- an index leaves its table -/
  | outOfTable
  deriving DecidableEq, Repr

/-- `EIO`. -/
def eio : Int32 := 5

/-- `ENOMEM`. -/
def enomem : Int32 := 12

/-- `EBUSY`. -/
def ebusy : Int32 := 16

/-- `EEXIST`. -/
def eexist : Int32 := 17

/-- `EINVAL`. -/
def einval : Int32 := 22

/-! ### Block devices -/

/-- A block device: its size, and its words, 128 to a sector. The kernel keeps the size in
bytes in a signed 64-bit integer. -/
structure BlockDev where
  sectors : UInt64
  sectors_lt : sectors.toNat < 2 ^ 54
  word : ℕ → UInt32

/-- `MD_SB_SECTORS`: the number of sectors of a page. -/
def mdSbSectors : ℕ := 8

/-- The sectors of a page, from `sector` on, are on the device. -/
def BlockDev.Holds (d : BlockDev) (sector : UInt64) : Prop :=
  sector.toNat + mdSbSectors ≤ d.sectors.toNat

instance (d : BlockDev) (sector : UInt64) : Decidable (d.Holds sector) :=
  inferInstanceAs (Decidable (_ ≤ _))

/-- The page at a sector. -/
def BlockDev.page (d : BlockDev) (sector : UInt64) : SbPage :=
  SbPage.ofWords fun i => d.word (sector.toNat * 128 + i)

/-- Read a page. The block layer refuses a transfer past the end of the device. -/
def BlockDev.read (d : BlockDev) (sector : UInt64) : Option SbPage :=
  if d.Holds sector then some (d.page sector) else none

/-- Write a page. A transfer past the end of the device does nothing. -/
def BlockDev.write (d : BlockDev) (sector : UInt64) (p : SbPage) : BlockDev :=
  if d.Holds sector then
    { d with
      word := fun i =>
        if sector.toNat * 128 ≤ i ∧ i < sector.toNat * 128 + mdSbWords then
          p.word (i - sector.toNat * 128)
        else d.word i }
  else d

@[simp]
theorem BlockDev.sectors_write (d : BlockDev) (sector : UInt64) (p : SbPage) :
    (d.write sector p).sectors = d.sectors := by
  unfold write
  split <;> rfl

/-- **A page is read as it was written**, if the sectors are on the device. -/
theorem BlockDev.read_write {d : BlockDev} {sector : UInt64} (h : d.Holds sector) (p : SbPage) :
    (d.write sector p).read sector = some p := by
  have hholds : (d.write sector p).Holds sector := by
    rw [Holds, sectors_write]
    exact h
  have hword : ∀ i < mdSbWords,
      (d.write sector p).word (sector.toNat * 128 + i) = p.word i := by
    intro i hi
    rw [write, if_pos h]
    simp only
    rw [if_pos ⟨Nat.le_add_right _ _, Nat.add_lt_add_left hi _⟩, Nat.add_sub_cancel_left]
  rw [read, if_pos hholds, page, SbPage.ofWords_congr hword, SbPage.ofWords_word]

/-- What is read where a page was written is that page. -/
theorem BlockDev.eq_of_read_write {d : BlockDev} {sector : UInt64} {p q : SbPage}
    (h : (d.write sector p).read sector = some q) : q = p := by
  have hholds : d.Holds sector := by
    by_contra hno
    rw [write, if_neg hno, read, if_neg hno] at h
    cases h
  rw [read_write hholds] at h
  exact (Option.some.inj h).symm

/-! ### Members and the array -/

/-- `struct jmd_rdev`. While the device is imported `sb` points to its page. -/
structure Rdev where
  dev : DevT
  oldDev : DevT
  size : UInt64
  page : SbPage
  sbLoaded : Bool
  sbOffset : UInt64
  faulty : Bool
  descNr : Int32

/-- The superblock of a member. -/
def Rdev.sb (jrdev : Rdev) : Superblock := jrdev.page.sb

/-- Replace the page of a member. -/
def Rdev.withPage (jrdev : Rdev) (page : SbPage) : Rdev := { jrdev with page := page }

/-- The part of `struct jmddev` that the management functions use, with the list
`all_jraid_disks` and the block devices of the system. The member that was bound last is the
first of `disks`. -/
structure Jmddev where
  sb : Option Superblock
  nbDev : ℕ
  disks : List Rdev
  /-- the device numbers in `all_jraid_disks` -/
  all : List DevT
  chunkSectors : Int32
  arraySectors : UInt64
  /-- the capacity of the `gendisk` -/
  capacity : UInt64
  /-- `pers` is set -/
  pers : Bool
  /-- `private`, the configuration of the running array -/
  conf : Option JRaid5Conf
  /-- the entry of `jmd_size` for this array -/
  jmdSize : Int32
  /-- the entry of `jmd_hd_struct` for this array -/
  nrSects : UInt64
  device : DevT → BlockDev

/-- A new array. -/
def Jmddev.fresh (device : DevT → BlockDev) : Jmddev :=
  ⟨none, 0, [], [], 0, 0, 0, false, none, 0, 0, device⟩

/-- `find_jrdev`. -/
def Jmddev.findJrdev (jmddev : Jmddev) (dev : DevT) : Option Rdev :=
  jmddev.disks.find? fun jrdev => jrdev.dev = dev

theorem Jmddev.dev_of_findJrdev {jmddev : Jmddev} {dev : DevT} {jrdev : Rdev}
    (h : jmddev.findJrdev dev = some jrdev) : jrdev.dev = dev := by
  have hfound := List.find?_some (p := fun jrdev : Rdev => decide (jrdev.dev = dev)) h
  exact of_decide_eq_true hfound

/-! ### `jmd_import_device` -/

/-- What the kernel answers during `jmd_import_device`. -/
structure ImportEnv where
  /-- `kmalloc` of the `jmd_rdev` -/
  rdev : Bool
  /-- `get_super` finds an active superblock -/
  activeSuper : Bool
  /-- `alloc_page`, and what is in the page -/
  page : Option SbPage
  /-- `blkdev_get_by_dev` -/
  lock : Bool
  /-- `bio_kmalloc` in `sync_page_io` -/
  bio : Bool
  /-- the transfer succeeds, if it is on the device -/
  io : Bool

/-- All that `jmd_import_device` asks for before it reads is granted. -/
def ImportEnv.opens (env : ImportEnv) : Bool :=
  env.rdev && !env.activeSuper && env.page.isSome && env.lock

/-- Everything is granted, no transfer fails, and a new page holds zeros. -/
def importAll : ImportEnv := ⟨true, false, some zeroPage, true, true, true⟩

/-- A `jmd_rdev` whose device has been claimed; nothing has been read. -/
def Rdev.fresh (dev : DevT) (page : SbPage) : Rdev := ⟨dev, 0, 0, page, false, 0, false, -1⟩

/-- The sector at which `sync_page_io` starts. -/
def Rdev.bioSector (jrdev : Rdev) (sector : UInt64) : UInt64 := sector + jrdev.sbOffset

/-- `sync_page_io` for a read: the page read, if the transfer succeeds. -/
def Rdev.syncPageIo (jrdev : Rdev) (bdev : BlockDev) (env : ImportEnv) (sector : UInt64) :
    Except Fault (Option SbPage) :=
  if !env.bio then .error .badPointer
  else if env.io then .ok (bdev.read (jrdev.bioSector sector))
  else .ok none

/-- `read_disk_sb`. -/
def Rdev.readDiskSb (jrdev : Rdev) (bdev : BlockDev) (env : ImportEnv) :
    Except Fault (Except Int32 Rdev) :=
  if jrdev.sbLoaded then .ok (.ok jrdev)
  else
    match jrdev.syncPageIo bdev env 0 with
    | .error f => .error f
    | .ok none => .ok (.error (-einval))
    | .ok (some page) => .ok (.ok { jrdev with page := page, sbLoaded := true })

theorem Rdev.readDiskSb_ok {jrdev jrdev' : Rdev} {bdev : BlockDev} {env : ImportEnv}
    (hnew : jrdev.sbLoaded = false) (h : jrdev.readDiskSb bdev env = .ok (.ok jrdev')) :
    ∃ page, bdev.read (jrdev.bioSector 0) = some page ∧
      jrdev' = { jrdev with page := page, sbLoaded := true } := by
  rw [readDiskSb, if_neg (by simp [hnew]), syncPageIo] at h
  split_ifs at h with hbio hio
  · cases hread : bdev.read (jrdev.bioSector 0) with
    | none => simp [hread] at h
    | some page =>
      rw [hread] at h
      exact ⟨page, rfl, (Except.ok.inj (Except.ok.inj h)).symm⟩
  · simp at h

/-- The tests of `check_disk_sb`. A wrong checksum is only reported. -/
def Superblock.check (sb : Superblock) : Int32 :=
  if sb.mdMagic ≠ mdSbMagic then -einval
  else if maxMdDevs ≤ sb.mdMinor then -einval
  else 0

/-- `check_disk_sb`. -/
def Rdev.checkDiskSb (jrdev : Rdev) : Int32 := jrdev.sb.check

/-- `jmd_import_device`: the new `jmd_rdev`, put into `all_jraid_disks`. -/
def Jmddev.jmdImportDevice (jmddev : Jmddev) (env : ImportEnv) (newdev : DevT) (onDisk : Bool) :
    Except Fault (Except Int32 (Rdev × Jmddev)) :=
  if newdev ∈ jmddev.all then .ok (.error (-eexist))
  else if !env.rdev then .ok (.error (-enomem))
  else if env.activeSuper then .ok (.error (-ebusy))
  else
    match env.page with
    | none => .ok (.error (-enomem))
    | some page =>
      if !env.lock then .ok (.error (-einval))
      else
        let jrdev := Rdev.fresh newdev page
        let jmddev := { jmddev with all := newdev :: jmddev.all }
        if onDisk then
          match jrdev.readDiskSb (jmddev.device newdev) env with
          | .error f => .error f
          | .ok (.error err) => .ok (.error err)
          | .ok (.ok jrdev) =>
            if jrdev.checkDiskSb ≠ 0 then .ok (.error jrdev.checkDiskSb)
            else
              .ok (.ok ({ jrdev with
                oldDev := jrdev.sb.thisDisk.dev
                descNr := jrdev.sb.thisDisk.number.toInt32 }, jmddev))
        else .ok (.ok (jrdev, jmddev))

/-- What is known of a device that has been imported. -/
structure Jmddev.Imported (jmddev : Jmddev) (env : ImportEnv) (newdev : DevT) (onDisk : Bool)
    (jrdev : Rdev) : Prop where
  fresh : newdev ∉ jmddev.all
  opens : env.opens = true
  dev : jrdev.dev = newdev
  size : jrdev.size = 0
  sbOffset : jrdev.sbOffset = 0
  faulty : jrdev.faulty = false
  /-- the superblock is what the first sectors of the device hold -/
  read : onDisk = true → (jmddev.device newdev).read 0 = some jrdev.page
  check : onDisk = true → jrdev.checkDiskSb = 0
  oldDev : onDisk = true → jrdev.oldDev = jrdev.sb.thisDisk.dev
  descNr : onDisk = true → jrdev.descNr = jrdev.sb.thisDisk.number.toInt32

/-- **What `jmd_import_device` does when it succeeds.** -/
theorem Jmddev.imported {jmddev jmddev' : Jmddev} {env : ImportEnv} {newdev : DevT}
    {onDisk : Bool} {jrdev : Rdev}
    (h : jmddev.jmdImportDevice env newdev onDisk = .ok (.ok (jrdev, jmddev'))) :
    jmddev.Imported env newdev onDisk jrdev ∧
      jmddev' = { jmddev with all := newdev :: jmddev.all } := by
  unfold jmdImportDevice at h
  split at h
  · cases h
  rename_i hall
  split at h
  · cases h
  rename_i hrdev
  split at h
  · cases h
  rename_i hsuper
  split at h
  · cases h
  rename_i page hpage
  split at h
  · cases h
  rename_i hlock
  have hopens : env.opens = true := by
    simp only [Bool.not_eq_true', Bool.not_eq_false] at hrdev hlock
    simp [ImportEnv.opens, hrdev, hsuper, hpage, hlock]
  simp only at h
  split at h
  · split at h
    · cases h
    · cases h
    · rename_i hread
      split at h
      · cases h
      rename_i hcheck
      obtain ⟨page, hpage, rfl⟩ := Rdev.readDiskSb_ok rfl hread
      obtain ⟨rfl, rfl⟩ := Prod.mk.inj (Except.ok.inj (Except.ok.inj h))
      rw [Rdev.fresh, Rdev.bioSector, UInt64.zero_add] at hpage
      exact ⟨⟨hall, hopens, rfl, rfl, rfl, rfl, fun _ => hpage, fun _ => not_not.mp hcheck,
        fun _ => rfl, fun _ => rfl⟩, rfl⟩
  · rename_i hdisk
    obtain ⟨rfl, rfl⟩ := Prod.mk.inj (Except.ok.inj (Except.ok.inj h))
    have hoff : ∀ {p : Prop}, onDisk = true → p := fun h => absurd h hdisk
    exact ⟨⟨hall, hopens, rfl, rfl, rfl, rfl, hoff, hoff, hoff, hoff⟩, rfl⟩

/-- A device that is not in use is imported without its superblock if all is granted. -/
theorem Jmddev.jmdImportDevice_of_opens (jmddev : Jmddev) {env : ImportEnv} {newdev : DevT}
    (hall : newdev ∉ jmddev.all) (h : env.opens = true) :
    ∃ jrdev jmddev', jmddev.jmdImportDevice env newdev false = .ok (.ok (jrdev, jmddev')) := by
  simp only [ImportEnv.opens, Bool.and_eq_true, Bool.not_eq_true'] at h
  obtain ⟨⟨⟨hrdev, hsuper⟩, hpage⟩, hlock⟩ := h
  obtain ⟨page, hpage⟩ := Option.isSome_iff_exists.mp hpage
  refine ⟨Rdev.fresh newdev page, { jmddev with all := newdev :: jmddev.all }, ?_⟩
  simp [jmdImportDevice, hall, hrdev, hsuper, hpage, hlock]

/-! ### Binding a device, and the space it offers -/

/-- `bind_rdev_to_array`. -/
def Jmddev.bindRdevToArray (jmddev : Jmddev) (jrdev : Rdev) : Jmddev :=
  { jmddev with disks := jrdev :: jmddev.disks, nbDev := jmddev.nbDev + 1 }

/-- `MD_NEW_SIZE_BLOCKS`. -/
def mdNewSizeBlocks (x : UInt64) : UInt64 := (x &&& ~~~127) - 128

theorem toNat_mdNewSizeBlocks (x : UInt64) :
    (mdNewSizeBlocks x).toNat = (x.toNat / 128 * 128 + (2 ^ 64 - 128)) % 2 ^ 64 := by
  have hx := x.toNat_lt
  have hmask : (~~~127 : UInt64).toNat = 2 ^ 64 - 2 ^ 7 := by decide
  rw [mdNewSizeBlocks, UInt64.toNat_sub, UInt64.toNat_and, hmask,
    land_two_pow_sub_two_pow x.toNat (by decide), Nat.mod_eq_of_lt hx, Nat.add_comm]
  rfl

/-- The superblock lies at the start of the device if there are 128 to 255 sectors. -/
theorem mdNewSizeBlocks_eq_zero_iff (x : UInt64) :
    mdNewSizeBlocks x = 0 ↔ 128 ≤ x.toNat ∧ x.toNat < 256 := by
  have hx := x.toNat_lt
  rw [← UInt64.toNat_inj, toNat_mdNewSizeBlocks, UInt64.toNat_zero]
  constructor
  · intro h
    omega
  · rintro ⟨hlo, hhi⟩
    omega

/-- `calc_dev_sboffset`. -/
def Jmddev.calcDevSboffset (jmddev : Jmddev) (dev : DevT) (persistent : Bool) : UInt64 :=
  match jmddev.findJrdev dev with
  | none => ulong (-einval)
  | some jrdev =>
    let size := (jmddev.device jrdev.dev).sectors
    if persistent then mdNewSizeBlocks size else size

/-- For a member the result depends on the size of its device only. -/
theorem Jmddev.calcDevSboffset_of_mem {jmddev : Jmddev} {dev : DevT}
    (h : dev ∈ jmddev.disks.map Rdev.dev) (persistent : Bool) :
    jmddev.calcDevSboffset dev persistent =
      if persistent then mdNewSizeBlocks (jmddev.device dev).sectors
      else (jmddev.device dev).sectors := by
  obtain ⟨jrdev, hmem, hdev⟩ := List.mem_map.mp h
  have hsome : (jmddev.findJrdev dev).isSome :=
    List.find?_isSome.mpr ⟨jrdev, hmem, decide_eq_true hdev⟩
  obtain ⟨found, hfound⟩ := Option.isSome_iff_exists.mp hsome
  rw [calcDevSboffset, hfound]
  simp only [dev_of_findJrdev hfound]

/-- The size of a device rounded down to chunks. The mask is an `unsigned int`: the upper half
of the size is lost. -/
def maskChunk (chunkSize : UInt32) (size : UInt64) : UInt64 :=
  if chunkSize ≠ 0 then size &&& (~~~(chunkSize / 512 - 1)).toUInt64 else size

/-- `calc_dev_size`. -/
def Jmddev.calcDevSize (jmddev : Jmddev) (dev : DevT) (persistent : Bool) : UInt64 :=
  let size := jmddev.calcDevSboffset dev persistent
  match jmddev.sb with
  | none => size
  | some sb => maskChunk sb.chunkSize size

end Jmd

end JRaid
