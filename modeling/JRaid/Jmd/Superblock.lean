import JRaid.ForMathlib.OnesComplement
import JRaid.CInt
import Mathlib.Data.Fintype.Basic

/-!
# The superblock

`struct jmd_superblock` and the page that holds a member's copy of it. The structure has 925
words of 32 bits, `MD_SB_BYTES` are 1024: the rest of the page, its tail, is not part of the
structure but is summed by `calc_sb_csum` and written to disk with it.

A page is also a sequence of 1024 words (`SbPage.word`), which is what the disk holds; the
structure can be read back from it (`SbPage.ofWords_word`). The word order is that of a
little-endian machine.
-/

namespace JRaid

namespace Jmd

/-! ### Constants -/

/-- `MD_SB_DISKS`. -/
def mdSbDisks : ℕ := 27

/-- `MD_SB_WORDS`. -/
def mdSbWords : ℕ := 1024

/-- The size of `struct jmd_superblock` in words. -/
def sbStructWords : ℕ := 925

/-- `MD_SB_MAGIC`. -/
def mdSbMagic : UInt32 := 0xa92b4efc

/-- `MAX_MD_DEVS`. -/
def maxMdDevs : UInt32 := 256

/-- `MD_MAJOR_VERSION`. -/
def mdMajorVersion : UInt32 := 0

/-- `MD_MINOR_VERSION`. -/
def mdMinorVersion : UInt32 := 90

/-- `MD_PATCHLEVEL_VERSION`. -/
def mdPatchlevelVersion : UInt32 := 0

/-! ### Device numbers -/

/-- `dev_t`. -/
abbrev DevT := UInt32

/-- `MKDEV`. -/
def mkdev (major minor : UInt32) : DevT := major <<< 20 ||| minor

/-- `MAJOR`. -/
def major (dev : DevT) : UInt32 := dev >>> 20

/-- `MINOR`. -/
def minor (dev : DevT) : UInt32 := dev &&& 0xfffff

/-! ### Descriptors -/

/-- `struct jmd_disk`. -/
@[ext]
structure Disk where
  number : UInt32
  major : UInt32
  minor : UInt32
  raidDisk : UInt32
  state : UInt32
  reserved : Fin 27 → UInt32

/-- A descriptor of zeros. -/
def Disk.zero : Disk := ⟨0, 0, 0, 0, 0, fun _ => 0⟩

/-- The device number of a descriptor. -/
def Disk.dev (d : Disk) : DevT := mkdev d.major d.minor

/-- `disk_faulty`. -/
def Disk.faulty (d : Disk) : Bool := d.state &&& ((1 : UInt32) <<< 0) != 0

/-- `disk_active`. -/
def Disk.active (d : Disk) : Bool := d.state &&& ((1 : UInt32) <<< 1) != 0

/-- `disk_sync`. -/
def Disk.sync (d : Disk) : Bool := d.state &&& ((1 : UInt32) <<< 2) != 0

/-- `disk_spare`. -/
def Disk.spare (d : Disk) : Bool := !d.sync && !d.active && !d.faulty

/-- `mark_disk_active`. -/
def Disk.markActive (d : Disk) : Disk := { d with state := d.state ||| ((1 : UInt32) <<< 1) }

/-- `mark_disk_sync`. -/
def Disk.markSync (d : Disk) : Disk := { d with state := d.state ||| ((1 : UInt32) <<< 2) }

/-- `mark_disk_nonsync`. -/
def Disk.markNonsync (d : Disk) : Disk := { d with state := d.state &&& ~~~((1 : UInt32) <<< 2) }

/-- `mark_disk_removed`. -/
def Disk.markRemoved (d : Disk) : Disk :=
  { d with state := ((1 : UInt32) <<< 0) ||| ((1 : UInt32) <<< 3) }

/-- The words of a descriptor. -/
def Disk.word (d : Disk) : ℕ → UInt32
  | 0 => d.number
  | 1 => d.major
  | 2 => d.minor
  | 3 => d.raidDisk
  | 4 => d.state
  | j + 5 => if h : j < 27 then d.reserved ⟨j, h⟩ else 0

/-- The descriptor that starts at word 0. -/
def Disk.ofWords (w : ℕ → UInt32) : Disk := ⟨w 0, w 1, w 2, w 3, w 4, fun j => w (j + 5)⟩

@[simp]
theorem Disk.ofWords_word (d : Disk) : Disk.ofWords d.word = d := by
  ext
  · rfl
  · rfl
  · rfl
  · rfl
  · rfl
  · simp [ofWords, word]

/-- A number as an index into the descriptor table. -/
def descIndex (nr : Int32) : Option (Fin mdSbDisks) :=
  if h : nr.toUInt32.toNat < mdSbDisks then some ⟨_, h⟩ else none

theorem descIndex_eq_some_iff {nr : Int32} {i : Fin mdSbDisks} :
    descIndex nr = some i ↔ nr.toUInt32.toNat = i := by
  unfold descIndex
  split
  · rw [Option.some_inj, Fin.ext_iff]
  · rename_i hlt
    refine ⟨fun h => absurd h (by simp), fun h => absurd i.isLt (h ▸ hlt)⟩

/-! ### The superblock -/

/-- `struct jmd_superblock`. -/
@[ext]
structure Superblock where
  mdMagic : UInt32
  majorVersion : UInt32
  minorVersion : UInt32
  patchVersion : UInt32
  gvalidWords : UInt32
  setUuid0 : UInt32
  ctime : UInt32
  level : UInt32
  size : UInt32
  nrDisks : UInt32
  raidDisks : UInt32
  mdMinor : UInt32
  notPersistent : UInt32
  setUuid1 : UInt32
  setUuid2 : UInt32
  setUuid3 : UInt32
  utime : UInt32
  state : UInt32
  activeDisks : UInt32
  workingDisks : UInt32
  failedDisks : UInt32
  spareDisks : UInt32
  sbCsum : UInt32
  eventsLo : UInt32
  eventsHi : UInt32
  layout : UInt32
  chunkSize : UInt32
  rootPv : UInt32
  rootBlock : UInt32
  disks : Fin mdSbDisks → Disk
  thisDisk : Disk

/-- A superblock of zeros. -/
def Superblock.zero : Superblock :=
  ⟨0, 0, 0, 0, 0, 0, 0, 0, 0, 0, 0, 0, 0, 0, 0, 0, 0, 0, 0, 0, 0, 0, 0, 0, 0, 0, 0, 0, 0,
    fun _ => Disk.zero, Disk.zero⟩

/-- `jmd_event`. -/
def Superblock.event (sb : Superblock) : UInt64 :=
  sb.eventsHi.toUInt64 <<< 32 ||| sb.eventsLo.toUInt64

/-- Write a descriptor. -/
def Superblock.setDisk (sb : Superblock) (i : Fin mdSbDisks) (d : Disk) : Superblock :=
  { sb with disks := Function.update sb.disks i d }

theorem Superblock.setDisk_self (sb : Superblock) (i : Fin mdSbDisks) (d : Disk) :
    (sb.setDisk i d).disks i = d := by
  rw [setDisk]
  exact Function.update_self ..

theorem Superblock.setDisk_of_ne (sb : Superblock) {i j : Fin mdSbDisks} (d : Disk) (h : j ≠ i) :
    (sb.setDisk i d).disks j = sb.disks j := by
  rw [setDisk]
  exact Function.update_of_ne h ..

/-- The words before the descriptors. -/
def Superblock.header (sb : Superblock) : List UInt32 :=
  [sb.mdMagic, sb.majorVersion, sb.minorVersion, sb.patchVersion, sb.gvalidWords, sb.setUuid0,
    sb.ctime, sb.level, sb.size, sb.nrDisks, sb.raidDisks, sb.mdMinor, sb.notPersistent,
    sb.setUuid1, sb.setUuid2, sb.setUuid3, sb.utime, sb.state, sb.activeDisks, sb.workingDisks,
    sb.failedDisks, sb.spareDisks, sb.sbCsum, sb.eventsLo, sb.eventsHi, sb.layout, sb.chunkSize,
    sb.rootPv, sb.rootBlock]

/-- The words of the structure. -/
def Superblock.word (sb : Superblock) (i : ℕ) : UInt32 :=
  if i < 29 then sb.header.getD i 0
  else if h : (i - 29) / 32 < mdSbDisks then (sb.disks ⟨(i - 29) / 32, h⟩).word ((i - 29) % 32)
  else sb.thisDisk.word (i - 893)

/-- The superblock that starts at word 0. -/
def Superblock.ofWords (w : ℕ → UInt32) : Superblock where
  mdMagic := w 0
  majorVersion := w 1
  minorVersion := w 2
  patchVersion := w 3
  gvalidWords := w 4
  setUuid0 := w 5
  ctime := w 6
  level := w 7
  size := w 8
  nrDisks := w 9
  raidDisks := w 10
  mdMinor := w 11
  notPersistent := w 12
  setUuid1 := w 13
  setUuid2 := w 14
  setUuid3 := w 15
  utime := w 16
  state := w 17
  activeDisks := w 18
  workingDisks := w 19
  failedDisks := w 20
  spareDisks := w 21
  sbCsum := w 22
  eventsLo := w 23
  eventsHi := w 24
  layout := w 25
  chunkSize := w 26
  rootPv := w 27
  rootBlock := w 28
  disks i := Disk.ofWords fun j => w (29 + 32 * i + j)
  thisDisk := Disk.ofWords fun j => w (893 + j)

/-- Only the first 32 words matter for a descriptor. -/
theorem Disk.ofWords_congr {w w' : ℕ → UInt32} (h : ∀ j < 32, w j = w' j) :
    Disk.ofWords w = Disk.ofWords w' := by
  simp only [ofWords, h 0 (by decide), h 1 (by decide), h 2 (by decide), h 3 (by decide),
    h 4 (by decide)]
  congr 1
  funext j
  exact h _ (by omega)

/-- Only the words of the structure matter. -/
theorem Superblock.ofWords_congr {w w' : ℕ → UInt32} (h : ∀ i < sbStructWords, w i = w' i) :
    Superblock.ofWords w = Superblock.ofWords w' := by
  simp only [sbStructWords] at h
  unfold ofWords
  congr 1
  case e_disks =>
    funext i
    have hi := i.isLt
    simp only [mdSbDisks] at hi
    exact Disk.ofWords_congr fun j hj => h _ (by omega)
  case e_thisDisk => exact Disk.ofWords_congr fun j hj => h _ (by omega)
  all_goals exact h _ (by decide)

/-- **A superblock can be read back from its words.** -/
@[simp]
theorem Superblock.ofWords_word (sb : Superblock) : Superblock.ofWords sb.word = sb := by
  have hdisk : ∀ i : Fin mdSbDisks, Disk.ofWords (fun j => sb.word (29 + 32 * i + j)) =
      sb.disks i := by
    intro i
    have hi := i.isLt
    simp only [mdSbDisks] at hi
    refine (Disk.ofWords_congr fun j hj => ?_).trans (Disk.ofWords_word (sb.disks i))
    have hdiv : (29 + 32 * (i : ℕ) + j - 29) / 32 = i := by omega
    have hmod : (29 + 32 * (i : ℕ) + j - 29) % 32 = j := by omega
    rw [word, if_neg (by omega), dif_pos (by rw [hdiv]; exact i.isLt), hmod]
    congr 2
    exact Fin.ext hdiv
  have hthis : Disk.ofWords (fun j => sb.word (893 + j)) = sb.thisDisk := by
    refine (Disk.ofWords_congr fun j hj => ?_).trans (Disk.ofWords_word sb.thisDisk)
    rw [word, if_neg (by omega), dif_neg (by simp only [mdSbDisks]; omega),
      Nat.add_sub_cancel_left]
  unfold ofWords
  simp only [hdisk, hthis]
  rfl

/-! ### The page of a superblock -/

/-- A page that holds a superblock. -/
structure SbPage where
  sb : Superblock
  /-- the words behind the structure -/
  tail : Fin 99 → UInt32

/-- A page of zeros. -/
def zeroPage : SbPage := ⟨Superblock.zero, fun _ => 0⟩

/-- A word of a page. -/
def SbPage.word (p : SbPage) (i : ℕ) : UInt32 :=
  if i < sbStructWords then p.sb.word i
  else if h : i - sbStructWords < 99 then p.tail ⟨i - sbStructWords, h⟩ else 0

/-- The page with the given words. -/
def SbPage.ofWords (w : ℕ → UInt32) : SbPage :=
  ⟨Superblock.ofWords w, fun j => w (sbStructWords + j)⟩

/-- Only the words of the page matter. -/
theorem SbPage.ofWords_congr {w w' : ℕ → UInt32} (h : ∀ i < mdSbWords, w i = w' i) :
    SbPage.ofWords w = SbPage.ofWords w' := by
  rw [ofWords, ofWords]
  congr 1
  · exact Superblock.ofWords_congr fun i hi => h i (hi.trans (by decide))
  · funext j
    refine h _ ?_
    have hj := j.isLt
    simp only [sbStructWords, mdSbWords]
    omega

/-- **A page can be read back from its words.** -/
@[simp]
theorem SbPage.ofWords_word (p : SbPage) : SbPage.ofWords p.word = p := by
  have hsb : Superblock.ofWords p.word = p.sb :=
    (Superblock.ofWords_congr fun i hi => if_pos hi).trans (Superblock.ofWords_word p.sb)
  have htail : ∀ j : Fin 99, p.word (sbStructWords + j) = p.tail j := by
    intro j
    rw [word, if_neg (by omega), dif_pos (by rw [Nat.add_sub_cancel_left]; exact j.isLt)]
    simp
  simp only [ofWords, hsb, htail]

/-- Put a superblock into a page. -/
def SbPage.withSb (p : SbPage) (sb : Superblock) : SbPage := ⟨sb, p.tail⟩

/-- Put a checksum into a page. -/
def SbPage.withCsum (p : SbPage) (csum : UInt32) : SbPage :=
  { p with sb := { p.sb with sbCsum := csum } }

@[simp]
theorem SbPage.sb_withCsum (p : SbPage) (csum : UInt32) :
    (p.withCsum csum).sb = { p.sb with sbCsum := csum } := rfl

@[simp]
theorem SbPage.tail_withCsum (p : SbPage) (csum : UInt32) : (p.withCsum csum).tail = p.tail := rfl

/-- `csum_partial` over the first `n` words of a page. It is irreducible so that comparing two
superblocks does not start to add up words. -/
@[irreducible]
def SbPage.csumPartial (p : SbPage) (n : ℕ) : UInt32 :=
  OnesComplement.onesSum ((List.range n).map p.word)

/-- `calc_sb_csum`: the sum of the page with 0 in place of its checksum. -/
def SbPage.calcSbCsum (p : SbPage) : UInt32 := (p.withCsum 0).csumPartial mdSbWords

/-- Store the checksum of a page in it. -/
def SbPage.storeCsum (p : SbPage) : SbPage := p.withCsum p.calcSbCsum

theorem SbPage.calcSbCsum_withCsum (p : SbPage) (csum : UInt32) :
    (p.withCsum csum).calcSbCsum = p.calcSbCsum := rfl

theorem SbPage.sbCsum_withCsum (p : SbPage) (csum : UInt32) :
    (p.withCsum csum).sb.sbCsum = csum := rfl

/-- A page with its checksum stored verifies. -/
theorem SbPage.calcSbCsum_storeCsum (p : SbPage) :
    p.storeCsum.calcSbCsum = p.storeCsum.sb.sbCsum := by
  rw [storeCsum, calcSbCsum_withCsum, sbCsum_withCsum]

end Jmd

end JRaid
