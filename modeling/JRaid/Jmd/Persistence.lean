import JRaid.Jmd.UpdateSb
import Mathlib.Data.List.OfFn

/-!
# What a written superblock is good for

A superblock is written so that a later import finds it, and can check it. Two things stand
in the way.

`write_disk_sb` writes at `calc_dev_sboffset`, but `jmd_import_device` reads at the `sb_offset`
of a `jmd_rdev` that has just been zeroed, that is at sector 0. The two agree exactly on
devices of 128 to 255 sectors (`reimports_iff`).

`calc_sb_csum` sums the whole page of the member, but `write_disk_sb` copies only the
structure into a new page. The sums agree exactly if the last 99 words of the two pages have
the same sum modulo `2 ^ 32 - 1` (`written_image_verifies_iff`).
-/

namespace JRaid

namespace Jmd

open OnesComplement

/-! ### An array with one member -/

/-- The only member of `oneMember`; its page and its `sb_offset` are as if it had just been
bound. -/
def oneRdev (d : BlockDev) (page : SbPage) : Rdev :=
  ⟨1, 1, mdNewSizeBlocks d.sectors, page, false, mdNewSizeBlocks d.sectors, false, 0⟩

/-- An array with a superblock and one member, device 1; all devices are alike. -/
def oneMember (d : BlockDev) (page : SbPage) : Jmddev :=
  { Jmddev.fresh fun _ => d with
    sb := some { Superblock.zero with mdMagic := mdSbMagic }
    nbDev := 1
    disks := [oneRdev d page]
    all := [1] }

/-- Nothing fails, and a new page holds zeros. -/
def updateAll : ℕ → PassEnv := fun _ => ⟨0, fun _ => ⟨true, some zeroPage, true⟩⟩

/-! ### Reading a superblock back -/

/-- What is read of a device when it is imported is what the write `w` wrote to it: the same
sectors, and the same superblock. -/
def Reimports (device : DevT → BlockDev) (w : SbWrite) : Prop :=
  (∀ page, (Rdev.fresh w.dev page).bioSector 0 = w.sector) ∧
    ∀ (jmddev : Jmddev) (env : ImportEnv) (jrdev : Rdev) (jmddev' : Jmddev),
      jmddev.device = device →
        jmddev.jmdImportDevice env w.dev true = .ok (.ok (jrdev, jmddev')) →
          jrdev.sb = w.page.sb

/-- **When a superblock is read back.** After `jmd_update_sb`, let `w` be the last write to the
device of a member, and let it have been carried out. Importing the device reads it back exactly
if the device has 128 to 255 sectors. -/
theorem reimports_iff {jmddev jmddev' : Jmddev} {env : ℕ → PassEnv} {log : List SbWrite}
    (h : jmddev.jmdUpdateSb env = .ok (jmddev', log)) {w : SbWrite}
    (hlast : log.reverse.find? (fun v => v.dev = w.dev) = some w) (hio : w.io = true) :
    Reimports jmddev'.device w ↔
      128 ≤ (jmddev.device w.dev).sectors.toNat ∧
        (jmddev.device w.dev).sectors.toNat < 256 := by
  obtain ⟨hdevice, hsector⟩ := Jmddev.updatePasses_device h
  have hw : w.sector = mdNewSizeBlocks (jmddev.device w.dev).sectors :=
    hsector w (List.mem_reverse.mp (List.mem_of_find?_eq_some hlast))
  rw [← mdNewSizeBlocks_eq_zero_iff, ← hw]
  constructor
  · rintro ⟨hread, -⟩
    exact (hread zeroPage).symm
  · intro hzero
    refine ⟨fun page => hzero.symm, fun s ienv jrdev' s' hs himp => ?_⟩
    obtain ⟨hnew, -⟩ := Jmddev.imported himp
    have hsize := (mdNewSizeBlocks_eq_zero_iff _).mp (hw ▸ hzero)
    have hholds : (jmddev.device w.dev).Holds w.sector := by
      simp only [BlockDev.Holds, hzero, UInt64.toNat_zero, mdSbSectors]
      omega
    have hread := hnew.read rfl
    rw [hs, hdevice, ← hzero, read_foldl_carryOut hlast hio hholds] at hread
    rw [Rdev.sb, ← Option.some.inj hread]

/-- 128 sectors of zeros. -/
def smallDev : BlockDev := ⟨128, by decide, fun _ => 0⟩

/-- 1024 sectors; the first begins with the magic number of an old superblock. -/
def staleDev : BlockDev := ⟨1024, by decide, fun i => if i = 0 then mdSbMagic else 0⟩

/-- The array superblock after the first pass over `oneMember`. -/
def oneSb : Superblock := { Superblock.zero with mdMagic := mdSbMagic }.nextPass 0

/-- The write that the first pass over `oneMember` submits. -/
def oneWrite (d : BlockDev) : SbWrite :=
  ⟨1, mdNewSizeBlocks d.sectors, zeroPage.withSb ((oneRdev d zeroPage).syncSb oneSb).sb, true⟩

theorem reimports_iff_small : ∃ jmddev',
    (oneMember smallDev zeroPage).jmdUpdateSb updateAll = .ok (jmddev', [oneWrite smallDev]) ∧
      (Reimports jmddev'.device (oneWrite smallDev) ↔
        128 ≤ smallDev.sectors.toNat ∧ smallDev.sectors.toNat < 256) :=
  ⟨_, rfl, @reimports_iff (oneMember smallDev zeroPage) _ updateAll _ rfl _ rfl rfl⟩

/-- On 1024 sectors the superblock of the first pass, with its event, is written to sector 896,
and the import finds the old one in sector 0. -/
theorem old_superblock_reimported : ∃ jmddev' jrdev jmddev'',
    (oneMember staleDev zeroPage).jmdUpdateSb updateAll = .ok (jmddev', [oneWrite staleDev]) ∧
      { jmddev' with all := [] }.jmdImportDevice importAll 1 true = .ok (.ok (jrdev, jmddev'')) ∧
        (Rdev.fresh 1 zeroPage).bioSector 0 ≠ (oneWrite staleDev).sector ∧
          jrdev.sb.event ≠ (oneWrite staleDev).page.sb.event :=
  ⟨_, _, _, rfl, rfl, by decide, by decide⟩

/-! ### Verifying a superblock -/

/-- The words of a page: those of the structure, then the tail. -/
theorem SbPage.map_word (p : SbPage) :
    (List.range mdSbWords).map p.word =
      (List.range sbStructWords).map p.sb.word ++ List.ofFn p.tail := by
  have hsplit : mdSbWords = sbStructWords + 99 := rfl
  rw [hsplit, List.range_add, List.map_append, List.map_map]
  refine congrArg₂ (· ++ ·) ?_ ?_
  · exact List.map_congr_left fun i hi => if_pos (List.mem_range.mp hi)
  · rw [List.ofFn_eq_map, ← List.map_coe_finRange_eq_range, List.map_map]
    refine List.map_congr_left fun j _ => ?_
    simp [word]

/-- Two pages with the same structure have the same checksum exactly if their tails have the
same sum; the magic number keeps the sums away from 0. -/
theorem SbPage.calcSbCsum_withSb_eq_iff {p q : SbPage} {sb : Superblock} (h : sb.mdMagic ≠ 0) :
    (p.withSb sb).calcSbCsum = (q.withSb sb).calcSbCsum ↔
      natSum (List.ofFn p.tail) ≡ natSum (List.ofFn q.tail) [MOD 2 ^ 32 - 1] := by
  set z : Superblock := { sb with sbCsum := 0 } with hz
  have hmem : z.word 0 ∈ (List.range sbStructWords).map z.word :=
    List.mem_map_of_mem (List.mem_range.mpr (by decide))
  have hwords : ∀ p : SbPage, (List.range mdSbWords).map ((p.withSb sb).withCsum 0).word =
      (List.range sbStructWords).map z.word ++ List.ofFn p.tail := fun p => map_word _
  have hne : ∀ p : SbPage,
      ∃ b ∈ (List.range mdSbWords).map ((p.withSb sb).withCsum 0).word, b ≠ 0 := by
    intro p
    rw [hwords]
    exact ⟨_, List.mem_append_left _ hmem, h⟩
  rw [calcSbCsum, calcSbCsum, csumPartial, csumPartial, onesSum_eq_iff (hne p) (hne q), hwords,
    hwords, natSum_append, natSum_append]
  exact ⟨fun h => h.add_left_cancel' _, fun h => h.add_left _⟩

/-- The structure of a synchronized member, in a new page. -/
theorem SbPage.withSb_syncSb_verifies_iff (sb : Superblock) (jrdev : Rdev) (new : SbPage)
    (hup : jrdev.faulty = false) (hmagic : (jrdev.syncSb sb).sb.mdMagic = mdSbMagic) :
    (new.withSb (jrdev.syncSb sb).sb).calcSbCsum = (jrdev.syncSb sb).sb.sbCsum ↔
      natSum (List.ofFn jrdev.page.tail) ≡ natSum (List.ofFn new.tail) [MOD 2 ^ 32 - 1] := by
  have hcsum : (jrdev.syncSb sb).sb.sbCsum =
      ((jrdev.syncSb sb).page.withSb (jrdev.syncSb sb).sb).calcSbCsum :=
    (Rdev.syncSb_verifies sb hup).symm
  rw [hcsum, calcSbCsum_withSb_eq_iff (by rw [hmagic]; decide), (jrdev.syncSb_same sb).tail]
  exact ⟨fun h => h.symm, fun h => h.symm⟩

/-- **When a written superblock verifies.** `sync_sbs` fills the page of the member `jrdev`,
`write_disk_sb` copies the structure into the page `new` and writes it, and `image` is read back.
Its checksum is right exactly if the tails of the two pages have the same sum. -/
theorem written_image_verifies_iff {jmddev : Jmddev} {env : WriteEnv} {sb : Superblock}
    {jrdev : Rdev} {new image : SbPage} {w : SbWrite} {d : BlockDev} (hnew : env.page = some new)
    (h : (jmddev.writeDiskSb env (jrdev.syncSb sb)).2 = some w)
    (hread : (d.write w.sector w.page).read w.sector = some image) :
    image.calcSbCsum = image.sb.sbCsum ↔
      natSum (List.ofFn jrdev.page.tail) ≡ natSum (List.ofFn new.tail) [MOD 2 ^ 32 - 1] := by
  obtain ⟨hup, hmagic, page, hpage, rfl⟩ := Jmddev.of_writeDiskSb h
  obtain rfl : new = page := Option.some.inj (hnew.symm.trans hpage)
  obtain rfl : image = new.withSb (jrdev.syncSb sb).sb := BlockDev.eq_of_read_write hread
  rw [(jrdev.syncSb_same sb).faulty] at hup
  exact SbPage.withSb_syncSb_verifies_iff sb jrdev new hup hmagic

/-- A page whose tail begins with a 1. -/
def dirtyPage : SbPage := ⟨Superblock.zero, fun j => if j = 0 then 1 else 0⟩

/-- A page whose tail ends with a 1. -/
def movedPage : SbPage := ⟨Superblock.zero, fun j => if j = 98 then 1 else 0⟩

/-- Two tails that differ and have the same sum: the image verifies. -/
theorem written_image_verifies_iff_moved : ∃ w image,
    ((oneMember smallDev dirtyPage).writeDiskSb ⟨true, some movedPage, true⟩
        ((oneRdev smallDev dirtyPage).syncSb oneSb)).2 = some w ∧
      (smallDev.write w.sector w.page).read w.sector = some image ∧
        dirtyPage.tail ≠ movedPage.tail ∧ image.calcSbCsum = image.sb.sbCsum := by
  refine ⟨_, _, rfl, BlockDev.read_write (by decide) _, fun heq => ?_, ?_⟩
  · exact absurd (congrFun heq 0) (by decide)
  · exact (@written_image_verifies_iff (oneMember smallDev dirtyPage) ⟨true, some movedPage, true⟩
      oneSb (oneRdev smallDev dirtyPage) movedPage _ _ smallDev rfl rfl
      (BlockDev.read_write (by decide) _)).mpr (by decide)

/-- A member whose page has a 1 in its tail, and a new page of zeros: the image that is read back
does not verify. -/
theorem written_image_not_verified : ∃ w image,
    ((oneMember smallDev dirtyPage).writeDiskSb ⟨true, some zeroPage, true⟩
        ((oneRdev smallDev dirtyPage).syncSb oneSb)).2 = some w ∧
      (smallDev.write w.sector w.page).read w.sector = some image ∧
        image.calcSbCsum ≠ image.sb.sbCsum := by
  refine ⟨_, _, rfl, BlockDev.read_write (by decide) _, ?_⟩
  have hiff := SbPage.withSb_syncSb_verifies_iff oneSb (oneRdev smallDev dirtyPage)
    zeroPage rfl rfl
  exact fun h => absurd (hiff.mp h) (by decide)

end Jmd

end JRaid
