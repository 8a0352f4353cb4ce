import JRaid.Jmd.Reachable
import JRaid.Jmd.Slots

/-!
# What a start makes of the members

When `jraid5_run` succeeds, `working_disks` should be the number of operational slots of the array,
and the marks of the descriptors should tell the members in these slots from the rest of the table.

The first fails if a member has the slot `raid_disks`, which lies past the end but is not turned
down (`working_disks_iff`). The second fails if two descriptors have equal numbers, and unused
descriptors have the number 0 like the first disk (`in_sync_iff`).
-/

namespace JRaid

namespace Jmd

/-! ### An array of two members -/

/-- A superblock of level 5. Its first descriptor belongs to slot 0, and its second one, which has
number 1, to the slot `raidDisk`. -/
def twoSb (raidDisks raidDisk : UInt32) : Superblock :=
  { Superblock.zero with
    level := 5
    raidDisks := raidDisks
    chunkSize := 4096
    disks := fun i => if (i : ℕ) = 1 then { Disk.zero with number := 1, raidDisk := raidDisk }
      else Disk.zero }

/-- An array whose members have the first two descriptors. -/
def twoMembers : Jmddev :=
  { Jmddev.fresh (fun _ => smallDev) with
    nbDev := 2
    disks := [{ oneRdev smallDev zeroPage with descNr := 0 },
      { oneRdev smallDev zeroPage with dev := 2, descNr := 1 }] }

/-! ### How many disks are missing -/

/-- **When a started array is at most one disk short.** -/
theorem working_disks_iff {jmddev jmddev' : Jmddev} {sb : Superblock} {env : RunEnv}
    (h : jmddev.jraid5Run sb env = .ok (0, jmddev')) :
    ∃ st, jmddev.runState sb env = .ok (0, st) ∧ jmddev'.conf = some st.conf ∧
      ((sb.raidDisks.toNat - 1 ≤
            (st.operationalSlots.filter fun k => (st.slots k).jrdev.isSome).card ∧
          st.workingDisks.toInt = st.operationalSlots.card) ↔
        ∀ jrdev ∈ jmddev.disks, ∀ i, descIndex jrdev.descNr = some i →
          (sb.disks i).raidDisk ≠ sb.raidDisks) := by
  obtain ⟨st, hst, -, hconf⟩ := Jmddev.exists_runState h
  refine ⟨st, hst, hconf, ?_⟩
  have hs := Jmddev.seated hst
  have hsome : (st.operationalSlots.filter fun k => (st.slots k).jrdev.isSome) =
      st.operationalSlots :=
    Finset.filter_true_of_mem fun k hk => hs.isSome_jrdev (Finset.mem_filter.mp hk).2.2
  rw [hsome, hs.operationalSlots_eq, hs.toInt_workingDisks]
  constructor
  · rintro ⟨-, hcard⟩ m hm i hi heq
    -- the slot past the end would be counted
    obtain ⟨i', hi', hlt⟩ := hs.named m hm
    obtain rfl := Option.some.inj (hi.symm.trans hi')
    have hlt := hlt (heq ▸ UInt32.le_refl _)
    have hmem : (⟨_, hlt⟩ : Fin mdSbDisks) ∈ sb.taken jmddev.disks :=
      FirstClaim.mem_held.mpr ⟨m, hm,
        Superblock.slotOf_eq_some_iff.mpr ⟨i, hi, heq ▸ UInt32.le_refl _, rfl⟩⟩
    have hall := Finset.card_filter_eq_iff.mp (Int.ofNat.inj hcard).symm
    have hback : (sb.disks i).raidDisk.toNat < sb.raidDisks.toNat := hall _ hmem
    rw [heq] at hback
    exact absurd hback (Nat.lt_irrefl _)
  · intro hno
    have hall : ((sb.taken jmddev.disks).filter fun k : Fin mdSbDisks =>
        (k : ℕ) < sb.raidDisks.toNat) = sb.taken jmddev.disks := by
      refine Finset.filter_true_of_mem fun k hk => ?_
      obtain ⟨m, hm, hslot⟩ := FirstClaim.mem_held.mp hk
      obtain ⟨i, hi, hle, heq⟩ := Superblock.slotOf_eq_some_iff.mp hslot
      rw [← heq]
      exact UInt32.lt_iff_toNat_lt.mp (UInt32.lt_of_le_of_ne hle (hno m hm i hi))
    rw [hall]
    exact ⟨hs.le_workingDisks, rfl⟩

/-- Two members in the slots 0 and 1 of an array of three disks. -/
theorem working_disks_iff_two : ∃ jmddev', twoMembers.jraid5Run (twoSb 3 1) runAll =
      .ok (0, jmddev') ∧
    ∃ st, twoMembers.runState (twoSb 3 1) runAll = .ok (0, st) ∧ jmddev'.conf = some st.conf ∧
      (((twoSb 3 1).raidDisks.toNat - 1 ≤
            (st.operationalSlots.filter fun k => (st.slots k).jrdev.isSome).card ∧
          st.workingDisks.toInt = st.operationalSlots.card) ↔
        ∀ jrdev ∈ twoMembers.disks, ∀ i, descIndex jrdev.descNr = some i →
          ((twoSb 3 1).disks i).raidDisk ≠ (twoSb 3 1).raidDisks) := by
  obtain ⟨jmddev', hrun⟩ : ∃ s, twoMembers.jraid5Run (twoSb 3 1) runAll = .ok (0, s) :=
    Except.exists_of_toOption_fst (by decide +kernel)
  exact ⟨jmddev', hrun, working_disks_iff hrun⟩

/-- Two members in the slots 0 and 3 of an array of three disks: it is started with one of them
operational, and two are counted. -/
theorem two_disks_missing : ∃ jmddev' st,
    twoMembers.jraid5Run (twoSb 3 3) runAll = .ok (0, jmddev') ∧
      twoMembers.runState (twoSb 3 3) runAll = .ok (0, st) ∧
        (st.operationalSlots.filter fun k => (st.slots k).jrdev.isSome).card <
          (twoSb 3 3).raidDisks.toNat - 1 ∧
        st.workingDisks.toInt ≠ st.operationalSlots.card := by
  obtain ⟨jmddev', hrun⟩ : ∃ s, twoMembers.jraid5Run (twoSb 3 3) runAll = .ok (0, s) :=
    Except.exists_of_toOption_fst (by decide +kernel)
  obtain ⟨st, hst, -⟩ := Jmddev.exists_runState hrun
  refine ⟨jmddev', st, hrun, hst, ?_⟩
  have hshow : (twoMembers.runState (twoSb 3 3) runAll).toOption.map (fun r =>
      (r.2.workingDisks, r.2.operationalSlots.card,
        (r.2.operationalSlots.filter fun k => (r.2.slots k).jrdev.isSome).card)) =
      some (2, 1, 1) := by decide +kernel
  rw [hst] at hshow
  obtain ⟨hworking, hcard⟩ := Prod.mk.inj (Option.some.inj hshow)
  obtain ⟨hop, hdev⟩ := Prod.mk.inj hcard
  rw [hdev, hop, hworking]
  exact ⟨by decide, by decide⟩

/-! ### Which descriptors are in sync -/

/-- The numbers of the descriptors tell the members in the slots from the rest of the table. -/
structure Superblock.NumbersApart (sb : Superblock) (disks : List Rdev) : Prop where
  /-- the number of a member in front of the end is that of members in slots only -/
  apart : ∀ i k, sb.InSlot disks i k → (k : ℕ) < sb.raidDisks.toNat →
    ∀ i', (sb.disks i').number = (sb.disks i).number → ∃ k', sb.InSlot disks i' k'
  /-- the member in the slot past the end has the number of a member in front of it -/
  last : ∀ i k, sb.InSlot disks i k → (k : ℕ) = sb.raidDisks.toNat →
    ∃ i' k' : Fin mdSbDisks, sb.InSlot disks i' k' ∧ (k' : ℕ) < sb.raidDisks.toNat ∧
      (sb.disks i).number = (sb.disks i').number

/-- **When the marks in a started array are exact.** -/
theorem in_sync_iff {jmddev jmddev' : Jmddev} {sb : Superblock} {env : RunEnv}
    (h : jmddev.jraid5Run sb env = .ok (0, jmddev')) :
    ∃ st, jmddev.runState sb env = .ok (0, st) ∧ jmddev'.sb = some st.sb ∧
      ((∀ i, (st.sb.disks i).sync = true ↔
          ∃ k, (st.slots k).operational = true ∧ sb.InSlot jmddev.disks i k) ↔
        sb.NumbersApart jmddev.disks) := by
  obtain ⟨st, hst, hsb, -⟩ := Jmddev.exists_runState h
  refine ⟨st, hst, hsb, ?_⟩
  have hs := Jmddev.seated hst
  constructor
  · intro hexact
    refine ⟨fun i k hik hk i' hnumber => ?_, fun i k hik hk => ?_⟩
    · obtain ⟨k', -, hik'⟩ := (hexact i').mp ((hs.sync i').mpr ⟨i, k, hik, hk, hnumber⟩)
      exact ⟨k', hik'⟩
    · exact (hs.sync i).mp ((hexact i).mpr ⟨k, (hs.of_inSlot hik).1, hik⟩)
  · intro hapart i
    rw [hs.sync i]
    constructor
    · rintro ⟨i', k, hik, hk, hnumber⟩
      obtain ⟨k', hik'⟩ := hapart.apart i' k hik hk i hnumber
      exact ⟨k', (hs.of_inSlot hik').1, hik'⟩
    · rintro ⟨k, -, hik⟩
      rcases Nat.lt_or_eq_of_le (hs.of_inSlot hik).2 with hk | hk
      · exact ⟨i, k, hik, hk, rfl⟩
      · exact hapart.last i k hik hk

/-- Two members in the slots of an array of two disks. -/
theorem in_sync_iff_two : ∃ jmddev', twoMembers.jraid5Run (twoSb 2 1) runAll =
      .ok (0, jmddev') ∧
    ∃ st, twoMembers.runState (twoSb 2 1) runAll = .ok (0, st) ∧ jmddev'.sb = some st.sb ∧
      ((∀ i, (st.sb.disks i).sync = true ↔
          ∃ k, (st.slots k).operational = true ∧ (twoSb 2 1).InSlot twoMembers.disks i k) ↔
        (twoSb 2 1).NumbersApart twoMembers.disks) := by
  obtain ⟨jmddev', hrun⟩ : ∃ s, twoMembers.jraid5Run (twoSb 2 1) runAll = .ok (0, s) :=
    Except.exists_of_toOption_fst (by decide +kernel)
  exact ⟨jmddev', hrun, in_sync_iff hrun⟩

/-- In that array the unused descriptors are marked: like the first member's they have the
number 0. -/
theorem unused_in_sync : ∃ jmddev' st,
    twoMembers.jraid5Run (twoSb 2 1) runAll = .ok (0, jmddev') ∧
      twoMembers.runState (twoSb 2 1) runAll = .ok (0, st) ∧
        ∀ i : Fin mdSbDisks, 2 ≤ (i : ℕ) → (st.sb.disks i).sync = true ∧
          ¬ ∃ k, (twoSb 2 1).InSlot twoMembers.disks i k := by
  obtain ⟨jmddev', hrun⟩ : ∃ s, twoMembers.jraid5Run (twoSb 2 1) runAll = .ok (0, s) :=
    Except.exists_of_toOption_fst (by decide +kernel)
  obtain ⟨st, hst, -⟩ := Jmddev.exists_runState hrun
  refine ⟨jmddev', st, hrun, hst, fun i hi => ⟨?_, ?_⟩⟩
  · have hshow : (twoMembers.runState (twoSb 2 1) runAll).toOption.map (fun r =>
        decide (∀ i : Fin mdSbDisks, (r.2.sb.disks i).sync = true)) = some true := by
      decide +kernel
    rw [hst] at hshow
    exact of_decide_eq_true (Option.some.inj hshow) i
  · rintro ⟨k, m, hm, hmi⟩
    rw [descIndex_eq_some_iff] at hmi
    rcases List.mem_pair.mp (FirstClaim.mem_of_holder hm) with rfl | rfl
    · exact absurd (hmi.trans_ge hi) (by decide)
    · exact absurd (hmi.trans_ge hi) (by decide)

end Jmd

end JRaid
