import JRaid.ForMathlib.FirstClaim
import JRaid.Jmd.Shape

/-!
# The slots of a started array

`jraid5_run` walks over the members and puts each into the slot of `conf->disks` that its
descriptor names (`Superblock.slotOf`): a member whose `raid_disk` is greater than `raid_disks`
gets none, and a slot that is taken stays with the first member (`Superblock.occupant`).
`working_disks` counts the slots that are taken, and the array is started if it falls short of
`raid_disks` by at most one. A slot is therefore counted although it lies past the end of the
array if its number is `raid_disks` itself.

The marks of the descriptors are then computed anew. A descriptor is in sync if its number is that
of an operational slot, so that descriptors with equal numbers are marked together.

`Jmddev.Seated` says what has become of the slots and the marks when `jraid5_run` succeeds, in
terms of the superblock and the members it was called with. A slot has a device only if a member
has it (`Jmddev.exists_occupant`).
-/

namespace JRaid

namespace Jmd

/-! ### Where a member belongs -/

/-- The slot that the descriptor of a member names, unless it lies past the end. -/
def Superblock.slotOf (sb : Superblock) (jrdev : Rdev) : Option (Fin mdSbDisks) :=
  (descIndex jrdev.descNr).bind fun i =>
    if sb.raidDisks < (sb.disks i).raidDisk then none
    else descIndex (sb.disks i).raidDisk.toInt32

/-- The member that takes a slot: the first in the list that belongs there. -/
def Superblock.occupant (sb : Superblock) (disks : List Rdev) (k : Fin mdSbDisks) : Option Rdev :=
  FirstClaim.holder sb.slotOf disks k

/-- The slots that are taken. -/
def Superblock.taken (sb : Superblock) (disks : List Rdev) : Finset (Fin mdSbDisks) :=
  FirstClaim.held sb.slotOf disks

/-- The descriptor `i` is that of the member in slot `k`. -/
def Superblock.InSlot (sb : Superblock) (disks : List Rdev) (i k : Fin mdSbDisks) : Prop :=
  ∃ jrdev, sb.occupant disks k = some jrdev ∧ descIndex jrdev.descNr = some i

/-- What `jraid5_run` enters into the slot of a member. -/
def Disk.slot (desc : Disk) (jrdev : Rdev) : Slot :=
  ⟨jrdev.dev, true, desc.number.toInt32, desc.raidDisk.toInt32, true, some jrdev.dev⟩

theorem Superblock.slotOf_eq_some_iff {sb : Superblock} {jrdev : Rdev} {k : Fin mdSbDisks} :
    sb.slotOf jrdev = some k ↔ ∃ i, descIndex jrdev.descNr = some i ∧
      (sb.disks i).raidDisk ≤ sb.raidDisks ∧ (sb.disks i).raidDisk.toNat = k := by
  rw [slotOf, Option.bind_eq_some_iff]
  refine exists_congr fun i => and_congr_right fun _ => ?_
  by_cases h : sb.raidDisks < (sb.disks i).raidDisk
  · rw [if_pos h]
    exact iff_of_false (by simp) fun hle => UInt32.not_le.mpr h hle.1
  · rw [if_neg h, descIndex_eq_some_iff, UInt32.toUInt32_toInt32]
    exact (and_iff_right (UInt32.not_lt.mp h)).symm

/-! ### The two loops that fill the slots -/

/-- What the members in `l` have made of the superblock and of the slots. -/
structure RunState.Filled (sb : Superblock) (l : List Rdev) (st : RunState) : Prop where
  shape : st.sb.shape = sb.shape
  number : ∀ i, (st.sb.disks i).number = (sb.disks i).number
  raidDisk : ∀ i, (st.sb.disks i).raidDisk = (sb.disks i).raidDisk
  /-- a member names a descriptor, and this a slot or none -/
  named : ∀ jrdev ∈ l, ∃ i, descIndex jrdev.descNr = some i ∧
    ((sb.disks i).raidDisk ≤ sb.raidDisks → (sb.disks i).raidDisk.toNat < mdSbDisks)
  operational : ∀ k, (st.slots k).operational = (sb.occupant l k).isSome
  slot : ∀ k jrdev i, sb.occupant l k = some jrdev → descIndex jrdev.descNr = some i →
    st.slots k = (sb.disks i).slot jrdev
  workingDisks : st.workingDisks = Int32.ofNat (sb.taken l).card

theorem RunState.Filled.raidDisks {sb : Superblock} {l : List Rdev} {st : RunState}
    (h : st.Filled sb l) : st.sb.raidDisks = sb.raidDisks := congrArg Shape.raidDisks h.shape

/-- Before the first member. -/
theorem RunState.Filled.nil (sb : Superblock) :
    RunState.Filled sb [] ⟨sb, fun _ => Slot.zero, 0⟩ where
  shape := rfl
  number _ := rfl
  raidDisk _ := rfl
  named _ h := absurd h List.not_mem_nil
  operational _ := rfl
  slot _ _ _ h := absurd h (by simp [Superblock.occupant, FirstClaim.holder])
  workingDisks := by rw [Superblock.taken, FirstClaim.held_nil]; rfl

/-- Marking a descriptor changes neither its number nor its slot. -/
theorem RunState.Filled.mark {sb : Superblock} {l : List Rdev} {st : RunState}
    (h : st.Filled sb l) (i : Fin mdSbDisks) :
    RunState.Filled sb l
      { st with sb := st.sb.setDisk i (st.sb.disks i).markActive.markSync } := by
  have hsame : ∀ {β : Type} (f : Disk → β), (∀ d, f d.markActive.markSync = f d) →
      ∀ j, f ((st.sb.setDisk i (st.sb.disks i).markActive.markSync).disks j) =
        f (st.sb.disks j) := by
    intro β f hf j
    by_cases hj : j = i
    · rw [hj, Superblock.setDisk_self, hf]
    · rw [Superblock.setDisk_of_ne _ _ hj]
  exact ⟨h.shape, fun j => (hsame Disk.number (fun _ => rfl) j).trans (h.number j),
    fun j => (hsame Disk.raidDisk (fun _ => rfl) j).trans (h.raidDisk j), h.named, h.operational,
    h.slot, h.workingDisks⟩

/-- A member that gets no slot. -/
theorem RunState.Filled.skip {sb : Superblock} {l : List Rdev} {st : RunState}
    (h : st.Filled sb l) {jrdev : Rdev} {i : Fin mdSbDisks} (hi : descIndex jrdev.descNr = some i)
    (hlt : (sb.disks i).raidDisk ≤ sb.raidDisks → (sb.disks i).raidDisk.toNat < mdSbDisks)
    (htaken : ∀ k, sb.slotOf jrdev = some k → (sb.occupant l k).isSome) :
    st.Filled sb (l ++ [jrdev]) := by
  have hocc : sb.occupant (l ++ [jrdev]) = sb.occupant l :=
    FirstClaim.holder_concat_of_taken htaken
  have hheld : sb.taken (l ++ [jrdev]) = sb.taken l := FirstClaim.held_concat_of_taken htaken
  refine ⟨h.shape, h.number, h.raidDisk, fun m hm => ?_, fun k => ?_, fun k m j hm => ?_, ?_⟩
  · obtain hm | hm := List.mem_append.mp hm
    · exact h.named m hm
    · obtain rfl := List.mem_singleton.mp hm
      exact ⟨i, hi, hlt⟩
  · rw [hocc]
    exact h.operational k
  · rw [hocc] at hm
    exact h.slot k m j hm
  · rw [hheld]
    exact h.workingDisks

/-- A member that gets a free slot. -/
theorem RunState.Filled.seat {sb : Superblock} {l : List Rdev} {st : RunState}
    (h : st.Filled sb l) {jrdev : Rdev} {i k : Fin mdSbDisks}
    (hi : descIndex jrdev.descNr = some i) (hk : sb.slotOf jrdev = some k)
    (hfree : (st.slots k).operational = false) :
    RunState.Filled sb (l ++ [jrdev])
      { st with
        slots := Function.update st.slots k ((sb.disks i).slot jrdev)
        workingDisks := st.workingDisks + 1 } := by
  have hnone : sb.occupant l k = none := by
    rw [h.operational k] at hfree
    exact Option.not_isSome_iff_eq_none.mp (by simp [hfree])
  have hocc : sb.occupant (l ++ [jrdev]) = Function.update (sb.occupant l) k (some jrdev) :=
    FirstClaim.holder_concat_of_free hk hnone
  have hcard : (sb.taken (l ++ [jrdev])).card = (sb.taken l).card + 1 :=
    FirstClaim.card_held_concat_of_free hk hnone
  refine ⟨h.shape, h.number, h.raidDisk, fun m hm => ?_, fun j => ?_, fun j m i' hm hi' => ?_, ?_⟩
  · obtain hm | hm := List.mem_append.mp hm
    · exact h.named m hm
    · obtain rfl := List.mem_singleton.mp hm
      obtain ⟨i', hi', -, heq⟩ := Superblock.slotOf_eq_some_iff.mp hk
      exact ⟨i', hi', fun _ => heq ▸ k.isLt⟩
  · dsimp only
    by_cases hj : j = k
    · rw [hj, hocc, Function.update_self, Function.update_self]
      rfl
    · rw [hocc, Function.update_of_ne hj, Function.update_of_ne hj]
      exact h.operational j
  · by_cases hj : j = k
    · rw [hj, hocc, Function.update_self] at hm
      obtain rfl := Option.some.inj hm
      obtain rfl := Option.some.inj (hi.symm.trans hi')
      rw [hj]
      exact Function.update_self _ _ _
    · rw [hocc, Function.update_of_ne hj] at hm
      refine (Function.update_of_ne hj _ _).trans (h.slot j m i' hm hi')
  · rw [hcard, Int32.ofNat_add, h.workingDisks]
    rfl

/-- One member. -/
theorem RunState.Filled.placeMember {sb : Superblock} {l : List Rdev} {st st' : RunState}
    (h : st.Filled sb l) {jrdev : Rdev} (hplace : st.placeMember jrdev = .ok st') :
    st'.Filled sb (l ++ [jrdev]) := by
  unfold RunState.placeMember at hplace
  split at hplace
  · cases hplace
  rename_i i hi
  have hmark := h.mark i
  have hraid : (st.sb.disks i).markActive.markSync.raidDisk = (sb.disks i).raidDisk :=
    h.raidDisk i
  have hnumber : (st.sb.disks i).markActive.markSync.number = (sb.disks i).number := h.number i
  have hdisks : (st.sb.setDisk i (st.sb.disks i).markActive.markSync).raidDisks = sb.raidDisks :=
    h.raidDisks
  dsimp only at hplace
  rw [hraid, hnumber, hdisks] at hplace
  split at hplace
  · -- the slot lies past the end
    rename_i hlt
    rw [← Except.ok.inj hplace]
    refine hmark.skip hi (fun hle => absurd hlt (UInt32.not_lt.mpr hle)) fun k hk => ?_
    obtain ⟨i', hi', hle, -⟩ := Superblock.slotOf_eq_some_iff.mp hk
    obtain rfl := Option.some.inj (hi.symm.trans hi')
    exact absurd hlt (UInt32.not_lt.mpr hle)
  rename_i hle
  split at hplace
  · cases hplace
  rename_i k hk
  rw [descIndex_eq_some_iff, UInt32.toUInt32_toInt32] at hk
  have hslot : sb.slotOf jrdev = some k :=
    Superblock.slotOf_eq_some_iff.mpr ⟨i, hi, UInt32.not_lt.mp hle, hk⟩
  split at hplace
  · -- an earlier member has it
    rename_i htaken
    rw [← Except.ok.inj hplace]
    refine hmark.skip hi (fun _ => hk ▸ k.isLt) fun j hj => ?_
    obtain rfl := Option.some.inj (hslot.symm.trans hj)
    rw [← h.operational]
    exact htaken
  · rename_i hfree
    rw [← Except.ok.inj hplace]
    exact hmark.seat hi hslot (Bool.eq_false_iff.mpr hfree)

/-- The first loop. -/
theorem RunState.Filled.placeMembers {sb : Superblock} {l rest : List Rdev} {st st' : RunState}
    (h : st.Filled sb l) (hplace : st.placeMembers rest = .ok st') :
    st'.Filled sb (l ++ rest) := by
  induction rest generalizing l st with
  | nil =>
    rw [← Except.ok.inj hplace, List.append_nil]
    exact h
  | cons jrdev rest ih =>
    rw [RunState.placeMembers] at hplace
    split at hplace
    · cases hplace
    rename_i st₁ hone
    have hrest := ih (h.placeMember hone) hplace
    rwa [List.append_assoc, List.singleton_append] at hrest

/-- A faulty descriptor fills a slot that no member has. -/
theorem RunState.Filled.placeFaulty {sb : Superblock} {l : List Rdev} {st st' : RunState}
    (h : st.Filled sb l) {i : Fin mdSbDisks} (hplace : st.placeFaulty i = .ok st') :
    st'.Filled sb l := by
  unfold RunState.placeFaulty at hplace
  dsimp only at hplace
  split at hplace
  · split at hplace
    · cases hplace
    rename_i k hk
    split at hplace
    · rwa [← Except.ok.inj hplace]
    rename_i hunused
    -- an operational slot is in use
    have hnone : sb.occupant l k = none := by
      by_contra hsome
      obtain ⟨m, hm⟩ := Option.ne_none_iff_exists'.mp hsome
      obtain ⟨j, hj, -⟩ := h.named m (FirstClaim.mem_of_holder hm)
      rw [h.slot k m j hm hj] at hunused
      exact hunused rfl
    rw [← Except.ok.inj hplace]
    refine ⟨h.shape, h.number, h.raidDisk, h.named, fun j => ?_, fun j m i' hm hi' => ?_,
      h.workingDisks⟩
    · dsimp only
      by_cases hj : j = k
      · rw [hj, Function.update_self, hnone]
        rfl
      · rw [Function.update_of_ne hj]
        exact h.operational j
    · have hj : j ≠ k := fun hj => absurd (hm.symm.trans (hj ▸ hnone)) (by simp)
      exact (Function.update_of_ne hj _ _).trans (h.slot j m i' hm hi')
  · rwa [← Except.ok.inj hplace]

/-- The second loop. -/
theorem RunState.Filled.placeAllFaulty {sb : Superblock} {l : List Rdev} {st st' : RunState}
    {is : List (Fin mdSbDisks)} (h : st.Filled sb l)
    (hplace : st.placeAllFaulty is = .ok st') : st'.Filled sb l := by
  induction is generalizing st with
  | nil => rwa [← Except.ok.inj hplace]
  | cons i is ih =>
    rw [RunState.placeAllFaulty] at hplace
    split at hplace
    · cases hplace
    rename_i hone
    exact ih (h.placeFaulty hone) hplace

/-! ### The marks -/

theorem Disk.sync_markSync (d : Disk) : d.markSync.sync = true := by
  have h : (d.state ||| ((1 : UInt32) <<< 2)) &&& ((1 : UInt32) <<< 2) = (1 : UInt32) <<< 2 :=
    UInt32.toBitVec_inj.mp (BitVec.eq_of_getElem_eq (by simp +contextual))
  rw [Disk.sync, Disk.markSync, h]
  decide

theorem Disk.sync_markNonsync (d : Disk) : d.markNonsync.sync = false := by
  rw [Disk.sync, Disk.markNonsync, UInt32.and_assoc, UInt32.and_comm (~~~_),
    UInt32.and_not_self, UInt32.and_zero]
  decide

/-! ### The end of `jraid5_run` -/

/-- The tests that `jraid5_run` makes of its configuration. -/
def RunState.Passes (st : RunState) : Prop :=
  ¬ (st.conf.chunkSize = 0 ∨ st.conf.chunkSize % 4 ≠ 0) ∧
    ¬ algorithmRightSymmetric < st.conf.algorithm ∧ ¬ 1 < st.conf.raidDisks - st.workingDisks

instance (st : RunState) : Decidable st.Passes :=
  inferInstanceAs (Decidable (_ ∧ _ ∧ _))

/-- The three tests end the same way. -/
theorem RunState.ite_passes {β : Type} (st : RunState) (abort go : β) :
    (if st.conf.chunkSize = 0 ∨ st.conf.chunkSize % 4 ≠ 0 then abort
      else if algorithmRightSymmetric < st.conf.algorithm then abort
      else if 1 < st.conf.raidDisks - st.workingDisks then abort
      else go) = if st.Passes then go else abort := by
  by_cases hpasses : st.Passes
  · rw [if_pos hpasses, if_neg hpasses.1, if_neg hpasses.2.1, if_neg hpasses.2.2]
  · rw [if_neg hpasses]
    split_ifs with hchunk halgorithm hfailed
    · rfl
    · rfl
    · rfl
    · exact absurd ⟨hchunk, halgorithm, hfailed⟩ hpasses

/-- What the third loop and the rest of `jraid5_run` add to the slots when it succeeds. -/
structure RunState.Finished (st : RunState) (env : RunEnv) (st' : RunState) : Prop where
  passes : st.Passes
  thread : env.thread = true
  stripes : env.stripes = true
  raidDisks : st.sb.raidDisks.toNat ≤ mdSbDisks
  slots : st'.slots = st.slots
  workingDisks : st'.workingDisks = st.workingDisks
  shape : st'.sb.shape = st.sb.shape
  sync : ∀ i, (st'.sb.disks i).sync = true ↔ ∃ j : Fin mdSbDisks, (j : ℕ) < st.sb.raidDisks.toNat ∧
    (st.slots j).operational = true ∧ (st.sb.disks i).number = (st.slots j).number.toUInt32

theorem RunState.sync_markInSync {st st' : RunState} (h : st.markInSync = .ok st') :
    st.sb.raidDisks.toNat ≤ mdSbDisks ∧ st'.slots = st.slots ∧
      st'.workingDisks = st.workingDisks ∧ st'.sb.shape = st.sb.shape ∧
      ∀ i, (st'.sb.disks i).sync = true ↔ ∃ j : Fin mdSbDisks, (j : ℕ) < st.sb.raidDisks.toNat ∧
        (st.slots j).operational = true ∧
        (st.sb.disks i).number = (st.slots j).number.toUInt32 := by
  unfold markInSync at h
  split at h
  · cases h
  rename_i hle
  rw [← Except.ok.inj h]
  refine ⟨Nat.not_lt.mp hle, rfl, rfl, rfl, fun i => ?_⟩
  dsimp only
  split
  · rename_i hmatch
    exact iff_of_true (Disk.sync_markSync _) hmatch
  · rename_i hno
    exact iff_of_false (by simp [Disk.sync_markNonsync]) hno

/-- **How the rest of `jraid5_run` ends**: it fails, or it goes on to the marks with a superblock in
which the bit `MD_SB_CLEAN` may have been cleared. -/
theorem RunState.finish_cases (st : RunState) (env : RunEnv) :
    (∃ st', st.finish env = .ok (-eio, st')) ∨
      (st.Passes ∧ env.thread = true ∧ env.stripes = true) ∧
        ∃ sb, sb.disks = st.sb.disks ∧ sb.shape = st.sb.shape ∧
          ((∃ e, { st with sb := sb }.markInSync = .error e ∧ st.finish env = .error e) ∨
            ∃ st', { st with sb := sb }.markInSync = .ok st' ∧ st.finish env = .ok (0,
              { st' with sb := { st'.sb with activeDisks := st'.workingDisks.toUInt32 } })) := by
  have hclean : ∀ p : Prop, ∀ [Decidable p], ∃ sb, sb.disks = st.sb.disks ∧
      sb.shape = st.sb.shape ∧
      (if p then { st with sb := st.sb.clearClean } else st) = { st with sb := sb } := by
    intro p _
    split
    · exact ⟨st.sb.clearClean, rfl, rfl, rfl⟩
    · exact ⟨st.sb, rfl, rfl, rfl⟩
  unfold finish
  dsimp only
  rw [ite_passes]
  by_cases hpasses : st.Passes
  swap
  · rw [if_neg hpasses]
    exact Or.inl ⟨_, rfl⟩
  rw [if_pos hpasses]
  obtain ⟨sb, hdisks, hshape, heq⟩ := hclean
    (¬ st.workingDisks.toUInt32 ≠ st.sb.raidDisks ∧ st.sb.clean = true)
  rw [heq]
  cases hthread : env.thread with
  | false => exact Or.inl ⟨_, rfl⟩
  | true =>
    cases hstripes : env.stripes with
    | false => exact Or.inl ⟨_, rfl⟩
    | true =>
      rw [Bool.not_true, if_neg Bool.false_ne_true, if_neg Bool.false_ne_true]
      cases hmark : { st with sb := sb }.markInSync with
      | error e =>
        exact Or.inr ⟨⟨hpasses, rfl, rfl⟩, sb, hdisks, hshape, Or.inl ⟨e, hmark, rfl⟩⟩
      | ok st' =>
        dsimp only
        split
        · exact Or.inl ⟨_, rfl⟩
        · exact Or.inr ⟨⟨hpasses, rfl, rfl⟩, sb, hdisks, hshape, Or.inr ⟨st', hmark, rfl⟩⟩

/-- **What `jraid5_run` has done when it succeeds.** -/
theorem RunState.finished {st st' : RunState} {env : RunEnv}
    (h : st.finish env = .ok (0, st')) : st.Finished env st' := by
  obtain ⟨st₁, hfail⟩ | ⟨⟨hpasses, hthread, hstripes⟩, sb, hdisks, hshape, hend⟩ :=
    st.finish_cases env
  · exact absurd (Prod.mk.inj (Except.ok.inj (hfail.symm.trans h))).1 (by decide)
  obtain ⟨e, -, hstop⟩ | ⟨st₁, hmark, hdone⟩ := hend
  · rw [h] at hstop
    cases hstop
  have hraid : sb.raidDisks = st.sb.raidDisks := congrArg Shape.raidDisks hshape
  obtain ⟨hle, hslots, hworking, hshape₁, hsync⟩ := sync_markInSync hmark
  simp only [hraid, hdisks] at hle hsync
  rw [← (Prod.mk.inj (Except.ok.inj (hdone.symm.trans h))).2]
  exact ⟨hpasses, hthread, hstripes, hle, hslots, hworking, hshape₁.trans hshape, hsync⟩

/-! ### The slots of a started array -/

/-- The two loops of `jraid5_run` over the members and the descriptors. -/
def Jmddev.fillSlots (jmddev : Jmddev) (sb : Superblock) : Except Fault RunState :=
  (RunState.placeMembers ⟨sb, fun _ => Slot.zero, 0⟩ jmddev.disks).bind fun st =>
    st.placeAllFaulty (List.finRange mdSbDisks)

/-- The code of `jraid5_run` and what it has made of the superblock and the slots, once the
configuration has been allocated. -/
def Jmddev.runState (jmddev : Jmddev) (sb : Superblock) (env : RunEnv) :
    Except Fault (Int32 × RunState) :=
  (jmddev.fillSlots sb).bind fun st => st.finish env

/-- `jraid5_run` from its loops on. -/
theorem Jmddev.jraid5Run_eq (jmddev : Jmddev) (sb : Superblock) (env : RunEnv) :
    jmddev.jraid5Run sb env =
      if sb.level ≠ 5 ∧ sb.level ≠ 4 then .ok (-eio, jmddev)
      else if !env.conf || !env.hashtbl then .ok (-eio, { jmddev with conf := none })
      else (jmddev.runState sb env).map fun r => (r.1, { jmddev with
        sb := some r.2.sb
        conf := if r.1 = 0 then some r.2.conf else none }) := by
  unfold jraid5Run runState fillSlots
  split
  · rfl
  split
  · rfl
  cases RunState.placeMembers ⟨sb, fun _ => Slot.zero, 0⟩ jmddev.disks with
  | error f => rfl
  | ok st =>
    dsimp only [Except.bind]
    cases st.placeAllFaulty (List.finRange mdSbDisks) with
    | error f => rfl
    | ok st =>
      dsimp only
      cases st.finish env with
      | error f => rfl
      | ok r => rfl

/-- What a successful call of `jraid5_run` has done. -/
theorem Jmddev.exists_runState {jmddev jmddev' : Jmddev} {sb : Superblock} {env : RunEnv}
    (h : jmddev.jraid5Run sb env = .ok (0, jmddev')) :
    ∃ st, jmddev.runState sb env = .ok (0, st) ∧ jmddev'.sb = some st.sb ∧
      jmddev'.conf = some st.conf := by
  rw [jraid5Run_eq] at h
  split at h
  · exact absurd (Prod.mk.inj (Except.ok.inj h)).1 (by decide)
  split at h
  · exact absurd (Prod.mk.inj (Except.ok.inj h)).1 (by decide)
  obtain ⟨⟨err, st⟩, hst, heq⟩ := Except.exists_of_map_eq_ok h
  obtain ⟨rfl, rfl⟩ := Prod.mk.inj heq
  exact ⟨st, hst, rfl, rfl⟩

/-- What the loops and the rest come to is what `jraid5_run` comes to. -/
theorem Jmddev.exists_jraid5Run {jmddev : Jmddev} {sb : Superblock} {env : RunEnv} {st : RunState}
    (hlevel : sb.level = 5 ∨ sb.level = 4) (hconf : env.conf = true) (hhashtbl : env.hashtbl = true)
    (h : jmddev.runState sb env = .ok (0, st)) :
    ∃ jmddev', jmddev.jraid5Run sb env = .ok (0, jmddev') := by
  have hno : ¬ (sb.level ≠ 5 ∧ sb.level ≠ 4) := fun hno => hlevel.elim hno.1 hno.2
  rw [jraid5Run_eq, if_neg hno, if_neg (by simp [hconf, hhashtbl]), h]
  exact ⟨_, rfl⟩

/-- After the two loops. -/
theorem Jmddev.filled {jmddev : Jmddev} {sb : Superblock} {st : RunState}
    (h : jmddev.fillSlots sb = .ok st) : st.Filled sb jmddev.disks := by
  unfold fillSlots at h
  cases hplace : RunState.placeMembers ⟨sb, fun _ => Slot.zero, 0⟩ jmddev.disks with
  | error f => simp [hplace, Except.bind] at h
  | ok st₁ =>
    rw [hplace] at h
    exact ((RunState.Filled.nil sb).placeMembers hplace).placeAllFaulty h

/-- The slots and the marks of an array that has been started, from the superblock and the members
that `jraid5_run` was called with. -/
structure Jmddev.Seated (jmddev : Jmddev) (sb : Superblock) (st : RunState) : Prop where
  shape : st.sb.shape = sb.shape
  raidDisks : sb.raidDisks.toNat ≤ mdSbDisks
  /-- a member names a descriptor, and this a slot or none -/
  named : ∀ jrdev ∈ jmddev.disks, ∃ i, descIndex jrdev.descNr = some i ∧
    ((sb.disks i).raidDisk ≤ sb.raidDisks → (sb.disks i).raidDisk.toNat < mdSbDisks)
  slot : ∀ k jrdev i, sb.occupant jmddev.disks k = some jrdev → descIndex jrdev.descNr = some i →
    st.slots k = (sb.disks i).slot jrdev
  operational : ∀ k, (st.slots k).operational = (sb.occupant jmddev.disks k).isSome
  workingDisks : st.workingDisks = Int32.ofNat (sb.taken jmddev.disks).card
  /-- at most one disk is missing -/
  enough : ¬ 1 < sb.raidDisks.toInt32 - st.workingDisks
  /-- a descriptor is in sync if it has the number of a member in one of the slots of the array -/
  sync : ∀ i, (st.sb.disks i).sync = true ↔ ∃ i' k : Fin mdSbDisks,
    sb.InSlot jmddev.disks i' k ∧ (k : ℕ) < sb.raidDisks.toNat ∧
      (sb.disks i).number = (sb.disks i').number

/-- **The slots of a started array.** -/
theorem Jmddev.seated {jmddev : Jmddev} {sb : Superblock} {env : RunEnv} {st : RunState}
    (h : jmddev.runState sb env = .ok (0, st)) : jmddev.Seated sb st := by
  unfold runState at h
  cases hfill : jmddev.fillSlots sb with
  | error f => simp [hfill, Except.bind] at h
  | ok st₁ =>
    rw [hfill] at h
    have hf := filled hfill
    have hend := RunState.finished h
    refine ⟨hend.shape.trans hf.shape, hf.raidDisks ▸ hend.raidDisks, hf.named, fun k => ?_,
      fun k => ?_, hend.workingDisks.trans hf.workingDisks, ?_, fun i => ?_⟩
    · rw [hend.slots]
      exact hf.slot k
    · rw [hend.slots]
      exact hf.operational k
    · rw [← hf.raidDisks, hend.workingDisks]
      exact hend.passes.2.2
    · rw [hend.sync i, hf.raidDisks]
      constructor
      · rintro ⟨k, hk, hop, hnumber⟩
        rw [hf.operational k] at hop
        obtain ⟨m, hm⟩ := Option.isSome_iff_exists.mp hop
        obtain ⟨i', hi', -⟩ := hf.named m (FirstClaim.mem_of_holder hm)
        rw [hf.slot k m i' hm hi', Disk.slot, UInt32.toUInt32_toInt32, hf.number i] at hnumber
        exact ⟨i', k, ⟨m, hm, hi'⟩, hk, hnumber⟩
      · rintro ⟨i', k, ⟨m, hm, hi'⟩, hk, hnumber⟩
        refine ⟨k, hk, by rw [hf.operational k, hm]; rfl, ?_⟩
        rw [hf.slot k m i' hm hi', Disk.slot, UInt32.toUInt32_toInt32, hf.number i]
        exact hnumber

/-- A member in a slot makes it operational, and its slot is not behind that past the end. -/
theorem Jmddev.Seated.of_inSlot {jmddev : Jmddev} {sb : Superblock} {st : RunState}
    (h : jmddev.Seated sb st) {i k : Fin mdSbDisks} (hk : sb.InSlot jmddev.disks i k) :
    (st.slots k).operational = true ∧ (k : ℕ) ≤ sb.raidDisks.toNat := by
  obtain ⟨m, hm, hi⟩ := hk
  obtain ⟨i', hi', hle, heq⟩ := Superblock.slotOf_eq_some_iff.mp (FirstClaim.key_of_holder hm)
  rw [h.operational, hm]
  exact ⟨rfl, heq ▸ UInt32.le_iff_toNat_le.mp hle⟩

/-! ### How many slots are operational -/

/-- The operational slots from 0 to `raid_disks - 1`. -/
def RunState.operationalSlots (st : RunState) : Finset (Fin mdSbDisks) :=
  Finset.univ.filter fun k => (k : ℕ) < st.sb.raidDisks.toNat ∧ (st.slots k).operational = true

/-- The number of the slots that are taken fits. -/
theorem Superblock.card_taken_le (sb : Superblock) (disks : List Rdev) :
    (sb.taken disks).card ≤ mdSbDisks :=
  (Finset.card_le_univ _).trans (Fintype.card_fin _).le

theorem Jmddev.Seated.toInt_workingDisks {jmddev : Jmddev} {sb : Superblock} {st : RunState}
    (h : jmddev.Seated sb st) : st.workingDisks.toInt = (sb.taken jmddev.disks).card := by
  have hle : (sb.taken jmddev.disks).card ≤ 27 := sb.card_taken_le jmddev.disks
  rw [h.workingDisks, Int32.toInt_ofNat_of_lt (by omega)]

theorem Jmddev.Seated.le_workingDisks {jmddev : Jmddev} {sb : Superblock} {st : RunState}
    (h : jmddev.Seated sb st) : sb.raidDisks.toNat - 1 ≤ (sb.taken jmddev.disks).card := by
  have hle : (sb.taken jmddev.disks).card ≤ 27 := sb.card_taken_le jmddev.disks
  have hraid : sb.raidDisks.toNat ≤ 27 := h.raidDisks
  have henough := h.enough
  have htoInt : sb.raidDisks.toInt32.toInt = sb.raidDisks.toNat := toInt_toInt32 (by omega)
  rw [Int32.lt_iff_toInt_lt, Int32.toInt_sub, htoInt, h.toInt_workingDisks,
    Int.bmod_eq_of_le (by omega) (by omega)] at henough
  change ¬ (1 : ℤ) < _ at henough
  omega

/-- The operational slots are those that are taken and lie in front of the end. -/
theorem Jmddev.Seated.operationalSlots_eq {jmddev : Jmddev} {sb : Superblock} {st : RunState}
    (h : jmddev.Seated sb st) :
    st.operationalSlots =
      (sb.taken jmddev.disks).filter fun k : Fin mdSbDisks => (k : ℕ) < sb.raidDisks.toNat := by
  have hraid : st.sb.raidDisks = sb.raidDisks := congrArg Shape.raidDisks h.shape
  ext k
  rw [RunState.operationalSlots, Finset.mem_filter, Finset.mem_filter, Superblock.taken,
    FirstClaim.held, Finset.mem_filter, h.operational, hraid]
  exact ⟨fun hk => ⟨⟨hk.1, hk.2.2⟩, hk.2.1⟩, fun hk => ⟨hk.1.1, hk.2, hk.1.2⟩⟩

/-- An operational slot has a device. -/
theorem Jmddev.Seated.isSome_jrdev {jmddev : Jmddev} {sb : Superblock} {st : RunState}
    (h : jmddev.Seated sb st) {k : Fin mdSbDisks} (hk : (st.slots k).operational = true) :
    (st.slots k).jrdev.isSome := by
  rw [h.operational] at hk
  obtain ⟨m, hm⟩ := Option.isSome_iff_exists.mp hk
  obtain ⟨i, hi, -⟩ := h.named m (FirstClaim.mem_of_holder hm)
  rw [h.slot k m i hm hi]
  rfl

/-! ### The devices in the slots -/

/-- Only a slot in use has a device. -/
def RunState.Bound (st : RunState) : Prop :=
  ∀ k dev, (st.slots k).jrdev = some dev →
    (st.slots k).operational = true ∧ (st.slots k).usedSlot = true

theorem RunState.Bound.placeMember {st st' : RunState} (h : st.Bound) {jrdev : Rdev}
    (hplace : st.placeMember jrdev = .ok st') : st'.Bound := by
  unfold RunState.placeMember at hplace
  split at hplace
  · cases hplace
  dsimp only at hplace
  split at hplace
  · rw [← Except.ok.inj hplace]
    exact h
  split at hplace
  · cases hplace
  rename_i k hk
  split at hplace
  · rw [← Except.ok.inj hplace]
    exact h
  · rw [← Except.ok.inj hplace]
    intro j dev hdev
    dsimp only at hdev ⊢
    by_cases hj : j = k
    · rw [hj, Function.update_self]
      exact ⟨rfl, rfl⟩
    · rw [Function.update_of_ne hj] at hdev ⊢
      exact h j dev hdev

theorem RunState.Bound.placeMembers {st st' : RunState} (h : st.Bound) {disks : List Rdev}
    (hplace : st.placeMembers disks = .ok st') : st'.Bound := by
  induction disks generalizing st with
  | nil => rwa [← Except.ok.inj hplace]
  | cons jrdev rest ih =>
    rw [RunState.placeMembers] at hplace
    split at hplace
    · cases hplace
    rename_i hone
    exact ih (h.placeMember hone) hplace

/-- A faulty descriptor takes a slot that is not in use, and so one without a device. -/
theorem RunState.Bound.placeFaulty {st st' : RunState} (h : st.Bound) {i : Fin mdSbDisks}
    (hplace : st.placeFaulty i = .ok st') : st'.Bound := by
  unfold RunState.placeFaulty at hplace
  dsimp only at hplace
  split at hplace
  · split at hplace
    · cases hplace
    rename_i k hk
    split at hplace
    · rwa [← Except.ok.inj hplace]
    rename_i hunused
    rw [← Except.ok.inj hplace]
    intro j dev hdev
    dsimp only at hdev ⊢
    by_cases hj : j = k
    · rw [hj, Function.update_self] at hdev
      exact absurd (h k dev hdev).2 hunused
    · rw [Function.update_of_ne hj] at hdev ⊢
      exact h j dev hdev
  · rwa [← Except.ok.inj hplace]

theorem RunState.Bound.placeAllFaulty {st st' : RunState} (h : st.Bound)
    {is : List (Fin mdSbDisks)} (hplace : st.placeAllFaulty is = .ok st') : st'.Bound := by
  induction is generalizing st with
  | nil => rwa [← Except.ok.inj hplace]
  | cons i is ih =>
    rw [RunState.placeAllFaulty] at hplace
    split at hplace
    · cases hplace
    rename_i hone
    exact ih (h.placeFaulty hone) hplace

theorem Jmddev.bound {jmddev : Jmddev} {sb : Superblock} {st : RunState}
    (h : jmddev.fillSlots sb = .ok st) : st.Bound := by
  unfold fillSlots at h
  cases hplace : RunState.placeMembers ⟨sb, fun _ => Slot.zero, 0⟩ jmddev.disks with
  | error f => simp [hplace, Except.bind] at h
  | ok st₁ =>
    rw [hplace] at h
    have hzero : RunState.Bound ⟨sb, fun _ => Slot.zero, 0⟩ := fun _ _ hdev => nomatch hdev
    exact (hzero.placeMembers hplace).placeAllFaulty h

/-- A slot with a device holds that of the member that it has gone to. -/
theorem Jmddev.exists_occupant {jmddev : Jmddev} {sb : Superblock} {st : RunState}
    (h : jmddev.fillSlots sb = .ok st) {k : Fin mdSbDisks} {dev : DevT}
    (hdev : (st.slots k).jrdev = some dev) :
    ∃ m ∈ jmddev.disks, m.dev = dev ∧ sb.slotOf m = some k := by
  have hfilled := filled h
  have hoperational := (bound h k dev hdev).1
  rw [hfilled.operational] at hoperational
  obtain ⟨m, hm⟩ := Option.isSome_iff_exists.mp hoperational
  obtain ⟨j, hj, -⟩ := hfilled.named m (FirstClaim.mem_of_holder hm)
  rw [hfilled.slot k m j hm hj] at hdev
  exact ⟨m, FirstClaim.mem_of_holder hm, Option.some.inj hdev, FirstClaim.key_of_holder hm⟩

end Jmd

end JRaid
