import JRaid.Jmd.AnalyzeSbs
import JRaid.Jmd.UpdateSb

/-!
# Starting the array

`do_jmd_run`: it lets `analyze_sbs` choose the superblock, checks the chunk size and the level,
computes the sizes (`device_size_calculation`), and has the personality set up its
configuration (`jraid5_run`). If all goes well it writes the superblocks.

The only personality is that of `jraid5`, registered for levels 4 and 5. What a failed start
has changed on the way stays changed.
-/

namespace JRaid

namespace Jmd

/-! ### `device_size_calculation` -/

/-- The loop of `device_size_calculation` over the members; it is left early with `false` if a
device is smaller than a chunk. -/
def sizePass (size : DevT → UInt64) (chunkSize : UInt32) : List Rdev → Bool × List Rdev
  | [] => (true, [])
  | jrdev :: rest =>
    if jrdev.faulty = true ∨ jrdev.size ≠ 0 then
      let r := sizePass size chunkSize rest
      (r.1, jrdev :: r.2)
    else
      let jrdev := { jrdev with size := size jrdev.dev }
      if jrdev.size < (chunkSize / 512).toUInt64 then (false, jrdev :: rest)
      else
        let r := sizePass size chunkSize rest
        (r.1, jrdev :: r.2)

/-- `zoned_jraid_size`: the members, and what is added to `jmd_size`. -/
def zonedJraidSize (sb : Superblock) (disks : List Rdev) : Int32 × List Rdev :=
  let mask := (~~~(sb.chunkSize / 1024 - 1)).toUInt64
  let disks := disks.map fun jrdev => { jrdev with size := jrdev.size &&& mask }
  (disks.foldl (fun total jrdev => total + int32OfULong jrdev.size) 0, disks)

/-- The `switch` of `device_size_calculation`: the number of data disks, and whether the members
are rounded to zones. -/
def Superblock.dataDisks (sb : Superblock) : Option (Int32 × Bool) :=
  if sb.level = -3 ∨ sb.level = -2 then some (1, false)
  else if sb.level = -1 then some (1, true)
  else if sb.level = 0 then some (sb.raidDisks.toInt32, true)
  else if sb.level = 1 then some (1, false)
  else if sb.level = 4 ∨ sb.level = 5 then some (sb.raidDisks.toInt32 - 1, false)
  else none

/-- `device_size_calculation`. The window for reading ahead, which nothing uses, is left out. -/
def Jmddev.deviceSizeCalculation (jmddev : Jmddev) (sb : Superblock) : Int32 × Jmddev :=
  let sized := sizePass (fun dev => jmddev.calcDevSize dev (sb.notPersistent = 0)) sb.chunkSize
    jmddev.disks
  let jmddev := { jmddev with disks := sized.2 }
  if !sized.1 then (-einval, jmddev)
  else
    match sb.dataDisks with
    | none => (1, jmddev)
    | some (dataDisks, zoned) =>
      let jmddev :=
        if zoned then
          let r := zonedJraidSize sb jmddev.disks
          { jmddev with jmdSize := jmddev.jmdSize + r.1, disks := r.2 }
        else jmddev
      let jmddev :=
        if jmddev.jmdSize = 0 then
          { jmddev with jmdSize := (sb.size * dataDisks.toUInt32).toInt32 }
        else jmddev
      (0, jmddev)

/-! ### `jraid5_run` -/

/-- A slot of `conf->disks` while `jraid5_run` fills it. -/
structure Slot where
  dev : DevT
  operational : Bool
  number : Int32
  raidDisk : Int32
  usedSlot : Bool
  jrdev : Option DevT

/-- A slot of zeros. -/
def Slot.zero : Slot := ⟨0, false, 0, 0, false, none⟩

/-- What `jraid5_run` has made of the superblock and of its configuration. -/
structure RunState where
  sb : Superblock
  slots : Fin mdSbDisks → Slot
  workingDisks : Int32

/-- The body of the first loop of `jraid5_run`, for one member. The two marks have just been set
when the source tests for them, so the member is never taken for a spare. -/
def RunState.placeMember (st : RunState) (jrdev : Rdev) : Except Fault RunState :=
  match descIndex jrdev.descNr with
  | none => .error .outOfTable
  | some i =>
    let desc := (st.sb.disks i).markActive.markSync
    let st := { st with sb := st.sb.setDisk i desc }
    if st.sb.raidDisks < desc.raidDisk then .ok st
    else
      match descIndex desc.raidDisk.toInt32 with
      | none => .error .outOfTable
      | some k =>
        if (st.slots k).operational then .ok st
        else
          .ok { st with
            slots := Function.update st.slots k
              ⟨jrdev.dev, true, desc.number.toInt32, desc.raidDisk.toInt32, true, some jrdev.dev⟩
            workingDisks := st.workingDisks + 1 }

/-- The first loop. -/
def RunState.placeMembers (st : RunState) : List Rdev → Except Fault RunState
  | [] => .ok st
  | jrdev :: rest =>
    match st.placeMember jrdev with
    | .error f => .error f
    | .ok st => st.placeMembers rest

/-- The body of the second loop, which fills the slots of faulty descriptors. -/
def RunState.placeFaulty (st : RunState) (i : Fin mdSbDisks) : Except Fault RunState :=
  let desc := st.sb.disks i
  if desc.faulty = true ∧ desc.raidDisk < st.sb.raidDisks then
    match descIndex desc.raidDisk.toInt32 with
    | none => .error .outOfTable
    | some k =>
      if (st.slots k).usedSlot then .ok st
      else
        .ok { st with
          slots := Function.update st.slots k
            ⟨mkdev 0 0, false, desc.number.toInt32, desc.raidDisk.toInt32, true,
              (st.slots k).jrdev⟩ }
  else .ok st

/-- The second loop. -/
def RunState.placeAllFaulty (st : RunState) : List (Fin mdSbDisks) → Except Fault RunState
  | [] => .ok st
  | i :: rest =>
    match st.placeFaulty i with
    | .error f => .error f
    | .ok st => st.placeAllFaulty rest

/-- The third loop: a descriptor is in sync if an operational slot has its number. -/
def RunState.markInSync (st : RunState) : Except Fault RunState :=
  if mdSbDisks < st.sb.raidDisks.toNat then .error .outOfTable
  else
    .ok { st with
      sb := { st.sb with
        disks := fun i =>
          let desc := (st.sb.disks i).markNonsync
          if ∃ j : Fin mdSbDisks, (j : ℕ) < st.sb.raidDisks.toNat ∧
              (st.slots j).operational = true ∧ desc.number = (st.slots j).number.toUInt32 then
            desc.markSync
          else desc } }

/-- `conf`, as `jraid5_run` leaves it. -/
def RunState.conf (st : RunState) : JRaid5Conf where
  chunkSize := st.sb.chunkSize.toInt32
  level := st.sb.level.toInt32
  algorithm := st.sb.layout.toInt32
  raidDisks := st.sb.raidDisks.toInt32
  bufferSize := 4096
  disks i :=
    if h : i < mdSbDisks then ⟨(st.slots ⟨i, h⟩).jrdev.map fun dev => ⟨dev.toNat⟩⟩ else ⟨none⟩

/-- What the kernel answers during `do_jmd_run`. -/
structure RunEnv where
  /-- `kzalloc` of the array superblock in `analyze_sbs` -/
  sb : Bool
  /-- the personality of `jraid5` is registered -/
  raid5 : Bool
  /-- `kmalloc` of the configuration -/
  conf : Bool
  /-- `__get_free_pages` for the hash table -/
  hashtbl : Bool
  /-- `jmd_register_thread` for `jraid5d` -/
  thread : Bool
  /-- `grow_stripes` -/
  stripes : Bool
  /-- `jmd_register_thread` for `jraid5syncd` -/
  resyncThread : Bool
  /-- the passes of `jmd_update_sb` -/
  update : ℕ → PassEnv

/-- The bit `MD_SB_CLEAN` of the state. -/
def Superblock.clean (sb : Superblock) : Bool := sb.state &&& ((1 : UInt32) <<< 0) != 0

/-- Clear the bit `MD_SB_CLEAN`. -/
def Superblock.clearClean (sb : Superblock) : Superblock :=
  { sb with state := sb.state &&& ~~~((1 : UInt32) <<< 0) }

/-- The part of `jraid5_run` after the slots have been filled: its code and the superblock. -/
def RunState.finish (st : RunState) (env : RunEnv) : Except Fault (Int32 × RunState) :=
  let conf := st.conf
  let failedDisks := conf.raidDisks - st.workingDisks
  if conf.chunkSize = 0 ∨ conf.chunkSize % 4 ≠ 0 then .ok (-eio, st)
  else if algorithmRightSymmetric < conf.algorithm then .ok (-eio, st)
  else if 1 < failedDisks then .ok (-eio, st)
  else
    let startRecovery := st.workingDisks.toUInt32 ≠ st.sb.raidDisks
    let st :=
      if ¬ startRecovery ∧ st.sb.clean = true then { st with sb := st.sb.clearClean } else st
    if !env.thread then .ok (-eio, st)
    else if !env.stripes then .ok (-eio, st)
    else
      match st.markInSync with
      | .error f => .error f
      | .ok st =>
        let st := { st with sb := { st.sb with activeDisks := st.workingDisks.toUInt32 } }
        if ¬ startRecovery ∧ st.sb.clean = false ∧ env.resyncThread = false then .ok (-eio, st)
        else .ok (0, st)

/-- `jraid5_run`. -/
def Jmddev.jraid5Run (jmddev : Jmddev) (sb : Superblock) (env : RunEnv) :
    Except Fault (Int32 × Jmddev) :=
  if sb.level ≠ 5 ∧ sb.level ≠ 4 then .ok (-eio, jmddev)
  else if !env.conf || !env.hashtbl then .ok (-eio, { jmddev with conf := none })
  else
    match RunState.placeMembers ⟨sb, fun _ => Slot.zero, 0⟩ jmddev.disks with
    | .error f => .error f
    | .ok st =>
      match st.placeAllFaulty (List.finRange mdSbDisks) with
      | .error f => .error f
      | .ok st =>
        match st.finish env with
        | .error f => .error f
        | .ok (err, st) =>
          .ok (err, { jmddev with
            sb := some st.sb
            conf := if err = 0 then some st.conf else none })

/-! ### `do_jmd_run` -/

/-- `ffz`: the lowest bit that is 0. Its value where there is none does not matter. -/
def ffz (word : UInt64) : ℕ := ((List.range 64).find? fun i => !word.toNat.testBit i).getD 64

/-- `level_to_pers`. -/
def levelToPers (level : Int32) : ℕ :=
  if level = -3 then 6
  else if level = -2 then 5
  else if level = -1 then 1
  else if level = 0 then 2
  else if level = 1 then 3
  else if level = 4 ∨ level = 5 then 4
  else 0

/-- The tests that `do_jmd_run` makes of the chunk size and the personality. -/
def Superblock.checkGeometry (sb : Superblock) (env : RunEnv) : Bool :=
  let chunkSize := sb.chunkSize.toInt32
  let pnum := levelToPers sb.level.toInt32
  !(4096 * 1024 < chunkSize) &&
  (1 : Int32) <<< Int32.ofNat (ffz (ulong (~~~chunkSize))) = chunkSize &&
  !(ulong chunkSize < 4096) &&
  pnum < 7 &&
  !(pnum ≠ 3 ∧ pnum ≠ 1 ∧ chunkSize = 0) &&
  pnum = 4 && env.raid5

/-- The part of `do_jmd_run` after the checks. -/
def Jmddev.startPers (jmddev : Jmddev) (sb : Superblock) (env : RunEnv) :
    Except Fault (Int32 × Jmddev) :=
  let sized := jmddev.deviceSizeCalculation sb
  if sized.1 ≠ 0 then .ok (-einval, sized.2)
  else
    match { sized.2 with pers := true }.jraid5Run sb env with
    | .error f => .error f
    | .ok (err, jmddev) =>
      if err ≠ 0 then .ok (-einval, { jmddev with pers := false })
      else
        match { jmddev with sb := jmddev.sb.map Superblock.clearClean }.jmdUpdateSb env.update with
        | .error f => .error f
        | .ok (jmddev, _) => .ok (0, { jmddev with nrSects := ulong (jmddev.jmdSize <<< 1) })

/-- `do_jmd_run`. -/
def Jmddev.doJmdRun (jmddev : Jmddev) (env : RunEnv) : Except Fault (Int32 × Jmddev) :=
  if jmddev.nbDev = 0 then .ok (-einval, jmddev)
  else if jmddev.pers then .ok (-ebusy, jmddev)
  else
    match { jmddev with jmdSize := 0 }.analyzeSbs env.sb with
    | .error f => .error f
    | .ok (err, jmddev) =>
      if err ≠ 0 then .ok (-einval, jmddev)
      else
        match jmddev.sb with
        | none => .error .badPointer
        | some sb =>
          if !sb.checkGeometry env then .ok (-einval, jmddev) else jmddev.startPers sb env

end Jmd

end JRaid
