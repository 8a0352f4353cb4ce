import JRaid.Jmd.AddNewDisk
import Mathlib.Data.List.MinMax

/-!
# Choosing and checking a superblock

`analyze_sbs` looks at the superblocks of all members before the array is started. It sets
back the event counter of a member whose checksum is wrong, copies the freshest superblock
into the array's (`Jmddev.adopt`), follows members that have changed their device number
(`renamePass`), drops descriptors without a member (`Superblock.dropDescriptor`), and checks
that what is left fits together.

When it gives up half way, what it has changed until then stays changed.
-/

namespace JRaid

namespace Jmd

/-! ### The event counter -/

/-- The counter is the two words side by side. -/
theorem Superblock.toNat_event (sb : Superblock) :
    sb.event.toNat = sb.eventsHi.toNat * 2 ^ 32 + sb.eventsLo.toNat := by
  have hhi := sb.eventsHi.toNat_lt
  have hlo := sb.eventsLo.toNat_lt
  have hshift : (sb.eventsHi.toUInt64 <<< 32).toNat = sb.eventsHi.toNat <<< 32 := by
    rw [UInt64.toNat_shiftLeft, UInt32.toNat_toUInt64, Nat.shiftLeft_eq, Nat.shiftLeft_eq]
    exact Nat.mod_eq_of_lt (by change sb.eventsHi.toNat * 2 ^ 32 < 2 ^ 64; omega)
  rw [event, UInt64.toNat_or, hshift, UInt32.toNat_toUInt64, ← Nat.shiftLeft_add_eq_or_of_lt hlo,
    Nat.shiftLeft_eq]

/-- Set the event counter back by one, with the borrow. -/
def Superblock.uncountEvent (sb : Superblock) : Superblock :=
  let sb' := { sb with eventsLo := sb.eventsLo - 1 }
  if sb.eventsLo = 0 then { sb' with eventsHi := sb.eventsHi - 1 } else sb'

/-- A counter that is not 0 is set back if the checksum is wrong. -/
def Rdev.age (jrdev : Rdev) : Rdev :=
  if (jrdev.sb.eventsLo ≠ 0 ∨ jrdev.sb.eventsHi ≠ 0) ∧
      jrdev.page.calcSbCsum ≠ jrdev.sb.sbCsum then
    jrdev.withPage (jrdev.page.withSb jrdev.sb.uncountEvent)
  else jrdev

/-- A superblock that verifies keeps its counter. -/
theorem Rdev.age_of_verifies {jrdev : Rdev} (h : jrdev.page.calcSbCsum = jrdev.sb.sbCsum) :
    jrdev.age = jrdev :=
  if_neg fun hbad => hbad.2 h

/-! ### The freshest superblock -/

/-- The scan for the freshest member. -/
def freshest (disks : List Rdev) : Option Rdev :=
  disks.foldl (fun best jrdev =>
    match best with
    | none => some jrdev
    | some f => if f.sb.event < jrdev.sb.event then some jrdev else some f) none

/-- **The scan finds the first member with the largest counter.** -/
theorem freshest_eq_argmax (disks : List Rdev) :
    freshest disks = disks.argmax fun jrdev => jrdev.sb.event.toNat := by
  rw [freshest, List.argmax]
  congr 1
  funext best jrdev
  cases best with
  | none => rfl
  | some f => simp only [UInt64.lt_iff_toNat_lt, List.argAux]

theorem mem_of_freshest {disks : List Rdev} {jrdev : Rdev} (h : freshest disks = some jrdev) :
    jrdev ∈ disks := by
  rw [freshest_eq_argmax] at h
  exact List.argmax_mem h

theorem event_le_of_freshest {disks : List Rdev} {f jrdev : Rdev} (h : freshest disks = some f)
    (hmem : jrdev ∈ disks) : jrdev.sb.event.toNat ≤ f.sb.event.toNat := by
  rw [freshest_eq_argmax] at h
  exact List.le_of_mem_argmax (f := fun jrdev : Rdev => jrdev.sb.event.toNat) hmem h

/-- `analyze_sbs` up to the copy into the array superblock: the array superblock and the members
afterwards, or nothing if it gives up. -/
def Jmddev.adopt (jmddev : Jmddev) (alloc : Bool) :
    Except Fault (Option (Superblock × List Rdev)) :=
  if jmddev.disks.any fun jrdev => jrdev.faulty || jrdev.checkDiskSb != 0 then .ok none
  else
    match allocArraySb jmddev.sb alloc with
    | none => .ok none
    | some _ =>
      let disks := jmddev.disks.map Rdev.age
      match freshest disks with
      | none => .error .badPointer
      | some f => .ok (some (f.sb, disks))

/-! ### Members that have moved -/

/-- Enter a device number into a descriptor. -/
def Disk.withDev (d : Disk) (dev : DevT) : Disk :=
  { d with major := Jmd.major dev, minor := Jmd.minor dev }

/-- The member is up to date but has another device number than when it was last imported. -/
def Rdev.Moved (jrdev : Rdev) (sb : Superblock) : Prop :=
  jrdev.dev ≠ jrdev.oldDev ∧ (jrdev.sb.event = sb.event ∨ jrdev.sb.event = sb.event - 1)

instance (jrdev : Rdev) (sb : Superblock) : Decidable (jrdev.Moved sb) :=
  inferInstanceAs (Decidable (_ ∧ _))

/-- The loop of `analyze_sbs` that follows members to their new device numbers, in the array
superblock and in their own copy. It is left early with `false`. -/
def renamePass (sb : Superblock) : List Rdev → Except Fault (Bool × Superblock × List Rdev)
  | [] => .ok (true, sb, [])
  | jrdev :: rest =>
    if jrdev.faulty then .ok (false, sb, jrdev :: rest)
    else if jrdev.Moved sb then
      if jrdev.descNr = -1 then .ok (false, sb, jrdev :: rest)
      else
        match descIndex jrdev.descNr with
        | none => .error .outOfTable
        | some i =>
          if jrdev.oldDev ≠ (sb.disks i).dev then .ok (false, sb, jrdev :: rest)
          else
            let jrdev := jrdev.withPage (jrdev.page.withSb
              { jrdev.sb with thisDisk := jrdev.sb.thisDisk.withDev jrdev.dev })
            (renamePass (sb.setDisk i ((sb.disks i).withDev jrdev.dev)) rest).map fun r =>
              (r.1, r.2.1, jrdev :: r.2.2)
    else (renamePass sb rest).map fun r => (r.1, r.2.1, jrdev :: r.2.2)

/-! ### Descriptors without a member -/

/-- `remove_descriptor`. -/
def Superblock.removeDescriptor (sb : Superblock) (i : Fin mdSbDisks) : Superblock :=
  let disk := sb.disks i
  let sb :=
    if disk.active then { sb with workingDisks := sb.workingDisks - 1 }
    else if disk.spare then
      { sb with spareDisks := sb.spareDisks - 1, workingDisks := sb.workingDisks - 1 }
    else { sb with failedDisks := sb.failedDisks - 1 }
  let sb := { sb with nrDisks := sb.nrDisks - 1 }
  sb.setDisk i { disk with major := 0, minor := 0 }.markRemoved

/-- The body of the loop of `analyze_sbs` that drops descriptors. -/
def Superblock.dropDescriptor (disks : List Rdev) (sb : Superblock) (i : Fin mdSbDisks) :
    Superblock :=
  let desc := sb.disks i
  let found := disks.any fun jrdev => jrdev.descNr.toUInt32 = desc.number
  if desc.faulty then
    if !found ∧ desc.dev = mkdev 0 0 then sb else sb.removeDescriptor i
  else if desc.dev = mkdev 0 0 then sb
  else if found then sb
  else sb.removeDescriptor i

/-- That loop. -/
def Superblock.dropDescriptors (sb : Superblock) (disks : List Rdev) : Superblock :=
  (List.finRange mdSbDisks).foldl (Superblock.dropDescriptor disks) sb

/-! ### `analyze_sbs` -/

/-- The last checks of `analyze_sbs`: each descriptor in use is that of a member and not faulty,
no two members share a descriptor or a device, and the version is known. -/
def Superblock.Fits (sb : Superblock) (disks : List Rdev) : Prop :=
  (∀ i, (sb.disks i).dev ≠ mkdev 0 0 →
    (sb.disks i).faulty = false ∧ (sb.disks i).dev ∈ disks.map Rdev.dev) ∧
  (∀ jrdev ∈ disks, jrdev.descNr ≠ -1) ∧
  (disks.map Rdev.descNr).Nodup ∧ (disks.map Rdev.dev).Nodup ∧
  sb.majorVersion = mdMajorVersion ∧ sb.minorVersion ≤ mdMinorVersion

instance (sb : Superblock) (disks : List Rdev) : Decidable (sb.Fits disks) :=
  inferInstanceAs (Decidable (_ ∧ _))

/-- `analyze_sbs`. -/
def Jmddev.analyzeSbs (jmddev : Jmddev) (alloc : Bool) : Except Fault (Int32 × Jmddev) :=
  match jmddev.adopt alloc with
  | .error f => .error f
  | .ok none => .ok (1, jmddev)
  | .ok (some (sb, disks)) =>
    match renamePass sb disks with
    | .error f => .error f
    | .ok (false, sb, disks) => .ok (1, { jmddev with sb := some sb, disks := disks })
    | .ok (true, sb, disks) =>
      let sb := sb.dropDescriptors disks
      .ok (if sb.Fits disks then 0 else 1, { jmddev with sb := some sb, disks := disks })

end Jmd

end JRaid
