import JRaid.Jmd.AddNewDisk
import Mathlib.Logic.Function.Basic

/-!
# Writing the superblocks

`write_disk_sb` and `jmd_update_sb`. A pass of `jmd_update_sb` counts an event in the array
superblock, brings the members' copies up to date and submits a write for each member that
is not faulty; it is repeated, at most a hundred times, while the codes that
`write_disk_sb` returns do not add up to 0.

The writes are asynchronous and their errors are only reported, so `jmdUpdateSb` also yields
the writes that it submits, in order: the devices afterwards are the ones before with these
writes carried out.
-/

namespace JRaid

namespace Jmd

/-! ### `write_disk_sb` -/

/-- What the kernel answers during `write_disk_sb`. -/
structure WriteEnv where
  /-- `bio_kmalloc` -/
  bio : Bool
  /-- `alloc_page`, and what is in the page -/
  page : Option SbPage
  /-- the transfer succeeds, if it is on the device -/
  io : Bool

/-- A write that `write_disk_sb` submits. -/
structure SbWrite where
  dev : DevT
  sector : UInt64
  page : SbPage
  io : Bool

/-- `write_disk_sb`: its code, and the write that it submits. The structure is copied into a new
page, all of which is written. -/
def Jmddev.writeDiskSb (jmddev : Jmddev) (env : WriteEnv) (jrdev : Rdev) :
    Int32 × Option SbWrite :=
  if !env.bio then (-enomem, none)
  else
    match env.page with
    | none => (-enomem, none)
    | some page =>
      if jrdev.faulty then (-1, none)
      else if jrdev.sb.mdMagic ≠ mdSbMagic then (-1, none)
      else
        let sbOffset := jmddev.calcDevSboffset jrdev.dev true
        if jrdev.sbOffset ≠ sbOffset then (1, none)
        else if jmddev.calcDevSize jrdev.dev true ≠ jrdev.size then (1, none)
        else (0, some ⟨jrdev.dev, sbOffset, page.withSb jrdev.sb, env.io⟩)

/-- The devices after a write has been carried out. -/
def SbWrite.carryOut (device : DevT → BlockDev) (w : SbWrite) : DevT → BlockDev :=
  if w.io then Function.update device w.dev ((device w.dev).write w.sector w.page) else device

/-- The calls of `write_disk_sb` in one pass of `jmd_update_sb`. -/
def Jmddev.writeDiskSbs (jmddev : Jmddev) (env : ℕ → WriteEnv) :
    List (Int32 × Option SbWrite) :=
  (jmddev.disks.zipIdx.filter fun m => !m.1.faulty).map fun m =>
    jmddev.writeDiskSb (env m.2) m.1

/-! ### `jmd_update_sb` -/

/-- What the kernel answers during a pass of `jmd_update_sb`: the time, and the answers for
each member. -/
structure PassEnv where
  seconds : UInt32
  write : ℕ → WriteEnv

/-- Count an event; the counter is kept in two words. -/
def Superblock.countEvent (sb : Superblock) : Superblock :=
  let sb := { sb with eventsLo := sb.eventsLo + 1 }
  let sb := if sb.eventsLo = 0 then { sb with eventsHi := sb.eventsHi + 1 } else sb
  if sb.eventsLo ||| sb.eventsHi = 0 then
    { sb with eventsLo := 0xffffffff, eventsHi := 0xffffffff }
  else sb

/-- The array superblock that a pass of `jmd_update_sb` makes. -/
def Superblock.nextPass (sb : Superblock) (seconds : UInt32) : Superblock :=
  { sb with utime := seconds }.countEvent

/-- A pass changes the time and the counter only. -/
theorem Superblock.exists_nextPass (sb : Superblock) (seconds : UInt32) :
    ∃ lo hi, sb.nextPass seconds =
      { sb with utime := seconds, eventsLo := lo, eventsHi := hi } := by
  unfold nextPass countEvent
  dsimp only
  split <;> split <;> exact ⟨_, _, rfl⟩

/-- The part of a pass of `jmd_update_sb` before the writes. -/
def Jmddev.syncPass (jmddev : Jmddev) (sb : Superblock) (seconds : UInt32) : Jmddev :=
  let sb := sb.nextPass seconds
  { jmddev with sb := some sb, disks := syncSbs sb jmddev.disks }

/-- The writes that a pass submits. -/
def Jmddev.submitted (jmddev : Jmddev) (env : ℕ → WriteEnv) : List SbWrite :=
  (jmddev.writeDiskSbs env).filterMap Prod.snd

/-- The sum of the codes in a pass. -/
def Jmddev.writeErr (jmddev : Jmddev) (env : ℕ → WriteEnv) : Int32 :=
  ((jmddev.writeDiskSbs env).map Prod.fst).foldl (· + ·) 0

/-- Carry out the writes of a list. -/
def Jmddev.carryOut (jmddev : Jmddev) (log : List SbWrite) : Jmddev :=
  { jmddev with device := log.foldl SbWrite.carryOut jmddev.device }

/-- The loop of `jmd_update_sb`, with `count` passes left: the array afterwards and the writes
that have been submitted. -/
def Jmddev.updatePasses (env : ℕ → PassEnv) : ℕ → Jmddev → Except Fault (Jmddev × List SbWrite)
  | 0, jmddev => .ok (jmddev, [])
  | count + 1, jmddev =>
    match jmddev.sb with
    | none => .error .badPointer
    | some sb =>
      let sb' := sb.nextPass (env count).seconds
      let synced := jmddev.syncPass sb (env count).seconds
      if sb'.notPersistent ≠ 0 then .ok (synced, [])
      else
        let log := synced.submitted (env count).write
        let written := synced.carryOut log
        if synced.writeErr (env count).write ≠ 0 ∧ count ≠ 0 then
          (written.updatePasses env count).map fun r => (r.1, log ++ r.2)
        else .ok (written, log)

/-- `jmd_update_sb`. -/
def Jmddev.jmdUpdateSb (jmddev : Jmddev) (env : ℕ → PassEnv) :
    Except Fault (Jmddev × List SbWrite) :=
  jmddev.updatePasses env 100

/-- **The rule for `jmd_update_sb`**: what it does is composed of counting an event and bringing
the copies up to date, and of writing them. -/
theorem Jmddev.updatePasses_induct {motive : Jmddev → Jmddev → List SbWrite → Prop}
    (done : ∀ s, motive s s [])
    (sync : ∀ s sb seconds s' log, s.sb = some sb → motive (s.syncPass sb seconds) s' log →
      motive s s' log)
    (write : ∀ s env s' log, motive (s.carryOut (s.submitted env)) s' log →
      motive s s' (s.submitted env ++ log))
    {env : ℕ → PassEnv} {count : ℕ} {s s' : Jmddev} {log : List SbWrite}
    (h : s.updatePasses env count = .ok (s', log)) : motive s s' log := by
  induction count generalizing s log with
  | zero =>
    obtain ⟨rfl, rfl⟩ := Prod.mk.inj (Except.ok.inj h)
    exact done s
  | succ count ih =>
    rw [updatePasses] at h
    split at h
    · cases h
    rename_i sb hsb
    simp only at h
    refine sync s sb (env count).seconds s' log hsb ?_
    split at h
    · obtain ⟨rfl, rfl⟩ := Prod.mk.inj (Except.ok.inj h)
      exact done _
    split at h
    · -- another pass follows
      cases hrest : ((s.syncPass sb (env count).seconds).carryOut
          ((s.syncPass sb (env count).seconds).submitted (env count).write)).updatePasses
            env count with
      | error f => simp [hrest, Except.map] at h
      | ok r =>
        rw [hrest] at h
        obtain ⟨rfl, rfl⟩ := Prod.mk.inj (Except.ok.inj h)
        exact write _ _ _ _ (ih hrest)
    · obtain ⟨rfl, rfl⟩ := Prod.mk.inj (Except.ok.inj h)
      have hwrite := write (s.syncPass sb (env count).seconds) (env count).write _ [] (done _)
      rwa [List.append_nil] at hwrite

/-- What it takes for a write to be submitted. -/
theorem Jmddev.of_writeDiskSb {jmddev : Jmddev} {env : WriteEnv} {jrdev : Rdev} {w : SbWrite}
    (h : (jmddev.writeDiskSb env jrdev).2 = some w) :
    jrdev.faulty = false ∧ jrdev.sb.mdMagic = mdSbMagic ∧ ∃ page, env.page = some page ∧
      w = ⟨jrdev.dev, jmddev.calcDevSboffset jrdev.dev true, page.withSb jrdev.sb, env.io⟩ := by
  unfold writeDiskSb at h
  split at h
  · cases h
  split at h
  · cases h
  rename_i page hpage
  split at h
  · cases h
  rename_i hfaulty
  split at h
  · cases h
  rename_i hmagic
  simp only at h
  split at h
  · cases h
  split at h
  · cases h
  exact ⟨Bool.eq_false_iff.mpr hfaulty, not_not.mp hmagic, page, hpage, (Option.some.inj h).symm⟩

/-- A submitted write is that of a member. -/
theorem Jmddev.of_mem_submitted {jmddev : Jmddev} {env : ℕ → WriteEnv} {w : SbWrite}
    (h : w ∈ jmddev.submitted env) :
    ∃ jrdev ∈ jmddev.disks, ∃ i, (jmddev.writeDiskSb (env i) jrdev).2 = some w := by
  obtain ⟨r, hr, hw⟩ := List.mem_filterMap.mp h
  obtain ⟨m, hm, rfl⟩ := List.mem_map.mp hr
  exact ⟨m.1, List.fst_mem_of_mem_zipIdx (List.mem_of_mem_filter hm), m.2, hw⟩

/-! ### What a write does to the devices -/

@[simp]
theorem SbWrite.sectors_carryOut (device : DevT → BlockDev) (w : SbWrite) (dev : DevT) :
    (w.carryOut device dev).sectors = (device dev).sectors := by
  unfold carryOut
  split
  · rcases eq_or_ne dev w.dev with rfl | hne
    · simp
    · simp [hne]
  · rfl

/-- A write leaves the other devices alone. -/
theorem SbWrite.carryOut_of_ne (device : DevT → BlockDev) {w : SbWrite} {dev : DevT}
    (h : w.dev ≠ dev) : w.carryOut device dev = device dev := by
  unfold carryOut
  split
  · exact Function.update_of_ne h.symm _ _
  · rfl

@[simp]
theorem sectors_foldl_carryOut (log : List SbWrite) (device : DevT → BlockDev) (dev : DevT) :
    (log.foldl SbWrite.carryOut device dev).sectors = (device dev).sectors := by
  induction log generalizing device with
  | nil => rfl
  | cons w log ih => rw [List.foldl_cons, ih, SbWrite.sectors_carryOut]

/-- **The last write to a device decides** what is read there, if it was carried out. -/
theorem read_foldl_carryOut {log : List SbWrite} {device : DevT → BlockDev} {w : SbWrite}
    (hlast : log.reverse.find? (fun v => v.dev = w.dev) = some w) (hio : w.io = true)
    (hholds : (device w.dev).Holds w.sector) :
    (log.foldl SbWrite.carryOut device w.dev).read w.sector = some w.page := by
  induction log using List.reverseRecOn with
  | nil => cases hlast
  | append_singleton log v ih =>
    rw [List.foldl_append, List.foldl_cons, List.foldl_nil]
    rw [List.reverse_append, List.reverse_singleton, List.singleton_append,
      List.find?_cons] at hlast
    by_cases hv : v.dev = w.dev
    · obtain rfl : v = w := by simpa [hv] using hlast
      rw [SbWrite.carryOut, if_pos hio, Function.update_self]
      refine BlockDev.read_write ?_ v.page
      rwa [BlockDev.Holds, sectors_foldl_carryOut]
    · rw [SbWrite.carryOut_of_ne _ hv]
      exact ih (by simpa [hv] using hlast)

/-! ### What `jmd_update_sb` does to the devices -/

/-- The superblock of a device is written where `calc_dev_sboffset` puts it. -/
theorem Jmddev.sector_of_mem_submitted {jmddev : Jmddev} {env : ℕ → WriteEnv} {w : SbWrite}
    (h : w ∈ jmddev.submitted env) :
    w.dev ∈ jmddev.disks.map Rdev.dev ∧
      w.sector = mdNewSizeBlocks (jmddev.device w.dev).sectors := by
  obtain ⟨jrdev, hmem, i, hw⟩ := of_mem_submitted h
  obtain ⟨-, -, page, -, rfl⟩ := of_writeDiskSb hw
  have hdev : jrdev.dev ∈ jmddev.disks.map Rdev.dev := List.mem_map_of_mem hmem
  exact ⟨hdev, jmddev.calcDevSboffset_of_mem hdev true⟩

/-- **What `jmd_update_sb` does to the devices**: it carries out the writes that it submits,
which all go to the place of the superblock. -/
theorem Jmddev.updatePasses_device {env : ℕ → PassEnv} {count : ℕ} {s s' : Jmddev}
    {log : List SbWrite} (h : s.updatePasses env count = .ok (s', log)) :
    s'.device = log.foldl SbWrite.carryOut s.device ∧
      ∀ w ∈ log, w.sector = mdNewSizeBlocks (s.device w.dev).sectors := by
  refine updatePasses_induct (motive := fun s s' log =>
    s'.device = log.foldl SbWrite.carryOut s.device ∧
      ∀ w ∈ log, w.sector = mdNewSizeBlocks (s.device w.dev).sectors) ?_ ?_ ?_ h
  · exact fun s => ⟨rfl, fun w hw => absurd hw List.not_mem_nil⟩
  · exact fun s sb seconds s' log _ hrest => hrest
  · rintro s env s' log ⟨hdevice, hsector⟩
    refine ⟨?_, fun w hw => ?_⟩
    · rw [List.foldl_append, hdevice]
      rfl
    · rcases List.mem_append.mp hw with hw | hw
      · exact (sector_of_mem_submitted hw).2
      · have hrest := hsector w hw
        rwa [carryOut, sectors_foldl_carryOut] at hrest

end Jmd

end JRaid
