import JRaid.ForMathlib.RunningMin
import JRaid.Jmd.Reachable

/-!
# How a stopped array is supplied

An array gets its superblock in one of two ways, and until it runs the invariant
`Jmddev.Supplied` tells them apart. If `set_array_info` has made it, the array is `Sized`: each
member has been bound with the offset that `calc_dev_sboffset` gives its superblock, and
`sb->size` is the running minimum of the sizes that the members' devices offer. If not, the first
member has been bound with its own superblock and with `sb_offset` 0, and what the array has
later been given it has adopted from a member.

Failed starts are among the calls that keep this: they copy superblocks, move the array to
another one and fill in sizes, but change neither the shape nor the seats.
-/

namespace JRaid

namespace Jmd

/-! ### How much of a device is used -/

/-- The whole chunks of 64 sectors in front of the superblock of a device, as `calc_dev_size`
counts them. -/
def BlockDev.usable (d : BlockDev) : UInt64 := maskChunk (32 * 1024) (mdNewSizeBlocks d.sectors)

/-- The upper half of the offset is lost. -/
theorem BlockDev.toNat_usable (d : BlockDev) :
    d.usable.toNat = (mdNewSizeBlocks d.sectors).toNat % 2 ^ 32 / 64 * 64 := by
  have hmask : (~~~((32 * 1024 : UInt32) / 512 - 1)).toUInt64.toNat = 2 ^ 32 - 2 ^ 6 := by decide
  rw [usable, maskChunk, if_pos (by decide), UInt64.toNat_and, hmask]
  exact land_two_pow_sub_two_pow _ (k := 6) (n := 32) (by decide)

theorem BlockDev.usable_congr {d d' : BlockDev} (h : d.sectors = d'.sectors) :
    d.usable = d'.usable := by
  rw [usable, usable, h]

theorem BlockDev.usable_lt (d : BlockDev) : d.usable.toNat < 2 ^ 32 := by
  rw [toNat_usable]
  omega

theorem BlockDev.dvd_usable (d : BlockDev) : 64 ∣ d.usable.toNat := by
  rw [toNat_usable]
  exact Nat.dvd_mul_left _ _

/-- What is used lies in front of the superblock. -/
theorem BlockDev.usable_le (d : BlockDev) :
    d.usable.toNat ≤ (mdNewSizeBlocks d.sectors).toNat := by
  rw [toNat_usable]
  omega

/-- The usable size as `sb->size` holds it. -/
theorem BlockDev.toNat_usable_int32 (d : BlockDev) :
    (int32OfULong d.usable).toUInt32.toNat = d.usable.toNat := by
  have h : (int32OfULong d.usable).toUInt32 = d.usable.toUInt32 := rfl
  rw [h, UInt64.toNat_toUInt32, Nat.mod_eq_of_lt d.usable_lt]

/-- The usable sizes of the members. -/
def Jmddev.usableSizes (s : Jmddev) : List ℕ :=
  (s.disks.map Rdev.dev).map fun dev => (s.device dev).usable.toNat

/-! ### Arrays that `set_array_info` has made -/

/-- The array information of `add_store` gives chunks of 32 KiB. -/
def infoChunkSectors : Int32 := 32 * 1024 / 2

/-- The fields that `set_array_info` gives to the superblock of an array. -/
structure Shape.FromInfo (shape : Shape) : Prop where
  level : shape.level = 5
  layout : shape.layout = 0
  chunkSize : shape.chunkSize = 32 * 1024
  notPersistent : shape.notPersistent = 0

theorem Shape.FromInfo.usableSize {shape : Shape} (h : shape.FromInfo) (d : BlockDev) :
    shape.usableSize d = d.usable := by
  rw [Shape.usableSize, h.chunkSize, h.notPersistent, if_pos rfl, BlockDev.usable]

/-- A member of such an array: its superblock lies where `calc_dev_sboffset` puts it, its size is
that of its device or not yet set, and its copy has the shape of the array superblock. -/
structure Profile.Seated (shape : Shape) (device : DevT → BlockDev) (p : Profile) : Prop where
  sbOffset : p.seat.2 = mdNewSizeBlocks (device p.seat.1).sectors
  size : p.size = 0 ∨ p.size = (device p.seat.1).usable
  faulty : p.faulty = false
  shape : p.shape = shape

/-- Filling in a size keeps a member seated. -/
theorem Profile.Seated.resized {shape : Shape} {device device' : DevT → BlockDev}
    {p p' : Profile} (hinfo : shape.FromInfo) (h : p.Seated shape device)
    (hsectors : ∀ dev, (device' dev).sectors = (device dev).sectors)
    (hr : Profile.Resized shape device p p') : p'.Seated shape device' := by
  have husable : ∀ dev, (device' dev).usable = (device dev).usable := fun dev =>
    BlockDev.usable_congr (hsectors dev)
  obtain rfl | rfl := hr
  · exact ⟨by rw [hsectors, h.sbOffset], by rw [husable]; exact h.size, h.faulty, h.shape⟩
  · refine ⟨by rw [hsectors, h.sbOffset], Or.inr ?_, h.faulty, h.shape⟩
    rw [husable, hinfo.usableSize]

/-- An array that `set_array_info` has made and that does not run yet: its component size is the
running minimum of the usable sizes of its members. -/
structure Jmddev.Sized (s : Jmddev) (sb : Superblock) : Prop where
  chunkSectors : s.chunkSectors = infoChunkSectors
  superblock : s.sb = some sb
  info : sb.shape.FromInfo
  seated : ∀ jrdev ∈ s.disks, jrdev.profile.Seated sb.shape s.device
  size : sb.size.toNat = runningMin s.usableSizes

/-- What holds of an array before it runs. -/
inductive Jmddev.Supplied (s : Jmddev) : Prop
  /-- `set_array_info` has not succeeded, and the first member has been bound with its own
  superblock -/
  | onDisk (hchunk : s.chunkSectors = 0) (hnone : s.nbDev = 0 → s.sb = none)
    (hfirst : s.nbDev ≠ 0 → ∃ p ∈ s.disks.map Rdev.seat, p.2 = 0) : Supplied s
  | info (sb : Superblock) (h : s.Sized sb) : Supplied s

/-! ### `set_array_info` -/

/-- `set_array_info` supplies an array without members. -/
theorem Jmddev.Supplied.prepare {s : Jmddev} (h : s.Supplied) (hlen : s.nbDev = s.disks.length)
    (call : AddStoreCall) : (s.prepare call).Supplied := by
  unfold Jmddev.prepare
  split
  · rename_i hnb
    have hnil : s.disks = [] := List.eq_nil_of_length_eq_zero (hlen.symm.trans hnb)
    unfold Jmddev.setArrayInfo
    split
    · exact h
    · refine .info _ ⟨rfl, rfl, ⟨rfl, rfl, rfl, rfl⟩, fun jrdev hm => ?_, ?_⟩
      · exact absurd (hnil ▸ hm) List.not_mem_nil
      · change 0 = runningMin _
        simp [usableSizes, hnil]
  · exact h

/-! ### `add_new_disk` -/

/-- Binding a device: the component size takes in what the device offers, and the superblock lies
where `calc_dev_sboffset` says. -/
theorem Jmddev.bindImported_eq {s : Jmddev} {sb : Superblock} (hsb : s.sb = some sb)
    (jrdev : Rdev) :
    s.bindImported sb jrdev =
      { s with
        sb := some (sb.takeSize
          (int32OfULong (sb.shape.usableSize (s.device jrdev.dev))).toUInt32)
        nbDev := s.nbDev + 1
        disks := syncSbs
          (sb.takeSize (int32OfULong (sb.shape.usableSize (s.device jrdev.dev))).toUInt32)
          ({ jrdev with sbOffset :=
            if sb.notPersistent = 0 then mdNewSizeBlocks (s.device jrdev.dev).sectors
            else (s.device jrdev.dev).sectors } :: s.disks) } := by
  have hmem : jrdev.dev ∈ (s.bindRdevToArray jrdev).disks.map Rdev.dev := List.mem_cons_self
  have hsize : (s.bindRdevToArray jrdev).calcDevSize jrdev.dev (sb.notPersistent = 0) =
      sb.shape.usableSize (s.device jrdev.dev) := calcDevSize_of_mem (by exact hsb) hmem
  have hoffset := calcDevSboffset_of_mem hmem (sb.notPersistent = 0)
  simp only [decide_eq_true_eq] at hoffset
  unfold bindImported
  dsimp only
  rw [hsize, hoffset]
  rfl

/-- Binding a device to an array that `set_array_info` has made. -/
theorem Jmddev.bindImported_of_info {s : Jmddev} {sb : Superblock} (hsb : s.sb = some sb)
    (hinfo : sb.shape.FromInfo) (jrdev : Rdev) :
    s.bindImported sb jrdev =
      { s with
        sb := some (sb.takeSize (int32OfULong (s.device jrdev.dev).usable).toUInt32)
        nbDev := s.nbDev + 1
        disks := syncSbs (sb.takeSize (int32OfULong (s.device jrdev.dev).usable).toUInt32)
          ({ jrdev with sbOffset := mdNewSizeBlocks (s.device jrdev.dev).sectors } ::
            s.disks) } := by
  rw [bindImported_eq hsb, hinfo.usableSize,
    if_pos (show sb.notPersistent = 0 from hinfo.notPersistent)]

theorem Jmddev.map_dev_bindImported (s : Jmddev) (sb : Superblock) (jrdev : Rdev) :
    (s.bindImported sb jrdev).disks.map Rdev.dev = jrdev.dev :: s.disks.map Rdev.dev :=
  map_dev_syncSbs _ _

/-- The profile of a member after `sync_sbs`. -/
theorem Rdev.profile_syncSb (sb : Superblock) {jrdev : Rdev} (h : jrdev.faulty = false) :
    (jrdev.syncSb sb).profile = { jrdev.profile with shape := sb.shape } := by
  have hsame := jrdev.syncSb_same sb
  rw [profile, profile, seat_syncSb, shape_syncSb sb h, hsame.faulty, hsame.size]

/-- After `sync_sbs` a seated member has the new shape. -/
theorem Profile.Seated.syncSb {shape : Shape} {device : DevT → BlockDev} {jrdev : Rdev}
    (h : jrdev.profile.Seated shape device) (sb : Superblock) :
    (jrdev.syncSb sb).profile.Seated sb.shape device := by
  rw [Rdev.profile_syncSb sb h.faulty]
  exact ⟨h.sbOffset, h.size, h.faulty, rfl⟩

/-- The component size takes in the size of a new member. -/
theorem Superblock.toNat_size_takeSize (sb : Superblock) (size : UInt32) :
    (sb.takeSize size).size.toNat = takeMin size.toNat sb.size.toNat := by
  have hiff : (sb.size = 0 ∨ size < sb.size) ↔
      (sb.size.toNat = 0 ∨ size.toNat < sb.size.toNat) := by
    rw [UInt32.lt_iff_toNat_lt, ← UInt32.toNat_inj, UInt32.toNat_zero]
  unfold takeSize takeMin
  by_cases h : sb.size = 0 ∨ size < sb.size
  · rw [if_pos h, if_pos (hiff.mp h)]
  · rw [if_neg h, if_neg (mt hiff.mpr h)]

theorem Shape.FromInfo.takeSize {sb : Superblock} (h : sb.shape.FromInfo) (size : UInt32) :
    (sb.takeSize size).shape.FromInfo := by
  unfold Superblock.takeSize
  split
  · exact ⟨h.level, h.layout, h.chunkSize, h.notPersistent⟩
  · exact h

theorem Jmddev.usableSizes_bindImported (s : Jmddev) (sb : Superblock) (jrdev : Rdev) :
    (s.bindImported sb jrdev).usableSizes =
      (s.device jrdev.dev).usable.toNat :: s.usableSizes := by
  rw [usableSizes, map_dev_bindImported]
  rfl

/-- A new member of a sized array. -/
theorem Jmddev.Sized.bindImported {s : Jmddev} {sb : Superblock} (h : s.Sized sb) (jrdev : Rdev)
    (hsize : jrdev.size = 0) (hup : jrdev.faulty = false) :
    (s.bindImported sb jrdev).Sized
      (sb.takeSize (int32OfULong (s.device jrdev.dev).usable).toUInt32) := by
  have hnew : ({ jrdev with
      sbOffset := mdNewSizeBlocks (s.device jrdev.dev).sectors } : Rdev).faulty = false := hup
  have heq := bindImported_of_info h.superblock h.info jrdev
  refine ⟨h.chunkSectors, by rw [heq], h.info.takeSize _, fun m hm => ?_, ?_⟩
  · rw [heq] at hm
    obtain ⟨m', hm', rfl⟩ := List.mem_map.mp hm
    obtain rfl | hm' := List.mem_cons.mp hm'
    · rw [Rdev.profile_syncSb _ hnew]
      exact ⟨rfl, Or.inl hsize, hup, rfl⟩
    · exact (h.seated m' hm').syncSb _
  · rw [usableSizes_bindImported, runningMin_cons, ← h.size, ← BlockDev.toNat_usable_int32]
    exact sb.toNat_size_takeSize _

theorem Jmddev.AddOutcome.pers {s s' : Jmddev} {env : ImportEnv} {info : JmdDiskInfo}
    {err : Int32} (h : s.AddOutcome env info err s') : s'.pers = s.pers := by
  cases h <;> rfl

/-- `add_new_disk` keeps an array supplied. -/
theorem Jmddev.Supplied.addNewDisk {s s' : Jmddev} {env : ImportEnv} {info : JmdDiskInfo}
    {err : Int32} (h : s.Supplied) (hup : info.faulty = false)
    (hadd : s.AddOutcome env info err s') : s'.Supplied := by
  have hmembers : ∀ sb, s.sb = some sb → (s.nbDev = 0 → s.sb = none) → s.nbDev ≠ 0 :=
    fun sb hsb hnone hnb => absurd (hsb.symm.trans (hnone hnb)) (by simp)
  cases hadd with
  | known => exact h
  | noSuperblock => exact h
  | noSlot => exact h
  | onDisk hno jrdev himp =>
    cases h with
    | onDisk hchunk =>
      refine .onDisk hchunk (fun hnb => absurd hnb (Nat.succ_ne_zero _)) fun _ => ?_
      exact ⟨jrdev.seat, List.mem_cons_self, himp.sbOffset⟩
    | info sb h => exact absurd (h.superblock.symm.trans hno) (by simp)
  | notImported _ sb hsb _ hlt =>
    cases h with
    -- there is a superblock only because a failed start has adopted that of a member
    | onDisk hchunk hnone hfirst =>
      exact .onDisk hchunk (fun hnb => absurd hnb (hmembers sb hsb hnone)) hfirst
    | info sb' h =>
      obtain rfl : sb' = sb := Option.some.inj (h.superblock.symm.trans hsb)
      exact .info _ ⟨h.chunkSectors, rfl, h.info, h.seated, h.size⟩
  | faulty _ _ _ _ _ hdown => exact absurd (hup.symm.trans hdown) (by decide)
  | bound _ sb hsb _ hlt _ jrdev himp =>
    cases h with
    | onDisk hchunk hnone hfirst =>
      obtain ⟨p, hp, hzero⟩ := hfirst (hmembers sb hsb hnone)
      obtain ⟨size, sbOffset, heq⟩ := Jmddev.exists_bindImported { s with
          sb := some (sb.assign ⟨_, hlt⟩ info)
          all := info.dev :: s.all } (sb.assign ⟨_, hlt⟩ info)
        { jrdev with oldDev := info.dev, descNr := info.number }
      rw [heq]
      refine .onDisk hchunk (fun hnb => absurd hnb (Nat.succ_ne_zero _)) fun _ => ⟨p, ?_, hzero⟩
      rw [map_seat_syncSbs, List.map_cons]
      exact List.mem_cons_of_mem _ hp
    | info sb' h =>
      obtain rfl : sb' = sb := Option.some.inj (h.superblock.symm.trans hsb)
      -- writing the descriptor changes no field of the shape
      have hassigned : Jmddev.Sized { s with
          sb := some (sb'.assign ⟨_, hlt⟩ info)
          all := info.dev :: s.all } (sb'.assign ⟨_, hlt⟩ info) :=
        ⟨h.chunkSectors, rfl, h.info, h.seated, h.size⟩
      exact .info _ (hassigned.bindImported
        { jrdev with oldDev := info.dev, descNr := info.number } himp.size himp.faulty)

/-! ### `do_jmd_run` -/

theorem Jmddev.Sized.publish {s : Jmddev} {sb : Superblock} (h : s.Sized sb)
    (totalNum : Int32) : (s.publish totalNum).Sized sb :=
  ⟨h.chunkSectors, h.superblock, h.info, h.seated, h.size⟩

/-- Publishing a capacity keeps an array supplied. -/
theorem Jmddev.Supplied.publish {s : Jmddev} (h : s.Supplied) (totalNum : Int32) :
    (s.publish totalNum).Supplied := by
  cases h with
  | onDisk hchunk hnone hfirst => exact .onDisk hchunk hnone hfirst
  | info sb h => exact .info sb (h.publish totalNum)

theorem Jmddev.Steady.usableSizes {s s' : Jmddev} (h : s.Steady s') :
    s'.usableSizes = s.usableSizes := by
  unfold Jmddev.usableSizes
  rw [map_dev_of_seat h.seat]
  refine List.map_congr_left fun dev _ => ?_
  rw [BlockDev.usable_congr (h.sectors dev)]

/-- The superblock that a sized array adopts has the shape of its own. -/
theorem Jmddev.Sized.shape_freshest {s s' : Jmddev} {sb : Superblock} {f : Rdev}
    (h : s.Sized sb) (ha : s.Analyzed s' f) : f.sb.shape = sb.shape := by
  obtain ⟨m, hm, rfl⟩ := List.mem_map.mp (mem_of_freshest ha.freshest)
  exact (congrArg Profile.shape m.profile_age).trans (h.seated m hm).shape

/-- A failed start keeps an array sized. -/
theorem Jmddev.Sized.failed {s s' : Jmddev} {sb : Superblock} {f : Rdev} (h : s.Sized sb)
    (ha : s.Analyzed s' f) (hno : s'.pers = false) : ∃ sb', s'.Sized sb' := by
  obtain ⟨sb', hsb', hshape'⟩ := ha.sb
  have hshape := h.shape_freshest ha
  have heq : sb'.shape = sb.shape := hshape'.trans hshape
  have hlevel : f.sb.level = 5 := (congrArg Shape.level hshape).trans h.info.level
  have hsize : sb'.size = sb.size := congrArg Shape.size heq
  refine ⟨sb', ha.steady.chunkSectors.trans h.chunkSectors, hsb', heq ▸ h.info,
    fun m hm => ?_, ?_⟩
  · obtain ⟨m₀, hm₀, hr⟩ := ha.failed hno hlevel m hm
    rw [hshape] at hr
    rw [heq]
    exact (h.seated m₀ hm₀).resized h.info ha.steady.sectors hr
  · rw [hsize, h.size, ha.steady.usableSizes]

/-- `do_jmd_run` keeps an array supplied until it runs. -/
theorem Jmddev.Supplied.doJmdRun {s s' : Jmddev} (h : s.Supplied) (hrun : s.RunOutcome s')
    (hno : s'.pers = false) : s'.Supplied := by
  cases hrun with
  | refused => exact h
  | gaveUp =>
    -- only `jmd_size` has been set back
    cases h with
    | onDisk hchunk hnone hfirst => exact .onDisk hchunk hnone hfirst
    | info sb h => exact .info sb ⟨h.chunkSectors, h.superblock, h.info, h.seated, h.size⟩
  | analyzed _ f ha =>
    cases h with
    | onDisk hchunk _ hfirst =>
      refine .onDisk (ha.steady.chunkSectors.trans hchunk) (fun hnb => ?_) fun _ => ?_
      · exact absurd (ha.steady.nbDev.symm.trans hnb) ha.nbDev
      · rw [ha.steady.seat]
        exact hfirst ha.nbDev
    | info sb h =>
      obtain ⟨sb', h'⟩ := h.failed ha hno
      exact .info sb' h'

/-! ### Runs -/

theorem Jmddev.pers_prepare (s : Jmddev) (call : AddStoreCall) :
    (s.prepare call).pers = s.pers := by
  unfold prepare setArrayInfo
  split
  · split <;> rfl
  · rfl

/-- Until the start `add_store` does not touch `pers`. -/
theorem Jmddev.AddOutcome.pers_eq {s s' : Jmddev} {call : AddStoreCall} {env : ImportEnv}
    {info : JmdDiskInfo} {err : Int32} (h : (s.prepare call).AddOutcome env info err s') :
    s'.pers = s.pers :=
  h.pers.trans (s.pers_prepare call)

/-- The part of `add_store` before the start keeps an array supplied. -/
theorem Jmddev.Supplied.addMember {s s' : Jmddev} {call : AddStoreCall} {bdev : Int32 × Int32}
    {err : Int32} (h : s.Supplied) (hs : s.Sound)
    (hadd : (s.prepare call).AddOutcome call.env.add (call.diskInfo bdev) err s') :
    s'.Supplied :=
  (h.prepare hs.nbDev call).addNewDisk (call.faulty_diskInfo bdev) hadd

/-- An array that does not run afterwards did not run before. -/
theorem Jmddev.RunOutcome.pers_eq_false {s s' : Jmddev} (h : s.RunOutcome s')
    (hno : s'.pers = false) : s.pers = false := by
  cases h with
  | refused => exact hno
  | gaveUp _ hpers => exact hpers
  | analyzed _ f ha => exact ha.pers

/-- **Every array is supplied until it runs.** -/
theorem Jmddev.Supplied.of_reachable {device : DevT → BlockDev} {s : Jmddev}
    (h : (addStoreSystem device).Reachable s) (hno : s.pers = false) : s.Supplied := by
  refine FallibleSystem.Reachable.invariant (I := fun s => s.pers = false → s.Supplied)
    (fun _ => .onDisk rfl (fun _ => rfl) fun hnb => absurd rfl hnb) ?_ h hno
  intro s call s' hs ih hstep hno
  have hsound := Jmddev.Sound.of_reachable hs
  obtain ⟨⟨ret, s₁⟩, hstore, rfl⟩ := Except.exists_of_map_eq_ok hstep
  have houtcome : s.StoreOutcome call s₁ := storeOutcome hstore
  cases houtcome with
  | noMemory => exact ih hno
  | added _ bdev _ _ err hadd =>
    exact (ih (hadd.pers_eq.symm.trans hno)).addMember hsound hadd
  | complete _ bdev _ s₂ _ _ err hadd _ hrun =>
    have hpers : s₂.pers = false := hrun.pers_eq_false hno
    have hsupplied := (ih (hadd.pers_eq.symm.trans hpers)).addMember hsound hadd
    exact (hsupplied.publish call.totalNum).doJmdRun hrun hno

end Jmd

end JRaid
