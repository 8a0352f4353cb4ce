import JRaid.Jmd.AddStore
import JRaid.Jmd.Persistence
import JRaid.Jmd.Shape

/-!
# The arrays that `add_store` makes

What holds of an array in every state that a sequence of `add_store` calls reaches
(`Jmddev.Sound`): it counts its members, its superblock passes the tests of `check_disk_sb`,
and if it runs it has members and a superblock.
-/

namespace JRaid

namespace Jmd

/-! ### How `add_store` ends -/

/-- The allocations of `add_store` itself succeed. -/
def AddStoreEnv.granted (env : AddStoreEnv) : Bool := env.dtdev && env.arrayInfo && env.info

/-- The ways in which `add_store` returns. -/
inductive Jmddev.StoreOutcome (s : Jmddev) (call : AddStoreCall) : Jmddev → Prop
  /-- an allocation fails -/
  | noMemory (h : call.env.granted = false) : StoreOutcome s call s
  /-- the device has been added, or not, and the array is not complete -/
  | added (h : call.env.granted = true) (bdev : Int32 × Int32) (hbdev : call.env.bdev = some bdev)
    (s' : Jmddev) (err : Int32)
    (hadd : (s.prepare call).AddOutcome call.env.add (call.diskInfo bdev) err s')
    (hne : (s'.nbDev : ℤ) ≠ call.totalNum.toInt) : StoreOutcome s call s'
  /-- the array is complete -/
  | complete (h : call.env.granted = true) (bdev : Int32 × Int32)
    (hbdev : call.env.bdev = some bdev) (s₁ s' : Jmddev)
    (hmember : s.addMember call bdev = .ok s₁) (err : Int32)
    (hadd : (s.prepare call).AddOutcome call.env.add (call.diskInfo bdev) err s₁)
    (heq : (s₁.nbDev : ℤ) = call.totalNum.toInt)
    (hrun : (s₁.publish call.totalNum).RunOutcome s') : StoreOutcome s call s'

/-- **How `add_store` ends.** -/
theorem Jmddev.storeOutcome {s s' : Jmddev} {call : AddStoreCall} {ret : Int64}
    (h : s.addStore call = .ok (ret, s')) : s.StoreOutcome call s' := by
  unfold addStore at h
  split at h
  · obtain ⟨-, rfl⟩ := Prod.mk.inj (Except.ok.inj h)
    exact .noMemory (by simp_all [AddStoreEnv.granted])
  rename_i hdtdev
  split at h
  · obtain ⟨-, rfl⟩ := Prod.mk.inj (Except.ok.inj h)
    exact .noMemory (by simp_all [AddStoreEnv.granted])
  rename_i harray
  split at h
  · obtain ⟨-, rfl⟩ := Prod.mk.inj (Except.ok.inj h)
    exact .noMemory (by simp_all [AddStoreEnv.granted])
  rename_i hinfo
  have hgranted : call.env.granted = true := by simp_all [AddStoreEnv.granted]
  split at h
  · cases h
  rename_i bdev hbdev
  split at h
  · cases h
  rename_i s₁ hmember
  obtain ⟨⟨err, s₂⟩, hadd, rfl⟩ := Except.exists_of_map_eq_ok hmember
  have houtcome := addOutcome hadd
  split at h
  · rename_i heq
    split at h
    · cases h
    rename_i hrun
    obtain ⟨-, rfl⟩ := Prod.mk.inj (Except.ok.inj h)
    exact .complete hgranted bdev hbdev s₂ _ hmember err houtcome heq (runOutcome hrun)
  · rename_i hne
    obtain ⟨-, rfl⟩ := Prod.mk.inj (Except.ok.inj h)
    exact .added hgranted bdev hbdev _ err houtcome hne

/-- `add_store` never says that the device is faulty. -/
theorem AddStoreCall.faulty_diskInfo (call : AddStoreCall) (bdev : Int32 × Int32) :
    (call.diskInfo bdev).faulty = false := by
  change ((0 : Int32) &&& ((1 : Int32) <<< 0) != 0) = false
  decide

theorem Jmddev.nbDev_prepare (s : Jmddev) (call : AddStoreCall) :
    (s.prepare call).nbDev = s.nbDev := by
  unfold prepare setArrayInfo
  split
  · split <;> rfl
  · rfl

/-! ### Arrays that have been made by `add_store` -/

/-- What holds of every array that is reached. -/
structure Jmddev.Sound (s : Jmddev) : Prop where
  nbDev : s.nbDev = s.disks.length
  check : ∀ sb, s.sb = some sb → sb.check = 0
  running : s.pers = true → s.nbDev ≠ 0 ∧ s.sb.isSome

/-- `set_array_info` keeps an array sound. -/
theorem Jmddev.Sound.setArrayInfo {s : Jmddev} (h : s.Sound) (call : AddStoreCall) :
    (s.prepare call).Sound := by
  unfold Jmddev.prepare
  split
  · rename_i hnb
    unfold Jmddev.setArrayInfo
    split
    · exact h
    · refine ⟨h.nbDev, fun sb hsb => ?_, fun hrun => absurd hnb (h.running hrun).1⟩
      obtain rfl := Option.some.inj hsb
      rfl
  · exact h

/-- `add_new_disk` keeps an array sound. -/
theorem Jmddev.Sound.addNewDisk {s s' : Jmddev} {env : ImportEnv} {info : JmdDiskInfo}
    {err : Int32} (h : s.Sound) (hadd : s.AddOutcome env info err s') : s'.Sound := by
  cases hadd with
  | known => exact h
  | noSuperblock => exact h
  | onDisk hsb jrdev himp =>
    -- a running array has a superblock, so it does not come here
    refine ⟨congrArg (· + 1) h.nbDev, h.check, fun hrun => ?_⟩
    exact ⟨Nat.succ_ne_zero _, (h.running hrun).2⟩
  | noSlot => exact h
  | notImported _ sb hsb =>
    refine ⟨h.nbDev, fun sb' hsb' => ?_, fun hrun => ⟨(h.running hrun).1, rfl⟩⟩
    obtain rfl := Option.some.inj hsb'
    exact h.check sb hsb
  | faulty _ sb hsb =>
    refine ⟨h.nbDev.trans (length_syncSbs _ _).symm, fun sb' hsb' => ?_,
      fun hrun => ⟨(h.running hrun).1, rfl⟩⟩
    obtain rfl := Option.some.inj hsb'
    exact h.check sb hsb
  | bound _ sb hsb _ hlt _ jrdev =>
    obtain ⟨size, sbOffset, heq⟩ := Jmddev.exists_bindImported { s with
        sb := some (sb.assign ⟨_, hlt⟩ info)
        all := info.dev :: s.all } (sb.assign ⟨_, hlt⟩ info)
      { jrdev with oldDev := info.dev, descNr := info.number }
    rw [heq]
    refine ⟨?_, fun sb' hsb' => ?_, fun _ => ⟨Nat.succ_ne_zero _, rfl⟩⟩
    · exact (congrArg (· + 1) h.nbDev).trans (length_syncSbs _ (_ :: s.disks)).symm
    · obtain rfl := Option.some.inj hsb'
      unfold Superblock.takeSize
      split <;> exact h.check sb hsb

/-- `do_jmd_run` keeps an array sound. -/
theorem Jmddev.Sound.doJmdRun {s s' : Jmddev} (h : s.Sound) (hrun : s.RunOutcome s') :
    s'.Sound := by
  cases hrun with
  | refused => exact h
  | gaveUp => exact ⟨h.nbDev, h.check, h.running⟩
  | analyzed _ f ha =>
    obtain ⟨sb, hsb, hshape⟩ := ha.sb
    have hlen := congrArg List.length ha.steady.seat
    rw [List.length_map, List.length_map] at hlen
    refine ⟨?_, fun sb' hsb' => ?_, fun _ => ⟨ha.steady.nbDev ▸ ha.nbDev, hsb ▸ rfl⟩⟩
    · rw [ha.steady.nbDev, h.nbDev, hlen]
    · obtain rfl : sb = sb' := Option.some.inj (hsb.symm.trans hsb')
      -- the adopted superblock has passed the tests of `check_disk_sb`
      obtain ⟨m, hm, rfl⟩ := List.mem_map.mp (mem_of_freshest ha.freshest)
      have hage : m.age.sb.shape = m.sb.shape := congrArg Profile.shape m.profile_age
      exact (Superblock.check_of_shape (hshape.trans hage)).trans (ha.checked m hm).2

/-- **Every array that `add_store` makes is sound.** -/
theorem Jmddev.Sound.of_reachable {device : DevT → BlockDev} {s : Jmddev}
    (h : (addStoreSystem device).Reachable s) : s.Sound := by
  refine FallibleSystem.Reachable.invariant ⟨rfl, nofun, nofun⟩ ?_ h
  intro s call s' _ hs hstep
  obtain ⟨⟨ret, s₁⟩, hstore, rfl⟩ := Except.exists_of_map_eq_ok hstep
  have houtcome : s.StoreOutcome call s₁ := storeOutcome hstore
  cases houtcome with
  | noMemory => exact hs
  | added _ bdev _ _ err hadd => exact (hs.setArrayInfo call).addNewDisk hadd
  | complete _ bdev _ s₂ _ _ err hadd _ hrun =>
    have hmember := (hs.setArrayInfo call).addNewDisk hadd
    have hpublish : (s₂.publish call.totalNum).Sound :=
      ⟨hmember.nbDev, hmember.check, hmember.running⟩
    exact hpublish.doJmdRun hrun

/-! ### Calls for which nothing fails -/

/-- All that `do_jmd_run` asks for is granted. -/
def runAll : RunEnv := ⟨true, true, true, true, true, true, true, updateAll⟩

/-- A call for the device of the driver 8 with the given minor number. All that it asks for is
granted. -/
def addCall (totalNum jrdevNum minor : Int32) : AddStoreCall :=
  ⟨totalNum, jrdevNum, 0,
    ⟨true, some (8, minor), true, true, ⟨true, 0, 0, 0, 0, 0⟩, importAll, runAll⟩⟩

end Jmd

end JRaid
