import JRaid.Jmd.Reachable

/-!
# A running array and further `add_store` calls

While the array runs, `do_jmd_run` only answers that it is busy. But `add_store` adds the device
and publishes the capacity before it calls it, and `add_new_disk` writes a descriptor before it
knows whether the device can be imported. So a call leaves a running array alone exactly if it
fails early enough (`Jmddev.KeepsTable`) and does not publish another capacity
(`Jmddev.KeepsCapacity`); see `undisturbed_iff`.
-/

namespace JRaid

namespace Jmd

/-- The published capacity, the array superblock and the members are as before. -/
structure Jmddev.Undisturbed (s s' : Jmddev) : Prop where
  arraySectors : s'.arraySectors = s.arraySectors
  capacity : s'.capacity = s.capacity
  sb : s'.sb = s.sb
  disks : s'.disks = s.disks
  nbDev : s'.nbDev = s.nbDev

/-- `add_new_disk` fails before it changes anything: the device is in use, or its number is past
the end of the set, or it is not imported and its descriptor has the new values already. -/
def Jmddev.KeepsTable (s : Jmddev) (env : ImportEnv) (info : JmdDiskInfo) : Prop :=
  info.dev ∈ s.all ∨
    ∃ sb, s.sb = some sb ∧ (sb.nrDisks ≤ info.number.toUInt32 ∨
      (env.opens = false ∧
        ∃ i, descIndex info.number = some i ∧ (sb.disks i).assign info = sb.disks i))

/-- No capacity is published, or the one that is there. -/
def Jmddev.KeepsCapacity (s : Jmddev) (totalNum : Int32) : Prop :=
  (s.nbDev : ℤ) ≠ totalNum.toInt ∨
    (s.arraySectors = s.jmddevSize (totalNum + 1) ∧ s.capacity = s.jmddevSize (totalNum + 1))

theorem Superblock.assign_eq_self_iff (sb : Superblock) (i : Fin mdSbDisks) (info : JmdDiskInfo) :
    sb.assign i info = sb ↔ (sb.disks i).assign info = sb.disks i := by
  constructor
  · intro h
    have hdisks := congrFun (congrArg Superblock.disks h) i
    simp only [assign, setDisk, Function.update_self] at hdisks
    exact hdisks
  · intro h
    rw [assign, setDisk, h, Function.update_eq_self]

/-- **What a call of `add_new_disk` does to an array with a superblock**: nothing, or it changes
the superblock or binds a member. -/
theorem Jmddev.keepsTable_cases {s s' : Jmddev} {env : ImportEnv} {info : JmdDiskInfo}
    {err : Int32} (hsb : s.sb.isSome) (hup : info.faulty = false)
    (h : s.AddOutcome env info err s') :
    s'.pers = s.pers ∧ ((s.KeepsTable env info ∧ s' = s) ∨
      (¬ s.KeepsTable env info ∧ ¬ (s'.sb = s.sb ∧ s'.nbDev = s.nbDev))) := by
  have hnone : s.sb ≠ none := Option.isSome_iff_ne_none.mp hsb
  cases h with
  | known hall => exact ⟨rfl, Or.inl ⟨Or.inl hall, rfl⟩⟩
  | noSuperblock _ hno => exact absurd hno hnone
  | onDisk hno => exact absurd hno hnone
  | noSlot _ sb hsb hle => exact ⟨rfl, Or.inl ⟨Or.inr ⟨sb, hsb, Or.inl hle⟩, rfl⟩⟩
  | notImported hall sb hsb hlt hi _ hopens =>
    have hindex : descIndex info.number = some ⟨_, hi⟩ := descIndex_eq_some_iff.mpr rfl
    refine ⟨rfl, ?_⟩
    -- the descriptor has been written before the import failed
    by_cases hsame : (sb.disks ⟨_, hi⟩).assign info = sb.disks ⟨_, hi⟩
    · refine Or.inl ⟨Or.inr ⟨sb, hsb, Or.inr ⟨hopens, _, hindex, hsame⟩⟩, ?_⟩
      rw [(sb.assign_eq_self_iff _ info).mpr hsame, ← hsb]
    · refine Or.inr ⟨?_, fun hkeep => hsame ((sb.assign_eq_self_iff _ info).mp ?_)⟩
      · rintro (hin | ⟨sb', hsb', hle | ⟨-, i, hi', heq⟩⟩)
        · exact hall hin
        · obtain rfl : sb = sb' := Option.some.inj (hsb.symm.trans hsb')
          exact UInt32.not_le.mpr hlt hle
        · obtain rfl : sb = sb' := Option.some.inj (hsb.symm.trans hsb')
          obtain rfl := Option.some.inj (hindex.symm.trans hi')
          exact hsame heq
      · exact Option.some.inj (hkeep.1.trans hsb)
  | faulty _ _ _ _ _ hdown => exact absurd (hup.symm.trans hdown) (by decide)
  | bound hall sb hsb hlt hi _ jrdev himp =>
    obtain ⟨size, sbOffset, heq⟩ := Jmddev.exists_bindImported { s with
        sb := some (sb.assign ⟨_, hi⟩ info)
        all := info.dev :: s.all } (sb.assign ⟨_, hi⟩ info)
      { jrdev with oldDev := info.dev, descNr := info.number }
    rw [heq]
    refine ⟨rfl, Or.inr ⟨?_, fun hkeep => absurd hkeep.2 (Nat.succ_ne_self s.nbDev)⟩⟩
    rintro (hin | ⟨sb', hsb', hle | ⟨hopens, -⟩⟩)
    · exact hall hin
    · obtain rfl : sb = sb' := Option.some.inj (hsb.symm.trans hsb')
      exact UInt32.not_le.mpr hlt hle
    · exact absurd (himp.opens.symm.trans hopens) (by decide)

/-- `do_jmd_run` turns a running array down. -/
theorem Jmddev.RunOutcome.eq_of_pers {s s' : Jmddev} (h : s.RunOutcome s')
    (hrun : s.pers = true) : s' = s := by
  cases h with
  | refused => rfl
  | gaveUp _ hno => exact absurd (hno.symm.trans hrun) (by decide)
  | analyzed _ f ha => exact absurd (ha.pers.symm.trans hrun) (by decide)

/-- **When a running array is left alone.** -/
theorem undisturbed_iff {device : DevT → BlockDev} {s s' : Jmddev} {call : AddStoreCall}
    {ret : Int64} (hs : (addStoreSystem device).Reachable s) (hrun : s.pers = true)
    (h : s.addStore call = .ok (ret, s')) :
    s.Undisturbed s' ↔ call.env.granted = false ∨
      ∃ bdev, call.env.bdev = some bdev ∧ s.KeepsTable call.env.add (call.diskInfo bdev) ∧
        s.KeepsCapacity call.totalNum := by
  obtain ⟨hnb, hsb⟩ := (Jmddev.Sound.of_reachable hs).running hrun
  have hprepare : s.prepare call = s := if_neg hnb
  have hiff : ∀ {bdev : Int32 × Int32}, call.env.granted = true → call.env.bdev = some bdev →
      ((call.env.granted = false ∨ ∃ bdev, call.env.bdev = some bdev ∧
        s.KeepsTable call.env.add (call.diskInfo bdev) ∧ s.KeepsCapacity call.totalNum) ↔
        s.KeepsTable call.env.add (call.diskInfo bdev) ∧ s.KeepsCapacity call.totalNum) := by
    intro bdev hgranted hbdev
    simp [hgranted, hbdev]
  cases Jmddev.storeOutcome h with
  | noMemory hno => exact iff_of_true ⟨rfl, rfl, rfl, rfl, rfl⟩ (Or.inl hno)
  | added hgranted bdev hbdev _ err hadd hne =>
    rw [hiff hgranted hbdev]
    rw [hprepare] at hadd
    obtain ⟨-, ⟨hkeeps, rfl⟩ | ⟨hno, hchange⟩⟩ :=
      Jmddev.keepsTable_cases hsb (call.faulty_diskInfo bdev) hadd
    · exact iff_of_true ⟨rfl, rfl, rfl, rfl, rfl⟩ ⟨hkeeps, Or.inl hne⟩
    · exact iff_of_false (fun hu => hchange ⟨hu.sb, hu.nbDev⟩) fun hk => hno hk.1
  | complete hgranted bdev hbdev s₁ _ _ err hadd heq hstart =>
    -- the capacity has been published before `do_jmd_run` answers
    rw [hiff hgranted hbdev]
    rw [hprepare] at hadd
    obtain ⟨hpers, hcases⟩ := Jmddev.keepsTable_cases hsb (call.faulty_diskInfo bdev) hadd
    obtain rfl := hstart.eq_of_pers (hpers.trans hrun)
    obtain ⟨hkeeps, rfl⟩ | ⟨hno, hchange⟩ := hcases
    · constructor
      · exact fun hu => ⟨hkeeps, Or.inr ⟨hu.arraySectors.symm, hu.capacity.symm⟩⟩
      · rintro ⟨-, hne | ⟨hsectors, hcapacity⟩⟩
        · exact absurd heq hne
        · exact ⟨hsectors.symm, hcapacity.symm, rfl, rfl, rfl⟩
    · exact iff_of_false (fun hu => hchange ⟨hu.sb, hu.nbDev⟩) fun hk => hno hk.1

/-! ### A fourth device for an array of three -/

/-- Devices of 33024 sectors: 32896 of them are in front of the superblock. -/
def evenDevices : DevT → BlockDev := fun _ => ⟨33024, by decide, fun _ => 0⟩

/-- The calls that start an array of three disks. -/
def threeCalls : List AddStoreCall := [addCall 3 0 0, addCall 3 1 16, addCall 3 2 32]

/-- The array that these calls start. If one of its devices is added again, it is left alone; a
fourth device publishes a capacity for four disks. -/
theorem exec_threeCalls : ∃ s, (addStoreSystem evenDevices).exec
      (addStoreSystem evenDevices).init threeCalls = .ok s ∧
    (s.pers, s.arraySectors,
      (s.addStore (addCall 3 0 0)).toOption.map fun r => r.2.arraySectors,
      (s.addStore (addCall 4 0 48)).toOption.map fun r => r.2.arraySectors) =
        (true, 49152, some 49152, some 65536) :=
  FallibleSystem.exists_exec (by decide +kernel)

theorem undisturbed_iff_known : ∃ s s' ret,
    (addStoreSystem evenDevices).Reachable s ∧ s.pers = true ∧
      s.addStore (addCall 3 0 0) = .ok (ret, s') ∧
        (s.Undisturbed s' ↔ (addCall 3 0 0).env.granted = false ∨
          ∃ bdev, (addCall 3 0 0).env.bdev = some bdev ∧
            s.KeepsTable (addCall 3 0 0).env.add ((addCall 3 0 0).diskInfo bdev) ∧
              s.KeepsCapacity (addCall 3 0 0).totalNum) := by
  obtain ⟨s, hexec, hshow⟩ := exec_threeCalls
  simp only [Prod.mk.injEq] at hshow
  obtain ⟨hrun, -, hknown, -⟩ := hshow
  cases hcall : s.addStore (addCall 3 0 0) with
  | error f => simp [hcall, Except.toOption] at hknown
  | ok r =>
    have hs := FallibleSystem.reachable_of_exec hexec
    exact ⟨s, r.2, r.1, hs, hrun, hcall, undisturbed_iff hs hrun hcall⟩

/-- A running array of three disks, and a fourth device for number 0: the capacity that is
published grows from 49152 to 65536 sectors. -/
theorem running_array_disturbed : ∃ s s' ret,
    (addStoreSystem evenDevices).Reachable s ∧ s.pers = true ∧
      s.addStore (addCall 4 0 48) = .ok (ret, s') ∧ ¬ s.Undisturbed s' := by
  obtain ⟨s, hexec, hshow⟩ := exec_threeCalls
  simp only [Prod.mk.injEq] at hshow
  obtain ⟨hrun, hsectors, -, hfourth⟩ := hshow
  cases hcall : s.addStore (addCall 4 0 48) with
  | error f => simp [hcall, Except.toOption] at hfourth
  | ok r =>
    refine ⟨s, r.2, r.1, FallibleSystem.reachable_of_exec hexec, hrun, hcall, fun hu => ?_⟩
    have hgrown : r.2.arraySectors = 65536 := by simpa [hcall, Except.toOption] using hfourth
    rw [hu.arraySectors, hsectors] at hgrown
    exact absurd hgrown (by decide)

end Jmd

end JRaid
