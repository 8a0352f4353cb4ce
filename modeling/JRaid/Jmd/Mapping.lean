import JRaid.Geometry.ComputeSector
import JRaid.Jmd.Restart
import JRaid.Jmd.Slots

/-!
# The sector map of an array that is accepted

Between them `do_jmd_run` and `jraid5_run` should turn down every array whose sectors cannot be
mapped. The chunk size is looked after, but the number of disks is tested against the members only:
an array of one disk has no data disk to divide by, and one of 28 has more disks than `conf->disks`
has slots. The layout is compared as a signed number from above only. What is missing is exactly
that (`maps_safely_iff`).
-/

namespace JRaid

/-! ### When the map is safe -/

/-- `jraid5_compute_sector` divides by numbers other than 0 only, its `switch` has a case for the
layout, and the disks that it names are disks of the array, all of which are in the table. -/
structure JRaid5Conf.MapsSafely (conf : JRaid5Conf) : Prop where
  sectorsPerChunk : ulong (conf.chunkSize >>> 9) ≠ 0
  dataDisks : conf.raidDisks.toUInt32 - 1 ≠ 0
  raidDisks : conf.raidDisks.toUInt32 ≠ 0
  layout : conf.SupportedLayout
  ddIdx : ∀ rSector pdIdx, (conf.mapSector rSector pdIdx).ddIdx < conf.raidDisks.toUInt32
  pdIdx : ∀ rSector pdIdx, (conf.mapSector rSector pdIdx).pdIdx < conf.raidDisks.toUInt32
  table : conf.raidDisks.toUInt32.toNat ≤ Jmd.mdSbDisks

theorem toInt_shiftRight_nine (c : Int32) : (c >>> 9).toInt = c.toInt / 512 := by
  have h : (c >>> 9).toBitVec = c.toBitVec.sshiftRight 9 := by
    rw [Int32.toBitVec_shiftRight]
    rfl
  rw [← Int32.toInt_toBitVec, h, BitVec.toInt_sshiftRight, Int.shiftRight_eq_div_pow]
  rfl

/-- A chunk of at least a page has sectors; one with a negative size has very many. -/
theorem ulong_shiftRight_ne_zero {c : Int32} (h : ¬ ulong c < 4096) : ulong (c >>> 9) ≠ 0 := by
  intro h0
  have hzero : c >>> 9 = 0 := Int32.toInt_inj.mp <| by
    have hlong : (c >>> 9).toInt64 = 0 := by simpa [ulong] using congrArg UInt64.toInt64 h0
    rw [← Int32.toInt_toInt64, hlong]
    rfl
  have hshift := congrArg Int32.toInt hzero
  rw [toInt_shiftRight_nine] at hshift
  change c.toInt / 512 = 0 at hshift
  obtain ⟨n, hn⟩ := Int.eq_ofNat_of_zero_le (show 0 ≤ c.toInt by omega)
  have hval := toNat_ulong_of_toInt hn
  rw [UInt64.lt_iff_toNat_lt, hval] at h
  change ¬ n < 4096 at h
  omega

namespace JRaid5Conf

variable {conf : JRaid5Conf}

/-- The map names disks of the array, whatever the size of a chunk. -/
theorem mapSector_lt (hl : conf.SupportedLayout) (hn : 2 ≤ conf.numDisks) (r : UInt64)
    (pd : UInt32) : (conf.mapSector r pd).ddIdx < conf.raidDisks.toUInt32 ∧
      (conf.mapSector r pd).pdIdx < conf.raidDisks.toUInt32 := by
  have hraid := toNat_raidDisks hn
  have hdata := toNat_dataDisks hn
  have hlt31 := conf.numDisks_lt
  have hdd : (r / ulong (conf.chunkSize >>> 9) %
      (conf.raidDisks.toUInt32 - 1).toUInt64).toUInt32.toNat < conf.numDisks - 1 := by
    have hmod := Nat.mod_lt (r / ulong (conf.chunkSize >>> 9)).toNat
      (show conf.numDisks - 1 > 0 by omega)
    rw [UInt64.toNat_toUInt32, UInt64.toNat_mod, UInt32.toNat_toUInt64, hdata]
    exact (Nat.mod_le _ _).trans_lt hmod
  obtain ⟨h1, h2⟩ := toNat_diskIndices hl hn
    (r / ulong (conf.chunkSize >>> 9) / (conf.raidDisks.toUInt32 - 1).toUInt64) pd hraid hdata hdd
  rw [UInt32.lt_iff_toNat_lt, UInt32.lt_iff_toNat_lt, hraid]
  exact ⟨h1.trans_lt ((conf.layout hn).disk_lt _ _ hdd), h2.trans_lt (parityDisk_lt hn _)⟩

/-- **When the map is safe**: there are two disks at least, and no more than the table has
slots. -/
theorem mapsSafely_iff (hchunk : ulong (conf.chunkSize >>> 9) ≠ 0) :
    conf.MapsSafely ↔ conf.SupportedLayout ∧ 2 ≤ conf.raidDisks.toUInt32.toNat ∧
      conf.raidDisks.toUInt32.toNat ≤ Jmd.mdSbDisks := by
  constructor
  · intro h
    have h0 : conf.raidDisks.toUInt32.toNat ≠ 0 := fun h0 => h.raidDisks (UInt32.toNat_inj.mp h0)
    have h1 : conf.raidDisks.toUInt32.toNat ≠ 1 := by
      intro h1
      have hone : conf.raidDisks.toUInt32 = 1 := UInt32.toNat_inj.mp h1
      exact h.dataDisks (by rw [hone, UInt32.sub_self])
    exact ⟨h.layout, by omega, h.table⟩
  · rintro ⟨hl, htwo, htable⟩
    have hint : conf.raidDisks.toInt = conf.raidDisks.toUInt32.toNat := by
      have hle : conf.raidDisks.toUInt32.toNat ≤ 27 := htable
      have h := toInt_toInt32 (x := conf.raidDisks.toUInt32) (by omega)
      rwa [Int32.toInt32_toUInt32] at h
    have hn : conf.numDisks = conf.raidDisks.toUInt32.toNat := by
      rw [numDisks, Int32.toNatClampNeg, hint, Int.toNat_natCast]
    refine ⟨hchunk, fun h => ?_, fun h => ?_, hl, fun r pd => ?_, fun r pd => ?_, htable⟩
    · have hdata := toNat_dataDisks (hn ▸ htwo)
      rw [h, hn] at hdata
      simp only [UInt32.toNat_zero] at hdata
      omega
    · rw [h] at htwo
      exact absurd htwo (by decide)
    · exact (mapSector_lt hl (hn ▸ htwo) r pd).1
    · exact (mapSector_lt hl (hn ▸ htwo) r pd).2

end JRaid5Conf

namespace Jmd

/-! ### The arrays that are accepted -/

/-- All that `do_jmd_run` and `jraid5_run` look at is in order; `st` is what the members and the
faulty descriptors have made of the slots. Whether the loop that sets the marks afterwards stays in
the table is left open. -/
structure Jmddev.Admits (s : Jmddev) (env : RunEnv) (st : RunState) : Prop where
  nbDev : s.nbDev ≠ 0
  pers : s.pers = false
  checked : ∃ s₁ sb, { s with jmdSize := 0 }.analyzeSbs env.sb = .ok (0, s₁) ∧ s₁.sb = some sb ∧
    sb.checkGeometry env = true ∧ (s₁.deviceSizeCalculation sb).1 = 0 ∧
      (s₁.deviceSizeCalculation sb).2.fillSlots sb = .ok st
  passes : st.Passes

/-- The rest of `jraid5_run` leaves the configuration as the loops have made it. -/
theorem RunState.Finished.conf {st st' : RunState} {env : RunEnv} (h : st.Finished env st') :
    st'.conf = st.conf := by
  have hshape : ∀ {β : Type} (f : Shape → β), f st'.sb.shape = f st.sb.shape :=
    fun f => congrArg f h.shape
  rw [RunState.conf, RunState.conf, h.slots,
    show st'.sb.chunkSize = st.sb.chunkSize from hshape Shape.chunkSize,
    show st'.sb.level = st.sb.level from hshape Shape.level,
    show st'.sb.layout = st.sb.layout from hshape Shape.layout,
    show st'.sb.raidDisks = st.sb.raidDisks from hshape Shape.raidDisks]

/-- An array that is started has been accepted. -/
theorem Jmddev.exists_admits {s s' : Jmddev} {env : RunEnv} (h : s.doJmdRun env = .ok (0, s')) :
    ∃ st, s.Admits env st ∧ s'.conf = some st.conf := by
  obtain ⟨herr, -⟩ | ⟨hnb, hpers, aerr, s₁, hanalyze, ⟨herr, -⟩ | ⟨rfl, sb, hsb, hcheck, h⟩⟩ :=
    doJmdRun_cases h
  · exact absurd rfl herr
  · exact absurd rfl herr
  unfold startPers at h
  dsimp only at h
  split at h
  · exact absurd (Prod.mk.inj (Except.ok.inj h)).1 (by decide)
  rename_i hsize
  split at h
  · cases h
  rename_i rerr s₂ hrun
  split at h
  · exact absurd (Prod.mk.inj (Except.ok.inj h)).1 (by decide)
  rename_i hrerr
  obtain rfl : rerr = 0 := not_not.mp hrerr
  obtain ⟨st', hst', -, hconf⟩ := exists_runState hrun
  obtain ⟨st, hfill, hfinish⟩ : ∃ st, (s₁.deviceSizeCalculation sb).2.fillSlots sb = .ok st ∧
      st.finish env = .ok (0, st') := by
    unfold runState at hst'
    cases hfill : { (s₁.deviceSizeCalculation sb).2 with pers := true }.fillSlots sb with
    | error f => simp [hfill, Except.bind] at hst'
    | ok st => exact ⟨st, hfill, by simpa [hfill, Except.bind] using hst'⟩
  have hend := RunState.finished hfinish
  refine ⟨st, ⟨hnb, hpers, ⟨s₁, sb, hanalyze, hsb, hcheck, not_not.mp hsize, hfill⟩,
    hend.passes⟩, ?_⟩
  rw [← hend.conf, ← hconf]
  split at h
  · cases h
  · rename_i s₃ log hupdate
    obtain ⟨sb₃, disks₃, device, rfl, -⟩ := jmdUpdateSb_cases hupdate
    rw [← (Prod.mk.inj (Except.ok.inj h)).2]

/-- The checks of `do_jmd_run` leave the levels 4 and 5, and chunks that are no smaller than a
page. -/
theorem Superblock.of_checkGeometry {sb : Superblock} {env : RunEnv}
    (h : sb.checkGeometry env = true) :
    (sb.level = 4 ∨ sb.level = 5) ∧ ¬ ulong sb.chunkSize.toInt32 < 4096 := by
  simp only [checkGeometry, Bool.and_eq_true, Bool.not_eq_true', decide_eq_false_iff_not,
    decide_eq_true_eq] at h
  obtain ⟨⟨⟨⟨⟨-, hchunk⟩, -⟩, -⟩, hpers⟩, -⟩ := h
  refine ⟨?_, hchunk⟩
  have hof : ∀ n : UInt32, sb.level.toInt32 = n.toInt32 → sb.level = n :=
    fun n h => by simpa using congrArg Int32.toUInt32 h
  unfold levelToPers at hpers
  split_ifs at hpers with _ _ _ _ _ hlevel
  any_goals omega
  exact hlevel.imp (hof 4) (hof 5)

/-- A chunk of an array that is accepted has sectors. -/
theorem Jmddev.Admits.sectorsPerChunk_ne_zero {s : Jmddev} {env : RunEnv} {st : RunState}
    (h : s.Admits env st) : ulong (st.conf.chunkSize >>> 9) ≠ 0 := by
  obtain ⟨s₁, sb, -, -, hcheck, -, hfill⟩ := h.checked
  have hst : st.sb.shape = sb.shape := (Jmddev.filled hfill).shape
  refine ulong_shiftRight_ne_zero ?_
  rw [show st.conf.chunkSize = sb.chunkSize.toInt32 from
    congrArg (fun shape => shape.chunkSize.toInt32) hst]
  exact (Superblock.of_checkGeometry hcheck).2

/-- The `switch` has a case for the layouts 0 to 3. -/
theorem supportedLayout_iff {level layout : UInt32} {conf : JRaid5Conf}
    (hconf : conf.level = level.toInt32) (halgorithm : conf.algorithm = layout.toInt32)
    (hlevel : level = 4 ∨ level = 5) : conf.SupportedLayout ↔ level = 4 ∨ layout.toNat ≤ 3 := by
  have hcase : ∀ n : UInt32, conf.algorithm = n.toInt32 ↔ layout.toNat = n.toNat := by
    intro n
    rw [halgorithm, UInt32.toNat_inj]
    exact ⟨fun h => by simpa using congrArg Int32.toUInt32 h, congrArg UInt32.toInt32⟩
  have hsupported : conf.SupportedAlgorithm ↔ layout.toNat ≤ 3 := by
    have h0 := hcase 0
    have h1 := hcase 1
    have h2 := hcase 2
    have h3 := hcase 3
    simp only [UInt32.reduceToNat] at h0 h1 h2 h3
    refine (or_congr h0 (or_congr h1 (or_congr h2 h3))).trans ?_
    omega
  rcases hlevel with rfl | rfl
  · exact iff_of_true (Or.inl hconf) (Or.inl rfl)
  · have h4 : conf.level ≠ 4 := by rw [hconf]; decide
    have h5 : conf.level = 5 := hconf
    rw [JRaid5Conf.SupportedLayout, hsupported, or_iff_right h4, and_iff_right h5,
      or_iff_right (by decide)]

/-- **When an array that is accepted maps safely.** -/
theorem maps_safely_iff (s : Jmddev) (env : RunEnv) :
    (∀ s', s.doJmdRun env = .ok (0, s') → ∃ st, s.Admits env st ∧ s'.conf = some st.conf) ∧
      ∀ st, s.Admits env st → ∃ f, freshest (s.disks.map Rdev.age) = some f ∧
        (st.conf.MapsSafely ↔ 2 ≤ f.sb.raidDisks.toNat ∧ f.sb.raidDisks.toNat ≤ mdSbDisks ∧
          (f.sb.level = 4 ∨ f.sb.layout.toNat ≤ 3)) := by
  refine ⟨fun s' h => Jmddev.exists_admits h, fun st hadmits => ?_⟩
  obtain ⟨s₁, sb, hanalyze, hsb, hcheck, -, hfill⟩ := hadmits.checked
  obtain ⟨herr, -⟩ | ⟨f, sb', disks, hf, -, hshape, -, rfl⟩ := Jmddev.analyzeSbs_cases hanalyze
  · exact absurd herr (by decide)
  obtain rfl : sb' = sb := Option.some.inj hsb
  refine ⟨f, hf, ?_⟩
  have hst : st.sb.shape = sb'.shape := (Jmddev.filled hfill).shape
  obtain ⟨hlevel, -⟩ := Superblock.of_checkGeometry hcheck
  have hof : ∀ {β : Type} (g : Shape → β), g st.sb.shape = g f.sb.shape :=
    fun g => congrArg g (hst.trans hshape)
  have hstLevel : st.sb.level = f.sb.level := hof Shape.level
  have hraid : st.conf.raidDisks.toUInt32 = f.sb.raidDisks := by
    rw [← show st.sb.raidDisks = f.sb.raidDisks from hof Shape.raidDisks]
    exact UInt32.toUInt32_toInt32 _
  have hspc := hadmits.sectorsPerChunk_ne_zero
  have hlevel : f.sb.level = 4 ∨ f.sb.level = 5 := by
    rwa [← show sb'.level = f.sb.level from congrArg Shape.level hshape]
  rw [JRaid5Conf.mapsSafely_iff hspc, hraid, supportedLayout_iff
    (show st.conf.level = f.sb.level.toInt32 from congrArg UInt32.toInt32 hstLevel)
    (congrArg UInt32.toInt32 (hof Shape.layout)) hlevel]
  tauto

/-! ### An array of one disk -/

/-- The first member of an array of one disk is added, and the array is started. -/
theorem oneDisk_started : ∃ s s', (Jmddev.fresh evenDevices).addMember (addCall 1 0 0) (8, 0) =
    .ok s ∧ s.doJmdRun runAll = .ok (0, s') ∧
      s'.conf.map JRaid5Conf.raidDisks = some 1 := by
  obtain ⟨s, hadd, hrun⟩ : ∃ s, (Jmddev.fresh evenDevices).addMember (addCall 1 0 0) (8, 0) =
      .ok s ∧ ((s.doJmdRun runAll).toOption.map fun r =>
        (r.1, r.2.conf.map JRaid5Conf.raidDisks)) = some (0, some 1) :=
    Except.exists_of_toOption_map (by decide +kernel)
  obtain ⟨⟨err, s'⟩, hrun, hshow⟩ := Except.exists_of_toOption_map hrun
  obtain ⟨rfl, hconf⟩ := Prod.mk.inj hshow
  exact ⟨s, s', hadd, hrun, hconf⟩

theorem maps_safely_iff_one : ∃ (s s' : Jmddev) (st : RunState) (f : Rdev),
    s.doJmdRun runAll = .ok (0, s') ∧
    s'.conf = some st.conf ∧ freshest (s.disks.map Rdev.age) = some f ∧
      (st.conf.MapsSafely ↔ 2 ≤ f.sb.raidDisks.toNat ∧ f.sb.raidDisks.toNat ≤ mdSbDisks ∧
        (f.sb.level = 4 ∨ f.sb.layout.toNat ≤ 3)) := by
  obtain ⟨s, s', -, hrun, -⟩ := oneDisk_started
  obtain ⟨hstarted, hiff⟩ := maps_safely_iff s runAll
  obtain ⟨st, hadmits, hconf⟩ := hstarted s' hrun
  obtain ⟨f, hf, hsafe⟩ := hiff st hadmits
  exact ⟨s, s', st, f, hrun, hconf, hf, hsafe⟩

/-- It has no data disk to divide by. -/
theorem oneDisk_unsafe : ∃ s s' conf, (Jmddev.fresh evenDevices).addMember (addCall 1 0 0) (8, 0) =
    .ok s ∧ s.doJmdRun runAll = .ok (0, s') ∧ s'.conf = some conf ∧
      conf.raidDisks.toUInt32 - 1 = 0 ∧ ¬ conf.MapsSafely := by
  obtain ⟨s, s', hadd, hrun, hshow⟩ := oneDisk_started
  obtain ⟨conf, hconf, hraid⟩ := Option.map_eq_some_iff.mp hshow
  have hdata : conf.raidDisks.toUInt32 - 1 = 0 := by
    rw [hraid]
    decide
  exact ⟨s, s', conf, hadd, hrun, hconf, hdata, fun h => h.dataDisks hdata⟩

end Jmd

end JRaid
