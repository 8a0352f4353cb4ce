import JRaid.Jmd.Capacity
import JRaid.Jmd.Roster

/-!
# Assembling an array

An array is assembled by one write to the `add` file for each of its disks, which names the device
and its number. The calls of such an `Assembly` bring a roster. Each of them enters its disk into
the table and the member list of an array that is staffed (`Jmddev.Staffed.addNewDisk`), and the
last one starts it.

The roster does not depend on the order of the calls, and so neither do the slots and the capacity
of the array in the end (`assembly_completes`).
-/

namespace JRaid

namespace Jmd

variable {device : DevT → BlockDev} {n : ℕ}

/-! ### Binding a disk -/

/-- Only the component size may change. -/
theorem Superblock.exists_takeSize (sb : Superblock) (size : UInt32) :
    ∃ size', sb.takeSize size = { sb with size := size' } := by
  unfold takeSize
  split
  · exact ⟨size, rfl⟩
  · exact ⟨sb.size, rfl⟩

section

variable {sb : Superblock} {r r' : Roster device n} {i : Fin mdSbDisks} {info : JmdDiskInfo}

/-- Entering a disk into the table is entering it into the roster. -/
theorem Superblock.Lists.assign (h : sb.Lists r)
    (hr' : r'.dev = Function.update r.dev i (some info.dev))
    (hnumber : info.number.toUInt32.toNat = i) (hraid : info.raidDisk.toUInt32.toNat = i)
    (hstate : info.state = 0) : (sb.assign i info).Lists r' := by
  intro j
  by_cases hj : j = i
  · have hself : (sb.assign i info).disks i = (sb.disks i).assign info := sb.setDisk_self i _
    have hup : ((sb.disks i).assign info).faulty = false := by
      rw [Disk.faulty, Disk.assign, hstate]
      exact (by decide : ((0 : Int32).toUInt32 &&& ((1 : UInt32) <<< 0) != 0) = false)
    rw [hj, hself, hr', Function.update_self]
    exact ⟨hup, fun h => absurd h (Option.some_ne_none _), fun _ h => Option.some.inj h,
      fun _ _ => hnumber, fun _ _ => hraid⟩
  · rw [sb.disks_assign_of_ne info hj, hr', Function.update_of_ne hj]
    exact h j

/-- `sync_sbs` points each member to the descriptor of its device. -/
theorem Roster.mans_syncSbs (h : sb.Lists r) {disks : List Rdev}
    (hup : ∀ m ∈ disks, m.faulty = false)
    (hdev : ∀ d, d ∈ disks.map Rdev.dev ↔ ∃ i, r.dev i = some d)
    (hnodup : (disks.map Rdev.dev).Nodup) : r.Mans (syncSbs sb disks) := by
  refine ⟨fun m' hm' => ?_, fun i d hi => ?_, (map_dev_syncSbs sb disks).symm ▸ hnodup⟩
  · obtain ⟨m, hm, rfl⟩ := List.mem_map.mp hm'
    obtain ⟨i, hi⟩ := (hdev m.dev).mp (List.mem_map_of_mem hm)
    refine ⟨i, ?_, by rw [m.syncSb_dev]; exact hi⟩
    rw [Rdev.syncSb_descNr (hup m hm) (h.findDisk hi)]
    exact h.descIndex_number hi
  · obtain ⟨m, hm, hd⟩ := List.mem_map.mp ((hdev d).mpr ⟨i, hi⟩)
    exact ⟨m.syncSb sb, List.mem_map_of_mem hm, (m.syncSb_dev sb).trans hd⟩

theorem Roster.ne_of_free {j : Fin mdSbDisks} {d : DevT} (hfree : r.dev i = none)
    (hj : r.dev j = some d) : j ≠ i := by
  rintro rfl
  exact absurd (hj.symm.trans hfree) (Option.some_ne_none d)

/-- What the entry of a disk under a free number adds to a roster. -/
theorem Roster.exists_dev_iff (hr' : r'.dev = Function.update r.dev i (some info.dev))
    (hfree : r.dev i = none) (d : DevT) :
    (∃ j, r'.dev j = some d) ↔ d = info.dev ∨ ∃ j, r.dev j = some d := by
  rw [hr']
  constructor
  · rintro ⟨j, hj⟩
    by_cases hji : j = i
    · rw [hji, Function.update_self] at hj
      exact Or.inl (Option.some.inj hj).symm
    · rw [Function.update_of_ne hji] at hj
      exact Or.inr ⟨j, hj⟩
  · rintro (rfl | ⟨j, hj⟩)
    · exact ⟨i, Function.update_self ..⟩
    · exact ⟨j, (Function.update_of_ne (Roster.ne_of_free hfree hj) ..).trans hj⟩

/-- The new device is none of those before. -/
theorem Roster.dev_ne (hr' : r'.dev = Function.update r.dev i (some info.dev))
    (hfree : r.dev i = none) (j : Fin mdSbDisks) : r.dev j ≠ some info.dev := by
  intro hj
  have hji : j ≠ i := Roster.ne_of_free hfree hj
  refine hji (r'.inj j i info.dev ?_ ?_)
  · rw [hr', Function.update_of_ne hji]
    exact hj
  · rw [hr', Function.update_self]

/-- **Binding a disk** to an array that is staffed. -/
theorem Jmddev.Staffed.bindImported {s : Jmddev} (h : s.Staffed sb r)
    (hr' : r'.dev = Function.update r.dev i (some info.dev)) (hfree : r.dev i = none)
    (hlists : (sb.assign i info).Lists r') {jrdev : Rdev} (hdev : jrdev.dev = info.dev)
    (hold : jrdev.oldDev = info.dev) (hsize : jrdev.size = 0) (hup : jrdev.faulty = false) :
    ∃ sb', ({ s with
      sb := some (sb.assign i info)
      all := info.dev :: s.all }.bindImported (sb.assign i info) jrdev).Staffed sb' r' := by
  have hassigned : Jmddev.Sized { s with
      sb := some (sb.assign i info)
      all := info.dev :: s.all } (sb.assign i info) :=
    ⟨h.sized.chunkSectors, rfl, h.sized.info, h.sized.seated, h.sized.size⟩
  have hsized := hassigned.bindImported jrdev hsize hup
  have heq := bindImported_of_info hassigned.superblock hassigned.info jrdev
  obtain ⟨size, htake⟩ := (sb.assign i info).exists_takeSize
    (int32OfULong (s.device jrdev.dev).usable).toUInt32
  rw [htake] at hsized heq
  have hmember : ∀ d, d ∈ (jrdev :: s.disks).map Rdev.dev ↔ ∃ j, r'.dev j = some d := by
    intro d
    rw [List.map_cons, List.mem_cons, Roster.exists_dev_iff hr' hfree, h.mans.mem_iff, hdev]
  have hnodup : ((jrdev :: s.disks).map Rdev.dev).Nodup := by
    refine List.nodup_cons.mpr ⟨fun hmem => ?_, h.mans.nodup⟩
    obtain ⟨j, hj⟩ := (h.mans.mem_iff _).mp hmem
    exact Roster.dev_ne hr' hfree j (hdev ▸ hj)
  have hlists' : ({ sb.assign i info with size := size } : Superblock).Lists r' := hlists.congr rfl
  rw [heq] at hsized ⊢
  refine ⟨{ sb.assign i info with size := size }, h.device, h.pers, h.conf, ?_, fun d hd => ?_,
    hsized, ⟨hsized.info, h.sets.raidDisks, h.sets.le, hlists'⟩, h.nrDisks, h.check,
    h.version, ?_, fun m' hm' => ?_⟩
  · exact (congrArg (· + 1) h.nbDev).trans (length_syncSbs _ (_ :: s.disks)).symm
  · refine (Roster.exists_dev_iff hr' hfree d).mpr ?_
    exact (List.mem_cons.mp hd).imp_right (h.all d)
  · refine Roster.mans_syncSbs hlists' (fun m hm => ?_) (by exact hmember) (by exact hnodup)
    obtain rfl | hm := List.mem_cons.mp hm
    · exact hup
    · exact (h.sized.seated m hm).faulty
  · obtain ⟨m, hm, rfl⟩ := List.mem_map.mp hm'
    obtain rfl | hm := List.mem_cons.mp hm
    · exact Rdev.synced_syncSb _ hup (hold.trans hdev.symm)
    · exact Rdev.synced_syncSb _ (h.sized.seated m hm).faulty (h.synced m hm).oldDev

end

/-! ### The calls of an assembly -/

/-- The device that a call opens. -/
def AddStoreCall.dev (call : AddStoreCall) : Option DevT :=
  call.env.bdev.map fun bdev => (call.diskInfo bdev).dev

/-- The descriptor that a call names. -/
def AddStoreCall.index (call : AddStoreCall) : Option (Fin mdSbDisks) := descIndex call.jrdevNum

/-- The call brings a disk for an array of `n` disks: it names one of its numbers and a device with
room for a chunk, and the kernel grants what is asked for. -/
structure AddStoreCall.Brings (call : AddStoreCall) (device : DevT → BlockDev) (n : ℕ) :
    Prop where
  granted : call.env.granted = true
  set : call.env.set.sb = true
  opens : call.env.add.opens = true
  run : call.env.run.Grants
  totalNum : call.totalNum.toInt = n
  index : ∃ i, call.index = some i ∧ (i : ℕ) < n
  dev : ∃ d, call.dev = some d ∧ d ≠ 0 ∧ 64 ≤ (device d).usable.toNat

/-- Which device a sequence of calls gives which number. -/
def rosterOf (calls : List AddStoreCall) (i : Fin mdSbDisks) : Option DevT :=
  (FirstClaim.holder AddStoreCall.index calls i).bind AddStoreCall.dev

/-- A sequence of calls that bring the disks of an array of `n` disks, or some of them: no number
and no device comes twice. -/
structure Assembly (device : DevT → BlockDev) (n : ℕ) (calls : List AddStoreCall) : Prop where
  pos : 0 < n
  le : n ≤ mdSbDisks
  brings : ∀ call ∈ calls, call.Brings device n
  numbers : (calls.map AddStoreCall.index).Nodup
  devices : (calls.map AddStoreCall.dev).Nodup

namespace Assembly

variable {calls : List AddStoreCall}

theorem rosterOf_eq_some_iff (h : Assembly device n calls) {i : Fin mdSbDisks} {d : DevT} :
    rosterOf calls i = some d ↔ ∃ call ∈ calls, call.index = some i ∧ call.dev = some d := by
  rw [rosterOf, Option.bind_eq_some_iff]
  constructor
  · rintro ⟨call, hcall, hd⟩
    exact ⟨call, FirstClaim.mem_of_holder hcall, FirstClaim.key_of_holder hcall, hd⟩
  · rintro ⟨call, hmem, hi, hd⟩
    exact ⟨call, (FirstClaim.holder_eq_some_iff h.numbers).mpr ⟨hmem, hi⟩, hd⟩

/-- The roster that the calls bring. -/
def roster (h : Assembly device n calls) : Roster device n where
  dev := rosterOf calls
  lt i d hi := by
    obtain ⟨call, hcall, hindex, -⟩ := h.rosterOf_eq_some_iff.mp hi
    obtain ⟨j, hj, hlt⟩ := (h.brings call hcall).index
    rwa [Option.some.inj (hindex.symm.trans hj)]
  ne_zero i hi := by
    obtain ⟨call, hcall, -, hdev⟩ := h.rosterOf_eq_some_iff.mp hi
    obtain ⟨d, hd, hne, -⟩ := (h.brings call hcall).dev
    exact hne (Option.some.inj (hd.symm.trans hdev))
  inj i j d hi hj := by
    obtain ⟨call, hcall, hindex, hdev⟩ := h.rosterOf_eq_some_iff.mp hi
    obtain ⟨call', hcall', hindex', hdev'⟩ := h.rosterOf_eq_some_iff.mp hj
    obtain rfl := List.inj_on_of_nodup_map h.devices hcall hcall' (hdev.trans hdev'.symm)
    exact Option.some.inj (hindex.symm.trans hindex')
  room i d hi := by
    obtain ⟨call, hcall, -, hdev⟩ := h.rosterOf_eq_some_iff.mp hi
    obtain ⟨d', hd', -, hroom⟩ := (h.brings call hcall).dev
    rwa [Option.some.inj (hdev.symm.trans hd')]

/-- In another order the same calls bring the same roster. -/
theorem perm {calls' : List AddStoreCall} (h : Assembly device n calls)
    (hperm : calls'.Perm calls) : ∃ h' : Assembly device n calls', h'.roster = h.roster := by
  refine ⟨⟨h.pos, h.le, fun call hcall => h.brings call (hperm.mem_iff.mp hcall),
    (hperm.map _).nodup_iff.mpr h.numbers, (hperm.map _).nodup_iff.mpr h.devices⟩, ?_⟩
  refine Roster.ext (funext fun i => ?_)
  exact congrArg (fun c => (c i).bind AddStoreCall.dev) (FirstClaim.holder_perm h.numbers hperm)

/-- The calls before the last. -/
theorem init {call : AddStoreCall} (h : Assembly device n (calls ++ [call])) :
    Assembly device n calls := by
  have hnumbers := h.numbers
  have hdevices := h.devices
  rw [List.map_append] at hnumbers hdevices
  exact ⟨h.pos, h.le, fun c hc => h.brings c (List.mem_append_left _ hc),
    (List.nodup_append.mp hnumbers).1, (List.nodup_append.mp hdevices).1⟩

/-- The last call brings a disk under a number that is free. -/
theorem roster_concat {call : AddStoreCall} (h : Assembly device n (calls ++ [call]))
    {i : Fin mdSbDisks} (hi : call.index = some i) :
    h.init.roster.dev i = none ∧
      h.roster.dev = Function.update h.init.roster.dev i call.dev := by
  have hnone : FirstClaim.holder AddStoreCall.index calls i = none :=
    FirstClaim.holder_eq_none_of_concat h.numbers hi
  refine ⟨congrArg (fun c => c.bind AddStoreCall.dev) hnone, funext fun j => ?_⟩
  change rosterOf (calls ++ [call]) j = Function.update (rosterOf calls) i call.dev j
  rw [rosterOf, FirstClaim.holder_concat_of_free hi hnone]
  by_cases hj : j = i
  · rw [hj, Function.update_self, Function.update_self]
    rfl
  · rw [Function.update_of_ne hj, Function.update_of_ne hj]
    rfl

/-- There are no more calls than disks. -/
theorem length_le (h : Assembly device n calls) : calls.length ≤ n := by
  have hsome : ∀ call ∈ calls, call.index.isSome := by
    intro call hcall
    obtain ⟨i, hi, -⟩ := (h.brings call hcall).index
    exact Option.isSome_iff_exists.mpr ⟨i, hi⟩
  rw [← FirstClaim.card_held_of_nodup hsome h.numbers, ← Finset.card_range n]
  refine Finset.card_le_card_of_injOn Fin.val (fun k hk => ?_) Fin.val_injective.injOn
  obtain ⟨call, hcall, hindex⟩ := FirstClaim.mem_held.mp hk
  obtain ⟨i, hi, hlt⟩ := (h.brings call hcall).index
  obtain rfl := Option.some.inj (hindex.symm.trans hi)
  exact Finset.mem_coe.mpr (Finset.mem_range.mpr hlt)

end Assembly

/-! ### One call -/

section

variable {s : Jmddev} {call : AddStoreCall} {bdev : Int32 × Int32} {r r' : Roster device n}
  {i : Fin mdSbDisks}

/-- `add_new_disk` binds the disk that a call brings. -/
theorem Jmddev.Staffed.addNewDisk {sb : Superblock} (h : s.Staffed sb r)
    (hc : call.Brings device n) (hbdev : call.env.bdev = some bdev) (hi : call.index = some i)
    (hfree : r.dev i = none) (hr' : r'.dev = Function.update r.dev i call.dev) :
    ∃ s' sb', s.addNewDisk call.env.add (call.diskInfo bdev) = .ok (0, s') ∧ s'.Staffed sb' r' ∧
      s'.nbDev = s.nbDev + 1 := by
  rw [AddStoreCall.dev, hbdev, Option.map_some] at hr'
  have hnumber : (call.diskInfo bdev).number.toUInt32.toNat = i := descIndex_eq_some_iff.mp hi
  have hlt : (call.diskInfo bdev).number.toUInt32.toNat < mdSbDisks := hnumber ▸ i.isLt
  obtain rfl : ⟨_, hlt⟩ = i := Fin.ext hnumber
  have hall : (call.diskInfo bdev).dev ∉ s.all := by
    intro hmem
    obtain ⟨j, hj⟩ := h.all _ hmem
    exact Roster.dev_ne hr' hfree j hj
  have hnr : ¬ sb.nrDisks ≤ (call.diskInfo bdev).number.toUInt32 := by
    rw [UInt32.le_iff_toNat_le, h.nrDisks]
    exact Nat.not_le.mpr (r'.lt ⟨_, hlt⟩ _ (by rw [hr', Function.update_self]))
  obtain ⟨jrdev, s₁, himp⟩ := jmdImportDevice_of_opens { s with
    sb := some (sb.assign ⟨_, hlt⟩ (call.diskInfo bdev)) } hall hc.opens
  obtain ⟨hnew, rfl⟩ := imported himp
  obtain ⟨sb', hs'⟩ := h.bindImported hr' hfree (h.sets.lists.assign hr' rfl rfl rfl)
    (show ({ jrdev with
      oldDev := (call.diskInfo bdev).dev
      descNr := (call.diskInfo bdev).number } : Rdev).dev = _ from hnew.dev) rfl hnew.size
    hnew.faulty
  refine ⟨_, sb', ?_, hs', rfl⟩
  unfold Jmddev.addNewDisk
  rw [if_neg hall, h.sized.superblock]
  dsimp only
  rw [if_neg hnr, dif_pos hlt, if_neg (by simp [call.faulty_diskInfo]), himp]

/-- A descriptor that nothing has been entered into is free. -/
theorem Disk.records_zero (i : ℕ) : Disk.zero.Records i none where
  faulty := by decide
  free _ := by decide
  dev d h := absurd h.symm (Option.some_ne_none d)
  number d h := absurd h.symm (Option.some_ne_none d)
  raidDisk d h := absurd h.symm (Option.some_ne_none d)

/-- An array without members mans the empty roster. -/
theorem Roster.mans_nil (hr : ∀ i, r.dev i = none) : r.Mans [] where
  named := List.forall_mem_nil _
  present i d hi := absurd (hi.symm.trans (hr i)) (Option.some_ne_none d)
  nodup := List.nodup_nil

/-- A new array gets its superblock with the first call. -/
theorem Jmddev.exists_staffed_fresh (hc : call.Brings device n) (hle : n ≤ mdSbDisks)
    (hr : ∀ i, r.dev i = none) : ∃ sb, ((Jmddev.fresh device).prepare call).Staffed sb r := by
  have htotal : call.totalNum.toUInt32.toNat = n := toNat_toUInt32_of_toInt hc.totalNum
  have hprepare : (Jmddev.fresh device).prepare call =
      { Jmddev.fresh device with
        sb := some (Superblock.zero.setInfo call.env.set call.arrayInfo)
        chunkSectors := infoChunkSectors } := by
    rw [prepare, if_pos (show (Jmddev.fresh device).nbDev = 0 from rfl), setArrayInfo,
      show (Jmddev.fresh device).sb = none from rfl, allocArraySb, hc.set]
    rfl
  have hinfo : (Superblock.zero.setInfo call.env.set call.arrayInfo).shape.FromInfo :=
    ⟨rfl, rfl, rfl, rfl⟩
  have hlists : (Superblock.zero.setInfo call.env.set call.arrayInfo).Lists r := by
    intro i
    rw [hr i]
    exact Disk.records_zero i
  rw [hprepare]
  exact ⟨_, rfl, rfl, rfl, rfl, List.forall_mem_nil _,
    ⟨rfl, rfl, hinfo, List.forall_mem_nil _, rfl⟩, ⟨hinfo, htotal, hle, hlists⟩, htotal, rfl,
    ⟨rfl, (by decide : (0 : UInt32) ≤ mdMinorVersion)⟩, Roster.mans_nil hr, List.forall_mem_nil _⟩

/-- The array does not run yet, and waits for the next disk. -/
structure Jmddev.Awaits (s : Jmddev) (r : Roster device n) : Prop where
  pers : s.pers = false
  conf : s.conf = none
  members : ∀ d, d ∈ s.disks.map Rdev.dev ↔ ∃ i, r.dev i = some d
  staffed : ∀ call : AddStoreCall, call.Brings device n → ∃ sb, (s.prepare call).Staffed sb r

/-- Once the array has members nothing is prepared. -/
theorem Jmddev.Staffed.awaits {sb : Superblock} (h : s.Staffed sb r) (hne : s.nbDev ≠ 0) :
    s.Awaits r where
  pers := h.pers
  conf := h.conf
  members := h.mans.mem_iff
  staffed call _ := ⟨sb, by rwa [prepare, if_neg hne]⟩

theorem Jmddev.Awaits.addMember (h : s.Awaits r) (hc : call.Brings device n)
    (hbdev : call.env.bdev = some bdev) (hi : call.index = some i) (hfree : r.dev i = none)
    (hr' : r'.dev = Function.update r.dev i call.dev) :
    ∃ s' sb', s.addMember call bdev = .ok s' ∧ s'.Staffed sb' r' ∧ s'.nbDev = s.nbDev + 1 := by
  obtain ⟨sb, hs⟩ := h.staffed call hc
  obtain ⟨s', sb', hadd, hs', hnb⟩ := hs.addNewDisk hc hbdev hi hfree hr'
  exact ⟨s', sb', by rw [Jmddev.addMember, hadd]; rfl, hs', hnb.trans (by rw [nbDev_prepare])⟩

/-- A call for which the allocations succeed and whose device has been bound. -/
theorem Jmddev.addStore_of_addMember {s₁ : Jmddev} (hgranted : call.env.granted = true)
    (hbdev : call.env.bdev = some bdev) (hadd : s.addMember call bdev = .ok s₁) :
    s.addStore call = if (s₁.nbDev : ℤ) = call.totalNum.toInt then
      ((s₁.publish call.totalNum).doJmdRun call.env.run).map fun t => (call.cnt, t.2)
    else .ok (call.cnt, s₁) := by
  simp only [AddStoreEnv.granted, Bool.and_eq_true] at hgranted
  obtain ⟨⟨hdtdev, harray⟩, hinfo⟩ := hgranted
  rw [Jmddev.addStore, hdtdev, harray, hinfo, hbdev]
  dsimp only [Bool.not_true]
  rw [if_neg (by decide), if_neg (by decide), if_neg (by decide), hadd]
  dsimp only
  split
  · cases (s₁.publish call.totalNum).doJmdRun call.env.run with
    | error f => rfl
    | ok t => rfl
  · rfl

end

/-! ### Runs -/

/-- The array of a roster runs: its slots hold what the roster says, and the capacity, which the
`gendisk` is given too, is that of as many disks of the least size. -/
structure Jmddev.Runs (s : Jmddev) (r : Roster device n) : Prop where
  pers : s.pers = true
  conf : s.conf = some r.conf
  members : ∀ d, d ∈ s.disks.map Rdev.dev ↔ ∃ i, r.dev i = some d
  arraySectors : ∃ size, IsLeast r.sizes size ∧
    s.arraySectors.toNat = size / 32768 * 16384 * n
  capacity : s.capacity = s.arraySectors

namespace Assembly

variable {calls : List AddStoreCall} {call : AddStoreCall} {s : Jmddev}

/-- The last call binds its disk. -/
theorem exists_addMember (h : Assembly device n (calls ++ [call]))
    (haw : s.Awaits h.init.roster) :
    ∃ bdev s' sb', call.env.bdev = some bdev ∧ s.addMember call bdev = .ok s' ∧
      s'.Staffed sb' h.roster ∧ s'.nbDev = s.nbDev + 1 := by
  have hc := h.brings call (List.mem_append_right calls List.mem_cons_self)
  obtain ⟨i, hi, -⟩ := hc.index
  obtain ⟨d, hd, -⟩ := hc.dev
  obtain ⟨bdev, hbdev, -⟩ := Option.map_eq_some_iff.mp hd
  obtain ⟨hfree, hr'⟩ := h.roster_concat hi
  obtain ⟨s', sb', hadd, hs', hnb⟩ := haw.addMember hc hbdev hi hfree hr'
  exact ⟨bdev, s', sb', hbdev, hadd, hs', hnb⟩

/-- If a disk is still missing the array then waits for the next one. -/
theorem awaits_step (h : Assembly device n (calls ++ [call])) (haw : s.Awaits h.init.roster)
    (hlt : s.nbDev + 1 < n) :
    ∃ s', (addStoreSystem device).step s call = .ok s' ∧ s'.nbDev = s.nbDev + 1 ∧
      s'.Awaits h.roster := by
  have hc := h.brings call (List.mem_append_right calls List.mem_cons_self)
  obtain ⟨bdev, s', sb', hbdev, hadd, hs', hnb⟩ := h.exists_addMember haw
  refine ⟨s', ?_, hnb, hs'.awaits (by rw [hnb]; exact Nat.succ_ne_zero _)⟩
  have hmore : ¬ (s'.nbDev : ℤ) = call.totalNum.toInt := by
    rw [hc.totalNum, hnb]
    omega
  change (s.addStore call).map Prod.snd = _
  rw [Jmddev.addStore_of_addMember hc.granted hbdev hadd, if_neg hmore]
  rfl

/-- If it was the last one missing the array is started. -/
theorem runs_step (h : Assembly device n (calls ++ [call])) (haw : s.Awaits h.init.roster)
    (hlast : s.nbDev + 1 = n) :
    ∃ s', (addStoreSystem device).step s call = .ok s' ∧ s'.nbDev = n ∧ s'.Runs h.roster := by
  have hc := h.brings call (List.mem_append_right calls List.mem_cons_self)
  obtain ⟨bdev, s₁, sb, hbdev, hadd, hs₁, hnb⟩ := h.exists_addMember haw
  have hn : s₁.nbDev = n := hnb.trans hlast
  have hlen : s₁.disks.length = n := hs₁.nbDev.symm.trans hn
  have hne : s₁.disks ≠ [] := by
    intro hnil
    rw [hnil] at hlen
    exact absurd hlen h.pos.ne
  have htotal : (s₁.nbDev : ℤ) = call.totalNum.toInt := by rw [hc.totalNum, hn]
  obtain ⟨s', hrun, hpers, hconf, hsteady⟩ :=
    (hs₁.publish call.totalNum).doJmdRun hne (hlen.ge.trans (Nat.le_succ _)) hc.run
  refine ⟨s', ?_, hsteady.nbDev.trans hn, hpers, hconf, fun d => ?_,
    ⟨sb.size.toNat, hs₁.isLeast_size hne, ?_⟩, hsteady.capacity.trans hsteady.arraySectors.symm⟩
  · change (s.addStore call).map Prod.snd = _
    rw [Jmddev.addStore_of_addMember hc.granted hbdev hadd, if_pos htotal, hrun]
    rfl
  · rw [map_dev_of_seat hsteady.seat]
    exact hs₁.mans.mem_iff d
  · rw [hsteady.arraySectors]
    exact Jmddev.toNat_jmddevSize hs₁.sized.chunkSectors hs₁.sized.superblock hc.totalNum.symm

/-- Calls that do not bring all the disks. -/
theorem awaits (h : Assembly device n calls) (hlt : calls.length < n) :
    ∃ s, (addStoreSystem device).exec (addStoreSystem device).init calls = .ok s ∧
      s.nbDev = calls.length ∧ s.Awaits h.roster := by
  induction calls using List.reverseRecOn with
  | nil =>
    refine ⟨Jmddev.fresh device, rfl, rfl, rfl, rfl, fun d => ?_, fun call hc => ?_⟩
    · refine iff_of_false List.not_mem_nil ?_
      rintro ⟨i, hi⟩
      exact absurd hi.symm (Option.some_ne_none d)
    · exact Jmddev.exists_staffed_fresh hc h.le fun _ => rfl
  | append_singleton calls call ih =>
    rw [List.length_append, List.length_singleton] at hlt ⊢
    obtain ⟨s, hs, hnb, haw⟩ := ih h.init (Nat.lt_of_succ_lt hlt)
    obtain ⟨s', hs', hnb', haw'⟩ := h.awaits_step haw (by rw [hnb]; exact hlt)
    refine ⟨s', ?_, by rw [hnb', hnb], haw'⟩
    rw [FallibleSystem.exec_concat, hs]
    exact hs'

/-- Calls that bring all the disks. -/
theorem runs (h : Assembly device n calls) (hlen : calls.length = n) :
    ∃ s, (addStoreSystem device).exec (addStoreSystem device).init calls = .ok s ∧
      s.nbDev = n ∧ s.Runs h.roster := by
  obtain rfl | ⟨calls, call, rfl⟩ := List.eq_nil_or_concat' calls
  · exact absurd hlen h.pos.ne
  rw [List.length_append, List.length_singleton] at hlen
  obtain ⟨s, hs, hnb, haw⟩ := h.init.awaits (Nat.lt_of_succ_le hlen.le)
  obtain ⟨s', hs', hnb', hruns⟩ := h.runs_step haw (by rw [hnb, hlen])
  refine ⟨s', ?_, hnb', hruns⟩
  rw [FallibleSystem.exec_concat, hs]
  exact hs'

end Assembly

/-- **An array can be assembled in any order**: whichever order the calls for its disks come in,
each of them brings its disk. As long as one is missing the array waits; with the last one it runs,
and its slots and its capacity do not depend on the order. -/
theorem assembly_completes {calls calls' : List AddStoreCall} (h : Assembly device n calls)
    (hperm : calls'.Perm calls) :
    ∃ s, (addStoreSystem device).exec (addStoreSystem device).init calls' = .ok s ∧
      s.nbDev = calls.length ∧ (calls.length < n → s.Awaits h.roster) ∧
      (calls.length = n → s.Runs h.roster) := by
  obtain ⟨h', hroster⟩ := h.perm hperm
  rw [← hroster, ← hperm.length_eq]
  obtain hlt | heq := Nat.lt_or_eq_of_le h'.length_le
  · obtain ⟨s, hs, hnb, haw⟩ := h'.awaits hlt
    exact ⟨s, hs, hnb, fun _ => haw, fun heq => absurd heq hlt.ne⟩
  · obtain ⟨s, hs, hnb, hruns⟩ := h'.runs heq
    exact ⟨s, hs, hnb.trans heq.symm, fun hlt => absurd heq hlt.ne, fun _ => hruns⟩

/-- A call for one of three disks brings it. -/
theorem brings_addCall {jrdevNum minor : Int32} {i : Fin mdSbDisks}
    (hi : descIndex jrdevNum = some i) (hlt : (i : ℕ) < 3) (hne : mkdev 8 minor.toUInt32 ≠ 0) :
    (addCall 3 jrdevNum minor).Brings tightDevices 3 where
  granted := rfl
  set := rfl
  opens := rfl
  run := ⟨rfl, rfl, rfl, rfl, rfl, rfl⟩
  totalNum := (by decide : (3 : Int32).toInt = (3 : ℕ))
  index := ⟨i, hi, hlt⟩
  dev := ⟨mkdev 8 minor.toUInt32, rfl, hne, (by decide : 64 ≤ (tightDevices 0).usable.toNat)⟩

/-- Calls for three disks. -/
theorem assembly_threeCalls : Assembly tightDevices 3 threeCalls where
  pos := by decide
  le := by decide
  brings := by
    simp only [threeCalls, List.forall_mem_cons, List.not_mem_nil, false_imp_iff, implies_true,
      and_true]
    exact ⟨@brings_addCall 0 0 ⟨0, by decide⟩ (by decide) (by decide) (by decide),
      @brings_addCall 1 16 ⟨1, by decide⟩ (by decide) (by decide) (by decide),
      @brings_addCall 2 32 ⟨2, by decide⟩ (by decide) (by decide) (by decide)⟩
  numbers := by decide
  devices := by decide

/-- The last of the three calls comes first. -/
theorem assembly_completes_three : ∃ s, (addStoreSystem tightDevices).exec
    (addStoreSystem tightDevices).init [addCall 3 2 32, addCall 3 0 0, addCall 3 1 16] = .ok s ∧
      s.nbDev = 3 ∧ s.Runs assembly_threeCalls.roster := by
  have hperm : [addCall 3 2 32, addCall 3 0 0, addCall 3 1 16].Perm threeCalls :=
    (List.perm_append_comm : ([addCall 3 2 32] ++ [addCall 3 0 0, addCall 3 1 16]).Perm _)
  obtain ⟨s, hs, hnb, -, hruns⟩ := assembly_completes assembly_threeCalls hperm
  exact ⟨s, hs, hnb, hruns rfl⟩

end Jmd

end JRaid
