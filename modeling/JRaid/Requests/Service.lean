import JRaid.Jmd.Capacity
import JRaid.Jmd.Mapping
import JRaid.Jmd.Table
import JRaid.Requests.Footprint

/-!
# A started array in service

The configuration that `jraid5_run` leaves is the one that `jraid5_make_request` works with, and the
capacity that `add_store` publishes is all that keeps a call from a sector past the end. Here the
two sides meet: an array that a sequence of `add_store` calls has started serves any number of
calls, in any order of steps.

`Jmddev.InService` is what the start guarantees to the calls. Its slots hold different members
(`Jmddev.slots_of_doJmdRun`), so that two rows of the table never stand for one device. With all
members present, the requests stay in front of the component size in every run exactly if the
capacity does not claim more than the members have room for (`service_contained_iff`); the capacity
of an array with no more members than disks does not, and such an array leaves the superblocks of
its members, and their parity, as they are (`superblocks_survive`).
-/

namespace JRaid

namespace Jmd

/-! ### The members in the slots -/

/-- The slots of a configuration hold members, each of them in one slot only. -/
structure Jmddev.Slots (s : Jmddev) (conf : JRaid5Conf) : Prop where
  member : ∀ i r, (conf.disks i).jrdev = some r → ∃ m ∈ s.disks, m.dev.toNat = r.bdev
  apart : ∀ i j r r', (conf.disks i).jrdev = some r → (conf.disks j).jrdev = some r' →
    r.bdev = r'.bdev → i = j

/-- A disk of a configuration that is present is that of the member that has gone to its slot. -/
theorem Jmddev.exists_member {jmddev : Jmddev} {sb : Superblock} {st : RunState}
    (h : jmddev.fillSlots sb = .ok st) {i : ℕ} {r : JmdRdev}
    (hr : (st.conf.disks i).jrdev = some r) :
    ∃ m ∈ jmddev.disks, m.dev.toNat = r.bdev ∧ ∃ k, sb.slotOf m = some k ∧ (k : ℕ) = i := by
  unfold RunState.conf at hr
  dsimp only at hr
  split at hr
  · rename_i hi
    obtain ⟨dev, hdev, rfl⟩ := Option.map_eq_some_iff.mp hr
    obtain ⟨m, hm, rfl, hslot⟩ := exists_occupant h hdev
    exact ⟨m, hm, rfl, ⟨i, hi⟩, hslot, rfl⟩
  · cases hr

/-- If the devices of the members are different, so are those in the slots. -/
theorem Jmddev.slots_of_fillSlots {jmddev : Jmddev} {sb : Superblock} {st : RunState}
    (h : jmddev.fillSlots sb = .ok st) (hnodup : (jmddev.disks.map Rdev.dev).Nodup) :
    jmddev.Slots st.conf where
  member i r hr := by
    obtain ⟨m, hm, hdev, -⟩ := exists_member h hr
    exact ⟨m, hm, hdev⟩
  apart i j r r' hr hr' heq := by
    obtain ⟨m, hm, hdev, k, hk, rfl⟩ := exists_member h hr
    obtain ⟨m', hm', hdev', k', hk', rfl⟩ := exists_member h hr'
    have hsame : m.dev = m'.dev := UInt32.toNat_inj.mp (hdev.trans (heq.trans hdev'.symm))
    obtain rfl : m = m' := List.inj_on_of_nodup_map hnodup hm hm' hsame
    exact congrArg Fin.val (Option.some.inj (hk.symm.trans hk'))

theorem Jmddev.Slots.congr {s s' : Jmddev} {conf : JRaid5Conf} (h : s.Slots conf)
    (hdev : s'.disks.map Rdev.dev = s.disks.map Rdev.dev) : s'.Slots conf where
  member i r hr := by
    obtain ⟨m, hm, hbdev⟩ := h.member i r hr
    obtain ⟨m', hm', heq⟩ := List.mem_map.mp (hdev ▸ List.mem_map_of_mem hm)
    exact ⟨m', hm', heq ▸ hbdev⟩
  apart := h.apart

/-- `device_size_calculation` keeps the members and the state of the array. -/
theorem Jmddev.deviceSizeCalculation_keeps (s : Jmddev) (sb : Superblock) :
    (s.deviceSizeCalculation sb).2.pers = s.pers ∧
      (s.deviceSizeCalculation sb).2.disks.map Rdev.dev = s.disks.map Rdev.dev := by
  obtain ⟨⟨err, s'⟩, h⟩ : ∃ r, s.deviceSizeCalculation sb = r := ⟨_, rfl⟩
  obtain ⟨disks, jmdSize, rfl, hmap, -⟩ := deviceSizeCalculation_cases h
  rw [h]
  exact ⟨rfl, map_dev_of_seat (hmap Rdev.sizeless_seat)⟩

/-- If `do_jmd_run` starts the array, it returns 0. -/
theorem Jmddev.eq_zero_of_doJmdRun {s s' : Jmddev} {env : RunEnv} {err : Int32}
    (h : s.doJmdRun env = .ok (err, s')) (hstop : s.pers = false) (hrun : s'.pers = true) :
    err = 0 := by
  have hno : ∀ {p : Prop}, s'.pers = false → p := fun hfalse =>
    absurd (hfalse.symm.trans hrun) (by decide)
  obtain ⟨-, rfl, -⟩ | ⟨-, -, aerr, s₁, hanalyze, hrest⟩ := doJmdRun_cases h
  · exact hno hstop
  have hstop₁ : s₁.pers = false := by
    obtain ⟨-, rfl⟩ | ⟨f, sb, disks, -, -, -, -, rfl⟩ := analyzeSbs_cases hanalyze
    · exact hstop
    · exact hstop
  obtain ⟨-, rfl⟩ | ⟨-, sb, -, -, hstart⟩ := hrest
  · exact hno hstop₁
  unfold startPers at hstart
  dsimp only at hstart
  split at hstart
  · obtain ⟨-, rfl⟩ := Prod.mk.inj (Except.ok.inj hstart)
    exact hno ((s₁.deviceSizeCalculation_keeps sb).1.trans hstop₁)
  split at hstart
  · cases hstart
  split at hstart
  · obtain ⟨-, rfl⟩ := Prod.mk.inj (Except.ok.inj hstart)
    exact hno rfl
  split at hstart
  · cases hstart
  · exact (Prod.mk.inj (Except.ok.inj hstart)).1.symm

/-- **The slots of a started array** hold members of the array, each in one slot only:
`analyze_sbs` has made sure that no device comes up twice. -/
theorem Jmddev.slots_of_doJmdRun {s s' : Jmddev} {env : RunEnv} {err : Int32} {conf : JRaid5Conf}
    (h : s.doJmdRun env = .ok (err, s')) (hstop : s.pers = false) (hrun : s'.pers = true)
    (hconf : s'.conf = some conf) : s'.Slots conf := by
  obtain rfl := eq_zero_of_doJmdRun h hstop hrun
  obtain ⟨st, hadmits, hst⟩ := exists_admits h
  obtain rfl : conf = st.conf := Option.some.inj (hconf.symm.trans hst)
  obtain ⟨s₁, sb, hanalyze, hsb, -, -, hfill⟩ := hadmits.checked
  obtain ⟨_, _, -, -, -, htabled⟩ := tabled hanalyze
  -- the devices of the members are the same from the analysis to the end
  have hsized := (s₁.deviceSizeCalculation_keeps sb).2
  have hanalyzed : s₁.disks.map Rdev.dev = s.disks.map Rdev.dev := by
    obtain ⟨-, rfl⟩ | ⟨f, sb, disks, -, -, -, hprofile, rfl⟩ := analyzeSbs_cases hanalyze
    · rfl
    · exact map_dev_of_seat (map_seat_of_profile hprofile)
  have hsteady : s'.disks.map Rdev.dev = s.disks.map Rdev.dev := by
    cases runOutcome h with
    | refused => rfl
    | gaveUp => rfl
    | analyzed _ f ha => exact map_dev_of_seat ha.steady.seat
  have hnodup : (s₁.disks.map Rdev.dev).Nodup := htabled.fits.2.2.2.1
  exact (slots_of_fillSlots hfill (hsized ▸ hnodup)).congr
    (hsteady.trans (hanalyzed.symm.trans hsized.symm))

/-! ### What a start guarantees -/

/-- What an array guarantees to the calls that it serves, when `set_array_info` has made its
superblock. -/
structure Jmddev.InService (s : Jmddev) (sb : Superblock) (conf : JRaid5Conf) : Prop where
  level : conf.level = 5
  layout : conf.SupportedLayout
  chunk : conf.sectorsPerChunk = 64
  disks : 2 ≤ conf.numDisks
  /-- the component size is the smallest usable size, and consists of whole chunks -/
  smallest : sb.size.toNat = s.smallest
  dvd : 64 ∣ s.smallest
  capacity : s.arraySectors.toNat = s.smallest / 32768 * 16384 * s.nbDev
  fits : s.CapacityFits ↔
    s.smallest / 32768 * 256 * s.nbDev ≤ s.smallest / 64 * (conf.numDisks - 1)
  reserved : ∀ m ∈ s.disks, sb.size.toUInt64 ≤ m.sbOffset
  slots : s.Slots conf

/-- **An array that a sequence of `add_store` calls has started is in service**, unless
`set_array_info` had failed. -/
theorem Jmddev.inService {device : DevT → BlockDev} {s s' : Jmddev} {call : AddStoreCall}
    {ret : Int64} {sb : Superblock} {conf : JRaid5Conf}
    (hs : (addStoreSystem device).Reachable s) (hstop : s.pers = false)
    (h : s.addStore call = .ok (ret, s')) (hrun : s'.pers = true) (hsb : s'.sb = some sb)
    (hconf : s'.conf = some conf) (hchunk : s'.chunkSectors ≠ 0) (h2 : 2 ≤ sb.raidDisks.toNat)
    (h27 : sb.raidDisks.toNat ≤ mdSbDisks) : s'.InService sb conf := by
  obtain ⟨bdev, s₁, f, hstart⟩ := exists_starts hs hstop h hrun
  have ha := hstart.analyzed
  obtain ⟨err, hdo⟩ := hstart.run
  obtain ⟨sb', hsb', hshape'⟩ := ha.sb
  obtain rfl : sb = sb' := Option.some.inj (hsb.symm.trans hsb')
  obtain ⟨-, conf', hconf', hconfigures⟩ := ha.started hrun
  obtain rfl : conf = conf' := Option.some.inj (hconf.symm.trans hconf')
  have hslots := slots_of_doJmdRun hdo ha.pers hrun hconf
  cases hstart.supplied with
  | onDisk hno => exact absurd (ha.steady.chunkSectors.trans hno) hchunk
  | info sb₁ h₁ =>
    have hsound := hstart.sound
    have hpublished := h₁.publish call.totalNum
    obtain ⟨hsize, hmem, hle⟩ :=
      hpublished.started ⟨hsound.nbDev, hsound.check, hsound.running⟩ ha hrun
    have hshape := hpublished.shape_freshest ha
    have heq : sb.shape = sb₁.shape := hshape'.trans hshape
    have hraid : sb.raidDisks = sb₁.raidDisks := congrArg Shape.raidDisks heq
    have h27₁ : sb₁.raidDisks.toNat ≤ mdSbDisks := hraid ▸ h27
    obtain ⟨hl, hspc, hnum⟩ :=
      h₁.info.conf (hshape ▸ hconfigures) (h27₁.trans_lt (by decide))
    have hnum : conf.numDisks = sb.raidDisks.toNat := hnum.trans (congrArg UInt32.toNat hraid.symm)
    -- the members are the same as before the start
    have hsmallest : s'.smallest = s₁.smallest := by
      rw [smallest, ha.steady.usableSizes]
      rfl
    have hsize' : sb.size.toNat = s'.smallest := by
      rw [hsmallest, show sb.size = sb₁.size from congrArg Shape.size heq]
      exact hsize
    refine ⟨?_, hl, hspc, hnum ▸ h2, hsize', ?_, ?_, ?_, fun m hm => ?_, hslots⟩
    · rw [hconfigures.level, hshape, h₁.info.level]
      rfl
    · obtain ⟨dev, -, hdev⟩ := List.mem_map.mp hmem
      rw [hsmallest]
      exact hdev ▸ BlockDev.dvd_usable _
    · rw [ha.steady.arraySectors, hsmallest, ha.steady.nbDev, ← show sb₁.size.toNat = s₁.smallest
        from hsize]
      exact toNat_jmddevSize h₁.chunkSectors h₁.superblock hstart.count
    · rw [CapacityFits, if_neg hchunk, hnum]
      constructor
      · rintro ⟨sb₂, hsb₂, hfits⟩
        obtain rfl : sb = sb₂ := Option.some.inj (hsb.symm.trans hsb₂)
        exact hfits
      · exact fun hfits => ⟨sb, hsb, hfits⟩
    · rw [UInt64.le_iff_toNat_le, UInt32.toNat_toUInt64, hsize', hsmallest]
      exact h₁.smallest_le hle (ha.steady.seat ▸ List.mem_map_of_mem hm :
        m.seat ∈ s₁.disks.map Rdev.seat)

/-- The published sectors are mapped in front of the component size exactly if the capacity
fits. -/
theorem Jmddev.InService.mapped_iff {s : Jmddev} {sb : Superblock} {conf : JRaid5Conf}
    (h : s.InService sb conf) :
    (∀ r pd, r < s.arraySectors → (conf.mapSector r pd).newSector.toNat < sb.size.toNat) ↔
      s.CapacityFits := by
  rw [h.fits, h.smallest]
  exact Jmd.mapped_iff h.layout h.chunk h.disks h.dvd h.capacity

/-- A logical sector keeps its offset in its chunk. -/
theorem Jmddev.InService.exists_row {s : Jmddev} {sb : Superblock} {conf : JRaid5Conf}
    (h : s.InService sb conf) (k : ℕ) : ∃ row, ∀ r pd, r.toNat / 64 = k →
      (conf.mapSector r pd).newSector.toNat = row * 64 + r.toNat % 64 := by
  refine ⟨k / (conf.numDisks - 1), fun r pd hk => ?_⟩
  have hc : 0 < conf.sectorsPerChunk := h.chunk ▸ by decide
  obtain ⟨-, hnew, -⟩ := JRaid5Conf.toNat_mapSector h.layout h.disks hc r pd
  rw [hnew, ← hk, ← h.chunk]
  rfl

end Jmd

/-! ### The calls -/

open Jmd

variable {N : ℕ} {τ : Type}

/-- The array works with the configuration that has been started, and gets calls for whole pages
below the capacity. -/
structure Env.Serves (env : Env N τ) (s : Jmddev) : Prop where
  conf : s.conf = some env.conf
  call : ∀ t b, env.thread t = .makeRequest b → stripeSectors.toNat ∣ b.biSector.toNat ∧
    b.biSector.toNat + stripeSectors.toNat ≤ s.arraySectors.toNat

namespace Env.Serves

variable {env : Env N τ} {s : Jmddev} {sb : Superblock}

theorem supported (hin : s.InService sb env.conf) : env.Supported where
  level := Or.inr hin.level
  algorithm := (hin.layout.resolve_left fun h4 => absurd (h4.symm.trans hin.level) (by decide)).2
  disks := hin.disks
  chunk := hin.chunk ▸ by decide

theorem pageAligned (h : env.Serves s) (hin : s.InService sb env.conf) : env.PageAligned where
  chunk := hin.chunk ▸ by decide
  call t b ht := (h.call t b ht).1

/-- The page of a call lies in front of the component size. -/
theorem newSector_add_le (h : env.Serves s) (hin : s.InService sb env.conf)
    (hfits : s.CapacityFits) {t : τ} {b : Bio} (ht : env.thread t = .makeRequest b) :
    (env.place t).newSector.toNat + stripeSectors.toNat ≤ sb.size.toNat := by
  have h8 : stripeSectors.toNat = 8 := rfl
  have hbio : env.bio t = b := by rw [Env.bio, ht]
  obtain ⟨hdvd, hle⟩ := h.call t b ht
  rw [h8] at hdvd hle ⊢
  have hlt := hin.mapped_iff.mpr hfits b.biSector 0 (UInt64.lt_iff_toNat_lt.mpr (by omega))
  obtain ⟨row, hrow⟩ := hin.exists_row (b.biSector.toNat / 64)
  have hnew := hrow b.biSector 0 rfl
  have hsize := hin.smallest ▸ hin.dvd
  rw [Env.place, hbio]
  -- the page and the component size both consist of pages
  rw [hnew] at hlt ⊢
  omega

end Env.Serves

namespace State

variable {env : Env N τ} {st : State N τ} {s : Jmddev} {sb : Superblock} [DecidableEq τ] [Fintype τ]

/-- A request in flight is for the sector that a call maps to. -/
theorem exists_call_of_inflight (hv : env.Supported) (hst : env.machine.Reachable st)
    {req : MemberReq N τ} (hreq : req ∈ st.inflight) :
    ∃ t b, env.thread t = .makeRequest b ∧ req.sector = (env.place t).newSector := by
  have hinv := SectorInv.reachable hv hst
  obtain ⟨hhashed, hsector⟩ := hinv.request req hreq
  obtain ⟨t, b, ht, hcall⟩ := hinv.call req.sh hhashed
  exact ⟨t, b, ht, hsector.trans hcall⟩

/-- A call for a member that is present can be the first to submit its request. -/
theorem exists_inflight_of_call (hv : env.Supported) (hN : 0 < N) {t : τ} {b : Bio}
    (ht : env.thread t = .makeRequest b) (hdisk : (env.conf.disks (env.dev t)).jrdev ≠ none) :
    ∃ st, env.machine.Reachable st ∧ ∃ req ∈ st.inflight,
      req.sector = (env.place t).newSector := by
  obtain ⟨sh, s₁, s₂, hs₁, hserved, -, -, hmem, -⟩ := exists_first_served hv hN ht
  have hs₂ := hs₁.trans hserved.leads
  obtain ⟨l, hl, hpresent⟩ := hserved.inflight
  obtain ⟨req, hreq, hsh, -⟩ := hpresent _ (hv.dev_lt t) _ (List.ne_nil_of_mem hmem) hdisk
  have hin : req ∈ s₂.inflight := hl ▸ List.mem_append_right _ hreq
  have hq := (Inv.reachable hv hs₂).queues.queued _ _ _ t hmem
  refine ⟨s₂, hs₂, req, hin, ?_⟩
  rw [((SectorInv.reachable hv hs₂).request req hin).2, hsh, hq.sector]

/-- **The requests of an array in service** stay in front of the component size in every run,
whatever calls there are, exactly if the capacity fits. -/
theorem contained_iff {conf : JRaid5Conf} (hconf : s.conf = some conf)
    (hin : s.InService sb conf)
    (hpresent : ∀ i < conf.numDisks, (conf.disks i).jrdev ≠ none) :
    (∀ (N : ℕ) (τ : Type) [Fintype τ] [DecidableEq τ] (env : Env N τ), env.Serves s →
      ∀ st, env.machine.Reachable st → ∀ req ∈ st.inflight,
        req.sector.toNat + stripeSectors.toNat ≤ sb.size.toNat) ↔ s.CapacityFits := by
  constructor
  · intro h
    refine hin.mapped_iff.mp fun r pd hr => ?_
    have h8 : stripeSectors.toNat = 8 := rfl
    have hr' := UInt64.lt_iff_toNat_lt.mp hr
    have hlt := r.toNat_lt
    -- a single call, for the chunk of the sector
    let start : UInt64 := UInt64.ofNat (r.toNat / 64 * 64)
    have hstart : start.toNat = r.toNat / 64 * 64 :=
      UInt64.toNat_ofNat_of_lt' ((Nat.div_mul_le_self _ _).trans_lt r.toNat_lt)
    let env : Env 1 (Fin 1) :=
      { smallArray 1 allPresent [⟨start, 4096, .write⟩] with conf := conf }
    have ht : env.thread 0 = .makeRequest ⟨start, 4096, .write⟩ := rfl
    have hserves : env.Serves s := by
      refine ⟨hconf, fun t b hb => ?_⟩
      obtain rfl : t = 0 := Subsingleton.elim t 0
      obtain rfl := Thread.makeRequest.inj hb
      have hcapacity : 64 ∣ s.arraySectors.toNat :=
        hin.capacity ▸ ((by decide : 64 ∣ 16384).mul_left _).mul_right _
      change stripeSectors.toNat ∣ start.toNat ∧ start.toNat + stripeSectors.toNat ≤ _
      rw [hstart, h8]
      omega
    have hv : env.Supported := Env.Serves.supported hin
    obtain ⟨st, hst, req, hreq, hsector⟩ := exists_inflight_of_call hv Nat.one_pos ht
      (hpresent _ (hv.dev_lt 0))
    have hle := h 1 (Fin 1) env hserves st hst req hreq
    obtain ⟨row, hrow⟩ := hin.exists_row (r.toNat / 64)
    have hsize := hin.smallest ▸ hin.dvd
    have hfirst := hrow start 0 (by omega)
    rw [hsector, show (env.place 0).newSector = (conf.mapSector start 0).newSector from rfl,
      hfirst] at hle
    rw [hrow r pd rfl]
    omega
  · intro hfits N τ _ _ env hserves st hst req hreq
    obtain rfl : conf = env.conf := Option.some.inj (hconf.symm.trans hserves.conf)
    obtain ⟨t, b, ht, hsector⟩ :=
      exists_call_of_inflight (Env.Serves.supported hin) hst hreq
    rw [hsector]
    exact hserves.newSector_add_le hin hfits ht

/-- What an array in service changes on its members lies in front of the component size. -/
theorem changed_of_serves (hin : s.InService sb env.conf) (hserves : env.Serves s)
    (hfits : s.CapacityFits) (hpage : env.TransfersPages) (hst : env.machine.Reachable st) {d : ℕ}
    {sect : UInt64} (hne : st.disk d sect ≠ env.disk d sect) :
    sect < sb.size.toUInt64 ∧ ∃ m ∈ s.disks, m.dev.toNat = d := by
  have hv : env.Supported := Env.Serves.supported hin
  obtain ⟨t, ⟨b, ht, -⟩, ⟨r, hr, rfl⟩, hpage, -⟩ :=
    (FootprintInv.reachable hv hpage hst).changed d sect hne
  refine ⟨?_, hin.slots.member _ r hr⟩
  have h8 : stripeSectors.toNat = 8 := rfl
  have hle := hserves.newSector_add_le hin hfits ht
  have hlt := UInt64.lt_iff_toNat_lt.mp hpage
  have hsize := sb.size.toNat_lt
  rw [UInt64.toNat_sub] at hlt
  rw [UInt64.lt_iff_toNat_lt, UInt32.toNat_toUInt64]
  have := sect.toNat_lt
  omega

end State

/-! ### Arrays that `add_store` has started -/

section Started

variable {device : DevT → BlockDev} {s s' : Jmddev} {call : AddStoreCall} {ret : Int64}
  {sb : Superblock}

/-- **When the requests of a started array stay in bounds**: let the array have a member for every
disk. Whatever calls for whole pages below the published capacity it serves, and in whatever order
their steps come, no request reaches past the component size, exactly if the capacity fits the
members. -/
theorem service_contained_iff {conf : JRaid5Conf} (hs : (addStoreSystem device).Reachable s)
    (hstop : s.pers = false) (h : s.addStore call = .ok (ret, s')) (hrun : s'.pers = true)
    (hsb : s'.sb = some sb) (hconf : s'.conf = some conf) (hchunk : s'.chunkSectors ≠ 0)
    (h2 : 2 ≤ sb.raidDisks.toNat) (h27 : sb.raidDisks.toNat ≤ mdSbDisks)
    (hpresent : ∀ i < conf.numDisks, (conf.disks i).jrdev ≠ none) :
    (∀ (N : ℕ) (τ : Type) [Fintype τ] [DecidableEq τ] (env : Env N τ), env.Serves s' →
      ∀ st, env.machine.Reachable st → ∀ req ∈ st.inflight,
        req.sector.toNat + stripeSectors.toNat ≤ sb.size.toNat) ↔ s'.CapacityFits :=
  State.contained_iff hconf (Jmddev.inService hs hstop h hrun hsb hconf hchunk h2 h27) hpresent

/-- The array has no more members than disks, and one for every disk. -/
private def Staffed (r : Jmddev × Superblock × JRaid5Conf) : Prop :=
  r.1.chunkSectors ≠ 0 ∧ 2 ≤ r.2.1.raidDisks.toNat ∧ r.2.1.raidDisks.toNat ≤ mdSbDisks ∧
    r.1.nbDev ≤ r.2.1.raidDisks.toNat ∧
      ∀ i < r.2.2.numDisks, (r.2.2.disks i).jrdev.isSome = true

private instance (r : Jmddev × Superblock × JRaid5Conf) : Decidable (Staffed r) :=
  inferInstanceAs (Decidable (_ ∧ _ ∧ _ ∧ _ ∧ ∀ _, _))

/-- Three disks with room for 32768 sectors each, and a capacity of 49152 sectors. -/
theorem service_contained_iff_three : ∃ s s' ret sb conf,
    (addStoreSystem tightDevices).Reachable s ∧ s.addStore (addCall 3 2 32) = .ok (ret, s') ∧
      s'.pers = true ∧ s'.sb = some sb ∧ s'.conf = some conf ∧
      ((∀ (N : ℕ) (τ : Type) [Fintype τ] [DecidableEq τ] (env : Env N τ), env.Serves s' →
        ∀ st, env.machine.Reachable st → ∀ req ∈ st.inflight,
          req.sector.toNat + stripeSectors.toNat ≤ sb.size.toNat) ↔ s'.CapacityFits) := by
  obtain ⟨s, s', ret, sb, conf, hs, hstop, hcall, hrun, hsb, hconf, hview⟩ :=
    @exists_startedBy_view _ tightDevices [addCall 3 0 0, addCall 3 1 16] (addCall 3 2 32)
      (fun r => decide (Staffed r)) true (by decide +kernel)
  obtain ⟨hchunk, h2, h27, -, hdisks⟩ := of_decide_eq_true hview
  refine ⟨s, s', ret, sb, conf, hs, hcall, hrun, hsb, hconf, service_contained_iff hs hstop hcall
    hrun hsb hconf hchunk h2 h27 fun i hi => ?_⟩
  exact Option.isSome_iff_ne_none.mp (hdisks i hi)

/-- **The superblocks of a started array survive its service**: if it has no more members than
disks, then in every run the members keep what they hold from their superblocks on and in their
parity blocks, and no other device is touched. -/
theorem superblocks_survive [DecidableEq τ] [Fintype τ] (hs : (addStoreSystem device).Reachable s)
    (hstop : s.pers = false) (h : s.addStore call = .ok (ret, s')) (hrun : s'.pers = true)
    (hsb : s'.sb = some sb) (hchunk : s'.chunkSectors ≠ 0) (h2 : 2 ≤ sb.raidDisks.toNat)
    (h27 : sb.raidDisks.toNat ≤ mdSbDisks) (hle : s'.nbDev ≤ sb.raidDisks.toNat) {env : Env N τ}
    (hserves : env.Serves s') (hpage : env.TransfersPages) {st : State N τ}
    (hst : env.machine.Reachable st) :
    (∀ m ∈ s'.disks, ∀ sect, m.sbOffset ≤ sect →
      st.disk m.dev.toNat sect = env.disk m.dev.toNat sect) ∧
    (∀ d, (∀ m ∈ s'.disks, m.dev.toNat ≠ d) → st.disk d = env.disk d) ∧
    ∀ i r, (env.conf.disks i).jrdev = some r → ∀ sect : UInt64,
      env.conf.parityDisk (sect.toNat / env.conf.sectorsPerChunk) = i →
        st.disk r.bdev sect = env.disk r.bdev sect := by
  have hin := Jmddev.inService hs hstop h hrun hsb hserves.conf hchunk h2 h27
  have hfits : s'.CapacityFits := Jmddev.capacityFits_of_le hchunk hsb h2 hle
  have hv : env.Supported := Env.Serves.supported hin
  refine ⟨fun m hm sect hsect => ?_, fun d hd => ?_, fun i r hr sect hparity => ?_⟩
  · by_contra hne
    obtain ⟨hlt, -⟩ := State.changed_of_serves hin hserves hfits hpage hst hne
    exact UInt64.not_lt.mpr (UInt64.le_trans (hin.reserved m hm) hsect) hlt
  · funext sect
    by_contra hne
    obtain ⟨-, m, hm, hdev⟩ := State.changed_of_serves hin hserves hfits hpage hst hne
    exact hd m hm hdev
  · exact (State.FootprintInv.reachable hv hpage hst).parity hv hin.slots.apart
      (hserves.pageAligned hin) hr hparity

/-- An array of blank disks with a given configuration, with a write of ones to its first block. -/
def onesWith (conf : JRaid5Conf) : Env 1 (Fin 1) := { State.onesArray with conf := conf }

/-- The same array, when its first block has been written: the first byte of the first disk has
changed. -/
theorem superblocks_survive_three : ∃ (s s' : Jmddev) (ret : Int64) (sb : Superblock)
    (env : Env 1 (Fin 1)) (st : State 1 (Fin 1)),
    (addStoreSystem tightDevices).Reachable s ∧ s.addStore (addCall 3 2 32) = .ok (ret, s') ∧
      s'.pers = true ∧ s'.sb = some sb ∧ env.Serves s' ∧ env.machine.Reachable st ∧
      st.disk (mkdev 8 0).toNat 0 0 ≠ env.disk (mkdev 8 0).toNat 0 0 ∧
      (∀ m ∈ s'.disks, ∀ sect, m.sbOffset ≤ sect →
        st.disk m.dev.toNat sect = env.disk m.dev.toNat sect) ∧
      (∀ d, (∀ m ∈ s'.disks, m.dev.toNat ≠ d) → st.disk d = env.disk d) ∧
      ∀ i r, (env.conf.disks i).jrdev = some r → ∀ sect : UInt64,
        env.conf.parityDisk (sect.toNat / env.conf.sectorsPerChunk) = i →
          st.disk r.bdev sect = env.disk r.bdev sect := by
  obtain ⟨s, s', ret, sb, conf, hs, hstop, hcall, hrun, hsb, hconf, hview⟩ :=
    @exists_startedBy_view _ tightDevices [addCall 3 0 0, addCall 3 1 16] (addCall 3 2 32)
      (fun r => (decide (Staffed r ∧ 8 ≤ r.1.arraySectors.toNat),
        ((onesWith r.2.2).machine.exec (onesWith r.2.2).init
          (List.replicate 12 (.run 0) ++ [.complete 0])).toOption.map
            fun st => st.disk (mkdev 8 0).toNat 0 0)) (true, some 1) (by decide +kernel)
  obtain ⟨hstaffed, hwritten⟩ := Prod.mk.inj hview
  obtain ⟨⟨hchunk, h2, h27, hle, -⟩, hcapacity⟩ := of_decide_eq_true hstaffed
  obtain ⟨st, hst, hbyte⟩ := FallibleSystem.exists_exec (S := (onesWith conf).machine) hwritten
  have hserves : (onesWith conf).Serves s' := by
    refine ⟨hconf, fun t b hb => ?_⟩
    obtain rfl : t = 0 := Subsingleton.elim t 0
    obtain rfl := Thread.makeRequest.inj hb
    exact ⟨by decide, hcapacity⟩
  have hreach := FallibleSystem.reachable_of_exec (S := (onesWith conf).machine) hst
  refine ⟨s, s', ret, sb, onesWith conf, st, hs, hcall, hrun, hsb, hserves, hreach, ?_,
    superblocks_survive hs hstop hcall hrun hsb hchunk h2 h27 hle hserves
      (transfersPages_of_copy rfl) hreach⟩
  rw [hbyte]
  change (1 : UInt8) ≠ 0
  decide

end Started

end JRaid
