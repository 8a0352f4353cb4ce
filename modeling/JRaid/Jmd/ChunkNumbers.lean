import JRaid.Geometry.ComputeBlocknr
import JRaid.Jmd.ChunkSize
import JRaid.Jmd.Descriptors

/-!
# How many chunks an array has

`compute_blocknr` holds the number of a chunk in an `int`. The chunks of an array are numbered
through its rows, so there are as many as there are rows times data disks. Nothing that
`do_jmd_run` and `jraid5_run` test keeps this below `2 ^ 31`: a component has up to `2 ^ 32`
sectors, a chunk may have only 8, and there may be many disks. The numbers fit exactly if there
are no more than `2 ^ 31` of them (`chunk_numbers_fit_iff`).
-/

namespace JRaid

namespace JRaid5Conf

variable (conf : JRaid5Conf)

/-- The rows of a component: each has a chunk of every disk, and the last one may be short. The
number of sectors of a chunk is what `sector_div` divides by. -/
def rows (size : UInt32) : ℕ :=
  (size.toNat + (ulong (conf.chunkSize >>> 9)).toNat - 1) / (ulong (conf.chunkSize >>> 9)).toNat

/-- **Chunk numbers fit**: for every stripe below the component size and every number `d` of a
data disk, `chunk_number` is the number of the chunk, and has not been truncated. -/
def ChunkNumbersFit (size : UInt32) : Prop :=
  ∀ (sector : UInt64) (pdIdx i : Int32) (d : ℕ), sector < size.toUInt64 →
    (conf.dataIndex pdIdx i).toInt = d → d < conf.numDisks - 1 →
      (conf.chunkNumber sector pdIdx i).toInt =
        (sector.toNat / (ulong (conf.chunkSize >>> 9)).toNat * (conf.numDisks - 1) + d : ℕ)

variable {conf}

/-- The number of a disk counted from the last one. -/
theorem toInt_raidDisks_sub {k : ℕ} {x : Int32} (hx : x.toInt = k) (hk : k ≤ conf.numDisks)
    (hn : 2 ≤ conf.numDisks) : (conf.raidDisks - x).toInt = (conf.numDisks - k : ℕ) := by
  have hlt := conf.numDisks_lt
  rw [Int32.toInt_sub, toInt_raidDisks hn, hx, Int.bmod_eq_of_le (by omega) (by omega)]
  omega

/-- The sum that `chunk_number` truncates. -/
theorem toNat_chunkSum_of_lt (hn : 2 ≤ conf.numDisks) {size : UInt32} {sector : UInt64}
    {pdIdx i : Int32} {d : ℕ} (hsector : sector < size.toUInt64)
    (hd : (conf.dataIndex pdIdx i).toInt = d) (hlt : d < conf.numDisks - 1) :
    (sector / ulong (conf.chunkSize >>> 9) * ulong (conf.raidDisks - 1) +
      ulong (conf.dataIndex pdIdx i)).toNat =
        sector.toNat / (ulong (conf.chunkSize >>> 9)).toNat * (conf.numDisks - 1) + d := by
  have hdata := toNat_ulong_of_toInt
    (toInt_raidDisks_sub (show (1 : Int32).toInt = (1 : ℕ) from rfl) (by omega) hn)
  have hn31 := conf.numDisks_lt
  have hsize := size.toNat_lt
  have hstripe : sector.toNat / (ulong (conf.chunkSize >>> 9)).toNat < 2 ^ 32 := by
    have hs : sector.toNat < size.toNat := UInt64.lt_iff_toNat_lt.mp hsector
    exact (Nat.div_le_self _ _).trans_lt (hs.trans hsize)
  have hmul : sector.toNat / (ulong (conf.chunkSize >>> 9)).toNat * (conf.numDisks - 1) <
      2 ^ 32 * 2 ^ 31 := Nat.mul_lt_mul_of_lt_of_lt hstripe (by omega)
  rw [UInt64.toNat_add, UInt64.toNat_mul, UInt64.toNat_div, hdata, toNat_ulong_of_toInt hd,
    Nat.mod_eq_of_lt (by omega : _ * _ < 2 ^ 64), Nat.mod_eq_of_lt (by omega)]

/-- The last data disk of a row whose parity is on the last disk. -/
theorem dataIndex_last (hn : 2 ≤ conf.numDisks) :
    (conf.dataIndex (conf.raidDisks - 1) (conf.raidDisks - 2)).toInt =
      (conf.numDisks - 2 : ℕ) := by
  have hparity : (conf.raidDisks - 1).toInt = (conf.numDisks - 1 : ℕ) :=
    toInt_raidDisks_sub rfl (by omega) hn
  have hlast : (conf.raidDisks - 2).toInt = (conf.numDisks - 2 : ℕ) :=
    toInt_raidDisks_sub rfl hn hn
  have hlt : conf.raidDisks - 2 < conf.raidDisks - 1 := by
    rw [Int32.lt_iff_toInt_lt, hparity, hlast]
    omega
  unfold dataIndex
  split_ifs with _ hge
  · exact absurd hlt (Int32.lt_asymm hge)
  · exact hlast
  · rw [Int32.sub_add_cancel, Int32.add_sub_cancel]
    exact hlast
  · exact hlast

theorem lt_rows_iff (hspc : ulong (conf.chunkSize >>> 9) ≠ 0) {size : UInt32} {k : ℕ} :
    k < conf.rows size ↔ k * (ulong (conf.chunkSize >>> 9)).toNat < size.toNat := by
  have hpos : 0 < (ulong (conf.chunkSize >>> 9)).toNat :=
    Nat.pos_of_ne_zero fun h0 => hspc (UInt64.toNat_inj.mp h0)
  rw [rows, ← Nat.succ_le_iff, Nat.le_div_iff_mul_le hpos, Nat.succ_mul]
  omega

/-- **When chunk numbers fit**: there are no more than `2 ^ 31` of them. -/
theorem chunkNumbersFit_iff (hspc : ulong (conf.chunkSize >>> 9) ≠ 0) (size : UInt32) :
    conf.ChunkNumbersFit size ↔ conf.rows size * (conf.numDisks - 1) ≤ 2 ^ 31 := by
  have hpos : 0 < (ulong (conf.chunkSize >>> 9)).toNat :=
    Nat.pos_of_ne_zero fun h0 => hspc (UInt64.toNat_inj.mp h0)
  constructor
  · intro hfit
    by_contra hmany
    have hprod : conf.rows size ≠ 0 ∧ conf.numDisks - 1 ≠ 0 :=
      Nat.mul_ne_zero_iff.mp (by omega)
    obtain ⟨k, hk⟩ := Nat.exists_eq_succ_of_ne_zero hprod.1
    have hlast := (lt_rows_iff hspc).mp (hk ▸ Nat.lt_succ_self k)
    -- the last chunk of the last row
    have hsector : (UInt64.ofNat (k * (ulong (conf.chunkSize >>> 9)).toNat)).toNat =
        k * (ulong (conf.chunkSize >>> 9)).toNat :=
      UInt64.toNat_ofNat_of_lt' (hlast.trans (size.toNat_lt.trans (by decide)))
    have hnumber := hfit (UInt64.ofNat (k * (ulong (conf.chunkSize >>> 9)).toNat)) _ _ _
      (UInt64.lt_iff_toNat_lt.mpr (hsector.trans_lt hlast)) (dataIndex_last (by omega)) (by omega)
    rw [hsector, Nat.mul_div_cancel _ hpos] at hnumber
    have hlt := Int32.toInt_lt (conf.chunkNumber
      (UInt64.ofNat (k * (ulong (conf.chunkSize >>> 9)).toNat)) (conf.raidDisks - 1)
        (conf.raidDisks - 2))
    rw [hk, Nat.succ_mul] at hmany
    omega
  · intro hfew sector pdIdx i d hsector hd hlt
    have hrow : sector.toNat / (ulong (conf.chunkSize >>> 9)).toNat < conf.rows size :=
      (lt_rows_iff hspc).mpr
        ((Nat.div_mul_le_self _ _).trans_lt (UInt64.lt_iff_toNat_lt.mp hsector))
    have hsum := toNat_chunkSum_of_lt (by omega) hsector hd hlt
    have hbound : sector.toNat / (ulong (conf.chunkSize >>> 9)).toNat * (conf.numDisks - 1) + d <
        2 ^ 31 := by
      have hmul := Nat.mul_le_mul_right (conf.numDisks - 1) (Nat.succ_le_of_lt hrow)
      rw [Nat.succ_mul] at hmul
      omega
    rw [chunkNumber, toInt_int32OfULong (hsum.trans_lt hbound), hsum]

/-- Chunks of 64 sectors, as `set_array_info` makes them, are large enough for up to 33 disks. -/
theorem chunkNumbersFit_of_le (hspc : 64 ≤ (ulong (conf.chunkSize >>> 9)).toNat)
    (hdisks : conf.numDisks ≤ 33) (size : UInt32) : conf.ChunkNumbersFit size := by
  have hne : ulong (conf.chunkSize >>> 9) ≠ 0 := by
    intro h0
    rw [h0] at hspc
    exact absurd hspc (by decide)
  have hrows : conf.rows size ≤ 2 ^ 26 := by
    have hsize := size.toNat_lt
    refine Nat.not_lt.mp fun hmany => ?_
    have hlast := (lt_rows_iff hne).mp hmany
    omega
  rw [chunkNumbersFit_iff hne]
  exact (Nat.mul_le_mul hrows (show conf.numDisks - 1 ≤ 32 by omega)).trans (by decide)

end JRaid5Conf

namespace Jmd

/-- **When the chunk numbers of an array fit.** With the configuration of an array that is
accepted, and for every component size, all chunk numbers fit in the `int` of `compute_blocknr`
exactly if the rows times the data disks come to `2 ^ 31` at most. -/
theorem chunk_numbers_fit_iff {s s' : Jmddev} {env : RunEnv} {conf : JRaid5Conf}
    (h : s.doJmdRun env = .ok (0, s')) (hconf : s'.conf = some conf) (size : UInt32) :
    conf.ChunkNumbersFit size ↔ conf.rows size * (conf.numDisks - 1) ≤ 2 ^ 31 := by
  obtain ⟨st, hadmits, hst⟩ := Jmddev.exists_admits h
  obtain rfl : conf = st.conf := Option.some.inj (hconf.symm.trans hst)
  exact JRaid5Conf.chunkNumbersFit_iff hadmits.sectorsPerChunk_ne_zero size

/-! ### Six disks -/

/-- A descriptor of the disk with the given number, whose devices have every sixteenth minor
number. -/
def sixDisk (number : UInt32) : Disk :=
  { Disk.zero with number := number, major := 8, minor := 16 * number, raidDisk := number }

/-- The superblock of an array of six disks with chunks of 4096 bytes, as the disk with the given
number holds it. The component size is the largest there is. -/
def sixSb (number : UInt32) : Superblock :=
  { Superblock.zero with
    mdMagic := mdSbMagic
    minorVersion := mdMinorVersion
    level := 5
    size := 4294967295
    nrDisks := 6
    raidDisks := 6
    chunkSize := 4096
    disks := fun i => if (i : ℕ) < 6 then sixDisk (UInt32.ofNat i) else Disk.zero
    thisDisk := sixDisk number }

/-- Devices of `2 ^ 33` sectors that begin with these superblocks. -/
def sixDevices : DevT → BlockDev := fun dev =>
  ⟨8589934592, by decide, (sixSb (minor dev / 16)).word⟩

/-- The six devices are added. -/
def sixCalls : List AddCall :=
  [addDisk 0 0 (by decide), addDisk 1 16 (by decide), addDisk 2 32 (by decide),
    addDisk 3 48 (by decide), addDisk 4 64 (by decide), addDisk 5 80 (by decide)]

/-- The array starts, and has `2 ^ 29` rows of five data disks. -/
theorem sixDevices_started : ∃ s s' sb conf,
    (addSystem (Jmddev.fresh sixDevices)).exec (Jmddev.fresh sixDevices) sixCalls = .ok s ∧
      s.doJmdRun runAll = .ok (0, s') ∧ s'.sb = some sb ∧ s'.conf = some conf ∧
        sb.size = 4294967295 ∧ conf.chunkSize = 4096 ∧ conf.raidDisks = 6 := by
  have hrun : ((addSystem (Jmddev.fresh sixDevices)).exec (Jmddev.fresh sixDevices)
      sixCalls).toOption.map (fun s => (s.doJmdRun runAll).toOption.map fun r =>
        (r.1, r.2.sb.map Superblock.size,
          r.2.conf.map fun conf => (conf.chunkSize, conf.raidDisks))) =
      some (some (0, some 4294967295, some (4096, 6))) := by
    decide +kernel
  obtain ⟨s, hexec, hshow⟩ := FallibleSystem.exists_exec hrun
  obtain ⟨⟨err, s'⟩, hdo, hview⟩ := Except.exists_of_toOption_map hshow
  obtain ⟨rfl, hsb, hconf⟩ : err = 0 ∧ s'.sb.map Superblock.size = some 4294967295 ∧
      s'.conf.map (fun conf => (conf.chunkSize, conf.raidDisks)) = some (4096, 6) := by
    simpa using hview
  obtain ⟨sb, hsb, hsize⟩ := Option.map_eq_some_iff.mp hsb
  obtain ⟨conf, hconf, hgeometry⟩ := Option.map_eq_some_iff.mp hconf
  obtain ⟨hchunk, hraid⟩ := Prod.mk.inj hgeometry
  exact ⟨s, s', sb, conf, hexec, hdo, hsb, hconf, hsize, hchunk, hraid⟩

theorem chunk_numbers_fit_iff_six : ∃ (s s' : Jmddev) (conf : JRaid5Conf),
    s.doJmdRun runAll = .ok (0, s') ∧ s'.conf = some conf ∧ conf.raidDisks = 6 ∧ ∀ size,
      (conf.ChunkNumbersFit size ↔ conf.rows size * (conf.numDisks - 1) ≤ 2 ^ 31) := by
  obtain ⟨s, s', sb, conf, -, hrun, -, hconf, -, -, hraid⟩ := sixDevices_started
  exact ⟨s, s', conf, hrun, hconf, hraid, chunk_numbers_fit_iff hrun hconf⟩

/-- Its chunk numbers go up to five times `2 ^ 29`. -/
theorem chunk_number_overflows : ∃ s s' sb conf,
    (addSystem (Jmddev.fresh sixDevices)).exec (Jmddev.fresh sixDevices) sixCalls = .ok s ∧
      s.doJmdRun runAll = .ok (0, s') ∧ s'.sb = some sb ∧ s'.conf = some conf ∧
        ValidChunk conf.chunkSize.toUInt32 ∧ conf.numDisks ≤ mdSbDisks ∧
          ¬ conf.ChunkNumbersFit sb.size := by
  obtain ⟨s, s', sb, conf, hexec, hrun, hsb, hconf, hsize, hchunk, hraid⟩ := sixDevices_started
  have hdisks : conf.numDisks = 6 := by
    rw [JRaid5Conf.numDisks, hraid]
    rfl
  have hspc : ulong (conf.chunkSize >>> 9) = 8 := by
    rw [hchunk]
    decide
  refine ⟨s, s', sb, conf, hexec, hrun, hsb, hconf, ?_, hdisks.trans_le (by decide), fun h => ?_⟩
  · rw [hchunk]
    exact ⟨⟨12, rfl⟩, by decide, by decide, by decide, by decide⟩
  · rw [JRaid5Conf.chunkNumbersFit_iff (by rw [hspc]; decide), JRaid5Conf.rows, hspc, hsize,
      hdisks] at h
    exact absurd h (by decide)

end Jmd

end JRaid
