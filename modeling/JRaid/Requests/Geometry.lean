import JRaid.Requests.Solo

/-!
# The geometry of cached stripes

A stripe keeps the parity disk of its row and the logical sectors of its blocks from the
request that brought it into the cache. They agree with `jraid5_compute_sector` for every
later request of the row exactly as long as the chunk numbers of the row fit in the `int`
in which `compute_blocknr` holds them: a request for a low chunk of a row whose high chunks
overflow leaves wrong sectors on the devices of the high chunks.
-/

namespace JRaid

/-! ### Rows -/

namespace JRaid5Conf

variable {τ : Type} (conf : JRaid5Conf)

/-- The chunk numbers of the row that holds a logical sector fit in an `int`. -/
def RowFits (r : UInt64) : Prop :=
  r.toNat / conf.sectorsPerChunk / (conf.numDisks - 1) * (conf.numDisks - 1) +
    (conf.numDisks - 2) < 2 ^ 31

instance (r : UInt64) : Decidable (conf.RowFits r) := inferInstanceAs (Decidable (_ < _))

/-- The parity disk and the logical sectors that a stripe holds agree with
`jraid5_compute_sector`. -/
structure Mapped (row : Row τ) : Prop where
  parity : row.pdIdx.toInt = conf.parityDisk (row.sector.toNat / conf.sectorsPerChunk)
  dev : ∀ i < conf.numDisks, i ≠ conf.parityDisk (row.sector.toNat / conf.sectorsPerChunk) →
    (conf.mapSector (row.dev i).sector 0).newSector = row.sector ∧
      (conf.mapSector (row.dev i).sector 0).ddIdx.toNat = i

variable {conf}

/-- What `__init_stripe` writes to the device of a data disk. -/
private theorem initRow_sector {sector : UInt64} {pdIdx : Int32} {i : ℕ} {row : Row τ}
    (hi : i < conf.numDisks) (hne : Int32.ofNat i ≠ pdIdx) :
    ((Cache.initRow conf sector pdIdx conf.numDisks row).dev i).sector =
      conf.computeBlocknr sector pdIdx (Int32.ofNat i) 0 := by
  simp only [Cache.initRow, if_pos hi, Cache.buildBlock, if_pos hne]

/-- **A new stripe for a logical sector is mapped exactly when the row fits**, if the chunk of
the sector itself does. -/
theorem mapped_initRow_iff (hl : conf.level = 4 ∨ conf.level = 5) (ha : conf.SupportedAlgorithm)
    (hn : 2 ≤ conf.numDisks) (hc : 1 ≤ conf.sectorsPerChunk) {r : UInt64}
    (hr : r.toNat / conf.sectorsPerChunk < 2 ^ 31) (row : Row τ) :
    conf.Mapped (Cache.initRow conf (conf.mapSector r 0).newSector
      (conf.mapSector r 0).pdIdx.toInt32 conf.numDisks row) ↔ conf.RowFits r := by
  have hls : conf.SupportedLayout := hl.imp id fun h => ⟨h, ha⟩
  have hn31 := conf.numDisks_lt
  obtain ⟨-, hnew, hpar⟩ := toNat_mapSector hls hn hc r 0
  set sector := (conf.mapSector r 0).newSector with hsector
  set pdIdx := (conf.mapSector r 0).pdIdx.toInt32 with hpdIdx
  set k := sector.toNat / conf.sectorsPerChunk with hk
  have hrow : k = r.toNat / conf.sectorsPerChunk / (conf.numDisks - 1) := by
    rw [hk, hnew]
    exact (RowLayout.place_row hc r.toNat).1
  have hplt := parityDisk_lt hn k
  have hpd : pdIdx.toInt = conf.parityDisk k := by
    rw [hpdIdx, toInt_toInt32 (by rw [hpar]; omega), hpar]
  have hof : ∀ i < conf.numDisks, (Int32.ofNat i).toInt = i := fun i hi =>
    Int32.toInt_ofNat_of_lt (by omega)
  have hne : ∀ i < conf.numDisks, i ≠ conf.parityDisk k → Int32.ofNat i ≠ pdIdx := by
    intro i hi hip e
    have := congrArg Int32.toInt e
    rw [hof i hi, hpd] at this
    omega
  have hfits : conf.RowFits r ↔ k * (conf.numDisks - 1) + (conf.numDisks - 2) < 2 ^ 31 := by
    rw [hrow]
    rfl
  rw [hfits]
  constructor
  · intro hmapped
    by_contra hbig
    -- the last chunk of the row overflows, but only once
    have hle : k * (conf.numDisks - 1) ≤ r.toNat / conf.sectorsPerChunk := by
      rw [hrow]
      exact Nat.div_mul_le_self _ _
    have hj : conf.numDisks - 2 < conf.numDisks - 1 := by omega
    set d := (conf.layout hn).disk k (conf.numDisks - 2) with hd
    have hdlt : d < conf.numDisks := (conf.layout hn).disk_lt k _ hj
    have hdne : d ≠ conf.parityDisk k := by
      have := (conf.layout hn).disk_ne_parity k _ hj
      rwa [layout_parity] at this
    have hchunk : (conf.layout hn).chunk k d =
        k * (conf.numDisks - 1) + (conf.numDisks - 2) := by
      rw [RowLayout.chunk, hd, (conf.layout hn).index_disk k _ hj]
    have hdev := hmapped.dev d hdlt hdne
    rw [initRow_sector hdlt (hne d hdlt hdne)] at hdev
    exact mapSector_computeBlocknr_ne hls ha hn hc 0 0 hpd (hof d hdlt) hdlt hdne
      (by rw [hchunk]; omega) (by rw [hchunk]; omega) hdev
  · intro hsmall
    refine ⟨hpd, fun i hi hip => ?_⟩
    have hidx := (conf.layout hn).index_lt k i hi (by rwa [layout_parity])
    have hchunk : (conf.layout hn).chunk k i < 2 ^ 31 := by
      rw [RowLayout.chunk]
      omega
    obtain ⟨hmap, -⟩ := mapSector_computeBlocknr hl ha hn hc 0 0 hpd (hof i hi) hi hip hchunk
    rw [initRow_sector hi (hne i hi hip), hmap]
    exact ⟨rfl, toNat_toUInt32_of_toInt (hof i hi)⟩

end JRaid5Conf

/-! ### Runs -/

namespace State

variable {N : ℕ} {τ : Type} {env : Env N τ} {s s' : State N τ}

/-- The stripes in the hash table are mapped. -/
def MapInv (env : Env N τ) (s : State N τ) : Prop :=
  ∀ sh, s.cache.Hashed sh → env.conf.Mapped (s.cache.row sh)

/-- A step that reuses no stripe keeps the map. -/
private theorem MapInv.keep (h : MapInv env s) (k : QueueInv.Keeps env s s') : MapInv env s' := by
  intro sh hsh
  have hold := h sh (by rwa [Cache.Hashed, ← k.table])
  refine ⟨by rw [k.pdIdx, k.sector]; exact hold.parity, fun i hi hip => ?_⟩
  rw [(k.block sh i).sector, k.sector]
  exact hold.dev i hi (by rwa [k.sector] at hip)

variable [Fintype τ] [DecidableEq τ]

/-- A miss of a call whose row fits keeps the map. -/
private theorem MapInv.miss (hv : env.Supported) (h : MapInv env s) (hinv : Inv env s) {t : τ}
    {sh : Fin N} {c : Cache N τ} {p : Pc N}
    (hchunk : (env.bio t).biSector.toNat / env.conf.sectorsPerChunk < 2 ^ 31)
    (hfits : env.conf.RowFits (env.bio t).biSector)
    (hm : Cache.Miss env.conf s.cache (env.place t).newSector (env.place t).pdIdx.toInt32 sh c) :
    MapInv env ({ s with cache := c }.goto t p) := by
  intro x hx
  change env.conf.Mapped (c.row x)
  rw [hm.row, Function.update_apply]
  split_ifs with hxs
  · exact (JRaid5Conf.mapped_initRow_iff hv.level hv.algorithm hv.disks hv.chunk hchunk _).mpr hfits
  · exact h x (((hinv.table.hashed_relink hm.table x).mp hx).resolve_left hxs)

/-- The map invariant holds as long as the rows of the calls fit. -/
theorem MapInv.reachable (hv : env.Supported)
    (hchunk : ∀ t b, env.thread t = .makeRequest b →
      b.biSector.toNat / env.conf.sectorsPerChunk < 2 ^ 31)
    (hfits : ∀ t b, env.thread t = .makeRequest b → env.conf.RowFits b.biSector)
    (hs : env.machine.Reachable s) : MapInv env s := by
  refine hs.invariant (I := MapInv env) (fun sh hsh => ?_) fun s e s' hs h hstep => ?_
  · -- no stripe of the new pool is hashed
    refine absurd ?_ hsh
    exact congrArg (fun T : PprevChain.Table (Fin nrHash) (Fin N) => T.pprev sh)
      (Cache.table_growStripes N τ env.conf env.page)
  · have hinv := Inv.reachable hv hs
    obtain hkeep | ⟨t, sh, c, -, ⟨b, ht⟩, hm, rfl⟩ := hinv.keeps_or_miss hstep
    · exact h.keep hkeep
    · have hbio : env.bio t = b := by rw [Env.bio, ht]
      exact h.miss hv hinv (by rw [hbio]; exact hchunk t b ht) (by rw [hbio]; exact hfits t b ht) hm

/-- The geometry of a stripe: its parity disk is that of its row, the device of every other disk
holds the logical sector that maps to its place, and the bios queued on it start there. -/
structure Geometry (env : Env N τ) (s : State N τ) (sh : Fin N) : Prop where
  parity : (s.cache.row sh).pdIdx.toInt =
    env.conf.parityDisk ((s.cache.row sh).sector.toNat / env.conf.sectorsPerChunk)
  parity_mapSector : ∀ r, (env.conf.mapSector r 0).newSector.toNat / env.conf.sectorsPerChunk =
    (s.cache.row sh).sector.toNat / env.conf.sectorsPerChunk →
      (env.conf.mapSector r 0).pdIdx.toInt32 = (s.cache.row sh).pdIdx
  dev : ∀ i < env.conf.numDisks, (i : ℤ) ≠ (s.cache.row sh).pdIdx.toInt →
    (env.conf.mapSector ((s.cache.row sh).dev i).sector 0).newSector = (s.cache.row sh).sector ∧
      (env.conf.mapSector ((s.cache.row sh).dev i).sector 0).ddIdx.toNat = i
  bios : ∀ i rw, ∀ u ∈ s.queue sh i rw, (env.bio u).biSector = ((s.cache.row sh).dev i).sector

omit [DecidableEq τ] in
/-- A mapped stripe has the right geometry. -/
private theorem Geometry.of_mapped (hv : env.Supported) (hinv : Inv env s) {sh : Fin N}
    (h : env.conf.Mapped (s.cache.row sh)) : Geometry env s sh := by
  have hplt := JRaid5Conf.parityDisk_lt hv.disks
    ((s.cache.row sh).sector.toNat / env.conf.sectorsPerChunk)
  have hn31 := env.conf.numDisks_lt
  refine ⟨h.parity, fun r hr => Int32.toInt_inj.mp ?_, fun i hi hip => h.dev i hi fun e => hip ?_,
    fun i rw u hu => ?_⟩
  · obtain ⟨-, -, hpar⟩ := JRaid5Conf.toNat_mapSector hv.layout hv.disks hv.chunk r 0
    rw [hr] at hpar
    rw [toInt_toInt32 (by rw [hpar]; omega), hpar, h.parity]
  · rw [h.parity, e]
  · -- the bio and the device map to one place
    have hq := hinv.queues.queued sh i rw u hu
    have hilt : i < env.conf.numDisks := hq.dev ▸ hv.dev_lt u
    have hip : i ≠ env.conf.parityDisk
        ((s.cache.row sh).sector.toNat / env.conf.sectorsPerChunk) := by
      rw [hq.sector, hq.dev]
      exact hv.dev_ne_parity u
    obtain ⟨hnew, hdd⟩ := h.dev i hilt hip
    refine JRaid5Conf.mapSector_inj hv.layout hv.disks hv.chunk 0 0 ?_ ?_
    · rw [hnew, hq.sector]
      rfl
    · rw [hdd, hq.dev]
      rfl

/-- **The geometry of the cached stripes is right in every run exactly when the rows of the
calls fit**: every chunk of the row of a call has a number that fits in an `int`. -/
theorem geometry_iff (env : Env N τ) (hv : env.Supported) (hN : 0 < N)
    (hchunk : ∀ t b, env.thread t = .makeRequest b →
      b.biSector.toNat / env.conf.sectorsPerChunk < 2 ^ 31) :
    (∀ s, env.machine.Reachable s → ∀ sh, s.cache.Hashed sh → Geometry env s sh) ↔
      ∀ t b, env.thread t = .makeRequest b → env.conf.RowFits b.biSector := by
  constructor
  · intro h t b ht
    have hbio : env.bio t = b := by rw [Env.bio, ht]
    obtain ⟨sh, s, hopen, hm⟩ := exists_opened_init hv hN ht
    have hs : env.machine.Reachable s := FallibleSystem.reachable_init.trans hopen.leads
    have hhashed : s.cache.Hashed sh := by
      have hinv : Inv env env.init := Inv.reachable hv FallibleSystem.reachable_init
      exact (hinv.table.hashed_relink hm.table sh).mpr (Or.inl rfl)
    have hgeo := h s hs sh hhashed
    have hmapped : env.conf.Mapped (s.cache.row sh) :=
      ⟨hgeo.parity, fun i hi hip => hgeo.dev i hi fun e => hip <| by
        rw [hgeo.parity] at e
        exact_mod_cast e⟩
    rw [hm.row, Function.update_self] at hmapped
    rw [← hbio]
    exact (JRaid5Conf.mapped_initRow_iff hv.level hv.algorithm hv.disks hv.chunk
      (by rw [hbio]; exact hchunk t b ht) _).mp hmapped
  · intro hfits s hs sh hsh
    exact Geometry.of_mapped hv (Inv.reachable hv hs) (MapInv.reachable hv hchunk hfits hs sh hsh)

/-- Six disks of which the last write of the first `2 ^ 31` chunks but two is asked for. The
stripe of its row holds logical sector 0 on disk 3, whose chunk has the number `2 ^ 31`. -/
theorem geometry_fails :
    let env : Env nrStripes (Fin 1) :=
      { smallArray nrStripes allPresent [⟨17179869160, 4096, .write⟩] with
        conf := ⟨4096, 5, algorithmLeftAsymmetric, 6, 4096, allPresent⟩ }
    (∀ t, (env.bio t).biSector.toNat / env.conf.sectorsPerChunk < 2 ^ 31) ∧
      ∃ s sh, env.machine.Reachable s ∧ s.cache.Hashed sh ∧ ((s.cache.row sh).dev 3).sector = 0 ∧
        ¬Geometry env s sh := by
  intro env
  have hv : env.Supported := ⟨Or.inr rfl, Or.inl rfl, by decide, by decide⟩
  refine ⟨by decide, ?_⟩
  obtain ⟨sh, s, hopen, hm⟩ := exists_opened_init (t := 0) hv (by decide) rfl
  have hinv : Inv env env.init := Inv.reachable hv FallibleSystem.reachable_init
  have hrow : s.cache.row sh = _ := hm.row ▸ Function.update_self ..
  have hdev : ((s.cache.row sh).dev 3).sector = 0 := by
    rw [hrow, JRaid5Conf.initRow_sector (by decide) (by decide +kernel)]
    decide +kernel
  refine ⟨s, sh, FallibleSystem.reachable_init.trans hopen.leads,
    (hinv.table.hashed_relink hm.table sh).mpr (Or.inl rfl), hdev, fun h => ?_⟩
  have hne : (3 : ℤ) ≠ (env.place 0).pdIdx.toInt32.toInt := by decide +kernel
  obtain ⟨-, hdd⟩ := h.dev 3 (by decide) (by rw [hrow]; exact hne)
  rw [hdev] at hdd
  exact absurd hdd (by decide +kernel)

/-- Two calls in the first row of an array of three disks. -/
theorem geometry_iff_three :
    let env := smallArray nrStripes allPresent [⟨0, 4096, .write⟩, ⟨8, 4096, .read⟩]
    ∀ s, env.machine.Reachable s → ∀ sh, s.cache.Hashed sh → Geometry env s sh := by
  intro env
  refine (geometry_iff env (Env.supported_smallArray _ _ _) (by decide) fun t b ht => ?_).mpr
    fun t b ht => ?_
  all_goals
    obtain rfl : env.bio t = b := by rw [Env.bio, ht]
    clear ht
    revert t
    decide

end State

end JRaid
