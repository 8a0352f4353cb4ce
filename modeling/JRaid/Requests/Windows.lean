import JRaid.Requests.Solo
import Mathlib.Order.CompletePartialOrder
import Mathlib.Order.Interval.Set.Disjoint

/-!
# Windows of cached stripes

A stripe is found by the sector of the request that brought it in, while its requests always
have the size of a page: they touch the window of `STRIPE_SECTORS` sectors from there on.
The driver does not align the sector to the page. The windows are apart and inside their
chunks, in every run, exactly when the calls are aligned in the sense of `Env.Aligned`
(`windows_apart_iff`).
-/

namespace JRaid

/-- The sectors of a member that a page from a sector on covers. -/
def window (sector : UInt64) : Set ℕ :=
  Set.Ico sector.toNat (sector.toNat + stripeSectors.toNat)

/-- A window lies inside one chunk of its disk. -/
def JRaid5Conf.InChunk (conf : JRaid5Conf) (sector : UInt64) : Prop :=
  ∀ x ∈ window sector, x / conf.sectorsPerChunk = sector.toNat / conf.sectorsPerChunk

theorem JRaid5Conf.inChunk_iff {conf : JRaid5Conf} (hc : 1 ≤ conf.sectorsPerChunk)
    (sector : UInt64) : conf.InChunk sector ↔
      sector.toNat % conf.sectorsPerChunk + stripeSectors.toNat ≤ conf.sectorsPerChunk := by
  have h8 : stripeSectors.toNat = 8 := rfl
  have hmod : sector.toNat % conf.sectorsPerChunk < conf.sectorsPerChunk := Nat.mod_lt _ hc
  have hdiv := Nat.div_add_mod' sector.toNat conf.sectorsPerChunk
  constructor
  · intro h
    have hlast := h (sector.toNat + 7) ⟨by omega, by omega⟩
    by_contra hlt
    -- the last sector of the window is in the next chunk or further on
    have hnext : (sector.toNat / conf.sectorsPerChunk + 1) * conf.sectorsPerChunk ≤
        sector.toNat + 7 := by
      rw [Nat.add_mul]
      omega
    have := (Nat.le_div_iff_mul_le hc).mpr hnext
    omega
  · rintro hle x ⟨hlo, hhi⟩
    have hx : x = sector.toNat / conf.sectorsPerChunk * conf.sectorsPerChunk +
        (sector.toNat % conf.sectorsPerChunk + (x - sector.toNat)) := by
      omega
    rw [hx]
    exact (RowLayout.mul_add_div_mod (by omega)).1

/-- Two windows are apart if their first sectors are. -/
theorem disjoint_window_iff (a b : UInt64) : Disjoint (window a) (window b) ↔
    a.toNat + stripeSectors.toNat ≤ b.toNat ∨ b.toNat + stripeSectors.toNat ≤ a.toNat := by
  have h8 : stripeSectors.toNat = 8 := rfl
  rw [window, window, Set.Ico_disjoint_Ico]
  omega

variable {N : ℕ} {τ : Type}

/-- The calls start at least a page before the end of a chunk, and two calls for one row
start at the same offset of their chunks or at least a page apart. -/
structure Env.Aligned (env : Env N τ) : Prop where
  chunk : ∀ t b, env.thread t = .makeRequest b →
    b.biSector.toNat % env.conf.sectorsPerChunk + stripeSectors.toNat ≤ env.conf.sectorsPerChunk
  row : ∀ t b u b', env.thread t = .makeRequest b → env.thread u = .makeRequest b' →
    b.biSector.toNat / env.conf.sectorsPerChunk / (env.conf.numDisks - 1) =
      b'.biSector.toNat / env.conf.sectorsPerChunk / (env.conf.numDisks - 1) →
    b.biSector.toNat % env.conf.sectorsPerChunk < b'.biSector.toNat % env.conf.sectorsPerChunk →
    b.biSector.toNat % env.conf.sectorsPerChunk + stripeSectors.toNat ≤
      b'.biSector.toNat % env.conf.sectorsPerChunk

namespace State

variable {env : Env N τ} {s s' : State N τ} {t u : τ}

/-- **No two stripes hold the same sector of a member**, no stripe reaches into the next row,
and neither does a request in flight. -/
structure WindowsApart (env : Env N τ) (s : State N τ) : Prop where
  disjoint : ∀ sh sh', s.cache.Hashed sh → s.cache.Hashed sh' → sh ≠ sh' →
    Disjoint (window (s.cache.row sh).sector) (window (s.cache.row sh').sector)
  chunk : ∀ sh, s.cache.Hashed sh → env.conf.InChunk (s.cache.row sh).sector
  request : ∀ req ∈ s.inflight, env.conf.InChunk req.sector ∧
    ∀ sh, s.cache.Hashed sh → sh ≠ req.sh →
      Disjoint (window req.sector) (window (s.cache.row sh).sector)

/-! ### Sectors of stripes and requests -/

/-- The sectors of the hashed stripes are those of calls, and a request in flight is for the
sector of its stripe. -/
structure SectorInv (env : Env N τ) (s : State N τ) : Prop where
  call : ∀ sh, s.cache.Hashed sh → ∃ t b, env.thread t = .makeRequest b ∧
    (s.cache.row sh).sector = (env.place t).newSector
  request : ∀ req ∈ s.inflight, s.cache.Hashed req.sh ∧ req.sector = (s.cache.row req.sh).sector

/-- A step that reuses no stripe, as far as the old requests are concerned. -/
private theorem SectorInv.keep (h : SectorInv env s) (k : QueueInv.Keeps env s s')
    (hin : ∀ req ∈ s'.inflight, req ∈ s.inflight ∨
      (s.cache.Hashed req.sh ∧ req.sector = (s.cache.row req.sh).sector)) : SectorInv env s' := by
  have hashed : ∀ sh, s'.cache.Hashed sh ↔ s.cache.Hashed sh := fun sh => by
    rw [Cache.Hashed, Cache.Hashed, k.table]
  refine ⟨fun sh hsh => ?_, fun req hreq => ?_⟩
  · rw [k.sector]
    exact h.call sh ((hashed sh).mp hsh)
  · rw [hashed, k.sector]
    exact (hin req hreq).elim (h.request req) id

variable [DecidableEq τ] [Fintype τ]

/-- A miss takes a stripe that no request in flight is for. -/
private theorem SectorInv.miss (h : SectorInv env s) (hinv : Inv env s) {b : Bio} {sh : Fin N}
    {c : Cache N τ} {p : Pc N} (ht : env.thread t = .makeRequest b)
    (hm : Cache.Miss env.conf s.cache (env.place t).newSector (env.place t).pdIdx.toInt32 sh c) :
    SectorInv env ({ s with cache := c }.goto t p) := by
  have hashed := hinv.table.hashed_relink hm.table
  have hrow : ∀ x, x ≠ sh → c.row x = s.cache.row x := fun x hx => by
    rw [hm.row, Function.update_of_ne hx]
  refine ⟨fun x hx => ?_, fun req hreq => ?_⟩
  · change ∃ t b, env.thread t = .makeRequest b ∧ (c.row x).sector = (env.place t).newSector
    obtain rfl | hxs := eq_or_ne x sh
    · exact ⟨t, b, ht, hm.sector_self⟩
    · rw [hrow x hxs]
      exact h.call x (((hashed x).mp hx).resolve_left hxs)
  · obtain ⟨rest, hfree⟩ := hm.free
    have hrefs : s.refs sh = 0 :=
      ((hinv.counts.pool.mem_free sh).mp (hfree ▸ List.mem_cons_self)).1
    have hne : req.sh ≠ sh := by
      rintro rfl
      have hpos : 0 < s.inflight.countP fun r => r.sh = req.sh :=
        List.countP_pos_iff.mpr ⟨req, hreq, by simp⟩
      rw [refs] at hrefs
      omega
    obtain ⟨hhashed, hsector⟩ := h.request req hreq
    refine ⟨(hashed req.sh).mpr (Or.inr hhashed), ?_⟩
    change req.sector = (c.row req.sh).sector
    rw [hrow _ hne, hsector]

/-- A step of a thread submits at most the request of a stripe with a queued bio. -/
private theorem request_of_runs (hinv : Inv env s) (hrun : Runs env s t s') {req : MemberReq N τ}
    (hreq : req ∈ s'.inflight) : req ∈ s.inflight ∨
      (s.cache.Hashed req.sh ∧ req.sector = (s.cache.row req.sh).sector) := by
  cases hrun with
  | @request sh i r c hpc hsub =>
    obtain hold | hnew := List.mem_append.mp hreq
    · exact Or.inl hold
    · obtain rfl := List.mem_singleton.mp hnew
      obtain ⟨jrdev, -, hr⟩ := hsub.member
      obtain ⟨v, hv⟩ := List.exists_mem_of_ne_nil _
        (hinv.queues.want sh i req.rw (R5dev.want_of_submitDir hsub.dir))
      have hhashed := (hinv.queues.queued _ _ _ v hv).hashed
      rw [hr]
      exact Or.inr ⟨hhashed, rfl⟩
  | finish ht hpc =>
    obtain ⟨-, -, hin, -⟩ := finish_frame s t
    exact Or.inl (hin ▸ hreq)
  | _ => exact Or.inl hreq

theorem SectorInv.reachable (hv : env.Supported) (hs : env.machine.Reachable s) :
    SectorInv env s := by
  refine hs.invariant (I := SectorInv env) ⟨fun sh hsh => ?_, fun _ h => by cases h⟩
    fun s e s' hs h hstep => ?_
  · refine absurd ?_ hsh
    exact congrArg (fun T : PprevChain.Table (Fin nrHash) (Fin N) => T.pprev sh)
      (Cache.table_growStripes N τ env.conf env.page)
  · have hinv := Inv.reachable hv hs
    obtain hkeep | ⟨t, sh, c, -, ⟨b, ht⟩, hm, rfl⟩ := hinv.keeps_or_miss hstep
    · refine h.keep hkeep fun req hreq => ?_
      obtain ⟨t, -, hrun⟩ | rfl | ⟨k, r, -, hdone⟩ := step_cases hstep
      · exact request_of_runs hinv hrun hreq
      · exact Or.inl hreq
      · rw [hdone.inflight] at hreq
        exact Or.inl (List.mem_of_mem_eraseIdx hreq)
    · exact h.miss hinv ht hm

/-! ### Aligned calls -/

omit [DecidableEq τ] [Fintype τ] in
/-- The row and the offset of the sector of a call. -/
private theorem place_row (hv : env.Supported) (t : τ) :
    (env.place t).newSector.toNat / env.conf.sectorsPerChunk =
        (env.bio t).biSector.toNat / env.conf.sectorsPerChunk / (env.conf.numDisks - 1) ∧
      (env.place t).newSector.toNat % env.conf.sectorsPerChunk =
        (env.bio t).biSector.toNat % env.conf.sectorsPerChunk := by
  obtain ⟨-, hnew, -⟩ :=
    JRaid5Conf.toNat_mapSector hv.layout hv.disks hv.chunk (env.bio t).biSector 0
  rw [Env.place, hnew]
  exact RowLayout.place_row hv.chunk _

omit [DecidableEq τ] [Fintype τ] in
/-- An aligned call keeps inside its chunk. -/
private theorem inChunk_of_aligned (hv : env.Supported) (h : env.Aligned) {b : Bio}
    (ht : env.thread t = .makeRequest b) : env.conf.InChunk (env.place t).newSector := by
  have hbio : env.bio t = b := by rw [Env.bio, ht]
  rw [JRaid5Conf.inChunk_iff hv.chunk, (place_row hv t).2, hbio]
  exact h.chunk t b ht

omit [DecidableEq τ] [Fintype τ] in
/-- Two aligned calls for different sectors keep apart. -/
private theorem disjoint_of_aligned (hv : env.Supported) (h : env.Aligned) {b b' : Bio}
    (ht : env.thread t = .makeRequest b) (hu : env.thread u = .makeRequest b')
    (hne : (env.place t).newSector ≠ (env.place u).newSector) :
    Disjoint (window (env.place t).newSector) (window (env.place u).newSector) := by
  have hbt : env.bio t = b := by rw [Env.bio, ht]
  have hbu : env.bio u = b' := by rw [Env.bio, hu]
  obtain ⟨hrowt, hofft⟩ := place_row hv t
  obtain ⟨hrowu, hoffu⟩ := place_row hv u
  have hdivt := Nat.div_add_mod' (env.place t).newSector.toNat env.conf.sectorsPerChunk
  have hdivu := Nat.div_add_mod' (env.place u).newSector.toNat env.conf.sectorsPerChunk
  have hendt := h.chunk t b ht
  have hendu := h.chunk u b' hu
  rw [disjoint_window_iff]
  rw [hbt] at hrowt hofft
  rw [hbu] at hrowu hoffu
  rw [← hofft] at hendt
  rw [← hoffu] at hendu
  obtain hlt | heq | hgt := Nat.lt_trichotomy
    ((env.place t).newSector.toNat / env.conf.sectorsPerChunk)
    ((env.place u).newSector.toNat / env.conf.sectorsPerChunk)
  · -- in different rows the chunks keep them apart
    have hmul := Nat.mul_le_mul_right env.conf.sectorsPerChunk (Nat.succ_le_of_lt hlt)
    rw [Nat.succ_mul] at hmul
    omega
  · -- in one row the offsets do
    have hoff : (env.place t).newSector.toNat % env.conf.sectorsPerChunk ≠
        (env.place u).newSector.toNat % env.conf.sectorsPerChunk := fun e => by
      refine hne (UInt64.toNat_inj.mp ?_)
      rw [← hdivt, ← hdivu, heq, e]
    have hrow := hrowt.symm.trans (heq.trans hrowu)
    have hup := h.row t b u b' ht hu hrow
    have hdown := h.row u b' t b hu ht hrow.symm
    rw [← hofft, ← hoffu] at hup hdown
    rw [heq] at hdivt
    omega
  · have hmul := Nat.mul_le_mul_right env.conf.sectorsPerChunk (Nat.succ_le_of_lt hgt)
    rw [Nat.succ_mul] at hmul
    omega

omit [DecidableEq τ] [Fintype τ] in
/-- Aligned calls keep the windows apart. -/
private theorem SectorInv.windowsApart (hv : env.Supported) (h : env.Aligned) (hi : SectorInv env s)
    (hunique : ∀ sh sh', s.cache.Hashed sh → s.cache.Hashed sh' →
      (s.cache.row sh).sector = (s.cache.row sh').sector → sh = sh') : WindowsApart env s := by
  have chunk : ∀ sh, s.cache.Hashed sh → env.conf.InChunk (s.cache.row sh).sector := by
    intro sh hsh
    obtain ⟨t, b, ht, hsector⟩ := hi.call sh hsh
    rw [hsector]
    exact inChunk_of_aligned hv h ht
  have disjoint : ∀ sh sh', s.cache.Hashed sh → s.cache.Hashed sh' → sh ≠ sh' →
      Disjoint (window (s.cache.row sh).sector) (window (s.cache.row sh').sector) := by
    intro sh sh' hsh hsh' hne
    obtain ⟨t, b, ht, hsector⟩ := hi.call sh hsh
    obtain ⟨u, b', hu, hsector'⟩ := hi.call sh' hsh'
    rw [hsector, hsector']
    refine disjoint_of_aligned hv h ht hu fun e => hne (hunique sh sh' hsh hsh' ?_)
    rw [hsector, hsector', e]
  refine ⟨disjoint, chunk, fun req hreq => ?_⟩
  obtain ⟨hhashed, hsector⟩ := hi.request req hreq
  rw [hsector]
  exact ⟨chunk _ hhashed, fun sh hsh hne => disjoint _ _ hhashed hsh hne.symm⟩

/-! ### Calls that are not aligned -/

/-- A call for a sector that no stripe holds brings it into the cache, next to the stripe of a
call before it. -/
theorem exists_two_opened {b b' : Bio} (hv : env.Supported) (hN : 2 ≤ N) (htu : t ≠ u)
    (ht : env.thread t = .makeRequest b) (hu : env.thread u = .makeRequest b')
    (hne : (env.place t).newSector ≠ (env.place u).newSector) :
    ∃ s sh sh', env.machine.Reachable s ∧ sh ≠ sh' ∧ s.cache.Hashed sh ∧ s.cache.Hashed sh' ∧
      (s.cache.row sh).sector = (env.place t).newSector ∧
      (s.cache.row sh').sector = (env.place u).newSector := by
  have hinv₀ : Inv env env.init := Inv.reachable hv FallibleSystem.reachable_init
  obtain ⟨sh, s₁, hopen, hm⟩ := exists_opened_init hv (by omega) ht
  have hs₁ : env.machine.Reachable s₁ := FallibleSystem.reachable_init.trans hopen.leads
  have hinv := Inv.reachable hv hs₁
  have hhashed := hinv₀.table.hashed_relink hm.table
  -- only the stripe of the first call is hashed
  have honly : ∀ x, s₁.cache.Hashed x → x = sh := fun x hx =>
    ((hhashed x).mp hx).resolve_right fun h =>
      h (congrArg (fun T : PprevChain.Table (Fin nrHash) (Fin N) => T.pprev x)
        (Cache.table_growStripes N τ env.conf env.page))
  -- the pool has another free stripe, on which nothing is queued
  obtain ⟨sh', rest, hfree⟩ : ∃ sh' rest, s₁.cache.pool.free = sh' :: rest := by
    refine List.exists_cons_of_ne_nil (List.ne_nil_of_length_pos ?_)
    have hlen : s₁.cache.pool.free.length = N - 1 := by
      rw [hm.pool, show env.init.cache.pool = _ from Cache.pool_growStripes N τ env.conf env.page]
      simp [RefPool.takeFree, RefPool.hold]
    omega
  have hfind : Cache.findStripe env.conf s₁.cache (env.place u).newSector = some none := by
    obtain ⟨f, hfind, hf⟩ := hinv.table.findStripe (env.place u).newSector
    cases f with
    | none => exact hfind
    | some x =>
      obtain ⟨hx, hsector⟩ := (hf x).mp rfl
      rw [honly x hx, hm.sector_self] at hsector
      exact absurd hsector hne
  obtain ⟨s₂, hopen', hm'⟩ := exists_opened_of_free hinv hu (hopen.others u htu.symm) hfind hfree
    fun i _ => by
      obtain ⟨hwritten, hlocked⟩ := hinv.queues.block sh' i
      have hnil : ∀ rw, s₁.queue sh' i rw = [] := fun rw => by
        rw [hopen.queue]
        exact (QueueInv.init_dev env sh' i).1 rw
      simp only [R5dev.Pending, not_or, not_not]
      exact ⟨hnil .read, hnil .write, hwritten, by rw [hlocked]; decide⟩
  have hhashed' := hinv.table.hashed_relink hm'.table
  have hsh : sh ≠ sh' := by
    rintro rfl
    have hheld : (s₁.pc t).held = some sh := by rw [hopen.pc]; rfl
    exact refs_ne_zero_of_held hheld
      ((hinv.counts.pool.mem_free sh).mp (hfree ▸ List.mem_cons_self)).1
  refine ⟨s₂, sh, sh', hs₁.trans hopen'.leads, hsh,
    (hhashed' sh).mpr (Or.inr ((hhashed sh).mpr (Or.inl rfl))), (hhashed' sh').mpr (Or.inl rfl),
    ?_, hm'.sector_self⟩
  rw [hm'.row, Function.update_of_ne hsh]
  exact hm.sector_self

/-- **The windows of the cached stripes and of the requests are apart, in every run, exactly when
the calls are aligned.** -/
theorem windows_apart_iff (env : Env N τ) (hv : env.Supported) (hN : 2 ≤ N) :
    (∀ s, env.machine.Reachable s → WindowsApart env s) ↔ env.Aligned := by
  constructor
  · intro h
    -- calls that are not aligned are run, one alone and two after one another
    refine ⟨fun t b ht => ?_, fun t b u b' ht hu hrow hlt => ?_⟩
    · have hbio : env.bio t = b := by rw [Env.bio, ht]
      obtain ⟨sh, s, hopen, hm⟩ := exists_opened_init hv (by omega) ht
      have hs : env.machine.Reachable s := FallibleSystem.reachable_init.trans hopen.leads
      have hinv : Inv env env.init := Inv.reachable hv FallibleSystem.reachable_init
      have hchunk := (h s hs).chunk sh ((hinv.table.hashed_relink hm.table sh).mpr (Or.inl rfl))
      rwa [hm.sector_self, JRaid5Conf.inChunk_iff hv.chunk, (place_row hv t).2, hbio] at hchunk
    · have hbt : env.bio t = b := by rw [Env.bio, ht]
      have hbu : env.bio u = b' := by rw [Env.bio, hu]
      obtain ⟨hrowt, hofft⟩ := place_row hv t
      obtain ⟨hrowu, hoffu⟩ := place_row hv u
      rw [hbt] at hrowt hofft
      rw [hbu] at hrowu hoffu
      have hne : (env.place t).newSector ≠ (env.place u).newSector := fun e => by
        rw [e, hoffu] at hofft
        omega
      have htu : t ≠ u := fun e => hne (by rw [e])
      obtain ⟨s, sh, sh', hs, hsh, hhashed, hhashed', hsector, hsector'⟩ :=
        exists_two_opened hv hN htu ht hu hne
      have hdisj := (h s hs).disjoint sh sh' hhashed hhashed' hsh
      rw [hsector, hsector', disjoint_window_iff] at hdisj
      have hdivt := Nat.div_add_mod' (env.place t).newSector.toNat env.conf.sectorsPerChunk
      have hdivu := Nat.div_add_mod' (env.place u).newSector.toNat env.conf.sectorsPerChunk
      rw [hrowt, hofft] at hdivt
      rw [hrowu, hoffu, ← hrow] at hdivu
      omega
  · intro h s hs
    exact (SectorInv.reachable hv hs).windowsApart hv h (hashInv_reachable hs).unique

/-- Two writes to sectors 0 and 1 bring in two stripes that overlap. -/
theorem windows_overlap :
    let env := smallArray nrStripes allPresent [⟨0, 512, .write⟩, ⟨1, 512, .write⟩]
    ∃ s sh sh', env.machine.Reachable s ∧ sh ≠ sh' ∧ s.cache.Hashed sh ∧ s.cache.Hashed sh' ∧
      ¬Disjoint (window (s.cache.row sh).sector) (window (s.cache.row sh').sector) := by
  intro env
  have hplace : (env.place 0).newSector = 0 ∧ (env.place 1).newSector = 1 := by decide
  have hv : env.Supported := Env.supported_smallArray _ _ _
  obtain ⟨s, sh, sh', hs, hne, hsh, hsh', hsector, hsector'⟩ :=
    exists_two_opened (t := 0) (u := 1) hv (by decide) (by decide) rfl rfl
      (by rw [hplace.1, hplace.2]; decide)
  refine ⟨s, sh, sh', hs, hne, hsh, hsh', ?_⟩
  rw [hsector, hsector', hplace.1, hplace.2, disjoint_window_iff]
  decide

/-- Two writes to two pages of a row. -/
theorem windows_apart_iff_two_pages :
    let env := smallArray nrStripes allPresent [⟨0, 4096, .write⟩, ⟨8, 4096, .write⟩]
    ∀ s, env.machine.Reachable s → WindowsApart env s := by
  intro env
  have hbio : ∀ t, (env.bio t).biSector.toNat % env.conf.sectorsPerChunk = 0 := by decide
  have hc : env.conf.sectorsPerChunk = 8 := by decide
  refine (windows_apart_iff env (Env.supported_smallArray _ _ _) (by decide)).mpr
    ⟨fun t b ht => ?_, fun t b u b' ht hu _ hlt => ?_⟩
  · obtain rfl : env.bio t = b := by rw [Env.bio, ht]
    rw [hbio, hc]
    decide
  · obtain rfl : env.bio u = b' := by rw [Env.bio, hu]
    rw [hbio] at hlt
    exact absurd hlt (Nat.not_lt_zero _)

end State

end JRaid
