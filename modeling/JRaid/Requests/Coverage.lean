import JRaid.Geometry.BlockBoundary
import JRaid.Requests.Solo

/-!
# How much of a bio is queued

`jraid5_make_request` queues a bio on one device of one stripe, whatever its length: the
device and the stripe of its first sector. A later sector of the bio is queued where it
belongs only if the window of that stripe contains its place. This holds for all sectors of
an accepted bio exactly when the bio is no longer than a page and crosses no chunk boundary
at which the layout changes the disk (`coverage_iff`).
-/

namespace JRaid

/-- The logical sectors of a bio. -/
def Bio.Spans (b : Bio) (r : UInt64) : Prop :=
  b.biSector.toNat ≤ r.toNat ∧ r.toNat < b.biSector.toNat + b.biSize.toNat / 512

/-- The end of a bio; there are no sectors beyond `2 ^ 64`. -/
def Bio.endSector (b : Bio) : ℕ := min (b.biSector.toNat + b.biSize.toNat / 512) (2 ^ 64)

/-- A bio that lies in the window of one stripe: it is no longer than a page, and at the
chunk boundaries inside it the layout stays on the disk. -/
def JRaid5Conf.OneWindow (conf : JRaid5Conf) (b : Bio) : Prop :=
  b.endSector - b.biSector.toNat ≤ stripeSectors.toNat ∧
    ∀ m, b.biSector.toNat < m * conf.sectorsPerChunk → m * conf.sectorsPerChunk < b.endSector →
      conf.StaysOnDisk m

/-- The sectors of a bio as natural numbers. -/
theorem Bio.forall_spans (b : Bio) {P : ℕ → Prop} :
    (∀ r : UInt64, b.Spans r → P r.toNat) ↔ ∀ k, b.biSector.toNat ≤ k → k < b.endSector → P k := by
  constructor
  · intro h k hlo hhi
    obtain ⟨hlt, h64⟩ := lt_min_iff.mp hhi
    have hk : (UInt64.ofNat k).toNat = k := UInt64.toNat_ofNat_of_lt' h64
    have hspan : b.Spans (UInt64.ofNat k) := by
      rw [Bio.Spans, hk]
      exact ⟨hlo, hlt⟩
    exact hk ▸ h _ hspan
  · intro h r hr
    exact h r.toNat hr.1 (lt_min_iff.mpr ⟨hr.2, r.toNat_lt⟩)

variable {N : ℕ} {τ : Type} [DecidableEq τ] [Fintype τ]

namespace State

variable {env : Env N τ} {s : State N τ} {t : τ}

/-- The bio of a call is queued on the stripe and the device whose window contains the place
of a logical sector. -/
def QueuedAt (env : Env N τ) (s : State N τ) (t : τ) (r : UInt64) : Prop :=
  ∃ sh rw, s.cache.Hashed sh ∧ t ∈ s.queue sh (env.conf.mapSector r 0).ddIdx.toNat rw ∧
    (s.cache.row sh).sector.toNat ≤ (env.conf.mapSector r 0).newSector.toNat ∧
    (env.conf.mapSector r 0).newSector.toNat <
      (s.cache.row sh).sector.toNat + stripeSectors.toNat

/-- An accepted bio is queued in the window of its first sector and nowhere else. -/
theorem queuedAt_iff (hv : env.Supported) (hs : env.machine.Reachable s) {sh : Fin N} {i : ℕ}
    {rw : Dir} (hq : t ∈ s.queue sh i rw) (r : UInt64) :
    QueuedAt env s t r ↔ (env.conf.mapSector r 0).ddIdx.toNat = env.dev t ∧
      (env.place t).newSector.toNat ≤ (env.conf.mapSector r 0).newSector.toNat ∧
      (env.conf.mapSector r 0).newSector.toNat <
        (env.place t).newSector.toNat + stripeSectors.toNat := by
  have hinv := (Inv.reachable hv hs).queues
  constructor
  · rintro ⟨x, rw', -, hx, hlo, hhi⟩
    have hqueued := hinv.queued _ _ _ t hx
    rw [hqueued.sector] at hlo hhi
    exact ⟨hqueued.dev, hlo, hhi⟩
  · rintro ⟨hdev, hlo, hhi⟩
    have hqueued := hinv.queued _ _ _ t hq
    refine ⟨sh, rw, hqueued.hashed, ?_, ?_⟩
    · rw [hdev, ← hqueued.dev]
      exact hq
    · rw [hqueued.sector]
      exact ⟨hlo, hhi⟩

/-- **All of an accepted bio is queued where it belongs exactly when it lies in one window.** -/
theorem coverage_iff (hv : env.Supported) (hs : env.machine.Reachable s) {sh : Fin N} {i : ℕ}
    {rw : Dir} (hq : t ∈ s.queue sh i rw) :
    (∀ r, (env.bio t).Spans r → QueuedAt env s t r) ↔ env.conf.OneWindow (env.bio t) := by
  have hplace := fun r => JRaid5Conf.toNat_mapSector hv.layout hv.disks hv.chunk r 0
  have hqueued : ∀ r, QueuedAt env s t r ↔
      ((env.conf.layout hv.disks).place env.conf.sectorsPerChunk r.toNat).1 =
          ((env.conf.layout hv.disks).place env.conf.sectorsPerChunk
            (env.bio t).biSector.toNat).1 ∧
        ((env.conf.layout hv.disks).place env.conf.sectorsPerChunk
            (env.bio t).biSector.toNat).2 ≤
          ((env.conf.layout hv.disks).place env.conf.sectorsPerChunk r.toNat).2 ∧
        ((env.conf.layout hv.disks).place env.conf.sectorsPerChunk r.toNat).2 <
          ((env.conf.layout hv.disks).place env.conf.sectorsPerChunk
            (env.bio t).biSector.toNat).2 + stripeSectors.toNat := by
    intro r
    rw [queuedAt_iff hv hs hq, Env.dev, Env.place, (hplace r).1, (hplace r).2.1,
      (hplace (env.bio t).biSector).1, (hplace (env.bio t).biSector).2.1]
  simp only [hqueued]
  rw [Bio.forall_spans (env.bio t) (P := fun k =>
    ((env.conf.layout hv.disks).place env.conf.sectorsPerChunk k).1 = _ ∧
      _ ≤ ((env.conf.layout hv.disks).place env.conf.sectorsPerChunk k).2 ∧
      ((env.conf.layout hv.disks).place env.conf.sectorsPerChunk k).2 < _),
    RowLayout.window_iff hv.disks hv.chunk (by decide)]
  refine and_congr_right fun _ => forall_congr' fun m => ?_
  refine imp_congr_right fun hb => imp_congr_right fun _ => ?_
  exact JRaid5Conf.chunkDisk_eq_iff hv.layout hv.disks (Nat.pos_of_ne_zero fun h0 => by
    rw [h0, Nat.zero_mul] at hb
    omega)

/-- A write of two pages, which crosses a chunk boundary: nothing is queued for its ninth
sector. -/
theorem second_page_lost :
    let env := smallArray nrStripes allPresent [⟨0, 8192, .write⟩]
    ∃ s sh i rw, env.machine.Reachable s ∧ 0 ∈ s.queue sh i rw ∧ (env.bio 0).Spans 8 ∧
      ¬QueuedAt env s 0 8 := by
  intro env
  have hv : env.Supported := Env.supported_smallArray _ _ _
  obtain ⟨sh, s₁, s₂, hs₁, hserved, -, -, hq, -⟩ := exists_first_served (t := 0) hv (by decide) rfl
  have hs₂ := hs₁.trans hserved.leads
  refine ⟨s₂, sh, _, _, hs₂, hq, ⟨by decide, by decide⟩, fun hqueued => ?_⟩
  have hdev := ((queuedAt_iff hv hs₂ hq 8).mp hqueued).1
  exact absurd hdev (by decide)

/-- A write of one page. -/
theorem coverage_iff_page :
    let env := smallArray nrStripes allPresent [⟨0, 4096, .write⟩]
    ∃ s sh i rw, env.machine.Reachable s ∧ 0 ∈ s.queue sh i rw ∧
      ∀ r, (env.bio 0).Spans r → QueuedAt env s 0 r := by
  intro env
  have hv : env.Supported := Env.supported_smallArray _ _ _
  obtain ⟨sh, s₁, s₂, hs₁, hserved, -, -, hq, -⟩ := exists_first_served (t := 0) hv (by decide) rfl
  have hs₂ := hs₁.trans hserved.leads
  refine ⟨s₂, sh, _, _, hs₂, hq, (coverage_iff hv hs₂ hq).mpr ⟨by decide, fun m hlo hhi => ?_⟩⟩
  have hc : env.conf.sectorsPerChunk = 8 := by decide
  have hend : (env.bio 0).endSector = 8 := by decide
  rw [hc] at hlo hhi
  rw [hend] at hhi
  have hzero : (env.bio 0).biSector.toNat = 0 := by decide
  omega

end State

end JRaid
