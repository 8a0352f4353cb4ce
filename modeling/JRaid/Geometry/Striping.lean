import JRaid.Geometry.ComputeSector
import Mathlib.Data.Nat.ModEq

/-!
# Consecutive chunks

A long transfer is served by all disks at once if the chunks that follow each other lie on
different disks. The left-symmetric layout deals the chunks out in turn: chunk `m` lies on disk
`m % raid_disks`, parity notwithstanding. No other layout keeps `raid_disks` consecutive chunks
apart, unless there are only two disks, where every rotating layout alternates
(`consecutive_apart_iff`).
-/

namespace RowLayout

variable {n : ℕ} {L : RowLayout n}

theorem chunkDisk_row {k j : ℕ} (hj : j < n - 1) : L.chunkDisk (k * (n - 1) + j) = L.disk k j := by
  obtain ⟨hdiv, hmod⟩ := mul_add_div_mod (k := k) hj
  rw [chunkDisk, hdiv, hmod]

/-- **Chunks dealt out in turn**: where the parity goes down from the last disk, and the data of a
row starts after it, a chunk lies on the disk that its number leaves modulo `n`. -/
theorem chunkDisk_wrap_left (hn : 2 ≤ n) {parity : ℕ → ℕ} (h : ∀ k, parity k < n)
    (hparity : ∀ k, parity k = n - 1 - k % n) (m : ℕ) : (wrap parity h).chunkDisk m = m % n := by
  have hm := Nat.div_add_mod' m (n - 1)
  have hmod := Nat.mod_lt (m / (n - 1)) (show 0 < n by omega)
  change (parity (m / (n - 1)) + 1 + m % (n - 1)) % n = m % n
  rw [hparity]
  generalize m / (n - 1) = k, m % (n - 1) = j at hm hmod ⊢
  have hk : k / n * n + k % n = k := Nat.div_add_mod' k n
  have hkn : k * (n - 1) + k = k * n := by
    rw [← Nat.mul_succ, Nat.succ_eq_add_one, Nat.sub_add_cancel (by omega)]
  -- with the row added on both sides, both are `j` up to multiples of `n`
  have hleft : n - 1 - k % n + 1 + j + k = j + n * (k / n + 1) := by
    rw [Nat.mul_add, Nat.mul_comm n]
    omega
  have hright : m + k = j + n * k := by
    rw [Nat.mul_comm n]
    omega
  refine Nat.ModEq.add_right_cancel' k ?_
  rw [Nat.ModEq, hleft, hright, Nat.add_mul_mod_self_left, Nat.add_mul_mod_self_left]

end RowLayout

namespace JRaid

namespace JRaid5Conf

variable (conf : JRaid5Conf)

/-- The number of the chunk that a logical sector lies in. -/
def chunkOf (r : UInt64) : ℕ := r.toNat / conf.sectorsPerChunk

/-- Any `raid_disks` consecutive chunks lie on different disks. -/
def ConsecutiveApart (pd : UInt32) : Prop :=
  ∀ r r', conf.chunkOf r < conf.chunkOf r' → conf.chunkOf r' < conf.chunkOf r + conf.numDisks →
    (conf.mapSector r pd).ddIdx ≠ (conf.mapSector r' pd).ddIdx

variable {conf}

/-- The first chunks of the array have logical sectors. -/
theorem exists_chunkOf (hc : 1 ≤ conf.sectorsPerChunk) {m : ℕ} (hm : m ≤ conf.numDisks) :
    ∃ r, conf.chunkOf r = m := by
  have hlt : m * conf.sectorsPerChunk < 2 ^ 64 := by
    calc m * conf.sectorsPerChunk ≤ conf.numDisks * conf.sectorsPerChunk :=
          Nat.mul_le_mul_right _ hm
      _ < 2 ^ 31 * 2 ^ 31 := Nat.mul_lt_mul'' conf.numDisks_lt conf.sectorsPerChunk_lt
      _ < 2 ^ 64 := by decide
  refine ⟨UInt64.ofNat (m * conf.sectorsPerChunk), ?_⟩
  rw [chunkOf, UInt64.toNat_ofNat_of_lt' hlt, Nat.mul_div_cancel _ hc]

/-- Whether chunks are kept apart is a matter of the layout. -/
theorem consecutiveApart_iff (hl : conf.SupportedLayout) (hn : 2 ≤ conf.numDisks)
    (hc : 1 ≤ conf.sectorsPerChunk) (pd : UInt32) :
    (conf.ConsecutiveApart pd → ∀ m m', m < m' → m' < m + conf.numDisks → m' ≤ conf.numDisks →
      (conf.layout hn).chunkDisk m ≠ (conf.layout hn).chunkDisk m') ∧
    ((∀ m m', m < m' → m' < m + conf.numDisks →
      (conf.layout hn).chunkDisk m ≠ (conf.layout hn).chunkDisk m') →
        conf.ConsecutiveApart pd) := by
  have hdisk : ∀ r, (conf.mapSector r pd).ddIdx.toNat =
      (conf.layout hn).chunkDisk (conf.chunkOf r) := fun r => (toNat_mapSector hl hn hc r pd).1
  constructor
  · intro h m m' hlt hnear hle heq
    obtain ⟨r, rfl⟩ := exists_chunkOf hc (hlt.le.trans hle)
    obtain ⟨r', rfl⟩ := exists_chunkOf hc hle
    refine h r r' hlt hnear (UInt32.toNat_inj.mp ?_)
    rw [hdisk, hdisk, heq]
  · intro h r r' hlt hnear heq
    refine h _ _ hlt hnear ?_
    rw [← hdisk, ← hdisk, heq]

/-- Two chunks of the first two rows that are on one disk and fewer than `raid_disks` apart. -/
theorem not_consecutiveApart (hl : conf.SupportedLayout) (hn : 2 ≤ conf.numDisks)
    (hc : 1 ≤ conf.sectorsPerChunk) {pd : UInt32} {j i : ℕ} (hj : j < conf.numDisks - 1)
    (hi : i ≤ 1) (hle : i ≤ j)
    (h : (conf.layout hn).disk 0 j = (conf.layout hn).disk 1 i) : ¬conf.ConsecutiveApart pd := by
  intro hapart
  refine (consecutiveApart_iff hl hn hc pd).1 hapart (0 * (conf.numDisks - 1) + j)
    (1 * (conf.numDisks - 1) + i) (by omega) (by omega) (by omega) ?_
  rw [RowLayout.chunkDisk_row hj, RowLayout.chunkDisk_row (hle.trans_lt hj), h]

/-- With two disks the data of a row is on the disk that does not have its parity. -/
theorem chunkDisk_two {n : ℕ} {L : RowLayout n} (hn : n = 2) {m : ℕ}
    (h : L.parity m ≠ L.parity (m + 1)) : L.chunkDisk m ≠ L.chunkDisk (m + 1) := by
  subst hn
  have hdisk : ∀ k, L.chunkDisk k = 1 - L.parity k := fun k => by
    have hne := L.disk_ne_parity k 0 Nat.one_pos
    have hlt := L.disk_lt k 0 Nat.one_pos
    have hpar := L.parity_lt k
    rw [RowLayout.chunkDisk, Nat.div_one, Nat.mod_one]
    omega
  have h₀ := L.parity_lt m
  have h₁ := L.parity_lt (m + 1)
  rw [hdisk, hdisk]
  omega

/-- With two disks the parity of a rotating layout alternates. -/
theorem parityDisk_two (h4 : conf.level ≠ 4) (hn : conf.numDisks = 2) (m : ℕ) :
    conf.parityDisk m ≠ conf.parityDisk (m + 1) := by
  rw [parityDisk, parityDisk, if_neg h4, if_neg h4, hn]
  split_ifs <;> omega

/-- **Which layouts keep consecutive chunks apart**: the left-symmetric one, and with two disks
every one that rotates. -/
theorem consecutive_apart_iff (conf : JRaid5Conf) (hl : conf.SupportedLayout)
    (hn : 2 ≤ conf.numDisks) (hc : 1 ≤ conf.sectorsPerChunk) (pd : UInt32) :
    conf.ConsecutiveApart pd ↔
      conf.level ≠ 4 ∧ (conf.algorithm = algorithmLeftSymmetric ∨ conf.numDisks = 2) := by
  have hpos : 0 < conf.numDisks := by omega
  constructor
  · intro hapart
    have h4 : conf.level ≠ 4 := fun h4 => by
      -- the parity stays on the last disk, and every row begins on the first one
      refine not_consecutiveApart hl hn hc (j := 0) (by omega) (Nat.zero_le 1) le_rfl ?_ hapart
      rw [layout_asymmetric hn (Or.inl h4)]
      simp only [RowLayout.skip, parityDisk, if_pos h4]
    refine ⟨h4, or_iff_not_imp_right.mpr fun h2 => ?_⟩
    obtain h | h | h | h := (hl.resolve_left h4).2
    · refine absurd hapart (not_consecutiveApart hl hn hc (j := 0) (i := 0) (by omega)
        (Nat.zero_le 1) le_rfl ?_)
      rw [layout_asymmetric hn (Or.inr (Or.inl h))]
      simp only [RowLayout.skip, parityDisk_left h4 (Or.inl h)]
      rw [Nat.mod_eq_of_lt (show 1 < conf.numDisks by omega), Nat.zero_mod, if_neg (by omega),
        if_neg (by omega)]
    · refine absurd hapart (not_consecutiveApart hl hn hc (j := 1) (i := 1) (by omega) le_rfl
        le_rfl ?_)
      rw [layout_asymmetric hn (Or.inr (Or.inr h))]
      simp only [RowLayout.skip, parityDisk_right h4 (Or.inl h)]
      rw [Nat.mod_eq_of_lt (show 1 < conf.numDisks by omega), Nat.zero_mod, if_pos le_rfl,
        if_pos (Nat.zero_le 1)]
    · exact h
    · refine absurd hapart (not_consecutiveApart hl hn hc (j := 1) (i := 0) (by omega)
        (Nat.zero_le 1) (Nat.zero_le 1) ?_)
      rw [layout_symmetric hn h4 (Or.inr h)]
      simp only [RowLayout.wrap, parityDisk_right h4 (Or.inr h)]
      rw [Nat.mod_eq_of_lt (show 1 < conf.numDisks by omega), Nat.zero_mod]
  · rintro ⟨h4, hleft | h2⟩
    · refine (consecutiveApart_iff hl hn hc pd).2 fun m m' hlt hnear heq => ?_
      rw [layout_symmetric hn h4 (Or.inl hleft),
        RowLayout.chunkDisk_wrap_left hn _ (parityDisk_left h4 (Or.inr hleft)),
        RowLayout.chunkDisk_wrap_left hn _ (parityDisk_left h4 (Or.inr hleft))] at heq
      -- two numbers of one remainder are at least `raid_disks` apart
      have hdvd := (Nat.modEq_iff_dvd' hlt.le).mp heq
      have := Nat.le_of_dvd (by omega) hdvd
      omega
    · refine (consecutiveApart_iff hl hn hc pd).2 fun m m' hlt hnear => ?_
      obtain rfl : m' = m + 1 := by omega
      refine chunkDisk_two h2 ?_
      rw [layout_parity]
      exact parityDisk_two h4 h2 m

/-- A left-symmetric array of three disks with chunks of eight sectors. -/
theorem consecutive_apart_three :
    let conf : JRaid5Conf := ⟨4096, 5, algorithmLeftSymmetric, 3, 4096, fun _ => ⟨none⟩⟩
    conf.ConsecutiveApart 0 := by
  intro conf
  exact (consecutive_apart_iff conf (Or.inr ⟨rfl, Or.inr (Or.inr (Or.inl rfl))⟩) (by decide)
    (by decide) 0).mpr ⟨by decide, Or.inl rfl⟩

end JRaid5Conf

end JRaid
