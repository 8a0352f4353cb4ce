import JRaid.Geometry.ComputeSector

/-!
# Block boundaries of the array

At the end of a chunk the sector map goes on to another disk, with few exceptions: level 4
with a single data disk, and two of the rotating layouts on three disks, where the last
chunk of a row and the first chunk of the next one can lie on the same disk
(`JRaid5Conf.chunkDisk_eq_iff`). A run of logical sectors therefore fits in one window of
one disk only if it is short and crosses no other boundary (`RowLayout.window_iff`).
-/

namespace JRaid

namespace JRaid5Conf

/-- Between the data chunks `m - 1` and `m` the sector map stays on the disk. -/
def StaysOnDisk (conf : JRaid5Conf) (m : ℕ) : Prop :=
  (conf.level = 4 ∧ conf.numDisks = 2) ∨
    (conf.level ≠ 4 ∧ conf.numDisks = 3 ∧
      ((conf.algorithm = algorithmRightAsymmetric ∧ m % 6 = 0) ∨
        (conf.algorithm = algorithmRightSymmetric ∧ m % 2 = 0)))

/-! ### From the last chunk of a row to the first chunk of the next one -/

/-- The remainder modulo `n` goes up by one, or back to 0. -/
private theorem mod_succ_cases {n : ℕ} (hn : 0 < n) (q : ℕ) :
    (q % n + 1 < n ∧ (q + 1) % n = q % n + 1) ∨ (q % n + 1 = n ∧ (q + 1) % n = 0) := by
  have hq : (q + 1) % n < n := Nat.mod_lt _ hn
  obtain ⟨-, hmod⟩ | ⟨-, hmod, hlast⟩ := RowLayout.div_mod_succ hn q
  · exact Or.inl ⟨by omega, hmod⟩
  · exact Or.inr ⟨hlast, hmod⟩

/-- Stepping over the parity disk. -/
private theorem skip_row_end {n : ℕ} (hn : 2 ≤ n) (q : ℕ) (parity : ℕ → ℕ)
    (h : ∀ k, parity k < n) :
    (RowLayout.skip parity h).disk (q + 1) 0 = (RowLayout.skip parity h).disk q (n - 2) ↔
      (n = 2 ∧ (parity q = parity (q + 1))) ∨
        (n = 3 ∧ parity q = 2 ∧ parity (q + 1) = 0) := by
  have hq := h q
  have hq' := h (q + 1)
  simp only [RowLayout.skip]
  constructor
  · intro hd
    split_ifs at hd <;> omega
  · intro hd
    split_ifs <;> omega

/-- Wrapping around. -/
private theorem wrap_row_end {n : ℕ} (hn : 2 ≤ n) (q : ℕ) (parity : ℕ → ℕ)
    (h : ∀ k, parity k < n) :
    (RowLayout.wrap parity h).disk (q + 1) 0 = (RowLayout.wrap parity h).disk q (n - 2) ↔
      parity q = parity (q + 1) + 2 ∨ parity q + n = parity (q + 1) + 2 := by
  have hq := h q
  have hq' := h (q + 1)
  simp only [RowLayout.wrap]
  obtain ⟨h1, e1⟩ | ⟨h1, e1⟩ := RowLayout.add_mod_cases (j := 0) hq' (by omega) <;>
    obtain ⟨h2, e2⟩ | ⟨h2, e2⟩ := RowLayout.add_mod_cases (j := n - 2) hq (by omega) <;>
    rw [e1, e2] <;> omega

variable {conf : JRaid5Conf}

/-- At the end of a row. -/
private theorem row_end_iff (hl : conf.SupportedLayout) (hn : 2 ≤ conf.numDisks) (q : ℕ) :
    (conf.layout hn).disk (q + 1) 0 = (conf.layout hn).disk q (conf.numDisks - 2) ↔
      conf.StaysOnDisk ((q + 1) * (conf.numDisks - 1)) := by
  have hmod := mod_succ_cases (show 0 < conf.numDisks by omega) q
  by_cases h4 : conf.level = 4
  · have hpd : ∀ k, conf.parityDisk k = conf.numDisks - 1 := fun _ => if_pos h4
    rw [layout_asymmetric hn (Or.inl h4), skip_row_end hn, hpd, hpd]
    simp only [StaysOnDisk, h4, ne_eq, not_true_eq_false, false_and, or_false, true_and, and_true]
    constructor
    · rintro (h2 | ⟨h3, hpar, hpar'⟩)
      · exact h2
      · omega
    · exact Or.inl
  · have hstay : ∀ m, conf.StaysOnDisk m ↔ conf.numDisks = 3 ∧
        ((conf.algorithm = algorithmRightAsymmetric ∧ m % 6 = 0) ∨
          (conf.algorithm = algorithmRightSymmetric ∧ m % 2 = 0)) := fun m => by
      simp [StaysOnDisk, h4]
    -- the left layouts go one disk back from row to row
    have hleft : (conf.algorithm = algorithmLeftAsymmetric ∨
        conf.algorithm = algorithmLeftSymmetric) → ∀ m, ¬conf.StaysOnDisk m := by
      intro h m hm
      obtain ⟨-, ⟨h', -⟩ | ⟨h', -⟩⟩ := (hstay m).mp hm
      all_goals rcases h with h | h <;> exact absurd (h.symm.trans h') (by decide)
    obtain h | h | h | h := (hl.resolve_left h4).2
    · rw [layout_asymmetric hn (Or.inr (Or.inl h)), skip_row_end hn,
        parityDisk_left h4 (Or.inl h), parityDisk_left h4 (Or.inl h)]
      refine iff_of_false ?_ (hleft (Or.inl h) _)
      omega
    · rw [layout_asymmetric hn (Or.inr (Or.inr h)), skip_row_end hn,
        parityDisk_right h4 (Or.inl h), parityDisk_right h4 (Or.inl h), hstay]
      simp only [h, show algorithmRightAsymmetric ≠ algorithmRightSymmetric by decide, false_and,
        or_false, true_and]
      generalize conf.numDisks = n at hn hmod ⊢
      constructor
      · rintro (hpar | ⟨rfl, hpar⟩)
        · omega
        · omega
      · rintro ⟨rfl, hm⟩
        omega
    · rw [layout_symmetric hn h4 (Or.inl h), wrap_row_end hn,
        parityDisk_left h4 (Or.inr h), parityDisk_left h4 (Or.inr h)]
      refine iff_of_false ?_ (hleft (Or.inr h) _)
      omega
    · rw [layout_symmetric hn h4 (Or.inr h), wrap_row_end hn,
        parityDisk_right h4 (Or.inr h), parityDisk_right h4 (Or.inr h), hstay]
      simp only [h, show algorithmRightSymmetric ≠ algorithmRightAsymmetric by decide, false_and,
        false_or, true_and]
      generalize conf.numDisks = n at hn hmod ⊢
      constructor
      · intro hpar
        obtain rfl : n = 3 := by omega
        exact ⟨rfl, Nat.mul_mod_left _ _⟩
      · rintro ⟨rfl, -⟩
        omega

/-- **Where the sector map stays on a disk** from one data chunk to the next. -/
theorem chunkDisk_eq_iff (hl : conf.SupportedLayout) (hn : 2 ≤ conf.numDisks) {m : ℕ}
    (hm : 0 < m) :
    (conf.layout hn).chunkDisk m = (conf.layout hn).chunkDisk (m - 1) ↔ conf.StaysOnDisk m := by
  obtain ⟨k, rfl⟩ : ∃ k, m = k + 1 := Nat.exists_eq_succ_of_ne_zero (by omega)
  rw [Nat.add_sub_cancel]
  have hd : 0 < conf.numDisks - 1 := by omega
  obtain ⟨hdiv, hmod⟩ | ⟨hdiv, hmod, hlast⟩ := RowLayout.div_mod_succ hd k
  · -- inside a row the disk changes, and no exceptional boundary lies there
    have hlt : (k + 1) % (conf.numDisks - 1) < conf.numDisks - 1 := Nat.mod_lt _ hd
    refine iff_of_false (fun h => ?_) ?_
    · have hrow := RowLayout.row_succ_of_chunkDisk hn h
      omega
    · rintro (⟨-, h2⟩ | ⟨-, h3, h⟩)
      · rw [h2] at hlt hmod
        omega
      · rw [h3] at hlt hmod
        omega
  · have hk : k + 1 = (k / (conf.numDisks - 1) + 1) * (conf.numDisks - 1) := by
      rw [← hdiv]
      exact (Nat.div_mul_cancel (Nat.dvd_of_mod_eq_zero hmod)).symm
    have hidx : k % (conf.numDisks - 1) = conf.numDisks - 2 := by omega
    rw [RowLayout.chunkDisk, RowLayout.chunkDisk, hdiv, hmod, hidx, row_end_iff hl hn, ← hk]

end JRaid5Conf

end JRaid
