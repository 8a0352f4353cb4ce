import JRaid.Geometry.ComputeSector

/-!
# The rotation of the parity disk

On level 5 the parity moves by one disk from a row to the next, down for the left layouts and up
for the right ones, so that every window of `raid_disks` consecutive rows has it on each disk
exactly once. On level 4 it stays on the last disk (`parity_rotates`). The row of a logical
sector is what the two divisions of `jraid5_compute_sector` make of it.
-/

namespace JRaid

namespace JRaid5Conf

variable (conf : JRaid5Conf)

/-- The row of a logical sector. -/
def rowOf (r : UInt64) : ℕ := r.toNat / conf.sectorsPerChunk / (conf.numDisks - 1)

variable {conf}

/-- The parity disk that `jraid5_compute_sector` finds is that of the row. -/
theorem toNat_pdIdx_mapSector (hl : conf.SupportedLayout) (hn : 2 ≤ conf.numDisks)
    (hc : 1 ≤ conf.sectorsPerChunk) (r : UInt64) (pd : UInt32) :
    (conf.mapSector r pd).pdIdx.toNat = conf.parityDisk (conf.rowOf r) := by
  obtain ⟨-, hnew, hpd⟩ := toNat_mapSector hl hn hc r pd
  rw [hpd, hnew, (RowLayout.place_row hc r.toNat).1, rowOf]

/-- **Every disk has the parity of exactly one of `raid_disks` consecutive rows.** -/
theorem parityDisk_bijOn (h4 : conf.level ≠ 4) (ha : conf.SupportedAlgorithm) (k : ℕ) :
    Set.BijOn conf.parityDisk (Set.Ico k (k + conf.numDisks)) (Set.Iio conf.numDisks) := by
  have hmod := RowLayout.bijOn_mod_window k conf.numDisks
  have hleft := (RowLayout.bijOn_reflect conf.numDisks).comp hmod
  obtain h | h | h | h := ha
  · exact hleft.congr fun j _ => (parityDisk_left h4 (Or.inl h) j).symm
  · exact hmod.congr fun j _ => (parityDisk_right h4 (Or.inl h) j).symm
  · exact hleft.congr fun j _ => (parityDisk_left h4 (Or.inr h) j).symm
  · exact hmod.congr fun j _ => (parityDisk_right h4 (Or.inr h) j).symm

/-- The left layouts move the parity down by one disk. -/
theorem parityDisk_succ_left (h4 : conf.level ≠ 4) (hn : 2 ≤ conf.numDisks)
    (h : conf.algorithm = algorithmLeftAsymmetric ∨ conf.algorithm = algorithmLeftSymmetric)
    (k : ℕ) :
    conf.parityDisk (k + 1) = (conf.parityDisk k + (conf.numDisks - 1)) % conf.numDisks := by
  have hpos : 0 < conf.numDisks := by omega
  have hmod := Nat.mod_lt k hpos
  have hmod' := Nat.mod_lt (k + 1) hpos
  rw [parityDisk_left h4 h, parityDisk_left h4 h]
  obtain ⟨-, hsucc⟩ | ⟨-, hsucc, hlast⟩ := RowLayout.div_mod_succ hpos k
  · have hsum : conf.numDisks - 1 - k % conf.numDisks + (conf.numDisks - 1) =
        conf.numDisks - 1 - (k + 1) % conf.numDisks + conf.numDisks := by omega
    rw [hsum, Nat.add_mod_right]
    exact (Nat.mod_eq_of_lt (by omega)).symm
  · have hsum : conf.numDisks - 1 - k % conf.numDisks + (conf.numDisks - 1) =
        conf.numDisks - 1 := by omega
    rw [hsum, hsucc]
    exact (Nat.mod_eq_of_lt (by omega)).symm

/-- The right layouts move the parity up by one disk. -/
theorem parityDisk_succ_right (h4 : conf.level ≠ 4)
    (h : conf.algorithm = algorithmRightAsymmetric ∨ conf.algorithm = algorithmRightSymmetric)
    (k : ℕ) : conf.parityDisk (k + 1) = (conf.parityDisk k + 1) % conf.numDisks := by
  rw [parityDisk_right h4 h, parityDisk_right h4 h, Nat.mod_add_mod]

/-- **Parity rotates evenly.** On level 5, whichever logical sectors are taken from
`raid_disks` consecutive rows, `jraid5_compute_sector` assigns each disk to exactly one of them
as its parity disk, and from a row to the next the parity disk is one lower modulo `raid_disks`
in the left layouts and one higher in the right ones. On level 4 it is always the last disk. -/
theorem parity_rotates (conf : JRaid5Conf) (hn : 2 ≤ conf.numDisks)
    (hc : 1 ≤ conf.sectorsPerChunk) (pd : UInt32) :
    (conf.level = 4 → ∀ r, (conf.mapSector r pd).pdIdx.toNat = conf.numDisks - 1) ∧
    (conf.level = 5 → conf.SupportedAlgorithm →
      (∀ (k : ℕ) (r : ℕ → UInt64),
        (∀ j ∈ Set.Ico k (k + conf.numDisks), conf.rowOf (r j) = j) →
        Set.BijOn (fun j => (conf.mapSector (r j) pd).pdIdx.toNat)
          (Set.Ico k (k + conf.numDisks)) (Set.Iio conf.numDisks)) ∧
      ∀ r r', conf.rowOf r' = conf.rowOf r + 1 →
        (conf.algorithm = algorithmLeftAsymmetric ∨ conf.algorithm = algorithmLeftSymmetric →
          (conf.mapSector r' pd).pdIdx.toNat =
            ((conf.mapSector r pd).pdIdx.toNat + (conf.numDisks - 1)) % conf.numDisks) ∧
        (conf.algorithm = algorithmRightAsymmetric ∨ conf.algorithm = algorithmRightSymmetric →
          (conf.mapSector r' pd).pdIdx.toNat =
            ((conf.mapSector r pd).pdIdx.toNat + 1) % conf.numDisks)) := by
  constructor
  · intro h4 r
    rw [toNat_pdIdx_mapSector (Or.inl h4) hn hc, parityDisk, if_pos h4]
  · intro h5 ha
    have h4 : conf.level ≠ 4 := by rw [h5]; decide
    have hpd := fun r => toNat_pdIdx_mapSector (Or.inr ⟨h5, ha⟩) hn hc r pd
    refine ⟨fun k r hrow => ?_, fun r r' hrow => ?_⟩
    · refine (parityDisk_bijOn h4 ha k).congr fun j hj => ?_
      rw [hpd, hrow j hj]
    · rw [hpd, hpd, hrow]
      exact ⟨fun h => parityDisk_succ_left h4 hn h _, fun h => parityDisk_succ_right h4 h _⟩

/-- The first three rows of a left-symmetric array of three disks with chunks of eight sectors. -/
theorem parity_rotates_three :
    let conf : JRaid5Conf := ⟨4096, 5, algorithmLeftSymmetric, 3, 4096, fun _ => ⟨none⟩⟩
    Set.BijOn (fun j => (conf.mapSector (UInt64.ofNat (16 * j)) 0).pdIdx.toNat)
      (Set.Ico 0 (0 + conf.numDisks)) (Set.Iio conf.numDisks) := by
  intro conf
  have h := (parity_rotates conf (by decide) (by decide) 0).2 rfl (Or.inr (Or.inr (Or.inl rfl)))
  have hrow : ∀ j < 3, conf.rowOf (UInt64.ofNat (16 * j)) = j := by decide
  exact h.1 0 (fun j => UInt64.ofNat (16 * j)) fun j hj => hrow j hj.2

end JRaid5Conf

end JRaid
