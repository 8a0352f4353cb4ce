import JRaid.Jmd.Mapping

/-!
# The tests of the chunk size

`do_jmd_run` copies `sb->chunk_size` into an `int` and tests it three times: against
`MAX_CHUNK_SIZE` as an `int`, against a 1 that is shifted to its lowest bit, and against
`PAGE_SIZE` as an `unsigned long`. A negative value passes the first test, and the third as well,
because its sign is extended. The second one leaves a single negative value, that with bit 31
alone (`chunk_size_valid_iff`).
-/

namespace JRaid

namespace Jmd

/-- The tests that `do_jmd_run` makes of the chunk size. -/
def chunkAccepted (c : UInt32) : Bool :=
  let chunkSize := c.toInt32
  !(4096 * 1024 < chunkSize) &&
  (1 : Int32) <<< Int32.ofNat (ffz (ulong (~~~chunkSize))) = chunkSize &&
  !(ulong chunkSize < 4096)

/-- They are the first of the tests that an array has to pass. -/
theorem Superblock.chunkAccepted_of_checkGeometry {sb : Superblock} {env : RunEnv}
    (h : sb.checkGeometry env = true) : chunkAccepted sb.chunkSize = true := by
  simp only [checkGeometry, Bool.and_eq_true] at h
  rw [chunkAccepted, Bool.and_eq_true, Bool.and_eq_true]
  exact h.1.1.1.1

/-- A chunk size that is a power of two from `PAGE_SIZE` to `MAX_CHUNK_SIZE`, so that the `int`
`chunk_size >> 9` is the positive number of sectors of a chunk. -/
structure ValidChunk (c : UInt32) : Prop where
  power : ∃ k, c.toNat = 2 ^ k
  lower : 4096 ≤ c.toNat
  upper : c.toNat ≤ 4096 * 1024
  positive : 0 < (c.toInt32 >>> 9).toInt
  sectors : (c.toInt32 >>> 9).toInt * 512 = c.toNat

theorem ffz_le (word : UInt64) : ffz word ≤ 64 := by
  rw [ffz]
  cases hfind : (List.range 64).find? fun i => !word.toNat.testBit i with
  | none => exact Nat.le_refl 64
  | some i => exact (List.mem_range.mp (List.mem_of_find?_eq_some hfind)).le

/-- A 1 shifted by as many bits as `ffz` may say. -/
theorem toInt_one_shiftLeft : ∀ k < 65,
    (1 : Int32) <<< Int32.ofNat k = Int32.minValue ∨
      ∃ j < 31, ((1 : Int32) <<< Int32.ofNat k).toInt = 2 ^ j := by
  decide

/-- A positive chunk size that is accepted is valid. -/
theorem validChunk_of_toInt {c : UInt32} {j : ℕ} (hj : c.toInt32.toInt = 2 ^ j)
    (hlower : 4096 ≤ c.toInt32.toInt) (hupper : c.toInt32.toInt ≤ 4096 * 1024) :
    ValidChunk c := by
  have hcast : c.toInt32.toInt = (2 ^ j : ℕ) := by rw [hj]; norm_cast
  have hc : c.toNat = 2 ^ j := by
    have h := toNat_toUInt32_of_toInt hcast
    rwa [UInt32.toUInt32_toInt32] at h
  have hle : 4096 ≤ 2 ^ j := by exact_mod_cast hcast ▸ hlower
  have hdvd : 512 ∣ 2 ^ j := by
    have h9 : 9 ≤ j := by
      by_contra hlt
      have := Nat.pow_le_pow_right (show 0 < 2 by decide) (show j ≤ 8 by omega)
      omega
    exact Nat.pow_dvd_pow 2 h9
  have hshift := toInt_shiftRight_nine c.toInt32
  rw [hcast] at hshift hupper
  refine ⟨⟨j, hc⟩, hc ▸ hle, ?_, ?_, ?_⟩
  · rw [hc]
    exact_mod_cast hupper
  · rw [hshift]
    omega
  · rw [hshift, hc]
    omega

/-- What the tests leave: a valid chunk size, or bit 31 alone. -/
theorem validChunk_or_of_chunkAccepted {c : UInt32} (h : chunkAccepted c = true) :
    ValidChunk c ∨ c = 0x80000000 := by
  simp only [chunkAccepted, Bool.and_eq_true, Bool.not_eq_true', decide_eq_false_iff_not,
    decide_eq_true_eq] at h
  obtain ⟨⟨hmax, hpow⟩, hmin⟩ := h
  obtain htop | ⟨j, -, hj⟩ := toInt_one_shiftLeft _ (Nat.lt_succ_of_le (ffz_le _))
  · right
    rw [← c.toUInt32_toInt32, ← hpow, htop]
    rfl
  · left
    rw [hpow] at hj
    have hupper : c.toInt32.toInt ≤ 4096 * 1024 := by
      rw [Int32.lt_iff_toInt_lt] at hmax
      exact Int.not_lt.mp hmax
    refine validChunk_of_toInt hj ?_ hupper
    have hval := toNat_ulong_of_toInt (m := 2 ^ j) (by rw [hj]; norm_cast)
    rw [UInt64.lt_iff_toNat_lt, hval] at hmin
    rw [hj]
    exact_mod_cast Nat.not_lt.mp hmin

/-- What passes the tests of `do_jmd_run` passes that of `jraid5_run`. -/
theorem Superblock.chunk_of_checkGeometry {sb : Superblock} {env : RunEnv}
    (h : sb.checkGeometry env = true) :
    ¬(sb.chunkSize.toInt32 = 0 ∨ sb.chunkSize.toInt32 % 4 ≠ 0) := by
  obtain hvalid | htop := validChunk_or_of_chunkAccepted (chunkAccepted_of_checkGeometry h)
  · have hpower : ∀ k < 23, 12 ≤ k →
        ¬((UInt32.ofNat (2 ^ k)).toInt32 = 0 ∨ (UInt32.ofNat (2 ^ k)).toInt32 % 4 ≠ 0) := by
      decide
    obtain ⟨k, hk⟩ := hvalid.power
    have hlower : 2 ^ 12 ≤ 2 ^ k := hk ▸ hvalid.lower
    have hupper : 2 ^ k ≤ 2 ^ 22 := hk ▸ hvalid.upper
    rw [← sb.chunkSize.ofNat_toNat, hk]
    exact hpower k (Nat.lt_succ_of_le ((Nat.pow_le_pow_iff_right (by decide)).mp hupper))
      ((Nat.pow_le_pow_iff_right (by decide)).mp hlower)
  · rw [htop]
    decide

/-- **When the tests of the chunk size are right.** A chunk size that they accept is valid, for all
32-bit values but one. -/
theorem chunk_size_valid_iff (c : UInt32) :
    (chunkAccepted c = true → ValidChunk c) ↔ c ≠ 0x80000000 := by
  constructor
  · rintro h rfl
    have hupper := (h (by decide)).upper
    exact absurd hupper (by decide)
  · intro hne h
    exact (validChunk_or_of_chunkAccepted h).resolve_right hne

/-- A negative chunk size passes. -/
theorem negative_chunk_accepted : chunkAccepted 0x80000000 = true ∧ ¬ValidChunk 0x80000000 :=
  ⟨by decide, fun h => absurd h.upper (by decide)⟩

end Jmd

end JRaid
