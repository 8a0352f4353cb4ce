import JRaid.Stripe.Basic

/-!
# The pieces of a segment

The functions that serve a bio segment by segment cut a segment at the boundary of a page of the
device. They all do it with the same loop: at most two passes, which share the variables
`sector`, `copy`, `offset` and a pointer into the page of the segment. `BioVec.pieces` lists the
values of these variables in the passes; there is one pass, or there are two that meet at the
boundary (`pieces_of_le`, `pieces_of_gt`).
-/

namespace JRaid

/-- `PAGE_SECTORS`. -/
def pageSectors : UInt64 := 8

/-- A segment of a bio: a range of a page, which is given by its contents or by its address. -/
structure BioVec (ρ : Type) where
  bvPage : ρ
  bvLen : ℕ
  bvOffset : ℕ
  fits : bvOffset + bvLen ≤ pageSize

/-- The variables of a pass: the sector, the place of the pointer in the page of the segment, the
place in the other page, and the number of bytes to copy. -/
structure Piece where
  sector : UInt64
  pos : ℕ
  offset : ℕ
  copy : ℕ
  deriving DecidableEq, Repr

namespace Piece

/-- `src += i * (len - copy)`. -/
def start (len i : ℕ) (p : Piece) : Piece := { p with pos := p.pos + i * (len - p.copy) }

/-- The end of a pass. -/
def next (len : ℕ) (p : Piece) : Piece :=
  { p with sector := p.sector + UInt64.ofNat (p.copy >>> 9), copy := len - p.copy, offset := 0 }

/-- The variables in the passes `i`, `i + 1`, ... of a loop that still makes `n` passes. -/
def passes (len : ℕ) : ℕ → ℕ → Piece → List Piece
  | 0, _, _ => []
  | n + 1, i, p => p.start len i :: passes len n (i + 1) ((p.start len i).next len)

end Piece

/-- `offset` before the loop. -/
def firstOffset (sector : UInt64) : ℕ := ((sector &&& (pageSectors - 1)) <<< 9).toNat

/-- The passes of the loop over the pieces of a segment. -/
def BioVec.pieces {ρ : Type} (bv : BioVec ρ) (sector : UInt64) : List Piece :=
  let offset := firstOffset sector
  let copy := min bv.bvLen (pageSize - offset)
  let nr := if bv.bvLen > pageSize - offset then 2 else 1
  Piece.passes bv.bvLen nr 0 ⟨sector, bv.bvOffset, offset, copy⟩

theorem firstOffset_eq (sector : UInt64) : firstOffset sector = 512 * (sector.toNat % 8) := by
  have hmask : (sector &&& (pageSectors - 1)).toNat = sector.toNat % 8 := by
    rw [UInt64.toNat_and]
    exact Nat.and_two_pow_sub_one_eq_mod _ 3
  rw [firstOffset, UInt64.toNat_shiftLeft, hmask, show (9 : UInt64).toNat % 64 = 9 from rfl,
    Nat.shiftLeft_eq]
  omega

theorem firstOffset_lt (sector : UInt64) : firstOffset sector < pageSize := by
  rw [firstOffset_eq, pageSize]
  omega

/-- The sector of the second piece begins the next page. -/
theorem toNat_nextSector {sector : UInt64} (h : sector.toNat < 2 ^ 64 - 8) :
    (sector + UInt64.ofNat ((pageSize - firstOffset sector) >>> 9)).toNat =
      8 * (sector.toNat / 8 + 1) := by
  rw [firstOffset_eq, Nat.shiftRight_eq_div_pow, pageSize, UInt64.toNat_add, UInt64.toNat_ofNat']
  omega

namespace BioVec

variable {ρ : Type} (bv : BioVec ρ) (sector : UInt64)

/-- A segment that ends in the page in which it begins. -/
theorem pieces_of_le (h : bv.bvLen ≤ pageSize - firstOffset sector) :
    bv.pieces sector = [⟨sector, bv.bvOffset, firstOffset sector, bv.bvLen⟩] := by
  simp only [pieces, if_neg h.not_gt, min_eq_left h]
  simp only [Piece.passes, Piece.start, Nat.zero_mul, Nat.add_zero]

/-- A segment that goes on in the next page. -/
theorem pieces_of_gt (h : bv.bvLen > pageSize - firstOffset sector) :
    let first := pageSize - firstOffset sector
    bv.pieces sector = [⟨sector, bv.bvOffset, firstOffset sector, first⟩,
      ⟨sector + UInt64.ofNat (first >>> 9), bv.bvOffset + first, 0, bv.bvLen - first⟩] := by
  intro first
  simp only [pieces, if_pos h, min_eq_right (Nat.le_of_lt h)]
  simp only [Piece.passes, Piece.start, Piece.next, Nat.zero_mul, Nat.add_zero, Nat.zero_add,
    Nat.one_mul, Nat.sub_sub_self (Nat.le_of_lt h)]
  rfl

/-- The first piece, and what is left for a second one. -/
theorem exists_pieces_eq_cons : ∃ rest, bv.pieces sector =
      ⟨sector, bv.bvOffset, firstOffset sector, min bv.bvLen (pageSize - firstOffset sector)⟩ ::
        rest ∧
    ∀ p ∈ rest, p.offset = 0 ∧ bv.bvLen = pageSize - firstOffset sector + p.copy ∧
      p.pos = bv.bvOffset + (pageSize - firstOffset sector) ∧
      p.sector = sector + UInt64.ofNat ((pageSize - firstOffset sector) >>> 9) := by
  by_cases h : bv.bvLen ≤ pageSize - firstOffset sector
  · exact ⟨[], by rw [min_eq_left h, bv.pieces_of_le sector h], fun p hp => by cases hp⟩
  · have hlt : bv.bvLen > pageSize - firstOffset sector := Nat.lt_of_not_le h
    refine ⟨_, by rw [min_eq_right (Nat.le_of_lt hlt), bv.pieces_of_gt sector hlt], fun p hp => ?_⟩
    obtain rfl := List.mem_singleton.mp hp
    exact ⟨rfl, (Nat.add_sub_of_le (Nat.le_of_lt hlt)).symm, rfl, rfl⟩

/-- Each piece lies in the page of the segment and in a page of the device. -/
theorem piece_bounds {p : Piece} (hp : p ∈ bv.pieces sector) :
    p.offset + p.copy ≤ pageSize ∧ bv.bvOffset ≤ p.pos ∧
      p.pos + p.copy ≤ bv.bvOffset + bv.bvLen := by
  have hlt := firstOffset_lt sector
  have hfits := bv.fits
  obtain ⟨rest, heq, hrest⟩ := bv.exists_pieces_eq_cons sector
  rw [heq] at hp
  obtain rfl | hp := List.mem_cons.mp hp
  · dsimp only
    omega
  · obtain ⟨hoff, hlen, hpos, -⟩ := hrest p hp
    omega

end BioVec

end JRaid
