import Mathlib.Data.Int.Notation
import Mathlib.Data.Nat.Notation
import Mathlib.Tactic.SplitIfs

/-!
# Areas of memory

An area of `n` cells is a function on `Fin n`. `copyRange` copies a range of one area into another
one; it yields nothing if one of the ranges leaves its area. The cells of an area are read by an
integer (`Area.get`), so that a range may be compared with positions that lie before the area.

`overlay dst src z` is the area `dst` with the cells written over it that `src` has for it when
`src` begins at the position `z`, which may lie before `dst` or behind it. It is what the copy of
the common range leaves (`copyRange_eq_overlay`).
-/

namespace Area

variable {α : Type*} {m n : ℕ}

/-- The cell of an area at a position, if it has one. -/
def get (a : Fin n → α) (z : ℤ) : Option α :=
  if h : 0 ≤ z ∧ z < n then some (a ⟨z.toNat, by omega⟩) else none

/-- Copy `len` cells from the position `j` of `src` to the position `i` of `dst`. The cells are
read before any is written, which makes a difference within one area only. -/
def copyRange (dst : Fin n → α) (i : ℕ) (src : Fin m → α) (j len : ℕ) : Option (Fin n → α) :=
  if h : i + len ≤ n ∧ j + len ≤ m then
    some fun k => if hk : i ≤ k ∧ k < i + len then src ⟨j + (k - i), by omega⟩ else dst k
  else none

theorem get_of_lt (a : Fin n → α) {k : ℕ} (hk : k < n) : get a k = some (a ⟨k, hk⟩) := by
  rw [get, dif_pos (by omega)]
  rfl

theorem get_eq_none {a : Fin n → α} {z : ℤ} (h : ¬(0 ≤ z ∧ z < n)) : get a z = none := dif_neg h

/-- Areas with the same cells are the same. -/
theorem ext_get {a b : Fin n → α} (h : ∀ k < n, get a k = get b k) : a = b := by
  funext k
  have := h k k.isLt
  rw [get_of_lt a k.isLt, get_of_lt b k.isLt] at this
  exact Option.some.inj this

/-- A copy within bounds is made. -/
theorem exists_copyRange (dst : Fin n → α) (i : ℕ) (src : Fin m → α) (j len : ℕ)
    (hi : i + len ≤ n) (hj : j + len ≤ m) : ∃ d, copyRange dst i src j len = some d :=
  ⟨_, dif_pos ⟨hi, hj⟩⟩

/-- **What a copy within bounds does.** -/
theorem get_copyRange {dst d : Fin n → α} {i : ℕ} {src : Fin m → α} {j len : ℕ}
    (h : copyRange dst i src j len = some d) (z : ℤ) :
    get d z = if i ≤ z ∧ z < i + len then get src (z - i + j) else get dst z := by
  rw [copyRange] at h
  split_ifs at h with hbounds
  obtain rfl := Option.some.inj h
  by_cases hz : i ≤ z ∧ z < i + len
  · have hk : i ≤ z.toNat ∧ z.toNat < i + len := by omega
    rw [if_pos hz, get, dif_pos (by omega)]
    dsimp only
    rw [dif_pos hk, get, dif_pos (by omega)]
    congr 3
    omega
  · rw [if_neg hz]
    unfold get
    split_ifs with hin
    · dsimp only
      rw [dif_neg (by omega)]
    · rfl

/-! ### Areas over each other -/

/-- The area `dst` with `src` laid over it from the position `z` on. -/
def overlay (dst : Fin n → α) (src : Fin m → α) (z : ℤ) : Fin n → α := fun k =>
  (get src (k - z)).getD (dst k)

theorem get_overlay (dst : Fin n → α) (src : Fin m → α) (z w : ℤ) :
    get (overlay dst src z) w = (get dst w).map fun b => (get src (w - z)).getD b := by
  by_cases hw : 0 ≤ w ∧ w < n
  · obtain ⟨k, rfl⟩ := Int.eq_ofNat_of_zero_le hw.1
    rw [get_of_lt _ (by omega), get_of_lt _ (by omega)]
    rfl
  · rw [get_eq_none hw, get_eq_none hw]
    rfl

/-- Areas that have no cell in common leave each other alone. -/
theorem overlay_eq_self {dst : Fin n → α} {src : Fin m → α} {z : ℤ}
    (h : min (z + m) n ≤ max z 0) : overlay dst src z = dst := by
  funext k
  rw [overlay, get_eq_none (by omega)]
  rfl

/-- **A copy of what two areas have in common lays one over the other.** -/
theorem copyRange_eq_overlay (dst : Fin n → α) (src : Fin m → α) {z : ℤ} {i j len : ℕ}
    (hi : (i : ℤ) = max z 0) (hj : (j : ℤ) = max z 0 - z)
    (hlen : (len : ℤ) = min (z + m) n - max z 0) :
    copyRange dst i src j len = some (overlay dst src z) := by
  obtain ⟨d, hd⟩ := exists_copyRange dst i src j len (by omega) (by omega)
  rw [hd]
  refine congrArg some (ext_get fun k hk => ?_)
  rw [get_copyRange hd, get_overlay, get_of_lt dst hk]
  split_ifs with hrange
  · obtain ⟨c, hc⟩ := Int.eq_ofNat_of_zero_le (show 0 ≤ (k : ℤ) - z by omega)
    have hpos : (k : ℤ) - i + j = c := by omega
    rw [hpos, hc, get_of_lt src (by omega)]
    rfl
  · rw [get_eq_none (by omega)]
    rfl

end Area
