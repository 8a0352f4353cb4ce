import Mathlib.Data.Set.Function
import Mathlib.Order.Interval.Finset.Nat

/-!
# Rotating layouts of striped rows

A striped array of `n` disks is cut into rows; every row holds one parity block and
`n - 1` data blocks, one block on each disk. A `RowLayout n` says which disk holds the
parity of a row and how the data blocks of the row are numbered, and carries the proof
that the numbering is a bijection between `{0, …, n - 2}` and the disks other than the
parity disk. Two families of numberings are built here from an arbitrary parity function:

* `RowLayout.skip`: data blocks run over the disks in increasing order and step over the
  parity disk;
* `RowLayout.wrap`: data blocks start after the parity disk and wrap around modulo `n`.

With blocks of `c` sectors, `RowLayout.place` sends a logical sector to a pair (disk,
sector) and `RowLayout.logical` is its two-sided inverse, so that any number of rows is
filled exactly once (`RowLayout.bijOn_place`). A run of consecutive logical sectors stays
together on one disk up to the first block boundary at which the layout changes the disk
(`RowLayout.window_iff`).
-/

/-- A numbering of the data blocks of every row on `n` disks, one of which is the parity
disk of the row. -/
structure RowLayout (n : ℕ) where
  /-- the parity disk of a row -/
  parity : ℕ → ℕ
  /-- the disk of the `j`-th data block of a row -/
  disk : ℕ → ℕ → ℕ
  /-- the number of the data block a disk holds in a row -/
  index : ℕ → ℕ → ℕ
  parity_lt : ∀ k, parity k < n
  disk_lt : ∀ k j, j < n - 1 → disk k j < n
  disk_ne_parity : ∀ k j, j < n - 1 → disk k j ≠ parity k
  index_lt : ∀ k d, d < n → d ≠ parity k → index k d < n - 1
  index_disk : ∀ k j, j < n - 1 → index k (disk k j) = j
  disk_index : ∀ k d, d < n → d ≠ parity k → disk k (index k d) = d

namespace RowLayout

/-- Reading the two digits of `k * c + o` in base `c` off again. -/
theorem mul_add_div_mod {k c o : ℕ} (ho : o < c) :
    (k * c + o) / c = k ∧ (k * c + o) % c = o := by
  rw [Nat.mul_comm]
  constructor
  · rw [Nat.mul_add_div (by omega), Nat.div_eq_of_lt ho, Nat.add_zero]
  · rw [Nat.mul_add_mod, Nat.mod_eq_of_lt ho]

variable {n : ℕ}

/-! ### The two numberings -/

/-- Data blocks in increasing order of the disks, stepping over the parity disk. -/
def skip (parity : ℕ → ℕ) (h : ∀ k, parity k < n) : RowLayout n where
  parity := parity
  disk k j := if parity k ≤ j then j + 1 else j
  index k d := if parity k < d then d - 1 else d
  parity_lt := h
  disk_lt k j hj := by split_ifs <;> omega
  disk_ne_parity k j hj := by split_ifs <;> omega
  index_lt k d hd hne := by have := h k; split_ifs <;> omega
  index_disk k j hj := by split_ifs <;> omega
  disk_index k d hd hne := by split_ifs <;> omega

/-- Adding `a < n` to `p + 1 ≤ n` modulo `n`: the sum is reduced at most once. -/
theorem add_mod_cases {p j : ℕ} (hp : p < n) (hj : j < n - 1) :
    (p + 1 + j < n ∧ (p + 1 + j) % n = p + 1 + j) ∨
      (n ≤ p + 1 + j ∧ (p + 1 + j) % n = p + 1 + j - n) := by
  rcases Nat.lt_or_ge (p + 1 + j) n with h | h
  · exact Or.inl ⟨h, Nat.mod_eq_of_lt h⟩
  · exact Or.inr ⟨h, by rw [Nat.mod_eq_sub_mod h, Nat.mod_eq_of_lt (by omega)]⟩

/-- Data blocks from the disk after the parity disk on, wrapping around modulo `n`. -/
def wrap (parity : ℕ → ℕ) (h : ∀ k, parity k < n) : RowLayout n where
  parity := parity
  disk k j := (parity k + 1 + j) % n
  index k d := if d < parity k then d + n - (parity k + 1) else d - (parity k + 1)
  parity_lt := h
  disk_lt k j hj := Nat.mod_lt _ (by omega)
  disk_ne_parity k j hj := by rcases add_mod_cases (h k) hj with ⟨_, e⟩ | ⟨_, e⟩ <;> omega
  index_lt k d hd hne := by have := h k; split_ifs <;> omega
  index_disk k j hj := by
    have := h k
    rcases add_mod_cases (h k) hj with ⟨_, e⟩ | ⟨_, e⟩ <;> rw [e] <;> split_ifs <;> omega
  disk_index k d hd hne := by
    have := h k
    split_ifs with hlt
    · rw [show parity k + 1 + (d + n - (parity k + 1)) = d + n by omega, Nat.add_mod_right,
        Nat.mod_eq_of_lt hd]
    · rw [show parity k + 1 + (d - (parity k + 1)) = d by omega, Nat.mod_eq_of_lt hd]

/-! ### Logical sectors and places -/

variable (L : RowLayout n) (c : ℕ)

/-- The disk and the sector on it that hold a logical sector, for blocks of `c` sectors. -/
def place (r : ℕ) : ℕ × ℕ :=
  (L.disk (r / c / (n - 1)) (r / c % (n - 1)), r / c / (n - 1) * c + r % c)

/-- The number of the data block that a disk holds in a row, counted over the array. -/
def chunk (k d : ℕ) : ℕ := k * (n - 1) + L.index k d

/-- The logical sector held by a sector of a disk. -/
def logical (d s : ℕ) : ℕ := L.chunk (s / c) d * c + s % c

/-- The places of the first `R` rows that do not hold parity. -/
def dataPlaces (R : ℕ) : Set (ℕ × ℕ) := {p | p.1 < n ∧ p.2 < R * c ∧ p.1 ≠ L.parity (p.2 / c)}

variable {L c}

/-- The row and the offset can be read off the sector of a place. -/
theorem place_row (hc : 0 < c) (r : ℕ) :
    (L.place c r).2 / c = r / c / (n - 1) ∧ (L.place c r).2 % c = r % c :=
  mul_add_div_mod (Nat.mod_lt _ hc)

theorem place_lt (hn : 2 ≤ n) (r : ℕ) : (L.place c r).1 < n :=
  L.disk_lt _ _ (Nat.mod_lt _ (by omega))

theorem place_ne_parity (hn : 2 ≤ n) (hc : 0 < c) (r : ℕ) :
    (L.place c r).1 ≠ L.parity ((L.place c r).2 / c) := by
  rw [(place_row hc r).1]
  exact L.disk_ne_parity _ _ (Nat.mod_lt _ (by omega))

/-- The chunk a data disk holds in a row has the row's number and the disk's index. -/
theorem chunk_div_mod {k d : ℕ} (hd : d < n) (hne : d ≠ L.parity k) :
    L.chunk k d / (n - 1) = k ∧ L.chunk k d % (n - 1) = L.index k d :=
  mul_add_div_mod (L.index_lt k d hd hne)

/-- The chunk number of a place is the chunk number of its logical sector. -/
theorem chunk_place (hn : 2 ≤ n) (hc : 0 < c) (r : ℕ) :
    L.chunk ((L.place c r).2 / c) (L.place c r).1 = r / c := by
  rw [(place_row hc r).1, chunk, place, L.index_disk _ _ (Nat.mod_lt _ (by omega)), Nat.mul_comm]
  exact Nat.div_add_mod (r / c) (n - 1)

/-- Going to the place of a logical sector and back. -/
theorem logical_place (hn : 2 ≤ n) (hc : 0 < c) (r : ℕ) :
    L.logical c (L.place c r).1 (L.place c r).2 = r := by
  rw [logical, chunk_place hn hc, (place_row hc r).2, Nat.mul_comm]
  exact Nat.div_add_mod r c

theorem logical_div_mod (hc : 0 < c) (d s : ℕ) :
    L.logical c d s / c = L.chunk (s / c) d ∧ L.logical c d s % c = s % c :=
  mul_add_div_mod (Nat.mod_lt _ hc)

/-- Going to the logical sector of a data place and back. -/
theorem place_logical (hc : 0 < c) {d s : ℕ} (hd : d < n) (hne : d ≠ L.parity (s / c)) :
    L.place c (L.logical c d s) = (d, s) := by
  obtain ⟨hdiv, hmod⟩ := logical_div_mod (L := L) hc d s
  obtain ⟨hrow, hidx⟩ := chunk_div_mod hd hne
  rw [place, hdiv, hmod, hrow, hidx, L.disk_index _ _ hd hne, Nat.mul_comm]
  exact Prod.ext rfl (Nat.div_add_mod s c)

/-- A logical sector lies in one of the first `R` rows if and only if its place does. -/
theorem place_lt_rows_iff (hn : 2 ≤ n) (hc : 0 < c) (R r : ℕ) :
    (L.place c r).2 < R * c ↔ r < R * (n - 1) * c := by
  rw [← Nat.div_lt_iff_lt_mul hc, (place_row hc r).1, ← Nat.div_lt_iff_lt_mul hc,
    Nat.div_lt_iff_lt_mul (by omega)]

/-- **The layout fills its rows exactly once**: the logical sectors of the first `R` rows
are in bijection with the places of those rows that do not hold parity. -/
theorem bijOn_place (hn : 2 ≤ n) (hc : 0 < c) (R : ℕ) :
    Set.BijOn (L.place c) {r | r < R * (n - 1) * c} (L.dataPlaces c R) := by
  have hinv : Set.InvOn (fun p : ℕ × ℕ => L.logical c p.1 p.2) (L.place c)
      {r | r < R * (n - 1) * c} (L.dataPlaces c R) := by
    refine ⟨fun r _ => logical_place hn hc r, ?_⟩
    rintro ⟨d, s⟩ ⟨hd, -, hne⟩
    exact place_logical hc hd hne
  refine hinv.bijOn (fun r hr => ?_) ?_
  · exact ⟨place_lt hn r, (place_lt_rows_iff hn hc R r).mpr hr, place_ne_parity hn hc r⟩
  · rintro ⟨d, s⟩ ⟨hd, hs, hne⟩
    refine (place_lt_rows_iff (L := L) hn hc R (L.logical c d s)).mp ?_
    rw [place_logical hc hd hne]
    exact hs

/-! ### Runs of consecutive sectors -/

variable (L) in

/-- The disk of a data block, the data blocks being numbered over the whole array. -/
def chunkDisk (m : ℕ) : ℕ := L.disk (m / (n - 1)) (m % (n - 1))

theorem place_fst (c r : ℕ) : (L.place c r).1 = L.chunkDisk (r / c) := rfl

/-- Two consecutive data blocks on one disk lie in consecutive rows. -/
theorem row_succ_of_chunkDisk (hn : 2 ≤ n) {m : ℕ} (h : L.chunkDisk (m + 1) = L.chunkDisk m) :
    (m + 1) / (n - 1) = m / (n - 1) + 1 := by
  have hmod : m % (n - 1) < n - 1 := Nat.mod_lt _ (by omega)
  have hm : m / (n - 1) * (n - 1) + m % (n - 1) = m := Nat.div_add_mod' m (n - 1)
  rcases Nat.lt_or_ge (m % (n - 1) + 1) (n - 1) with hlt | hge
  · -- in one row the numbering is injective
    exfalso
    obtain ⟨hdiv, hmod'⟩ := mul_add_div_mod (k := m / (n - 1)) hlt
    rw [← Nat.add_assoc, hm] at hdiv hmod'
    rw [chunkDisk, chunkDisk, hdiv, hmod'] at h
    have hidx := congrArg (L.index (m / (n - 1))) h
    rw [L.index_disk _ _ hlt, L.index_disk _ _ hmod] at hidx
    omega
  · have hsucc : m + 1 = (m / (n - 1) + 1) * (n - 1) := by
      rw [Nat.add_mul, Nat.one_mul]
      omega
    rw [hsucc, Nat.mul_div_cancel _ (by omega)]

/-- A sector and the next one are in one block, or in consecutive blocks. -/
theorem div_mod_succ (hc : 0 < c) (r : ℕ) :
    ((r + 1) / c = r / c ∧ (r + 1) % c = r % c + 1) ∨
      ((r + 1) / c = r / c + 1 ∧ (r + 1) % c = 0 ∧ r % c + 1 = c) := by
  have hmod : r % c < c := Nat.mod_lt _ hc
  have hr : r / c * c + r % c = r := Nat.div_add_mod' r c
  rcases Nat.lt_or_ge (r % c + 1) c with hlt | hge
  · obtain ⟨hdiv, hmod'⟩ := mul_add_div_mod (k := r / c) hlt
    rw [← Nat.add_assoc, hr] at hdiv hmod'
    exact Or.inl ⟨hdiv, hmod'⟩
  · have hsucc : r + 1 = (r / c + 1) * c := by
      rw [Nat.add_mul, Nat.one_mul]
      omega
    refine Or.inr ⟨?_, ?_, by omega⟩
    · rw [hsucc, Nat.mul_div_cancel _ hc]
    · rw [hsucc, Nat.mul_mod_left]

/-- If the next logical sector is on the same disk, then it is the next sector of the disk. -/
theorem place_succ_snd (hn : 2 ≤ n) (hc : 0 < c) {r : ℕ}
    (h : (L.place c (r + 1)).1 = (L.place c r).1) :
    (L.place c (r + 1)).2 = (L.place c r).2 + 1 := by
  rw [place_fst, place_fst] at h
  obtain ⟨hdiv, hmod⟩ | ⟨hdiv, hmod, hlast⟩ := div_mod_succ hc r
  · rw [place, place, hdiv, hmod, Nat.add_assoc]
  · rw [hdiv] at h
    rw [place, place, hdiv, hmod, row_succ_of_chunkDisk hn h, Nat.add_mul]
    omega

/-- Logical sectors on one disk follow each other there without gaps. -/
theorem place_snd_of_same (hn : 2 ≤ n) (hc : 0 < c) {b e : ℕ}
    (h : ∀ s, b ≤ s → s < e → (L.place c s).1 = (L.place c b).1) {s : ℕ} (hb : b ≤ s)
    (he : s < e) : (L.place c s).2 = (L.place c b).2 + (s - b) := by
  induction s, hb using Nat.le_induction with
  | base => omega
  | succ s hb ih =>
    have hsame : (L.place c (s + 1)).1 = (L.place c s).1 :=
      (h (s + 1) (by omega) he).trans (h s hb (by omega)).symm
    have hprev := ih (by omega)
    rw [place_succ_snd hn hc hsame]
    omega

/-- **Where a run of consecutive logical sectors fits in one window of a disk**: the run is
no longer than the window, and at the block boundaries inside it the layout stays on the
disk. -/
theorem window_iff (hn : 2 ≤ n) (hc : 0 < c) {w : ℕ} (hw : 0 < w) (b e : ℕ) :
    (∀ s, b ≤ s → s < e → (L.place c s).1 = (L.place c b).1 ∧
      (L.place c b).2 ≤ (L.place c s).2 ∧ (L.place c s).2 < (L.place c b).2 + w) ↔
    e - b ≤ w ∧ ∀ m, b < m * c → m * c < e → L.chunkDisk m = L.chunkDisk (m - 1) := by
  constructor
  · intro h
    have hsame : ∀ s, b ≤ s → s < e → (L.place c s).1 = (L.place c b).1 :=
      fun s hb he => (h s hb he).1
    refine ⟨?_, fun m hb he => ?_⟩
    · by_contra hlen
      have hlast := place_snd_of_same hn hc hsame (s := b + w) (by omega) (by omega)
      have hlt := (h (b + w) (by omega) (by omega)).2.2
      omega
    · obtain ⟨k, rfl⟩ : ∃ k, m = k + 1 := Nat.exists_eq_succ_of_ne_zero fun h0 => by
        rw [h0, Nat.zero_mul] at hb
        omega
      have hmul : (k + 1) * c = k * c + c := Nat.succ_mul k c
      -- the last sector of the block before the boundary
      have hprev : (k * c + (c - 1)) / c = k := (mul_add_div_mod (by omega)).1
      have h1 := hsame ((k + 1) * c) hb.le he
      have h2 := hsame (k * c + (c - 1)) (by omega) (by omega)
      rw [place_fst, Nat.mul_div_cancel _ hc] at h1
      rw [place_fst, hprev] at h2
      exact h1.trans h2.symm
  · rintro ⟨hlen, hstay⟩
    have hsame : ∀ s, b ≤ s → s < e → (L.place c s).1 = (L.place c b).1 := by
      intro s hb he
      induction s, hb using Nat.le_induction with
      | base => rfl
      | succ s hb ih =>
        rw [← ih (by omega), place_fst, place_fst]
        obtain ⟨hdiv, -⟩ | ⟨hdiv, hmod, -⟩ := div_mod_succ hc s
        · rw [hdiv]
        · have hbound : (s / c + 1) * c = s + 1 := by
            rw [← hdiv]
            exact Nat.div_mul_cancel (Nat.dvd_of_mod_eq_zero hmod)
          rw [hdiv]
          exact hstay (s / c + 1) (by omega) (by omega)
    intro s hb he
    have hsnd := place_snd_of_same hn hc hsame hb he
    exact ⟨hsame s hb he, by omega, by omega⟩

/-! ### Windows of consecutive rows -/

/-- Every number below `n` is the remainder of exactly one of `n` consecutive numbers. -/
theorem bijOn_mod_window (k n : ℕ) : Set.BijOn (· % n) (Set.Ico k (k + n)) (Set.Iio n) := by
  have himage := congrArg (fun s : Finset ℕ => (s : Set ℕ)) (Nat.image_Ico_mod k n)
  simp only [Finset.coe_image, Finset.coe_Ico, Finset.coe_range] at himage
  have hinj := Nat.mod_injOn_Ico k n
  rw [Finset.coe_Ico] at hinj
  rw [← himage]
  exact hinj.bijOn_image

/-- Counting the numbers below `n` down instead of up. -/
theorem bijOn_reflect (n : ℕ) : Set.BijOn (n - 1 - ·) (Set.Iio n) (Set.Iio n) := by
  refine ⟨fun d hd => ?_, fun d hd e he h => ?_, fun d hd => ⟨n - 1 - d, ?_, ?_⟩⟩
  all_goals simp only [Set.mem_Iio] at *
  all_goals omega

end RowLayout
