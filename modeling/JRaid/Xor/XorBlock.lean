import JRaid.CInt
import JRaid.ForMathlib.SelfInverseFold
import Mathlib.Data.List.InsertIdx

/-!
# The XOR of blocks

`xor.c` offers `xor_block`, which combines up to `MAX_XOR_BLOCKS` blocks in the first of them, and
`calibrate_xor_block`, which selects the fastest of the routines of the platform for it. Nothing
checks the number of blocks: with more than five, the rest is passed over without notice.

A parity that is computed this way from the data of an array brings back a lost block exactly if
there are no more than four blocks of data, or the block that comes too late for the parity happens
to hold zeros (`rebuild_iff`). It does not matter which routine the calibration has selected.

The routines themselves are not part of the driver. What is used of them is that they do what they
are for (`XorBlockTemplate`).
-/

namespace JRaid

namespace Xor

/-- The data of a buffer of `m` words. -/
abbrev Block (m : ℕ) := Fin m → UInt64

variable {m : ℕ}

/-- The XOR of two blocks. -/
def Block.xor (p q : Block m) : Block m := fun k => p k ^^^ q k

theorem Block.xor_assoc (p q r : Block m) : (p.xor q).xor r = p.xor (q.xor r) :=
  funext fun _ => UInt64.xor_assoc ..

theorem Block.xor_comm (p q : Block m) : p.xor q = q.xor p := funext fun _ => UInt64.xor_comm ..

instance : Std.Associative (Block.xor (m := m)) := ⟨Block.xor_assoc⟩

instance : Std.Commutative (Block.xor (m := m)) := ⟨Block.xor_comm⟩

/-- A block of zeros. -/
def Block.zero : Block m := fun _ => 0

theorem Block.zero_xor (p : Block m) : Block.zero.xor p = p := funext fun _ => UInt64.zero_xor

theorem Block.xor_self (p : Block m) : p.xor p = Block.zero := funext fun _ => UInt64.xor_self

theorem Block.xor_xor_cancel (p q : Block m) : (p.xor q).xor q = p := by
  rw [Block.xor_assoc, Block.xor_self, Block.xor_comm, Block.zero_xor]

theorem Block.xor_eq_left_iff {p q : Block m} : p.xor q = p ↔ q = Block.zero := by
  constructor
  · intro h
    rw [← Block.xor_xor_cancel q p, Block.xor_comm q p, h, Block.xor_self]
  · rintro rfl
    rw [Block.xor_comm, Block.zero_xor]

/-! ### `xor_block` -/

/-- `struct xor_block_template`, for buffers of `m` words. A routine is given the number of bytes
and the blocks, and changes the first of them. -/
structure XorBlockTemplate (m : ℕ) where
  do2 : UInt64 → Block m → Block m → Block m
  do3 : UInt64 → Block m → Block m → Block m → Block m
  do4 : UInt64 → Block m → Block m → Block m → Block m → Block m
  do5 : UInt64 → Block m → Block m → Block m → Block m → Block m → Block m
  do2_eq : ∀ p0 p1, do2 (8 * UInt64.ofNat m) p0 p1 = p0.xor p1
  do3_eq : ∀ p0 p1 p2, do3 (8 * UInt64.ofNat m) p0 p1 p2 = (p0.xor p1).xor p2
  do4_eq : ∀ p0 p1 p2 p3, do4 (8 * UInt64.ofNat m) p0 p1 p2 p3 = ((p0.xor p1).xor p2).xor p3
  do5_eq : ∀ p0 p1 p2 p3 p4,
    do5 (8 * UInt64.ofNat m) p0 p1 p2 p3 p4 = (((p0.xor p1).xor p2).xor p3).xor p4

/-- `xor_block`: the buffers afterwards. `none` means that the array of buffers is too short. -/
def xorBlock (active : XorBlockTemplate m) (count : ℕ) (bh : List (Block m)) :
    Option (List (Block m)) := do
  let bytes := 8 * UInt64.ofNat m
  let p0 ← bh[0]?
  let p1 ← bh[1]?
  if count = 2 then some (bh.set 0 (active.do2 bytes p0 p1))
  else
    let p2 ← bh[2]?
    if count = 3 then some (bh.set 0 (active.do3 bytes p0 p1 p2))
    else
      let p3 ← bh[3]?
      if count = 4 then some (bh.set 0 (active.do4 bytes p0 p1 p2 p3))
      else
        let p4 ← bh[4]?
        some (bh.set 0 (active.do5 bytes p0 p1 p2 p3 p4))

/-! ### `calibrate_xor_block` -/

/-- `BENCH_SIZE`. -/
def benchSize : UInt64 := 4096 - 6 * 32

/-- A template of `template_list`, with its speed. -/
structure Candidate (m : ℕ) where
  template : XorBlockTemplate m
  speed : Int32

/-- `do_xor_speed`, for a template that does so many passes in each of the five rounds. -/
def doXorSpeed (hz : Int32) (templateList : List (Candidate m)) (tmpl : XorBlockTemplate m)
    (counts : Fin 5 → Int32) : List (Candidate m) :=
  let max := (List.finRange 5).foldl (fun max i => if max < counts i then counts i else max) 0
  ⟨tmpl, int32OfULong (ulong max * (ulong hz * benchSize / 1024))⟩ :: templateList

/-- The loop over the list. -/
def fastestOf : Candidate m → List (Candidate m) → Candidate m
  | fastest, [] => fastest
  | fastest, f :: rest => fastestOf (if fastest.speed < f.speed then f else fastest) rest

/-- What `calibrate_xor_block` finds on a platform. -/
structure XorEnv (m : ℕ) where
  /-- `HZ` -/
  hz : Int32
  /-- `md__get_free_pages` -/
  pages : Bool
  /-- `XOR_TRY_TEMPLATES`, and the passes that are counted -/
  tried : List (XorBlockTemplate m × (Fin 5 → Int32))
  /-- `XOR_SELECT_TEMPLATE`; the identity where that is not defined -/
  select : Candidate m → Candidate m

/-- `template_list`, after the templates have been tried. -/
def XorEnv.templateList (env : XorEnv m) : List (Candidate m) :=
  env.tried.foldl (fun l t => doXorSpeed env.hz l t.1 t.2) []

/-- `calibrate_xor_block`: the template that is active then. There is none without memory, nor on a
platform that does not try any. -/
def calibrateXorBlock (env : XorEnv m) : Option (Candidate m) :=
  if !env.pages then none
  else
    match env.templateList with
    | [] => none
    | f :: rest => some (env.select (fastestOf f (f :: rest)))

/-- **The calibration finds the fastest template.** -/
theorem fastestOf_spec (c : Candidate m) (l : List (Candidate m)) :
    (fastestOf c l = c ∨ fastestOf c l ∈ l) ∧ ¬ (fastestOf c l).speed < c.speed ∧
      ∀ f ∈ l, ¬ (fastestOf c l).speed < f.speed := by
  induction l generalizing c with
  | nil => exact ⟨Or.inl rfl, Int32.lt_irrefl, fun _ hf => absurd hf List.not_mem_nil⟩
  | cons f l ih =>
    rw [fastestOf]
    split
    · rename_i hlt
      obtain ⟨hmem, hge, hall⟩ := ih f
      have hle := Int32.not_lt.mp hge
      refine ⟨Or.inr (List.mem_cons.mpr hmem), ?_, fun g hg => ?_⟩
      · exact Int32.not_lt.mpr (Int32.le_trans (Int32.le_of_lt hlt) hle)
      · rcases List.mem_cons.mp hg with rfl | hg
        · exact hge
        · exact hall g hg
    · rename_i hnlt
      obtain ⟨hmem, hge, hall⟩ := ih c
      refine ⟨hmem.imp_right (List.mem_cons_of_mem f), hge, fun g hg => ?_⟩
      rcases List.mem_cons.mp hg with rfl | hg
      · exact Int32.not_lt.mpr (Int32.le_trans (Int32.not_lt.mp hnlt) (Int32.not_lt.mp hge))
      · exact hall g hg

/-! ### What is combined -/

/-- The number of blocks that `xor_block` looks at. -/
def blocksRead (count : ℕ) : ℕ := if 2 ≤ count ∧ count ≤ 4 then count else 5

/-- **What `xor_block` does.** -/
theorem xorBlock_cons (active : XorBlockTemplate m) (count : ℕ) (p : Block m)
    (bh : List (Block m)) : xorBlock active count (p :: bh) =
      if bh.length + 1 < blocksRead count then none
      else some ((bh.take (blocksRead count - 1)).foldl Block.xor p :: bh) := by
  obtain rfl | rfl | rfl | hrest : count = 2 ∨ count = 3 ∨ count = 4 ∨
      ¬ (2 ≤ count ∧ count ≤ 4) := by omega
  · match bh with
    | [] => rfl
    | q :: bh => simp [xorBlock, blocksRead, active.do2_eq]
  · match bh with
    | [] => rfl
    | [q] => rfl
    | q :: r :: bh => simp [xorBlock, blocksRead, active.do3_eq]
  · match bh with
    | [] => rfl
    | [q] => rfl
    | [q, r] => rfl
    | q :: r :: s :: bh => simp [xorBlock, blocksRead, active.do4_eq]
  · have hread : blocksRead count = 5 := if_neg hrest
    have hne : count ≠ 2 ∧ count ≠ 3 ∧ count ≠ 4 := by omega
    rw [hread]
    match bh with
    | [] => rfl
    | [q] => simp [xorBlock, hne]
    | [q, r] => simp [xorBlock, hne]
    | [q, r, s] => simp [xorBlock, hne]
    | q :: r :: s :: t :: bh => simp [xorBlock, hne, active.do5_eq]

/-! ### Parity -/

/-- The parity of blocks: `xor_block` on a block of zeros and the data. -/
def parity (active : XorBlockTemplate m) (data : List (Block m)) : Option (Block m) :=
  (xorBlock active (data.length + 1) (Block.zero :: data)).bind List.head?

/-- The block `t`, brought back by `xor_block` from the parity and the other blocks. -/
def rebuild (active : XorBlockTemplate m) (data : List (Block m)) (t : ℕ) : Option (Block m) :=
  (parity active data).bind fun P =>
    (xorBlock active data.length (P :: data.eraseIdx t)).bind List.head?

theorem parity_eq (active : XorBlockTemplate m) {data : List (Block m)} (h : data ≠ []) :
    parity active data = some ((data.take 4).foldl Block.xor Block.zero) := by
  have hlen := List.length_pos_iff.mpr h
  rw [parity, xorBlock_cons]
  by_cases hshort : data.length ≤ 3
  · have hread : blocksRead (data.length + 1) = data.length + 1 := if_pos ⟨by omega, by omega⟩
    rw [hread, if_neg (Nat.lt_irrefl _), Nat.add_sub_cancel, List.take_length,
      List.take_of_length_le (by omega)]
    rfl
  · have hread : blocksRead (data.length + 1) = 5 := if_neg (by omega)
    rw [hread, if_neg (by omega)]
    rfl

/-- What `xor_block` makes of the parity and the other blocks. -/
theorem rebuild_eq (active : XorBlockTemplate m) {data : List (Block m)} {t : ℕ}
    (ht : t < data.length) : rebuild active data t =
      if data.length = 1 then none
      else some (((data.eraseIdx t).take 4).foldl Block.xor
        ((data.take 4).foldl Block.xor Block.zero)) := by
  have hlen : (data.eraseIdx t).length = data.length - 1 := List.length_eraseIdx_of_lt ht
  have hne : data ≠ [] := List.ne_nil_of_length_pos (Nat.zero_lt_of_lt ht)
  rw [rebuild, parity_eq active hne, Option.bind_some, xorBlock_cons, hlen]
  by_cases hone : data.length = 1
  · rw [if_pos hone, hone]
    rfl
  rw [if_neg hone]
  by_cases hshort : data.length ≤ 4
  · have hread : blocksRead data.length = data.length := if_pos ⟨by omega, hshort⟩
    rw [hread, if_neg (by omega), List.take_of_length_le (l := data.eraseIdx t) (by omega),
      List.take_of_length_le (l := data.eraseIdx t) (by omega)]
    rfl
  · have hread : blocksRead data.length = 5 := if_neg (by omega)
    rw [hread, if_neg (by omega)]
    rfl

/-- **What comes back**: the lost block, combined with the first block that the parity has missed;
or nothing, if the lost block is one of those. -/
theorem rebuilt_eq {data : List (Block m)} {t : ℕ} {d : Block m} (ht : data[t]? = some d) :
    ((data.eraseIdx t).take 4).foldl Block.xor ((data.take 4).foldl Block.xor Block.zero) =
      if t < 4 then d.xor (data[4]?.getD Block.zero) else Block.zero := by
  have hfold : ∀ (P : Block m) (l : List (Block m)),
      l.foldl Block.xor P = P.xor (l.foldl Block.xor Block.zero) := fun P l => by
    have hfrom := SelfInverseFold.foldl_op Block.xor Block.zero P l
    rw [Block.zero_xor] at hfrom
    exact hfrom.trans (Block.xor_comm _ _)
  split
  · rename_i hlt
    have htake : (data.eraseIdx t).take 4 = (data.take 5).eraseIdx t :=
      List.ext_getElem? fun i => by grind
    have hfive : (data.take 5).foldl Block.xor Block.zero =
        ((data.take 4).foldl Block.xor Block.zero).xor (data[4]?.getD Block.zero) := by
      rw [List.take_add_one, List.foldl_append]
      cases data[4]? with
      | none => exact (Block.xor_eq_left_iff.mpr rfl).symm
      | some x => rfl
    have ht' : (data.take 5)[t]? = some d := by
      rw [List.getElem?_take_of_lt (by omega), ht]
    have hback := SelfInverseFold.op_foldl_eraseIdx Block.xor ht'
      ((data.take 4).foldl Block.xor Block.zero)
    -- with the lost block, everything cancels but what the parity has missed
    rw [hfold _ (data.take 5), hfive, ← Block.xor_assoc, Block.xor_self,
      Block.zero_xor] at hback
    rw [htake, ← hback, Block.xor_comm d, Block.xor_xor_cancel]
  · rename_i hge
    rw [List.take_eraseIdx_eq_take_of_le _ _ _ (Nat.le_of_not_lt hge), hfold, Block.xor_self]

/-- **When a lost block comes back**: there are two to four blocks, or the block that the parity has
missed first holds zeros, or the lost block does and comes after the fourth. -/
theorem rebuild_eq_some_iff (active : XorBlockTemplate m) {data : List (Block m)} {t : ℕ}
    {d : Block m} (ht : data[t]? = some d) :
    rebuild active data t = some d ↔ 2 ≤ data.length ∧
      (data.length ≤ 4 ∨ (t < 4 ∧ data[4]? = some Block.zero) ∨ (4 ≤ t ∧ d = Block.zero)) := by
  obtain ⟨hlt, -⟩ := List.getElem?_eq_some_iff.mp ht
  rw [rebuild_eq active hlt, rebuilt_eq ht]
  by_cases hone : data.length = 1
  · rw [if_pos hone]
    exact iff_of_false nofun fun h => by omega
  rw [if_neg hone, Option.some_inj, and_iff_right (show 2 ≤ data.length by omega)]
  split
  · rename_i hfirst
    rw [Block.xor_eq_left_iff]
    cases hmissed : data[4]? with
    | none =>
      exact iff_of_true rfl (Or.inl (List.getElem?_eq_none_iff.mp hmissed))
    | some x =>
      obtain ⟨hlong, -⟩ := List.getElem?_eq_some_iff.mp hmissed
      simp only [Option.getD_some, Option.some_inj]
      constructor
      · exact fun hx => Or.inr (Or.inl ⟨hfirst, hx⟩)
      · rintro (hshort | ⟨-, hx⟩ | ⟨hge, -⟩)
        · omega
        · exact hx
        · omega
  · rename_i hlast
    constructor
    · exact fun hd => Or.inr (Or.inr ⟨Nat.le_of_not_lt hlast, hd.symm⟩)
    · rintro (hshort | ⟨hfirst, -⟩ | ⟨-, hd⟩)
      · omega
      · exact absurd hfirst hlast
      · exact hd.symm

/-! ### After the calibration -/

/-- **The calibrated `xor_block`**: the active template is what the platform makes of the fastest
one in the list, and with it a lost block comes back exactly if the parity has missed nothing that
matters. -/
theorem rebuild_iff {env : XorEnv m} {active : Candidate m}
    (h : calibrateXorBlock env = some active) :
    (∃ fastest ∈ env.templateList, active = env.select fastest ∧
      ∀ c ∈ env.templateList, ¬ fastest.speed < c.speed) ∧
      ∀ (data : List (Block m)) (t : ℕ) (d : Block m), data[t]? = some d →
        (rebuild active.template data t = some d ↔ 2 ≤ data.length ∧
          (data.length ≤ 4 ∨ (t < 4 ∧ data[4]? = some Block.zero) ∨
            (4 ≤ t ∧ d = Block.zero))) := by
  refine ⟨?_, fun data t d ht => rebuild_eq_some_iff _ ht⟩
  unfold calibrateXorBlock at h
  split at h
  · cases h
  split at h
  · cases h
  rename_i f rest hlist
  obtain rfl := Option.some.inj h
  obtain ⟨hmem, -, hall⟩ := fastestOf_spec f (f :: rest)
  rw [hlist]
  refine ⟨fastestOf f (f :: rest), ?_, rfl, hall⟩
  rcases hmem with heq | hmem
  · rw [heq]
    exact List.mem_cons_self
  · exact hmem

/-- Routines that combine word by word. -/
def XorBlockTemplate.words : XorBlockTemplate m where
  do2 _ p0 p1 := p0.xor p1
  do3 _ p0 p1 p2 := (p0.xor p1).xor p2
  do4 _ p0 p1 p2 p3 := ((p0.xor p1).xor p2).xor p3
  do5 _ p0 p1 p2 p3 p4 := (((p0.xor p1).xor p2).xor p3).xor p4
  do2_eq _ _ := rfl
  do3_eq _ _ _ := rfl
  do4_eq _ _ _ _ := rfl
  do5_eq _ _ _ _ _ := rfl

/-- A platform that tries two routines, of which the first is the faster one. -/
def twoRoutines : XorEnv 1 :=
  ⟨100, true, [(.words, fun _ => 70), (.words, fun _ => 30)], id⟩

theorem rebuild_iff_two : ∃ active, calibrateXorBlock twoRoutines = some active ∧
    (∃ fastest ∈ twoRoutines.templateList, active = twoRoutines.select fastest ∧
      ∀ c ∈ twoRoutines.templateList, ¬ fastest.speed < c.speed) ∧
      ∀ (data : List (Block 1)) (t : ℕ) (d : Block 1), data[t]? = some d →
        (rebuild active.template data t = some d ↔ 2 ≤ data.length ∧
          (data.length ≤ 4 ∨ (t < 4 ∧ data[4]? = some Block.zero) ∨
            (4 ≤ t ∧ d = Block.zero))) := by
  obtain ⟨active, h⟩ : ∃ active, calibrateXorBlock twoRoutines = some active := ⟨_, rfl⟩
  exact ⟨active, h, rebuild_iff h⟩

end Xor

end JRaid
