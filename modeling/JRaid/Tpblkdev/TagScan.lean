import JRaid.ForMathlib.SortedFrom
import JRaid.Tpblkdev.Device
import Mathlib.Data.Nat.SuccPred

/-!
# Counting the tagged blocks

`find_tag_blks` counts the blocks that carry a tag. It fetches them in vectors of `BLKS_VEC_SIZE`
blocks and goes on behind the index of the last block of a vector, until nothing is found or the
index is past the end of the device.

A vector holds the next tagged blocks in the order of their indices, so what is left to be found is
always the tagged blocks from the index on (`Finset.sortedFrom`); the scan comes to each of them
once, wherever the vectors end (`findTagBlks_count`).
-/

namespace JRaid

namespace Tpblkdev

/-- `BLKS_VEC_SIZE`. -/
def blksVecSize : ℕ := 16

/-- The loop of `find_get_blks_tag` over the slots with the given indices, with the blocks found so
far. It holds the lock of the tree, so a slot is either empty or holds a block. -/
def fillBlks (T : TaggedTree ℕ IoBlk Tag) (nrPages : ℕ) : List ℕ → List IoBlk → List IoBlk
  | [], blks => blks
  | i :: rest, blks =>
    match T.item i with
    | none => fillBlks T nrPages rest blks
    | some blk =>
      let blks := blks ++ [blk]
      if blks.length = nrPages then blks else fillBlks T nrPages rest blks

/-- `find_get_blks_tag`: the blocks, and the new value of `*index`. The iteration over the tagged
slots runs over their indices in increasing order. -/
def findGetBlksTag (ddev : DummyDevice) (index : ℕ) (tag : Tag) (nrPages : ℕ) : List IoBlk × ℕ :=
  let blks := fillBlks ddev.devPages nrPages ((ddev.devPages.tagged tag).sortedFrom index) []
  (blks, match blks.getLast? with
    | none => index
    | some blk => (blk.index + 1) % 2 ^ 64)

/-- The loop of `find_tag_blks`: `cnt`, and the blocks that it has been increased for. `none` means
that the passes do not suffice. -/
def findTagLoop (ddev : DummyDevice) (tag : Tag) (endIdx : ℕ) :
    ℕ → ℕ → Int32 → List IoBlk → Option (Int32 × List IoBlk)
  | 0, _, _, _ => none
  | fuel + 1, index, cnt, found =>
    if index ≤ endIdx then
      let r := findGetBlksTag ddev index tag blksVecSize
      if 0 < r.1.length then
        findTagLoop ddev tag endIdx fuel r.2 (cnt + Int32.ofNat r.1.length) (found ++ r.1)
      else some (cnt, found)
    else some (cnt, found)

/-- What `find_tag_blks` prints: texts and numbers. -/
def tagReport (ddev : DummyDevice) (tag : Tag) (cnt : Int32) : List (String × UInt32) :=
  match tag with
  | .dirty => [("find dirty blks: ", cnt.toUInt32),
      ("dirty blks cnt = ", ddev.dirtyBlks.toUInt32),
      ("dirty write cnt = ", ddev.writeBlks.toUInt32),
      ("dirty read cnt = ", ddev.readBlks.toUInt32)]
  | .tsync => [("find tsync blks: ", cnt.toUInt32),
      ("tsync blks cnt = ", ddev.tsyncBlks.toUInt32),
      ("tsync write cnt = ", ddev.writeBlks.toUInt32),
      ("tsync read cnt = ", ddev.readBlks.toUInt32)]

/-- What a call of `find_tag_blks` has found out. -/
structure TagCount where
  cnt : Int32
  found : List IoBlk
  printed : List (String × UInt32)

/-- `find_tag_blks` for a device of `size` sectors. -/
def findTagBlks (ddev : DummyDevice) (size : UInt64) (tag : Tag) (fuel : ℕ) : Option TagCount :=
  (findTagLoop ddev tag (blkIndex size) fuel 0 0 []).map fun r =>
    ⟨r.1, r.2, tagReport ddev tag r.1⟩

/-- `SIMP_BLKDEV_BYTES >> 9`, the size that `radix_block_init` gives the device. -/
def simpBlkdevSize : UInt64 := 2097152

/-! ### One vector -/

variable {ddev : DummyDevice} {tag : Tag}

/-- **What a vector holds**: the next blocks, as many as fit in. -/
theorem map_index_fillBlks {T : TaggedTree ℕ IoBlk Tag} {nrPages : ℕ} {l : List ℕ}
    {blks : List IoBlk} (hl : ∀ i ∈ l, ∃ blk, T.item i = some blk ∧ blk.index = i)
    (hroom : blks.length < nrPages) :
    (fillBlks T nrPages l blks).map IoBlk.index =
      blks.map IoBlk.index ++ l.take (nrPages - blks.length) := by
  induction l generalizing blks with
  | nil => rw [fillBlks, List.take_nil, List.append_nil]
  | cons i l ih =>
    obtain ⟨blk, hitem, hindex⟩ := hl i List.mem_cons_self
    have hrest : nrPages - blks.length = nrPages - (blks ++ [blk]).length + 1 := by
      rw [List.length_append, List.length_singleton]
      omega
    rw [fillBlks, hitem, hrest, List.take_succ_cons]
    dsimp only
    split_ifs with hfull
    · rw [hfull, Nat.sub_self, List.take_zero, List.map_append, List.map_singleton, hindex]
    · rw [ih (fun j hj => hl j (List.mem_cons_of_mem i hj)), List.map_append, List.map_singleton,
        hindex, List.append_assoc, List.singleton_append]
      rw [List.length_append, List.length_singleton] at hfull ⊢
      omega

/-- **What `find_get_blks_tag` does**: it returns the next blocks, and the walk goes on with the
others. -/
theorem findGetBlksTag_spec (h : ddev.Indexed) (hlt : ∀ i ∈ ddev.devPages.keys, i + 1 < 2 ^ 64)
    (tag : Tag) (index : ℕ) :
    let l := (ddev.devPages.tagged tag).sortedFrom index
    let r := findGetBlksTag ddev index tag blksVecSize
    r.1.map IoBlk.index = l.take blksVecSize ∧
      l.drop blksVecSize = (ddev.devPages.tagged tag).sortedFrom r.2 := by
  intro l r
  have hkeys : ∀ i ∈ l, i ∈ ddev.devPages.keys := fun i hi =>
    ddev.devPages.tagged_subset tag (Finset.mem_sortedFrom.mp hi).1
  have hitems : ∀ i ∈ l, ∃ blk, ddev.devPages.item i = some blk ∧ blk.index = i := fun i hi =>
    have ⟨blk, hblk⟩ := TaggedTree.exists_item (hkeys i hi)
    ⟨blk, hblk, h i blk hblk⟩
  have hroom : ([] : List IoBlk).length < blksVecSize := by decide
  have hblks : r.1.map IoBlk.index = l.take blksVecSize := map_index_fillBlks hitems hroom
  refine ⟨hblks, ?_⟩
  have hnext : r.2 = match r.1.getLast? with
    | none => index
    | some blk => (blk.index + 1) % 2 ^ 64 := rfl
  rw [hnext]
  rcases List.eq_nil_or_concat' r.1 with hnil | ⟨init, blk, hconcat⟩
  · -- nothing has been found, and nothing is left
    have hl : l = [] := by
      rw [hnil, List.map_nil] at hblks
      exact (List.take_eq_nil_iff.mp hblks.symm).resolve_left (by decide)
    rw [hnil, List.getLast?_nil, hl, List.drop_nil]
    exact hl.symm
  · rw [hconcat, List.map_append, List.map_singleton] at hblks
    have hsplit : l = init.map IoBlk.index ++ blk.index :: l.drop blksVecSize := by
      rw [List.append_cons, hblks, List.take_append_drop]
    have hmem : blk.index ∈ l := by
      rw [hsplit]
      exact List.mem_append_right _ List.mem_cons_self
    rw [hconcat, List.getLast?_concat]
    dsimp only
    rw [Nat.mod_eq_of_lt (hlt _ (hkeys _ hmem))]
    exact Finset.sortedFrom_split hsplit

/-! ### The scan -/

/-- The scan from an index on. -/
theorem findTagLoop_eq (h : ddev.Indexed) (hlt : ∀ i ∈ ddev.devPages.keys, i + 1 < 2 ^ 64)
    {endIdx : ℕ} (hend : ∀ i ∈ ddev.devPages.keys, i ≤ endIdx) {fuel index : ℕ}
    (hfuel : ((ddev.devPages.tagged tag).sortedFrom index).length < fuel) (cnt : Int32)
    (found : List IoBlk) :
    ∃ blks, findTagLoop ddev tag endIdx fuel index cnt found =
        some (cnt + Int32.ofNat blks.length, found ++ blks) ∧
      blks.map IoBlk.index = (ddev.devPages.tagged tag).sortedFrom index := by
  induction fuel generalizing index cnt found with
  | zero => exact absurd hfuel (Nat.not_lt_zero _)
  | succ fuel ih =>
    obtain ⟨hblks, hrest⟩ := findGetBlksTag_spec h hlt tag index
    have hstop : (ddev.devPages.tagged tag).sortedFrom index = [] →
        ∃ blks, some (cnt, found) = some (cnt + Int32.ofNat blks.length, found ++ blks) ∧
          blks.map IoBlk.index = (ddev.devPages.tagged tag).sortedFrom index := fun hnil =>
      ⟨[], by simp, hnil.symm⟩
    rw [findTagLoop]
    dsimp only
    split_ifs with hindex hsome
    · set r := findGetBlksTag ddev index tag blksVecSize
      have hlength := congrArg List.length hrest
      have htake := congrArg List.length hblks
      rw [List.length_drop] at hlength
      rw [List.length_map, List.length_take] at htake
      have hsize : 0 < blksVecSize := by decide
      have hless : ((ddev.devPages.tagged tag).sortedFrom r.2).length < fuel := by omega
      obtain ⟨blks, hrun, hmap⟩ := ih hless (cnt + Int32.ofNat r.1.length) (found ++ r.1)
      refine ⟨r.1 ++ blks, ?_, ?_⟩
      · rw [hrun, List.length_append, Int32.ofNat_add, List.append_assoc, Int32.add_assoc]
      · rw [List.map_append, hblks, hmap, ← hrest, List.take_append_drop]
    · have hnil := List.length_eq_zero_iff.mp (Nat.eq_zero_of_not_pos hsome)
      rw [hnil, List.map_nil] at hblks
      exact hstop ((List.take_eq_nil_iff.mp hblks.symm).resolve_left (by decide))
    · -- the index is past the end of the device
      refine hstop (List.eq_nil_iff_forall_not_mem.mpr fun i hi => hindex ?_)
      obtain ⟨hi, hle⟩ := Finset.mem_sortedFrom.mp hi
      exact hle.trans (hend i (ddev.devPages.tagged_subset tag hi))

/-- **The scan is complete**: on a tree whose indices lie within the device, `find_tag_blks` ends,
and has come to each block that carries the tag once; `cnt` is their number. -/
theorem findTagBlks_count (h : ddev.Indexed) {size : UInt64}
    (hend : ∀ i ∈ ddev.devPages.keys, i ≤ blkIndex size) (tag : Tag) {fuel : ℕ}
    (hfuel : (ddev.devPages.tagged tag).card < fuel) :
    ∃ r, findTagBlks ddev size tag fuel = some r ∧
      r.found.map IoBlk.index = (ddev.devPages.tagged tag).sortedFrom 0 ∧
      r.cnt = Int32.ofNat (ddev.devPages.tagged tag).card ∧
      r.printed = tagReport ddev tag r.cnt ∧
      (blkIndex size + 1 < 2 ^ 31 → r.cnt.toInt = (ddev.devPages.tagged tag).card) := by
  have hlength : ((ddev.devPages.tagged tag).sortedFrom 0).length =
      (ddev.devPages.tagged tag).card :=
    Finset.length_sortedFrom fun i _ => Nat.zero_le i
  have hlt : ∀ i ∈ ddev.devPages.keys, i + 1 < 2 ^ 64 := fun i hi => by
    have := hend i hi
    have := blkIndex_lt size
    omega
  obtain ⟨blks, hrun, hmap⟩ := findTagLoop_eq h hlt hend (hlength.trans_lt hfuel) 0 []
  have hcard : blks.length = (ddev.devPages.tagged tag).card := by
    rw [← hlength, ← hmap, List.length_map]
  rw [Int32.zero_add, List.nil_append, hcard] at hrun
  refine ⟨_, by rw [findTagBlks, hrun]; rfl, hmap, rfl, rfl, fun hsize => ?_⟩
  refine Int32.toInt_ofNat_of_lt ?_
  have hsub : ddev.devPages.tagged tag ⊆ Finset.range (blkIndex size + 1) := fun i hi =>
    Finset.mem_range.mpr (Nat.lt_succ_of_le (hend i (ddev.devPages.tagged_subset tag hi)))
  exact (Finset.card_le_card hsub).trans_lt (by rwa [Finset.card_range])

/-- A device after writes to some blocks. -/
def dirtyAt (l : List ℕ) : DummyDevice :=
  l.foldl (fun ddev i => (((ddev.devInsertPage .zero (.ofNat (8 * i))).2).setBlkDirty
    ⟨i, fun _ => 0⟩).2) .init

theorem built_dirtyAt (l : List ℕ) : Built (dirtyAt l) := by
  induction l using List.reverseRecOn with
  | nil => exact .init
  | append_singleton l i ih =>
    rw [dirtyAt, List.foldl_concat]
    exact (ih.devInsertPage .zero _).setBlkDirty _

/-- Twenty blocks, which come in two vectors. -/
theorem findTagBlks_count_twenty :
    ∃ r, findTagBlks (dirtyAt (List.range 20)) simpBlkdevSize .dirty 21 = some r ∧
      r.found.map IoBlk.index = ((dirtyAt (List.range 20)).devPages.tagged .dirty).sortedFrom 0 ∧
        r.cnt.toInt = 20 := by
  have hend : ∀ i ∈ (dirtyAt (List.range 20)).devPages.keys, i ≤ blkIndex simpBlkdevSize := by
    decide +kernel
  have hcard : ((dirtyAt (List.range 20)).devPages.tagged .dirty).card = 20 := by decide +kernel
  obtain ⟨r, hrun, hfound, -, -, hcnt⟩ := findTagBlks_count (built_dirtyAt _).indexed hend .dirty
    (show ((dirtyAt (List.range 20)).devPages.tagged .dirty).card < 21 by omega)
  exact ⟨r, hrun, hfound, by rw [hcnt (by decide), hcard]; rfl⟩

end Tpblkdev

end JRaid
