import JRaid.ForMathlib.Ledger
import JRaid.ForMathlib.SortedFrom
import JRaid.Tpblkdev.TagScan

/-!
# Freeing all blocks

`free_all_blks` looks up the blocks of the tree in vectors of up to `BLKS_VEC_SIZE`, and takes each
out and frees it with its page. The next vector begins behind the index of the last block. Since a
vector holds the next blocks in the order of their indices, what it leaves in the tree lies behind
them; so nothing is passed over, and the loop ends when the tree is empty (`freeAllBlks_spec`).
-/

namespace JRaid

namespace Tpblkdev

open Ledger

/-- `radix_tree_gang_lookup`: the next items of a tree from an index on, in the order of their
indices. It returns up to the requested number of items, and at least one if there is any. -/
structure GangLookup where
  lookup : TaggedTree ℕ IoBlk Tag → ℕ → ℕ → List IoBlk
  finds : ∀ T first maxItems, ∃ l₁ l₂, T.keys.sortedFrom first = l₁ ++ l₂ ∧
    (lookup T first maxItems).map some = l₁.map T.item ∧ l₁.length ≤ maxItems ∧
      (l₁ = [] → 0 < maxItems → l₂ = [])

instance : DecidableEq IoBlk := fun a b =>
  decidable_of_iff (a.index = b.index ∧ a.page = b.page) (IoBlk.mk.injEq ..).symm.to_iff

/-- A block, or its page. -/
inductive BlkResource where
  | page (blk : IoBlk)
  | blk (blk : IoBlk)

/-- What a tree holds: its blocks and their pages. -/
def holdings (T : TaggedTree ℕ IoBlk Tag) : Set BlkResource :=
  {r | ∃ i blk, T.item i = some blk ∧ (r = .page blk ∨ r = .blk blk)}

/-- The variables of `free_all_blks`, what it has freed, and how often it has reported that the tree
does not hold what the lookup has found. -/
structure FreeState where
  devPages : TaggedTree ℕ IoBlk Tag
  pos : ℕ
  blkCnt : Int32
  freed : List (Entry BlkResource)
  errs : ℕ

/-- The assertion `BUG_ON(blks[i]->index < pos)` fails. -/
structure BugOn where

/-- The loop over the blocks of a vector. -/
def freeVec : List IoBlk → FreeState → Except BugOn FreeState
  | [], s => .ok s
  | blk :: rest, s =>
    if blk.index < s.pos then .error ⟨⟩
    else
      let pos := blk.index
      let r := s.devPages.delete pos
      freeVec rest { s with
        devPages := r.2
        pos := pos
        errs := if r.1 = some blk then s.errs else s.errs + 1
        freed := s.freed ++ [.release (.page blk), .release (.blk blk)] }

/-- The loop of `free_all_blks`. `none` means that the passes do not suffice. -/
def freeLoop (g : GangLookup) : ℕ → FreeState → Option (Except BugOn FreeState)
  | 0, _ => none
  | fuel + 1, s =>
    let blks := g.lookup s.devPages s.pos blksVecSize
    if blks.length = 0 then some (.ok s)
    else
      match freeVec blks s with
      | .error e => some (.error e)
      | .ok s => freeLoop g fuel { s with
          pos := (s.pos + 1) % 2 ^ 64
          blkCnt := s.blkCnt + Int32.ofNat blks.length }

/-- `free_all_blks`. -/
def freeAllBlks (g : GangLookup) (ddev : DummyDevice) (fuel : ℕ) :
    Option (Except BugOn FreeState) :=
  freeLoop g fuel ⟨ddev.devPages, 0, 0, [], 0⟩

/-! ### One vector -/

variable {s : FreeState} {blks : List IoBlk}

/-- What is to be freed for a list of blocks. -/
def resources (blks : List IoBlk) : List BlkResource :=
  blks.flatMap fun blk => [.page blk, .blk blk]

/-- The variables after the loop over a vector. -/
def FreeState.freeAll (s : FreeState) (blks : List IoBlk) : FreeState :=
  { s with
    devPages := s.devPages.deleteAll (blks.map IoBlk.index)
    pos := (blks.map IoBlk.index).getLastD s.pos
    freed := s.freed ++ (resources blks).map .release }

/-- **What the loop over a vector does**: it frees the blocks, if the tree holds them and they come
in the order of their indices. -/
theorem freeVec_eq (hsorted : (blks.map IoBlk.index).Pairwise (· < ·))
    (hpos : ∀ blk ∈ blks, s.pos ≤ blk.index)
    (hitem : ∀ blk ∈ blks, s.devPages.item blk.index = some blk) :
    freeVec blks s = .ok (s.freeAll blks) := by
  induction blks generalizing s with
  | nil => simp [freeVec, FreeState.freeAll, resources, TaggedTree.deleteAll]
  | cons blk rest ih =>
    obtain ⟨hfirst, hrest⟩ := List.pairwise_cons.mp hsorted
    have hlt : ∀ blk' ∈ rest, blk.index < blk'.index := fun blk' hb =>
      hfirst _ (List.mem_map_of_mem hb)
    rw [freeVec, if_neg (Nat.not_lt.mpr (hpos blk List.mem_cons_self))]
    have hdelete : (s.devPages.delete blk.index).1 = some blk := hitem blk List.mem_cons_self
    dsimp only
    rw [if_pos hdelete, ih hrest (fun blk' hb => (hlt blk' hb).le) fun blk' hb => ?_]
    · simp only [FreeState.freeAll, resources, TaggedTree.deleteAll, List.map_cons,
        List.getLastD_cons, List.foldl_cons, List.flatMap_cons, List.map_append,
        List.append_assoc]
      rfl
    · exact (Function.update_of_ne (hlt blk' hb).ne' ..).trans
        (hitem blk' (List.mem_cons_of_mem blk hb))

/-! ### What a vector holds -/

theorem mem_resources {r : BlkResource} :
    r ∈ resources blks ↔ ∃ blk ∈ blks, r = .page blk ∨ r = .blk blk := by
  simp only [resources, List.mem_flatMap, List.mem_cons, List.not_mem_nil, or_false]

/-- Blocks that differ are freed one by one. -/
theorem nodup_resources (h : blks.Nodup) : (resources blks).Nodup := by
  refine List.nodup_flatMap.mpr ⟨fun blk _ => ?_, h.imp fun hne => ?_⟩
  · simp
  · simp [Function.onFun, hne.symm]

variable {T : TaggedTree ℕ IoBlk Tag}

/-- The items at a list of indices are blocks with these indices. -/
theorem map_index_of_items (h : ∀ i blk, T.item i = some blk → blk.index = i) {l : List ℕ}
    (hl : blks.map some = l.map T.item) :
    blks.map IoBlk.index = l ∧ ∀ blk ∈ blks, T.item blk.index = some blk := by
  induction blks generalizing l with
  | nil =>
    obtain rfl : l = [] := List.map_eq_nil_iff.mp hl.symm
    exact ⟨rfl, fun _ hblk => by cases hblk⟩
  | cons blk rest ih =>
    obtain ⟨i, l, rfl, hi, hl⟩ := List.map_eq_cons_iff.mp hl.symm
    obtain ⟨hmap, hitem⟩ := ih hl.symm
    have hindex := h i blk hi
    refine ⟨by rw [List.map_cons, hindex, hmap], fun blk' hblk' => ?_⟩
    rcases List.mem_cons.mp hblk' with rfl | hblk'
    · rwa [hindex]
    · exact hitem blk' hblk'

/-- What is left once blocks of the tree have been taken out. -/
theorem holdings_deleteAll (h : ∀ i blk, T.item i = some blk → blk.index = i)
    (hitem : ∀ blk ∈ blks, T.item blk.index = some blk) :
    holdings (T.deleteAll (blks.map IoBlk.index)) =
      holdings T \ {r | r ∈ resources blks} := by
  have hout : ∀ i blk, T.item i = some blk → (i ∈ blks.map IoBlk.index ↔ blk ∈ blks) := by
    intro i blk hi
    constructor
    · intro hmem
      obtain ⟨blk', hblk', rfl⟩ := List.mem_map.mp hmem
      rwa [Option.some.inj (hi.symm.trans (hitem blk' hblk'))]
    · intro hmem
      exact h i blk hi ▸ List.mem_map_of_mem hmem
  ext r
  simp only [holdings, TaggedTree.item_deleteAll, Set.mem_sdiff, Set.mem_ofPred_eq, mem_resources]
  constructor
  · rintro ⟨i, blk, hi, hr⟩
    split_ifs at hi with hmem
    refine ⟨⟨i, blk, hi, hr⟩, ?_⟩
    rintro ⟨blk', hblk', hr'⟩
    have hsame : blk' = blk := by
      rcases hr with rfl | rfl <;> simpa [eq_comm] using hr'
    exact hmem ((hout i blk hi).mpr (hsame ▸ hblk'))
  · rintro ⟨⟨i, blk, hi, hr⟩, hnot⟩
    refine ⟨i, blk, ?_, hr⟩
    rw [if_neg fun hmem => hnot ⟨blk, (hout i blk hi).mp hmem, hr⟩]
    exact hi

/-! ### The loop -/

/-- What holds before a pass: the tree is well formed, and it lies behind the place that the loop
has come to. -/
structure Behind (s : FreeState) : Prop where
  indexed : ∀ i blk, s.devPages.item i = some blk → blk.index = i
  behind : ∀ i ∈ s.devPages.keys, s.pos ≤ i
  lt : ∀ i ∈ s.devPages.keys, i + 1 < 2 ^ 64

/-- The variables after a pass that has found the blocks. -/
def FreeState.pass (s : FreeState) (blks : List IoBlk) : FreeState :=
  { s.freeAll blks with
    pos := ((s.freeAll blks).pos + 1) % 2 ^ 64
    blkCnt := s.blkCnt + Int32.ofNat blks.length }

/-- **What a lookup finds**: the next blocks of the tree. -/
theorem lookup_spec (g : GangLookup) (h : Behind s) :
    let blks := g.lookup s.devPages s.pos blksVecSize
    (∀ blk ∈ blks, s.devPages.item blk.index = some blk) ∧
      (∃ l₂, s.devPages.keys.sortedFrom s.pos = blks.map IoBlk.index ++ l₂) ∧
      (blks = [] → s.devPages.keys = ∅) := by
  intro blks
  obtain ⟨l₁, l₂, hsplit, hlookup, -, hsome⟩ := g.finds s.devPages s.pos blksVecSize
  obtain ⟨hmap, hitem⟩ := map_index_of_items h.indexed hlookup
  refine ⟨hitem, ⟨l₂, by rw [hsplit, hmap]⟩, fun hnil => ?_⟩
  have hl₁ : l₁ = [] := by
    rw [← hmap]
    exact List.map_eq_nil_iff.mpr hnil
  have hnothing : s.devPages.keys.sortedFrom s.pos = [] := by
    rw [hsplit, hl₁, hsome hl₁ (by decide), List.nil_append]
  rw [← Finset.card_eq_zero, ← Finset.length_sortedFrom h.behind, hnothing, List.length_nil]

section

variable {l₂ : List ℕ}
  (hsplit : s.devPages.keys.sortedFrom s.pos = blks.map IoBlk.index ++ l₂)

include hsplit

/-- The indices of the blocks that have been found increase. -/
theorem pairwise_index : (blks.map IoBlk.index).Pairwise (· < ·) :=
  (List.pairwise_append.mp (hsplit ▸ Finset.pairwise_sortedFrom ..)).1

theorem nodup_index : (blks.map IoBlk.index).Nodup := (pairwise_index hsplit).imp LT.lt.ne

/-- They are indices of the tree from the place on. -/
theorem index_mem {blk : IoBlk} (hblk : blk ∈ blks) :
    blk.index ∈ s.devPages.keys ∧ s.pos ≤ blk.index := by
  have hindex : blk.index ∈ blks.map IoBlk.index := List.mem_map_of_mem hblk
  exact Finset.mem_sortedFrom.mp (hsplit ▸ List.mem_append_left l₂ hindex)

/-- The tree gets smaller by the blocks. -/
theorem card_pass :
    (s.pass blks).devPages.keys.card + blks.length = s.devPages.keys.card := by
  have hsub : (blks.map IoBlk.index).toFinset ⊆ s.devPages.keys := fun i hi => by
    obtain ⟨blk, hblk, rfl⟩ := List.mem_map.mp (List.mem_toFinset.mp hi)
    exact (index_mem hsplit hblk).1
  have hcard : (blks.map IoBlk.index).toFinset.card = blks.length := by
    rw [List.toFinset_card_of_nodup (nodup_index hsplit), List.length_map]
  have hdiff := Finset.card_sdiff_add_card_eq_card hsub
  rw [hcard, ← TaggedTree.keys_deleteAll] at hdiff
  exact hdiff

/-- What is left lies behind the last of the blocks. -/
theorem Behind.pass (h : Behind s) (hne : blks ≠ []) : Behind (s.pass blks) := by
  have hkeys : (s.pass blks).devPages.keys =
      s.devPages.keys \ (blks.map IoBlk.index).toFinset := TaggedTree.keys_deleteAll ..
  refine ⟨fun i blk hi => ?_, fun i hi => ?_, fun i hi => ?_⟩
  · have hi : (s.devPages.deleteAll (blks.map IoBlk.index)).item i = some blk := hi
    rw [TaggedTree.item_deleteAll] at hi
    split_ifs at hi
    exact h.indexed i blk hi
  · obtain ⟨init, blk, rfl⟩ := (List.eq_nil_or_concat' blks).resolve_left hne
    rw [hkeys, Finset.mem_sdiff, List.mem_toFinset] at hi
    obtain ⟨hi, hnew⟩ := hi
    have hpos : (s.pass (init ++ [blk])).pos = blk.index + 1 := by
      have hblk := (index_mem hsplit (List.mem_append_right init List.mem_cons_self)).1
      simp only [FreeState.pass, FreeState.freeAll, List.map_append, List.map_singleton,
        List.getLastD_concat]
      exact Nat.mod_eq_of_lt (h.lt blk.index hblk)
    rw [List.map_append, List.map_singleton] at hnew hsplit
    rw [List.append_assoc, List.singleton_append] at hsplit
    rw [hpos]
    exact Finset.add_one_le_of_sortedFrom hsplit hi (h.behind i hi) hnew
  · rw [hkeys] at hi
    exact h.lt i (Finset.mem_sdiff.mp hi).1

/-- The blocks and their pages are freed, and nothing else. -/
theorem leads_pass (h : Behind s) (hitem : ∀ blk ∈ blks, s.devPages.item blk.index = some blk) :
    Leads (holdings s.devPages) ((resources blks).map .release)
      (holdings (s.pass blks).devPages) := by
  have hheld : ∀ r ∈ resources blks, r ∈ holdings s.devPages := fun r hr => by
    obtain ⟨blk, hblk, hr⟩ := mem_resources.mp hr
    exact ⟨blk.index, blk, hitem blk hblk, hr⟩
  have hnodup : blks.Nodup := List.Nodup.of_map IoBlk.index (nodup_index hsplit)
  have hleads := Leads.releases (nodup_resources hnodup) hheld
  rw [← holdings_deleteAll h.indexed hitem] at hleads
  exact hleads

end

/-- The loop from a place on. -/
theorem freeLoop_spec (g : GangLookup) {fuel : ℕ} (h : Behind s)
    (hfuel : s.devPages.keys.card < fuel) :
    ∃ s' blks, freeLoop g fuel s = some (.ok s') ∧ s'.devPages = .empty ∧
      s'.freed = s.freed ++ (resources blks).map .release ∧
      Leads (holdings s.devPages) ((resources blks).map .release) ∅ ∧
      blks.length = s.devPages.keys.card ∧
      s'.blkCnt = s.blkCnt + Int32.ofNat blks.length ∧ s'.errs = s.errs := by
  induction fuel generalizing s with
  | zero => exact absurd hfuel (Nat.not_lt_zero _)
  | succ fuel ih =>
    obtain ⟨hitem, ⟨l₂, hsplit⟩, hempty⟩ := lookup_spec g h
    rw [freeLoop]
    set blks := g.lookup s.devPages s.pos blksVecSize
    split_ifs with hnil
    · have hkeys := hempty (List.length_eq_zero_iff.mp hnil)
      have hT := TaggedTree.eq_empty_of_keys hkeys
      have hnone : holdings s.devPages = ∅ := by
        rw [hT]
        exact Set.eq_empty_iff_forall_notMem.mpr fun _ ⟨_, _, hi, _⟩ => by cases hi
      exact ⟨s, [], rfl, hT, (List.append_nil _).symm, hnone ▸ Leads.nil _,
        (Finset.card_eq_zero.mpr hkeys).symm, (Int32.add_zero _).symm, rfl⟩
    · have hne : blks ≠ [] := fun hne => hnil (List.length_eq_zero_iff.mpr hne)
      have hvec : freeVec blks s = .ok (s.freeAll blks) :=
        freeVec_eq (pairwise_index hsplit) (fun blk hblk => (index_mem hsplit hblk).2) hitem
      have hcard := card_pass hsplit
      have hlen : 0 < blks.length := List.length_pos_iff.mpr hne
      obtain ⟨s', rest, hrun, hdone, hfreed, hrest, hlength, hcnt, herrs⟩ :=
        ih (h.pass hsplit hne) (by omega)
      have happend : (resources (blks ++ rest)).map Entry.release =
          (resources blks).map .release ++ (resources rest).map .release := by
        rw [resources, List.flatMap_append, List.map_append]
        rfl
      rw [hvec]
      refine ⟨s', blks ++ rest, hrun, hdone, ?_, ?_, ?_, ?_, herrs⟩
      · rw [hfreed, happend, ← List.append_assoc]
        rfl
      · rw [happend]
        exact (leads_pass hsplit h hitem).append hrest
      · rw [List.length_append, hlength]
        omega
      · rw [hcnt, List.length_append, Int32.ofNat_add, ← Int32.add_assoc]
        rfl

/-- **Freeing all blocks**: on a tree that `dev_insert_page` has built, `free_all_blks` ends without
an assertion that fails. The tree is empty then, and every block and every page has been freed once;
`blk_cnt` is the number of the blocks. -/
theorem freeAllBlks_spec (g : GangLookup) {ddev : DummyDevice} (h : Built ddev) {fuel : ℕ}
    (hfuel : ddev.devPages.keys.card < fuel) :
    ∃ s' blks, freeAllBlks g ddev fuel = some (.ok s') ∧ s'.devPages = .empty ∧
      s'.freed = (resources blks).map .release ∧ Leads (holdings ddev.devPages) s'.freed ∅ ∧
      blks.length = ddev.devPages.keys.card ∧ s'.blkCnt = Int32.ofNat blks.length ∧
      (blks.length < 2 ^ 31 → s'.blkCnt.toInt = blks.length) ∧ s'.errs = 0 := by
  have hbehind : Behind ⟨ddev.devPages, 0, 0, [], 0⟩ := by
    refine ⟨h.indexed, fun i _ => Nat.zero_le i, fun i hi => ?_⟩
    obtain ⟨sector, rfl⟩ := h.sector i hi
    have := blkIndex_lt sector
    omega
  obtain ⟨s', blks, hrun, hdone, hfreed, hleads, hlength, hcnt, herrs⟩ :=
    freeLoop_spec g hbehind hfuel
  rw [List.nil_append] at hfreed
  rw [Int32.zero_add] at hcnt
  refine ⟨s', blks, hrun, hdone, hfreed, hfreed ▸ hleads, hlength, hcnt, fun hlt => ?_, herrs⟩
  rw [hcnt]
  exact Int32.toInt_ofNat_of_lt hlt

/-- A lookup that returns as many items as it may. -/
def GangLookup.upToMax : GangLookup where
  lookup T first maxItems := ((T.keys.sortedFrom first).take maxItems).filterMap T.item
  finds T first maxItems := by
    refine ⟨_, _, (List.take_append_drop maxItems _).symm, ?_, List.length_take_le .., ?_⟩
    · rw [List.map_filterMap_some_eq_filter_map_isSome, List.filter_eq_self, List.forall_mem_map]
      exact fun i hi => (T.mem_keys i).mp (Finset.mem_sortedFrom.mp (List.mem_of_mem_take hi)).1
    · intro hnil hmax
      rw [(List.take_eq_nil_iff.mp hnil).resolve_left hmax.ne', List.drop_nil]

/-- Twenty blocks, which come in two vectors. -/
theorem freeAllBlks_spec_twenty :
    ∃ s' blks, freeAllBlks .upToMax (dirtyAt (List.range 20)) 21 = some (.ok s') ∧
      s'.devPages = .empty ∧ s'.freed = (resources blks).map .release ∧
        Leads (holdings (dirtyAt (List.range 20)).devPages) s'.freed ∅ ∧ blks.length = 20 := by
  have hcard : (dirtyAt (List.range 20)).devPages.keys.card = 20 := by decide +kernel
  obtain ⟨s', blks, hrun, hdone, hfreed, hleads, hlength, -⟩ :=
    freeAllBlks_spec .upToMax (built_dirtyAt (List.range 20))
      (show (dirtyAt (List.range 20)).devPages.keys.card < 21 by omega)
  exact ⟨s', blks, hrun, hdone, hfreed, hleads, hlength.trans hcard⟩

end Tpblkdev

end JRaid
