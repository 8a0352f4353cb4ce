import JRaid.Tpblkdev.Device

/-!
# Counting the dirty blocks

`set_blk_dirty` is to return 1 if it has made a block dirty and 0 if the block was dirty already; it
increments the counter and returns 1 in any case. The passes of a bio come to a list of blocks,
which ends where an allocation fails (`reach`), and a write adds the length of the list to the
counter and its set to the tagged blocks (`Marked`). So the counters are right as long as no write
comes to a dirty block or to a block for the second time, and they do not overflow
(`accounted_always_iff`).
-/

namespace JRaid

namespace Tpblkdev

variable {π : Type}

/-- The law that stands above `set_blk_dirty`. -/
def DirtyCall.Lawful (c : DirtyCall) : Prop := c.ret = 1 ↔ c.wasDirty = false

/-- The counters are the numbers of tagged blocks, and `set_blk_dirty` has kept its law. -/
structure Accounted (ddev : DummyDevice) : Prop where
  dirtyBlks : ddev.dirtyBlks.toInt = (ddev.devPages.tagged .dirty).card
  tsyncBlks : ddev.tsyncBlks.toInt = (ddev.devPages.tagged .tsync).card
  lawful : ∀ c ∈ ddev.dirtyCalls, c.Lawful

/-! ### The blocks that a bio comes to -/

/-- The passes of the loop for a segment, from the pass `i` on: the index of the block, and whether
`dev_insert_page` is granted all it asks for. -/
def DemoVec.asks (v : DemoVec π) : ℕ → List Piece → List (ℕ × Bool)
  | _, [] => []
  | i, p :: rest => (blkIndex p.sector, (v.env i).grants) :: v.asks (i + 1) rest

/-- The passes of the loops for the segments of a bio. -/
def vecAsks : UInt64 → List (DemoVec π) → List (ℕ × Bool)
  | _, [] => []
  | sector, v :: rest =>
    v.asks 0 (v.bv.pieces sector) ++ vecAsks (Demo.nextSector v sector) rest

/-- The blocks that the passes come to, in a tree with the indices `keys`. A block that is not there
and is not granted is where they end. -/
def reach : Finset ℕ → List (ℕ × Bool) → List ℕ
  | _, [] => []
  | keys, (i, granted) :: rest =>
    if i ∈ keys ∨ granted = true then i :: reach (insert i keys) rest else []

/-- The blocks that a bio comes to. -/
def DemoBio.blks (b : DemoBio π) (keys : Finset ℕ) : List ℕ :=
  reach keys (vecAsks b.biSector b.vecs)

/-- A write comes to each block once, and to no dirty block, and leaves fewer than `2 ^ 31` blocks
dirty. -/
def TouchesOnce (s : Demo π) : DemoEvent π → Prop
  | .bio b => b.biRw = .write → (b.blks s.ddev.devPages.keys).Nodup ∧
      (∀ i ∈ b.blks s.ddev.devPages.keys, i ∉ s.ddev.devPages.tagged .dirty) ∧
        (s.ddev.devPages.tagged .dirty).card + (b.blks s.ddev.devPages.keys).length < 2 ^ 31
  | .store _ _ => True

theorem reach_append (keys : Finset ℕ) (a b : List (ℕ × Bool)) :
    reach keys (a ++ b) = reach keys a ++
      if (reach keys a).length = a.length then
        reach (keys ∪ (reach keys a).toFinset) b
      else [] := by
  induction a generalizing keys with
  | nil => simp [reach]
  | cons ask a ih =>
    obtain ⟨i, granted⟩ := ask
    rw [List.cons_append, reach, reach]
    by_cases h : i ∈ keys ∨ granted = true
    · rw [if_pos h, if_pos h, ih, List.toFinset_cons, Finset.union_insert, ← Finset.insert_union]
      simp only [List.length_cons, Nat.add_right_cancel_iff, List.cons_append]
    · rw [if_neg h, if_neg h, if_neg (by simp)]
      rfl

/-! ### What a list of blocks does to the counters -/

/-- The calls of `set_blk_dirty` for a list of blocks, when the blocks in `dirty` are dirty. -/
def callsOf : Finset ℕ → List ℕ → List DirtyCall
  | _, [] => []
  | dirty, i :: rest => ⟨decide (i ∈ dirty), 1⟩ :: callsOf (insert i dirty) rest

theorem callsOf_append (dirty : Finset ℕ) (l l' : List ℕ) :
    callsOf dirty (l ++ l') = callsOf dirty l ++ callsOf (dirty ∪ l.toFinset) l' := by
  induction l generalizing dirty with
  | nil => simp [callsOf]
  | cons i l ih =>
    rw [List.cons_append, callsOf, callsOf, ih, List.toFinset_cons, Finset.union_insert,
      ← Finset.insert_union]
    rfl

/-- The calls keep the law exactly if none is for a dirty block. -/
theorem lawful_callsOf_iff (dirty : Finset ℕ) (l : List ℕ) :
    (∀ c ∈ callsOf dirty l, c.Lawful) ↔ l.Nodup ∧ ∀ i ∈ l, i ∉ dirty := by
  induction l generalizing dirty with
  | nil => simp [callsOf]
  | cons i l ih =>
    have hfirst : DirtyCall.Lawful ⟨decide (i ∈ dirty), 1⟩ ↔ i ∉ dirty := by
      simp [DirtyCall.Lawful]
    rw [callsOf, List.forall_mem_cons, hfirst, ih, List.nodup_cons, List.forall_mem_cons]
    simp only [Finset.mem_insert, not_or]
    constructor
    · rintro ⟨hi, hnodup, hrest⟩
      exact ⟨⟨fun hmem => (hrest i hmem).1 rfl, hnodup⟩, hi, fun j hj => (hrest j hj).2⟩
    · rintro ⟨⟨hnotMem, hnodup⟩, hi, hrest⟩
      exact ⟨hi, hnodup, fun j hj => ⟨fun hji => hnotMem (hji ▸ hj), hrest j hj⟩⟩

/-- The blocks that are marked as dirty. -/
def dirtied (rw : Dir) (l : List ℕ) : List ℕ := if rw = .write then l else []

/-- **What the passes do** that come to the blocks `l`. -/
structure Marked (rw : Dir) (ddev : DummyDevice) (l : List ℕ) (ddev' : DummyDevice) : Prop where
  indexed : ddev'.Indexed
  keys : ddev'.devPages.keys = ddev.devPages.keys ∪ l.toFinset
  dirtyBlks : ddev'.dirtyBlks = ddev.dirtyBlks + Int32.ofNat (dirtied rw l).length
  tsyncBlks : ddev'.tsyncBlks = ddev.tsyncBlks + Int32.ofNat (dirtied rw l).length
  tagged : ∀ t, ddev'.devPages.tagged t = ddev.devPages.tagged t ∪ (dirtied rw l).toFinset
  dirtyCalls : ddev'.dirtyCalls =
    ddev.dirtyCalls ++ callsOf (ddev.devPages.tagged .dirty) (dirtied rw l)

variable {rw : Dir} {ddev ddev' ddev'' : DummyDevice} {l l' : List ℕ}

theorem dirtied_append (rw : Dir) (l l' : List ℕ) :
    dirtied rw (l ++ l') = dirtied rw l ++ dirtied rw l' := by
  cases rw <;> rfl

theorem Marked.nil (h : ddev.Indexed) : Marked rw ddev [] ddev := by
  have hnil : dirtied rw [] = [] := by cases rw <;> rfl
  refine ⟨h, ?_, ?_, ?_, fun t => ?_, ?_⟩ <;> simp [hnil, callsOf]

theorem Marked.append (h : Marked rw ddev l ddev') (h' : Marked rw ddev' l' ddev'') :
    Marked rw ddev (l ++ l') ddev'' := by
  refine ⟨h'.indexed, ?_, ?_, ?_, fun t => ?_, ?_⟩
  · rw [h'.keys, h.keys, List.toFinset_append, Finset.union_assoc]
  · rw [h'.dirtyBlks, h.dirtyBlks, dirtied_append, List.length_append, Int32.ofNat_add,
      Int32.add_assoc]
  · rw [h'.tsyncBlks, h.tsyncBlks, dirtied_append, List.length_append, Int32.ofNat_add,
      Int32.add_assoc]
  · rw [h'.tagged, h.tagged, dirtied_append, List.toFinset_append, Finset.union_assoc]
  · rw [h'.dirtyCalls, h.dirtyCalls, h.tagged, dirtied_append, callsOf_append, List.append_assoc]

/-- A counter that is right and is increased by `n` stays right as long as it does not overflow. -/
theorem toInt_add_ofNat_iff {a : Int32} {c n : ℕ} (h : a.toInt = c) :
    (a + Int32.ofNat n).toInt = (c + n : ℕ) ↔ c + n < 2 ^ 31 := by
  constructor
  · intro heq
    have hlt := (a + Int32.ofNat n).toInt_lt
    omega
  · intro hlt
    have hn : n < 2 ^ 31 := by omega
    rw [Int32.toInt_add, h, Int32.toInt_ofNat_of_lt hn, ← Int.natCast_add]
    exact Int.bmod_eq_of_le (by omega) (by omega)

/-- The counters stay right exactly if what is marked is new and they do not overflow. -/
theorem Marked.accounted_iff (h : Marked rw ddev l ddev')
    (htags : ddev.devPages.tagged .tsync = ddev.devPages.tagged .dirty) (hacc : Accounted ddev) :
    Accounted ddev' ↔
      (dirtied rw l).Nodup ∧ (∀ i ∈ dirtied rw l, i ∉ ddev.devPages.tagged .dirty) ∧
        (ddev.devPages.tagged .dirty).card + (dirtied rw l).length < 2 ^ 31 := by
  have hcount : ∀ t, (ddev'.devPages.tagged t).card =
      (ddev.devPages.tagged t).card + (dirtied rw l).length ↔
        (dirtied rw l).Nodup ∧ ∀ i ∈ dirtied rw l, i ∉ ddev.devPages.tagged t := by
    intro t
    rw [h.tagged, Finset.card_union_toFinset_iff]
  rw [← and_assoc]
  constructor
  · intro hacc'
    have hnew := (lawful_callsOf_iff (ddev.devPages.tagged .dirty) (dirtied rw l)).mp fun c hc =>
      hacc'.lawful c (h.dirtyCalls ▸ List.mem_append_right _ hc)
    refine ⟨hnew, (toInt_add_ofNat_iff hacc.dirtyBlks).mp ?_⟩
    rw [← h.dirtyBlks, hacc'.dirtyBlks, (hcount .dirty).mpr hnew]
  · rintro ⟨hnew, hlt⟩
    have hdirty := (hcount .dirty).mpr hnew
    have htsync := (hcount .tsync).mpr (htags ▸ hnew)
    refine ⟨?_, ?_, fun c hc => ?_⟩
    · rw [h.dirtyBlks, hdirty]
      exact (toInt_add_ofNat_iff hacc.dirtyBlks).mpr hlt
    · rw [h.tsyncBlks, htsync]
      exact (toInt_add_ofNat_iff hacc.tsyncBlks).mpr (htags ▸ hlt)
    · rw [h.dirtyCalls] at hc
      obtain hc | hc := List.mem_append.mp hc
      · exact hacc.lawful c hc
      · exact (lawful_callsOf_iff _ _).mpr hnew c hc

/-! ### What a bio does to the counters -/

/-- What is done with a block. -/
def markOf : Dir → IoBlk → DummyDevice → DummyDevice
  | .write => Demo.markWrite
  | .read => Demo.markRead

/-- What is done with a block that is in the tree. -/
theorem marked_markOf (rw : Dir) {blk : IoBlk} (h : ddev.Indexed)
    (hblk : blk.index ∈ ddev.devPages.keys) :
    Marked rw ddev [blk.index] (markOf rw blk ddev) := by
  have hkeys : ddev.devPages.keys = ddev.devPages.keys ∪ [blk.index].toFinset := by
    simp [Finset.insert_eq_of_mem hblk]
  cases rw with
  | read =>
    refine ⟨h, hkeys, ?_, ?_, fun t => ?_, ?_⟩ <;> simp [markOf, Demo.markRead, dirtied, callsOf]
  | write =>
    refine ⟨fun i blk' hitem => h i blk' ?_, ?_, rfl, rfl, fun t => ?_, rfl⟩
    · simpa [markOf, Demo.markWrite, DummyDevice.setBlkDirty, DummyDevice.setBlkTsync] using hitem
    · simpa [markOf, Demo.markWrite, DummyDevice.setBlkDirty, DummyDevice.setBlkTsync] using hkeys
    · have hkeys' : blk.index ∈ (ddev.devPages.tagSet blk.index .dirty).keys := by simpa using hblk
      change ((ddev.devPages.tagSet blk.index .dirty).tagSet blk.index .tsync).tagged t = _
      rw [TaggedTree.tagged_tagSet hkeys', TaggedTree.tagged_tagSet hblk]
      cases t <;> simp [dirtied]

/-- A pass that comes to its block. -/
theorem exists_marked_pass (rw : Dir) {env : InsertEnv} {sector : UInt64} (h : ddev.Indexed)
    (hget : blkIndex sector ∈ ddev.devPages.keys ∨ env.grants = true) :
    ∃ blk ddev₁, ddev.devInsertPage env sector = (some blk, ddev₁) ∧
      Marked rw ddev [blkIndex sector] (markOf rw blk ddev₁) := by
  obtain ⟨blk, T, hinsert, hindex, hkeys, htagged, hindexed⟩ :=
    DummyDevice.exists_devInsertPage h hget
  refine ⟨blk, _, hinsert, ?_⟩
  have hmem : blk.index ∈ T.keys := by
    rw [hindex, hkeys]
    exact Finset.mem_insert_self _ _
  have hmark := marked_markOf rw hindexed hmem
  rw [hindex] at hmark
  refine ⟨hmark.indexed, ?_, hmark.dirtyBlks, hmark.tsyncBlks, ?_, ?_⟩
  · rw [hmark.keys]
    simp [hkeys]
  · exact fun t => (hmark.tagged t).trans (by rw [htagged])
  · exact hmark.dirtyCalls.trans (by rw [htagged])

namespace Demo

variable [DecidableEq π] {s : Demo π} (m : Memcpy) (rw : Dir)

/-- The loop for a segment. -/
theorem marked_blkLoop (dst src : Piece → ℕ) (v : DemoVec π) (i : ℕ) (ps : List Piece)
    (h : s.ddev.Indexed) :
    let r := blkLoop m dst src (markOf rw) v i ps s
    let l := reach s.ddev.devPages.keys (v.asks i ps)
    Marked rw s.ddev l r.2.ddev ∧ (r.1 = 0 ↔ l.length = (v.asks i ps).length) := by
  induction ps generalizing i s with
  | nil => exact ⟨Marked.nil h, iff_of_true rfl rfl⟩
  | cons p rest ih =>
    dsimp only
    rw [DemoVec.asks, reach, blkLoop]
    by_cases hget : blkIndex p.sector ∈ s.ddev.devPages.keys ∨ (v.env i).grants = true
    · obtain ⟨blk, ddev₁, hinsert, hmark⟩ := exists_marked_pass rw h hget
      rw [if_pos hget, hinsert]
      have hrest := ih (i + 1) (s := { s with
        ddev := markOf rw blk ddev₁
        mem := Function.update s.mem v.bv.bvPage
          (m.copy (s.mem v.bv.bvPage) (dst p) (src p) p.copy) }) hmark.indexed
      have hkeys : (markOf rw blk ddev₁).devPages.keys =
          insert (blkIndex p.sector) s.ddev.devPages.keys := by
        rw [hmark.keys]
        simp
      dsimp only at hrest
      rw [hkeys] at hrest
      refine ⟨hmark.append hrest.1, hrest.2.trans ?_⟩
      rw [List.length_cons, List.length_cons, Nat.add_right_cancel_iff]
    · obtain ⟨hnew, hrefused⟩ := not_or.mp hget
      rw [if_neg hget, DummyDevice.devInsertPage_eq_none hnew (Bool.not_eq_true _ ▸ hrefused)]
      exact ⟨Marked.nil h, iff_of_false (show ¬-Jmd.enomem = 0 by decide) (by simp)⟩

/-- The call for a segment. -/
theorem marked_blkDev (v : DemoVec π) (sector : UInt64) (h : s.ddev.Indexed) :
    let r := blkDev m rw v sector s
    let asks := v.asks 0 (v.bv.pieces sector)
    let l := reach s.ddev.devPages.keys asks
    Marked rw s.ddev l r.2.ddev ∧ (r.1 = 0 ↔ l.length = asks.length) := by
  cases rw with
  | read => exact marked_blkLoop m .read _ _ v 0 _ h
  | write =>
    obtain ⟨hmark, hend⟩ :=
      marked_blkLoop m .write Piece.offset Piece.pos v 0 (v.bv.pieces sector) h
    refine ⟨?_, hend⟩
    have hddev : (blkDev m .write v sector s).2.ddev =
        (blkLoop m Piece.offset Piece.pos markWrite v 0 (v.bv.pieces sector) s).2.ddev := by
      rw [blkDev, blkDevWrite]
      dsimp only
      split_ifs <;> rfl
    rw [hddev]
    exact hmark

/-- **What a bio does to the counters.** -/
theorem marked_simpLoop (sector : UInt64) (vs : List (DemoVec π)) (h : s.ddev.Indexed) :
    Marked rw s.ddev (reach s.ddev.devPages.keys (vecAsks sector vs))
      (simpLoop m rw sector vs s).ddev := by
  induction vs generalizing sector s with
  | nil => exact Marked.nil h
  | cons v rest ih =>
    obtain ⟨hmark, hend⟩ := marked_blkDev m rw v sector h
    rw [vecAsks, reach_append, simpLoop]
    by_cases herr : (blkDev m rw v sector s).1 = 0
    · rw [if_neg (not_not.mpr herr), if_pos (hend.mp herr), ← hmark.keys]
      exact hmark.append (ih (nextSector v sector) hmark.indexed)
    · rw [if_pos herr, if_neg (mt hend.mpr herr), List.append_nil]
      exact hmark

end Demo

/-! ### Runs -/

/-- The blocks have their indices, and the two tags are set on the same blocks. -/
structure Consistent (ddev : DummyDevice) : Prop where
  indexed : ddev.Indexed
  tags : ddev.devPages.tagged .tsync = ddev.devPages.tagged .dirty

theorem Marked.consistent (h : Marked rw ddev l ddev') (hddev : Consistent ddev) :
    Consistent ddev' := ⟨h.indexed, by rw [h.tagged, h.tagged, hddev.tags]⟩

variable [DecidableEq π]

/-- What an event does to right counters. -/
theorem exists_step (m : Memcpy) (mem : π → Page) (s : Demo π) (e : DemoEvent π)
    (h : Consistent s.ddev) (hacc : Accounted s.ddev) :
    ∃ s', (demoSystem m mem).step s e = .ok s' ∧ Consistent s'.ddev ∧
      (Accounted s'.ddev ↔ TouchesOnce s e) := by
  cases e with
  | store p page => exact ⟨_, rfl, h, iff_of_true hacc trivial⟩
  | bio b =>
    have hmark := Demo.marked_simpLoop m b.biRw b.biSector b.vecs h.indexed
    refine ⟨_, rfl, hmark.consistent h, (hmark.accounted_iff h.tags hacc).trans ?_⟩
    cases hrw : b.biRw with
    | read =>
      -- a right counter is less than `2 ^ 31`
      have hlt := s.ddev.dirtyBlks.toInt_lt
      have hcard := hacc.dirtyBlks
      have hroom : (s.ddev.devPages.tagged .dirty).card < 2 ^ 31 := by omega
      simpa [dirtied, TouchesOnce, hrw] using hroom
    | write => simp only [dirtied, TouchesOnce, hrw, DemoBio.blks, if_true, true_imp_iff]

/-- **When the counters are right.** In every run the counters are the numbers of tagged blocks and
`set_blk_dirty` keeps its law throughout, exactly if each write comes to each block once, and to no
dirty block, and no write makes `2 ^ 31` blocks dirty. -/
theorem accounted_always_iff (m : Memcpy) (mem : π → Page) (es : List (DemoEvent π)) :
    (demoSystem m mem).Always (fun s => Accounted s.ddev) (demoSystem m mem).init es ↔
      (demoSystem m mem).Allows TouchesOnce (demoSystem m mem).init es :=
  FallibleSystem.always_iff_allows (I := fun s => Consistent s.ddev)
    (fun s e => exists_step m mem s e) ⟨DummyDevice.indexed_init, rfl⟩
    ⟨rfl, rfl, fun _ hc => absurd hc List.not_mem_nil⟩ es

/-- A sector is written twice. -/
theorem not_accounted_twice :
    let v : DemoVec Unit := ⟨⟨(), 512, 0, by decide⟩, fun _ => .zero⟩
    let es : List (DemoEvent Unit) := [.bio ⟨.write, 0, [v]⟩, .bio ⟨.write, 0, [v]⟩]
    ¬(demoSystem .readFirst fun _ _ => 0).Always (fun s => Accounted s.ddev)
      (demoSystem .readFirst fun _ _ => 0).init es :=
  fun h => absurd (h.exec rfl).dirtyBlks (by decide +kernel)

end Tpblkdev

end JRaid
