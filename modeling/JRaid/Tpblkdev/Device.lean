import JRaid.ForMathlib.Area
import JRaid.ForMathlib.FallibleSystem
import JRaid.ForMathlib.TaggedTree
import JRaid.Jmd.Device
import JRaid.Segment.Pieces

/-!
# The template block device

`radix_demo.c` keeps the blocks of a device in a radix tree, one for each page, and counts what it
does with them. A bio is served segment by segment, and a segment piece by piece. A write marks each
block that it comes to as dirty.

The pages of the submitters are a memory of their own, addressed by an arbitrary type; segments may
share them. The copy of a piece goes from the page of the segment to the same page; the page of the
block is not touched. What the kernel answers to an allocation comes with the segment.
-/

namespace JRaid

namespace Tpblkdev

/-- `RADIX_TREE_TAG_DIRTY` and `RADIX_TREE_TAG_TSYNC`. -/
inductive Tag where
  | dirty
  | tsync
  deriving DecidableEq, Repr

/-- `struct _ioblk`. -/
structure IoBlk where
  index : ℕ
  page : Page

/-- A call of `set_blk_dirty`: whether the block was dirty before, and what was returned. -/
structure DirtyCall where
  wasDirty : Bool
  ret : Int32
  deriving DecidableEq

/-- `struct dummy_device`, with the calls of `set_blk_dirty` so far. -/
structure DummyDevice where
  devPages : TaggedTree ℕ IoBlk Tag
  dirtyBlks : Int32
  tsyncBlks : Int32
  writeBlks : Int32
  readBlks : Int32
  dirtyCalls : List DirtyCall

/-- The device as `radix_block_init` leaves it. -/
def DummyDevice.init : DummyDevice := ⟨.empty, 0, 0, 0, 0, []⟩

/-- What the kernel answers during `dev_insert_page`. -/
structure InsertEnv where
  /-- `kmem_cache_zalloc` -/
  blk : Bool
  /-- `alloc_page`, and what is in the page -/
  page : Option Page
  /-- `radix_tree_preload` succeeds -/
  preload : Bool

/-- Everything is granted. -/
def InsertEnv.grants (env : InsertEnv) : Bool := env.blk && env.page.isSome && env.preload

/-- Nothing is refused, and the page holds zeros. -/
def InsertEnv.zero : InsertEnv := ⟨true, some fun _ => 0, true⟩

/-- `sector >> PAGE_SECTORS_SHIFT`. -/
def blkIndex (sector : UInt64) : ℕ := (sector >>> 3).toNat

namespace DummyDevice

/-- `dev_insert_page`. If the insertion fails it is only reported. -/
def devInsertPage (ddev : DummyDevice) (env : InsertEnv) (sector : UInt64) :
    Option IoBlk × DummyDevice :=
  let idx := blkIndex sector
  match ddev.devPages.item idx with
  | some blk => (some blk, ddev)
  | none =>
    if !env.blk then (none, ddev)
    else
      match env.page with
      | none => (none, ddev)
      | some page =>
        let blk : IoBlk := ⟨idx, page⟩
        if !env.preload then (none, ddev)
        else (some blk,
          { ddev with devPages := (ddev.devPages.insert idx blk).getD ddev.devPages })

/-- `set_blk_dirty`. -/
def setBlkDirty (ddev : DummyDevice) (blk : IoBlk) : Int32 × DummyDevice :=
  (1, { ddev with
    dirtyBlks := ddev.dirtyBlks + 1
    devPages := ddev.devPages.tagSet blk.index .dirty
    dirtyCalls := ddev.dirtyCalls ++ [⟨decide (blk.index ∈ ddev.devPages.tagged .dirty), 1⟩] })

/-- `set_blk_tsync`. -/
def setBlkTsync (ddev : DummyDevice) (blk : IoBlk) : Int32 × DummyDevice :=
  (1, { ddev with
    tsyncBlks := ddev.tsyncBlks + 1
    devPages := ddev.devPages.tagSet blk.index .tsync })

end DummyDevice

/-! ### `memcpy` -/

/-- Ranges of one page between which `memcpy` is defined: they are the same or have nothing in
common. -/
def Separate (dst src len : ℕ) : Prop :=
  len = 0 ∨ dst = src ∨ dst + len ≤ src ∨ src + len ≤ dst

instance (dst src len : ℕ) : Decidable (Separate dst src len) :=
  inferInstanceAs (Decidable (_ ∨ _ ∨ _ ∨ _))

/-- `memcpy` within a page: from the page, the two places and the length to the page. What it does
to ranges that overlap is left open. -/
structure Memcpy where
  copy : Page → ℕ → ℕ → ℕ → Page
  copies : ∀ {page page' : Page} {dst src len : ℕ}, Separate dst src len →
    Area.copyRange page dst page src len = some page' → copy page dst src len = page'

/-- A `memcpy` that reads before it writes. -/
def Memcpy.readFirst : Memcpy where
  copy page dst src len := (Area.copyRange page dst page src len).getD page
  copies _ h := by rw [h, Option.getD_some]

/-! ### Bios -/

/-- A segment of a bio, with the answers of the kernel to the passes of its loop. -/
structure DemoVec (π : Type) where
  bv : BioVec π
  env : ℕ → InsertEnv

/-- A bio. -/
structure DemoBio (π : Type) where
  biRw : Dir
  biSector : UInt64
  vecs : List (DemoVec π)

/-- The device, the pages of the submitters, and for each byte of the device what was written there
last. -/
structure Demo (π : Type) where
  ddev : DummyDevice
  mem : π → Page
  written : ℕ → Option UInt8

namespace Demo

variable {π : Type} [DecidableEq π]

/-- The loop of `blk_dev_write` and `blk_dev_read`, from the pass `i` on. They differ in the places
`dst` and `src` of the copy and in what is done with the block. -/
def blkLoop (m : Memcpy) (dst src : Piece → ℕ) (mark : IoBlk → DummyDevice → DummyDevice)
    (v : DemoVec π) : ℕ → List Piece → Demo π → Int32 × Demo π
  | _, [], s => (0, s)
  | i, p :: rest, s =>
    match s.ddev.devInsertPage (v.env i) p.sector with
    | (none, ddev) => (-Jmd.enomem, { s with ddev := ddev })
    | (some blk, ddev) =>
      let page := m.copy (s.mem v.bv.bvPage) (dst p) (src p) p.copy
      blkLoop m dst src mark v (i + 1) rest
        { s with ddev := mark blk ddev, mem := Function.update s.mem v.bv.bvPage page }

/-- What `blk_dev_write` does with a block. -/
def markWrite (blk : IoBlk) (ddev : DummyDevice) : DummyDevice :=
  let ddev := (ddev.setBlkDirty blk).2
  let ddev := (ddev.setBlkTsync blk).2
  { ddev with writeBlks := ddev.writeBlks + 1 }

/-- What `blk_dev_read` does with a block. -/
def markRead (_ : IoBlk) (ddev : DummyDevice) : DummyDevice :=
  { ddev with readBlks := ddev.readBlks + 1 }

/-- Note what a segment, whose page held `page`, has been written to. -/
def record (s : Demo π) (page : Page) (bv : BioVec π) (sector : UInt64) : Demo π :=
  { s with
    written := fun x =>
      if 512 * sector.toNat ≤ x ∧ x < 512 * sector.toNat + bv.bvLen then
        Area.get page (bv.bvOffset + (x - 512 * sector.toNat) : ℕ)
      else s.written x }

/-- `blk_dev_write`. -/
def blkDevWrite (m : Memcpy) (v : DemoVec π) (sector : UInt64) (s : Demo π) : Int32 × Demo π :=
  let r := blkLoop m Piece.offset Piece.pos markWrite v 0 (v.bv.pieces sector) s
  (r.1, if r.1 = 0 then r.2.record (s.mem v.bv.bvPage) v.bv sector else r.2)

/-- `blk_dev_read`. -/
def blkDevRead (m : Memcpy) (v : DemoVec π) (sector : UInt64) (s : Demo π) : Int32 × Demo π :=
  blkLoop m Piece.pos Piece.offset markRead v 0 (v.bv.pieces sector) s

/-- The call for a segment. -/
def blkDev (m : Memcpy) : Dir → DemoVec π → UInt64 → Demo π → Int32 × Demo π
  | .write => blkDevWrite m
  | .read => blkDevRead m

/-- The sector of the next segment. -/
def nextSector (v : DemoVec π) (sector : UInt64) : UInt64 :=
  sector + UInt64.ofNat (v.bv.bvLen >>> 9)

/-- The loop of `simp_make_request`. -/
def simpLoop (m : Memcpy) (rw : Dir) : UInt64 → List (DemoVec π) → Demo π → Demo π
  | _, [], s => s
  | sector, v :: rest, s =>
    let r := blkDev m rw v sector s
    if r.1 ≠ 0 then r.2 else simpLoop m rw (nextSector v sector) rest r.2

/-- `simp_make_request`. -/
def simpMakeRequest (m : Memcpy) (b : DemoBio π) (s : Demo π) : Demo π :=
  simpLoop m b.biRw b.biSector b.vecs s

end Demo

/-- A bio is submitted, or a submitter fills a page. -/
inductive DemoEvent (π : Type) where
  | bio (b : DemoBio π)
  | store (p : π) (page : Page)

/-- **The device and its submitters.** -/
def demoSystem {π : Type} [DecidableEq π] (m : Memcpy) (mem : π → Page) :
    FallibleSystem (Demo π) (DemoEvent π) Empty where
  init := ⟨.init, mem, fun _ => none⟩
  step s
    | .bio b => .ok (s.simpMakeRequest m b)
    | .store p page => .ok { s with mem := Function.update s.mem p page }

/-! ### `dev_insert_page` -/

namespace DummyDevice

/-- Each block has its index. -/
def Indexed (ddev : DummyDevice) : Prop :=
  ∀ i blk, ddev.devPages.item i = some blk → blk.index = i

variable {ddev : DummyDevice} {env : InsertEnv} {sector : UInt64}

theorem indexed_init : init.Indexed := fun _ _ h => by cases h

/-- **What `dev_insert_page` does** if the block is there or everything is granted. -/
theorem exists_devInsertPage (h : ddev.Indexed)
    (hget : blkIndex sector ∈ ddev.devPages.keys ∨ env.grants = true) :
    ∃ blk T, ddev.devInsertPage env sector = (some blk, { ddev with devPages := T }) ∧
      blk.index = blkIndex sector ∧ T.keys = insert (blkIndex sector) ddev.devPages.keys ∧
      T.tagged = ddev.devPages.tagged ∧
      DummyDevice.Indexed { ddev with devPages := T } := by
  unfold devInsertPage
  dsimp only
  cases hitem : ddev.devPages.item (blkIndex sector) with
  | some blk =>
    have hmem : blkIndex sector ∈ ddev.devPages.keys :=
      (ddev.devPages.mem_keys _).mpr (hitem ▸ rfl)
    exact ⟨blk, ddev.devPages, rfl, h _ _ hitem, (Finset.insert_eq_of_mem hmem).symm, rfl, h⟩
  | none =>
    have hnew : blkIndex sector ∉ ddev.devPages.keys := fun hmem => by
      have := (ddev.devPages.mem_keys _).mp hmem
      rw [hitem] at this
      exact Bool.false_ne_true this
    have hgrants := hget.resolve_left hnew
    simp only [InsertEnv.grants, Bool.and_eq_true, Option.isSome_iff_exists] at hgrants
    obtain ⟨⟨hblk, page, hpage⟩, hpreload⟩ := hgrants
    obtain ⟨T, hT⟩ := TaggedTree.exists_insert hnew (⟨blkIndex sector, page⟩ : IoBlk)
    obtain ⟨-, hitems, hkeys, htagged⟩ := TaggedTree.insert_spec hT
    refine ⟨⟨blkIndex sector, page⟩, T, ?_, rfl, hkeys, htagged, fun i blk hi => ?_⟩
    · simp only [hblk, hpage, hpreload, hT, Bool.not_true, Bool.false_eq_true, if_false,
        Option.getD_some]
    · change T.item i = some blk at hi
      rw [hitems] at hi
      by_cases hne : i = blkIndex sector
      · rw [hne, Function.update_self] at hi
        obtain rfl := Option.some.inj hi
        exact hne.symm
      · rw [Function.update_of_ne hne] at hi
        exact h i blk hi

/-- Nothing is refused. -/
theorem exists_devInsertPage_of_grants (ddev : DummyDevice) (sector : UInt64)
    (h : env.grants = true) : ∃ blk ddev', ddev.devInsertPage env sector = (some blk, ddev') := by
  simp only [InsertEnv.grants, Bool.and_eq_true, Option.isSome_iff_exists] at h
  obtain ⟨⟨hblk, page, hpage⟩, hpreload⟩ := h
  unfold devInsertPage
  dsimp only
  cases ddev.devPages.item (blkIndex sector) with
  | some blk => exact ⟨_, _, rfl⟩
  | none =>
    simp only [hblk, hpage, hpreload, Bool.not_true, Bool.false_eq_true, if_false]
    exact ⟨_, _, rfl⟩

/-- Otherwise it fails. -/
theorem devInsertPage_eq_none (hnew : blkIndex sector ∉ ddev.devPages.keys)
    (hrefused : env.grants = false) : ddev.devInsertPage env sector = (none, ddev) := by
  have hitem : ddev.devPages.item (blkIndex sector) = none := by
    rw [← Option.not_isSome_iff_eq_none, ← ddev.devPages.mem_keys]
    exact hnew
  unfold devInsertPage
  simp only [hitem]
  cases hblk : env.blk with
  | false => rfl
  | true =>
    cases hpage : env.page with
    | none => rfl
    | some page =>
      have hpreload : env.preload = false := by
        simpa [InsertEnv.grants, hblk, hpage] using hrefused
      simp only [hpreload, Bool.not_true, Bool.not_false, Bool.false_eq_true, if_false, if_true]

end DummyDevice

/-! ### What the device is built of -/

theorem blkIndex_lt (sector : UInt64) : blkIndex sector < 2 ^ 61 := by
  have hdiv : blkIndex sector = sector.toNat / 8 := by
    rw [blkIndex, UInt64.toNat_shiftRight]
    exact Nat.shiftRight_eq_div_pow sector.toNat 3
  have := sector.toNat_lt
  omega

/-- Each block of the tree has its index, which is that of a sector. -/
structure Built (ddev : DummyDevice) : Prop where
  indexed : ddev.Indexed
  sector : ∀ i ∈ ddev.devPages.keys, ∃ sector, blkIndex sector = i

namespace Built

variable {ddev : DummyDevice}

theorem init : Built .init := ⟨DummyDevice.indexed_init, fun _ hi => (by cases hi)⟩

/-- Whatever the kernel answers. -/
theorem devInsertPage (h : Built ddev) (env : InsertEnv) (sector : UInt64) :
    Built (ddev.devInsertPage env sector).2 := by
  by_cases hget : blkIndex sector ∈ ddev.devPages.keys ∨ env.grants = true
  · obtain ⟨blk, T, heq, -, hkeys, -, hindexed⟩ := DummyDevice.exists_devInsertPage h.indexed hget
    rw [heq]
    refine ⟨hindexed, fun i hi => ?_⟩
    rcases Finset.mem_insert.mp (hkeys ▸ hi) with rfl | hi
    · exact ⟨sector, rfl⟩
    · exact h.sector i hi
  · obtain ⟨hnew, hrefused⟩ := not_or.mp hget
    rw [DummyDevice.devInsertPage_eq_none hnew (Bool.not_eq_true _ ▸ hrefused)]
    exact h

/-- Tags and counters do not matter. -/
theorem congr (h : Built ddev) {ddev' : DummyDevice}
    (hitem : ddev'.devPages.item = ddev.devPages.item)
    (hkeys : ddev'.devPages.keys = ddev.devPages.keys) : Built ddev' :=
  ⟨fun i blk hi => h.indexed i blk (hitem ▸ hi), fun i hi => h.sector i (hkeys ▸ hi)⟩

theorem setBlkDirty (h : Built ddev) (blk : IoBlk) : Built (ddev.setBlkDirty blk).2 :=
  h.congr (TaggedTree.item_tagSet ..) (TaggedTree.keys_tagSet ..)

theorem setBlkTsync (h : Built ddev) (blk : IoBlk) : Built (ddev.setBlkTsync blk).2 :=
  h.congr (TaggedTree.item_tagSet ..) (TaggedTree.keys_tagSet ..)

theorem markWrite (h : Built ddev) (blk : IoBlk) : Built (Demo.markWrite blk ddev) :=
  ((h.setBlkDirty blk).setBlkTsync blk).congr rfl rfl

theorem markRead (h : Built ddev) (blk : IoBlk) : Built (Demo.markRead blk ddev) :=
  h.congr rfl rfl

variable {π : Type} [DecidableEq π] {s : Demo π}

/-- The passes of a segment. -/
theorem blkLoop {mark : IoBlk → DummyDevice → DummyDevice}
    (hmark : ∀ blk ddev, Built ddev → Built (mark blk ddev)) (m : Memcpy) (dst src : Piece → ℕ)
    (v : DemoVec π) (i : ℕ) (ps : List Piece) (h : Built s.ddev) :
    Built (Demo.blkLoop m dst src mark v i ps s).2.ddev := by
  induction ps generalizing i s with
  | nil => exact h
  | cons p rest ih =>
    rw [Demo.blkLoop]
    have hbuilt := h.devInsertPage (v.env i) p.sector
    split
    · rename_i hnone
      rwa [hnone] at hbuilt
    · rename_i hsome
      rw [hsome] at hbuilt
      exact ih (i + 1) (hmark _ _ hbuilt)

/-- The segments of a bio. -/
theorem simpLoop (m : Memcpy) (rw : Dir) (sector : UInt64) (vs : List (DemoVec π))
    (h : Built s.ddev) : Built (Demo.simpLoop m rw sector vs s).ddev := by
  induction vs generalizing sector s with
  | nil => exact h
  | cons v rest ih =>
    have hbuilt : Built (Demo.blkDev m rw v sector s).2.ddev := by
      cases rw with
      | read => exact blkLoop (fun blk _ hd => hd.markRead blk) m _ _ v 0 _ h
      | write =>
        have hloop := blkLoop (fun blk _ hd => hd.markWrite blk) m Piece.offset Piece.pos v 0
          (v.bv.pieces sector) h
        rw [Demo.blkDev, Demo.blkDevWrite]
        dsimp only
        split_ifs
        · exact hloop
        · exact hloop
    rw [Demo.simpLoop]
    split_ifs
    · exact hbuilt
    · exact ih _ hbuilt

/-- **The tree of a device in use**, whatever the bios and the answers of the kernel. -/
theorem reachable {m : Memcpy} {mem : π → Page} (hs : (demoSystem m mem).Reachable s) :
    Built s.ddev := by
  refine hs.invariant (I := fun s => Built s.ddev) init fun s e s' _ h hstep => ?_
  cases e with
  | bio b =>
    obtain rfl := Except.ok.inj hstep
    exact h.simpLoop m b.biRw b.biSector b.vecs
  | store p page =>
    obtain rfl := Except.ok.inj hstep
    exact h

end Built

end Tpblkdev

end JRaid
