import JRaid.Tpblkdev.Device

/-!
# Copies within the page of the submitter

`blk_dev_write` and `blk_dev_read` find the block of a piece and then copy within the page of the
segment, from one place to the other; the page of the block is never read or written. So a write
leaves the page of its submitter alone exactly if the bytes are already where the copy takes them,
and a read delivers what was written last exactly if the page of the reader holds it already, at the
place from which the copy takes it (`served_iff_holdsAlready`).

`memcpy` is not defined for ranges that overlap. What is asked of a call is asked for everything
that `memcpy` may do there.
-/

namespace JRaid

namespace Tpblkdev

open Area

/-! ### Copies within a page -/

/-- The copies of the passes of a loop. -/
def copies (m : Memcpy) (dst src : Piece → ℕ) (ps : List Piece) (page : Page) : Page :=
  ps.foldl (fun page p => m.copy page (dst p) (src p) p.copy) page

/-- A copy leaves a page alone. -/
def Holds (page : Page) (dst src len : ℕ) : Prop :=
  ∀ k < len, get page (dst + k : ℕ) = get page (src + k : ℕ)

variable {m : Memcpy} {dst src : Piece → ℕ} {p : Piece} {ps rest : List Piece} {page : Page}

theorem copies_nil : copies m dst src [] page = page := rfl

theorem copies_cons : copies m dst src (p :: rest) page =
    copies m dst src rest (m.copy page (dst p) (src p) p.copy) := rfl

/-- The two ranges of each piece lie in the page. -/
def InPage (dst src : Piece → ℕ) (ps : List Piece) : Prop :=
  ∀ p ∈ ps, dst p + p.copy ≤ pageSize ∧ src p + p.copy ≤ pageSize

/-- The copies are defined. -/
def AllSeparate (dst src : Piece → ℕ) (ps : List Piece) : Prop :=
  ∀ p ∈ ps, Separate (dst p) (src p) p.copy

/-- **What a copy does** that is defined. -/
theorem get_copy (m : Memcpy) (page : Page) {d r len : ℕ} (hsep : Separate d r len)
    (hd : d + len ≤ pageSize) (hr : r + len ≤ pageSize) (z : ℤ) :
    get (m.copy page d r len) z =
      if d ≤ z ∧ z < d + len then get page (z - d + r) else get page z := by
  obtain ⟨page', hpage'⟩ := exists_copyRange page d page r len hd hr
  rw [m.copies hsep hpage', get_copyRange hpage']

/-- The copies leave alone what lies in none of their destinations. -/
theorem get_copies (m : Memcpy) (page : Page) (hin : InPage dst src ps)
    (hsep : AllSeparate dst src ps) {z : ℤ} (hz : ∀ p ∈ ps, ¬(dst p ≤ z ∧ z < dst p + p.copy)) :
    get (copies m dst src ps page) z = get page z := by
  induction ps generalizing page with
  | nil => rfl
  | cons p rest ih =>
    obtain ⟨hd, hr⟩ := hin p List.mem_cons_self
    rw [copies_cons, ih _ (fun q hq => hin q (List.mem_cons_of_mem p hq))
      (fun q hq => hsep q (List.mem_cons_of_mem p hq))
      (fun q hq => hz q (List.mem_cons_of_mem p hq)),
      get_copy m page (hsep p List.mem_cons_self) hd hr, if_neg (hz p List.mem_cons_self)]

/-- Copies whose bytes are in place already leave the page alone. -/
theorem copies_eq_self (hin : InPage dst src ps) (hsep : AllSeparate dst src ps)
    (hholds : ∀ p ∈ ps, Holds page (dst p) (src p) p.copy) : copies m dst src ps page = page := by
  induction ps with
  | nil => rfl
  | cons p rest ih =>
    obtain ⟨hd, hr⟩ := hin p List.mem_cons_self
    have hfirst : m.copy page (dst p) (src p) p.copy = page := by
      refine ext_get fun k hk => ?_
      rw [get_copy m page (hsep p List.mem_cons_self) hd hr]
      split_ifs with hrange
      · have hheld := hholds p List.mem_cons_self (k - dst p) (by omega)
        rw [show dst p + (k - dst p) = k by omega] at hheld
        exact (congrArg (get page) (by omega)).trans hheld.symm
      · rfl
    rw [copies_cons, hfirst]
    exact ih (fun q hq => hin q (List.mem_cons_of_mem p hq))
      (fun q hq => hsep q (List.mem_cons_of_mem p hq))
      fun q hq => hholds q (List.mem_cons_of_mem p hq)

/-- If the destinations have nothing in common, only such copies do. -/
theorem holds_of_copies_eq_self (hin : InPage dst src ps) (hsep : AllSeparate dst src ps)
    (hdisj : ps.Pairwise fun p q => dst p + p.copy ≤ dst q ∨ dst q + q.copy ≤ dst p)
    (h : copies m dst src ps page = page) : ∀ p ∈ ps, Holds page (dst p) (src p) p.copy := by
  induction ps with
  | nil => exact fun p hp => absurd hp List.not_mem_nil
  | cons p rest ih =>
    obtain ⟨hd, hr⟩ := hin p List.mem_cons_self
    obtain ⟨hfirst, hdisj⟩ := List.pairwise_cons.mp hdisj
    have hinRest : InPage dst src rest := fun q hq => hin q (List.mem_cons_of_mem p hq)
    have hsepRest : AllSeparate dst src rest := fun q hq => hsep q (List.mem_cons_of_mem p hq)
    rw [copies_cons] at h
    have hcopy := get_copy m page (hsep p List.mem_cons_self) hd hr
    -- what the first copy has written is not written again
    have hself : m.copy page (dst p) (src p) p.copy = page := by
      refine ext_get fun k hk => ?_
      by_cases hrange : (dst p : ℤ) ≤ k ∧ (k : ℤ) < dst p + p.copy
      · have hlater := get_copies m (m.copy page (dst p) (src p) p.copy) hinRest hsepRest
          (z := k) fun q hq => by have := hfirst q hq; omega
        rw [← hlater, h]
      · rw [hcopy, if_neg hrange]
    rw [hself] at h
    intro q hq
    obtain rfl | hq := List.mem_cons.mp hq
    · intro k hk
      have hbyte := hcopy (dst q + k : ℕ)
      rw [hself, if_pos (by omega)] at hbyte
      exact hbyte.trans (congrArg (get page) (by omega))
    · exact ih hinRest hsepRest hdisj h q hq

/-! ### What may happen to ranges that overlap -/

/-- A `memcpy` that fills the page where its ranges overlap. -/
def Memcpy.spoil (b : UInt8) : Memcpy where
  copy page d r len :=
    if Separate d r len then (copyRange page d page r len).getD page else fun _ => b
  copies hsep h := by rw [if_pos hsep, h, Option.getD_some]

/-- A page of equal bytes is not changed by a copy. -/
theorem copy_spoil_const (b : UInt8) (d r len : ℕ) :
    (Memcpy.spoil b).copy (fun _ => b) d r len = fun _ => b := by
  rw [Memcpy.spoil]
  dsimp only
  split_ifs with hsep
  · rw [copyRange]
    split_ifs with hin
    · rw [Option.getD_some]
      funext k
      split_ifs <;> rfl
    · rfl
  · rfl

/-- A copy that is not defined may spoil the whole page, and what follows leaves it spoilt. -/
theorem copies_spoil (b : UInt8) (h : ¬AllSeparate dst src ps) (page : Page) :
    copies (.spoil b) dst src ps page = fun _ => b := by
  have hconst : ∀ qs : List Piece, copies (.spoil b) dst src qs (fun _ => b) = fun _ => b := by
    intro qs
    induction qs with
    | nil => rfl
    | cons q qs ih =>
      rw [copies_cons, copy_spoil_const, ih]
  induction ps generalizing page with
  | nil => exact absurd (fun p hp => absurd hp List.not_mem_nil) h
  | cons p rest ih =>
    rw [copies_cons]
    by_cases hp : Separate (dst p) (src p) p.copy
    · refine ih (fun hrest => h fun q hq => ?_) _
      obtain rfl | hq := List.mem_cons.mp hq
      · exact hp
      · exact hrest q hq
    · have hspoilt : (Memcpy.spoil b).copy page (dst p) (src p) p.copy = fun _ => b := if_neg hp
      rw [hspoilt, hconst]

/-! ### What is asked of a call, and when it is met -/

variable {π : Type} [DecidableEq π]

/-- Whatever `memcpy` does to ranges that overlap: a write leaves the pages of the submitters alone,
and a read delivers what was written last, where anything was written. -/
def Served (s : Demo π) (rw : Dir) (v : DemoVec π) (sector : UInt64) : Prop :=
  match rw with
  | .write => ∀ m, (s.blkDevWrite m v sector).2.mem = s.mem
  | .read => ∀ m, ∀ k < v.bv.bvLen, ∀ b, s.written (512 * sector.toNat + k) = some b →
      get ((s.blkDevRead m v sector).2.mem v.bv.bvPage) (v.bv.bvOffset + k : ℕ) = some b

/-- The place in the page of a segment from which a read takes the byte `k`. The second piece begins
with the page, which the first has changed. -/
def readSource (bv : BioVec π) (sector : UInt64) (k : ℕ) : ℕ :=
  let offset := firstOffset sector
  let first := pageSize - offset
  if k < first then offset + k
  else if bv.bvOffset ≤ k - first ∧ k - first < bv.bvOffset + first then
    offset + (k - first - bv.bvOffset)
  else k - first

/-- The page of a segment holds already what is asked for: a write, the bytes of each piece at the
place of the piece in its block; a read, what was written last, at the place from which it is taken.
No copy whose result matters has ranges that overlap. -/
def HoldsAlready (s : Demo π) (rw : Dir) (v : DemoVec π) (sector : UInt64) : Prop :=
  let page := s.mem v.bv.bvPage
  let ps := v.bv.pieces sector
  match rw with
  | .write => AllSeparate Piece.offset Piece.pos ps ∧
      ∀ p ∈ ps, Holds page p.offset p.pos p.copy
  | .read => ∀ k < v.bv.bvLen, ∀ b, s.written (512 * sector.toNat + k) = some b →
      AllSeparate Piece.pos Piece.offset ps ∧ get page (readSource v.bv sector k) = some b

/-- All allocations for a segment succeed. -/
def DemoVec.Granted (v : DemoVec π) : Prop := ∀ i, (v.env i).grants = true

/-! ### The pages after a call -/

section

variable {s : Demo π} {v : DemoVec π} {sector : UInt64}

/-- What the loop does to the pages. -/
theorem mem_blkLoop (m : Memcpy) (dst src : Piece → ℕ)
    (mark : IoBlk → DummyDevice → DummyDevice) (hgrant : v.Granted) (i : ℕ) (ps : List Piece)
    (s : Demo π) :
    (Demo.blkLoop m dst src mark v i ps s).2.mem = Function.update s.mem v.bv.bvPage
      (copies m dst src ps (s.mem v.bv.bvPage)) := by
  induction ps generalizing i s with
  | nil => exact (Function.update_eq_self _ _).symm
  | cons p rest ih =>
    obtain ⟨blk, ddev', hinsert⟩ :=
      DummyDevice.exists_devInsertPage_of_grants s.ddev p.sector (hgrant i)
    rw [Demo.blkLoop, hinsert, copies_cons]
    dsimp only
    rw [ih, Function.update_idem]
    dsimp only
    rw [Function.update_self]

theorem mem_blkDevWrite (m : Memcpy) (hgrant : v.Granted) (s : Demo π) (sector : UInt64) :
    (s.blkDevWrite m v sector).2.mem = Function.update s.mem v.bv.bvPage
      (copies m Piece.offset Piece.pos (v.bv.pieces sector) (s.mem v.bv.bvPage)) := by
  rw [← mem_blkLoop m Piece.offset Piece.pos Demo.markWrite hgrant 0, Demo.blkDevWrite]
  dsimp only
  split_ifs <;> rfl

theorem mem_blkDevRead (m : Memcpy) (hgrant : v.Granted) (s : Demo π) (sector : UInt64) :
    (s.blkDevRead m v sector).2.mem v.bv.bvPage =
      copies m Piece.pos Piece.offset (v.bv.pieces sector) (s.mem v.bv.bvPage) := by
  rw [Demo.blkDevRead, mem_blkLoop m _ _ _ hgrant, Function.update_self]

omit [DecidableEq π] in
theorem inPage_write (bv : BioVec π) (sector : UInt64) :
    InPage Piece.offset Piece.pos (bv.pieces sector) := by
  intro p hp
  have hfits := bv.fits
  obtain ⟨hoffset, -, hpos⟩ := bv.piece_bounds sector hp
  omega

omit [DecidableEq π] in
theorem inPage_read (bv : BioVec π) (sector : UInt64) :
    InPage Piece.pos Piece.offset (bv.pieces sector) :=
  fun p hp => (inPage_write bv sector p hp).symm

omit [DecidableEq π] in
/-- The pieces of a segment go to different places of their blocks. -/
theorem pairwise_offset (bv : BioVec π) (sector : UInt64) :
    (bv.pieces sector).Pairwise fun p q =>
      p.offset + p.copy ≤ q.offset ∨ q.offset + q.copy ≤ p.offset := by
  have hfits := bv.fits
  by_cases h : bv.bvLen ≤ pageSize - firstOffset sector
  · rw [bv.pieces_of_le sector h]
    exact List.pairwise_singleton _ _
  · rw [bv.pieces_of_gt sector (Nat.lt_of_not_le h)]
    refine List.pairwise_pair.mpr (Or.inr ?_)
    dsimp only
    omega

/-- **When a write leaves the pages of the submitters alone.** -/
theorem served_write_iff (hgrant : v.Granted) :
    Served s .write v sector ↔ HoldsAlready s .write v sector := by
  have hmem : ∀ m, (s.blkDevWrite m v sector).2.mem = s.mem ↔
      copies m Piece.offset Piece.pos (v.bv.pieces sector) (s.mem v.bv.bvPage) =
        s.mem v.bv.bvPage := fun m => by
    rw [mem_blkDevWrite m hgrant, Function.update_eq_iff]
    exact and_iff_left fun _ _ => rfl
  have hin := inPage_write v.bv sector
  simp only [Served, HoldsAlready, hmem]
  constructor
  · intro h
    have hsep : AllSeparate Piece.offset Piece.pos (v.bv.pieces sector) := by
      by_contra hno
      let z : Fin pageSize := ⟨0, by decide⟩
      have hspoilt := (copies_spoil (s.mem v.bv.bvPage z + 1) hno (s.mem v.bv.bvPage)).symm.trans
        (h _)
      exact absurd (congrFun hspoilt z) (by simp)
    exact ⟨hsep, holds_of_copies_eq_self hin hsep (pairwise_offset v.bv sector) (h .readFirst)⟩
  · rintro ⟨hsep, hholds⟩ m
    exact copies_eq_self hin hsep hholds

omit [DecidableEq π] in
/-- Where a read takes its bytes from, if its copies are defined. -/
theorem get_copies_read (m : Memcpy) (bv : BioVec π) (page : Page)
    (hsep : AllSeparate Piece.pos Piece.offset (bv.pieces sector)) {k : ℕ} (hk : k < bv.bvLen) :
    get (copies m Piece.pos Piece.offset (bv.pieces sector) page) (bv.bvOffset + k : ℕ) =
      get page (readSource bv sector k) := by
  have hin := inPage_read bv sector
  have hcopy : ∀ p ∈ bv.pieces sector, ∀ (page : Page) (z : ℤ),
      get (m.copy page p.pos p.offset p.copy) z =
        if p.pos ≤ z ∧ z < p.pos + p.copy then get page (z - p.pos + p.offset) else get page z :=
    fun p hp page z => get_copy m page (hsep p hp) (hin p hp).1 (hin p hp).2 z
  rw [readSource]
  by_cases h : bv.bvLen ≤ pageSize - firstOffset sector
  · rw [bv.pieces_of_le sector h] at hcopy ⊢
    rw [copies_cons, copies_nil, hcopy _ List.mem_cons_self, if_pos (by dsimp only; omega),
      if_pos (by omega)]
    exact congrArg (get page) (by dsimp only; omega)
  · rw [bv.pieces_of_gt sector (Nat.lt_of_not_le h)] at hcopy ⊢
    have hfirst := hcopy _ List.mem_cons_self
    have hsecond := hcopy _ (List.mem_cons_of_mem _ List.mem_cons_self)
    rw [copies_cons, copies_cons, copies_nil, hsecond]
    dsimp only at hfirst ⊢
    by_cases hk' : k < pageSize - firstOffset sector
    · rw [if_neg (by omega), hfirst, if_pos (by omega), if_pos hk']
      exact congrArg (get page) (by omega)
    · rw [if_pos (by omega), hfirst, if_neg hk']
      by_cases hrange : bv.bvOffset ≤ k - (pageSize - firstOffset sector) ∧
          k - (pageSize - firstOffset sector) < bv.bvOffset + (pageSize - firstOffset sector)
      · rw [if_pos (by omega), if_pos hrange]
        exact congrArg (get page) (by omega)
      · rw [if_neg (by omega), if_neg hrange]
        exact congrArg (get page) (by omega)

/-- **When a read delivers what was written last.** -/
theorem served_read_iff (hgrant : v.Granted) :
    Served s .read v sector ↔ HoldsAlready s .read v sector := by
  simp only [Served, HoldsAlready, mem_blkDevRead _ hgrant]
  constructor
  · intro h k hk b hb
    have hsep : AllSeparate Piece.pos Piece.offset (v.bv.pieces sector) := by
      by_contra hno
      have hbyte := h (.spoil (b + 1)) k hk b hb
      have hfits := v.bv.fits
      rw [copies_spoil _ hno, get_of_lt _ (by omega)] at hbyte
      exact absurd (Option.some.inj hbyte) (by simp)
    rw [← get_copies_read .readFirst v.bv _ hsep hk]
    exact ⟨hsep, h .readFirst k hk b hb⟩
  · intro h m k hk b hb
    obtain ⟨hsep, hbyte⟩ := h k hk b hb
    rw [get_copies_read m v.bv _ hsep hk]
    exact hbyte

theorem served_iff_holdsAlready (rw : Dir) (hgrant : v.Granted) :
    Served s rw v sector ↔ HoldsAlready s rw v sector := by
  cases rw with
  | read => exact served_read_iff hgrant
  | write => exact served_write_iff hgrant

end

/-! ### Runs -/

/-- A property of each call for the segments of a bio, in the state in which its turn comes. -/
def EachVec (m : Memcpy) (Q : Demo π → Dir → DemoVec π → UInt64 → Prop) (rw : Dir) :
    UInt64 → List (DemoVec π) → Demo π → Prop
  | _, [], _ => True
  | sector, v :: rest, s =>
    let r := Demo.blkDev m rw v sector s
    Q s rw v sector ∧ (r.1 = 0 → EachVec m Q rw (Demo.nextSector v sector) rest r.2)

/-- A property of each call that a bio makes. -/
def EachCall (m : Memcpy) (Q : Demo π → Dir → DemoVec π → UInt64 → Prop) (s : Demo π) :
    DemoEvent π → Prop
  | .bio b => EachVec m Q b.biRw b.biSector b.vecs s
  | .store _ _ => True

/-- All allocations for a bio succeed. -/
def DemoEvent.Granted : DemoEvent π → Prop
  | .bio b => ∀ v ∈ b.vecs, v.Granted
  | .store _ _ => True

theorem eachVec_congr (m : Memcpy) (rw : Dir) (sector : UInt64) {vs : List (DemoVec π)}
    (hgrant : ∀ v ∈ vs, v.Granted) (s : Demo π) :
    EachVec m Served rw sector vs s ↔ EachVec m HoldsAlready rw sector vs s := by
  induction vs generalizing sector s with
  | nil => exact Iff.rfl
  | cons v rest ih =>
    exact and_congr (served_iff_holdsAlready rw (hgrant v List.mem_cons_self))
      (imp_congr_right fun _ => ih _ (fun v' hv' => hgrant v' (List.mem_cons_of_mem v hv')) _)

/-- **When all bios are served.** In a run in which all allocations succeed, every write leaves the
pages of the submitters alone and every read delivers what was written last, exactly if in each call
the page of the segment holds already what is asked for. -/
theorem allows_served_iff (m : Memcpy) (mem : π → Page) (es : List (DemoEvent π))
    (hgrant : ∀ e ∈ es, e.Granted) :
    (demoSystem m mem).Allows (EachCall m Served) (demoSystem m mem).init es ↔
      (demoSystem m mem).Allows (EachCall m HoldsAlready) (demoSystem m mem).init es := by
  refine FallibleSystem.allows_congr (fun e he s => ?_) _
  cases e with
  | bio b => exact eachVec_congr m b.biRw b.biSector (hgrant _ he) s
  | store p page => exact Iff.rfl

/-- A sector at the start of a page. -/
def firstSector (p : Bool) : DemoVec Bool := ⟨⟨p, 512, 0, by decide⟩, fun _ => .zero⟩

/-- A page of ones and a page of zeros. -/
def onesZeros (p : Bool) : Page := fun _ => if p then 1 else 0

/-- The first sector of a page is written to the start of the device, and read into a page that has
been given the same bytes. -/
theorem allows_served_iff_read :
    let es : List (DemoEvent Bool) :=
      [.bio ⟨.write, 0, [firstSector true]⟩, .store false (onesZeros true),
        .bio ⟨.read, 0, [firstSector false]⟩]
    (demoSystem .readFirst onesZeros).Allows (EachCall .readFirst Served)
      (demoSystem .readFirst onesZeros).init es := by
  intro es
  have hpieces : ∀ p, (firstSector p).bv.pieces 0 = [⟨0, 0, 0, 512⟩] := fun p =>
    BioVec.pieces_of_le _ _ (show 512 ≤ pageSize - firstOffset 0 by decide +kernel)
  have hwritten : ∀ k < 512, ((demoSystem .readFirst onesZeros).init.simpMakeRequest .readFirst
      ⟨.write, 0, [firstSector true]⟩).written k = some 1 := by decide +kernel
  refine (allows_served_iff .readFirst onesZeros es ?_).mpr ⟨⟨⟨?_, ?_⟩, fun _ => trivial⟩, ?_⟩
  · rintro e he
    obtain rfl | rfl | rfl : e = _ ∨ e = _ ∨ e = _ := by simpa [es] using he
    · exact List.forall_mem_singleton.mpr fun _ => rfl
    · trivial
    · exact List.forall_mem_singleton.mpr fun _ => rfl
  · rw [hpieces]
    exact List.forall_mem_singleton.mpr (by decide +kernel)
  · rw [hpieces]
    exact List.forall_mem_singleton.mpr fun k hk => rfl
  · rintro s hs
    obtain rfl := Except.ok.inj hs
    refine ⟨trivial, fun t ht => ?_⟩
    obtain rfl := Except.ok.inj ht
    refine ⟨⟨fun k hk b hb => ⟨?_, ?_⟩, fun _ => trivial⟩, fun _ _ => trivial⟩
    · rw [hpieces]
      exact List.forall_mem_singleton.mpr (by decide +kernel)
    · have hbyte : (1 : UInt8) = b := Option.some.inj ((hwritten k hk).symm.trans
        ((congrArg _ (Nat.zero_add k)).symm.trans hb))
      have hsource : readSource (firstSector false).bv 0 k = k := by
        rw [readSource, if_pos (hk.trans_le (by decide +kernel)), show firstOffset 0 = 0 by
          decide +kernel, Nat.zero_add]
      rw [hsource, ← hbyte]
      exact get_of_lt (onesZeros true) (hk.trans_le (by decide))

/-- What has been written is not what is read into another page. -/
theorem not_served_read :
    let es : List (DemoEvent Bool) :=
      [.bio ⟨.write, 0, [firstSector true]⟩, .bio ⟨.read, 0, [firstSector false]⟩]
    ¬(demoSystem .readFirst onesZeros).Allows (EachCall .readFirst Served)
      (demoSystem .readFirst onesZeros).init es := fun h =>
  absurd ((h.2 _ rfl).1.1 .readFirst 0 (by decide) 1 (by decide +kernel)) (by decide +kernel)

end Tpblkdev

end JRaid
