import JRaid.ForMathlib.Area
import JRaid.Jmd.Device
import JRaid.Segment.Pieces

/-!
# Segment I/O past the stripe cache

`non_stripe_write` and `non_stripe_read` transfer a segment between a bio and a member through
fresh pages, one for each piece. `submit_readwrite` always transfers a whole page, at the sector
rounded down to a page, and nothing from a fixed sector on. A write of a piece that does not fill
its page therefore takes what the fresh page holds to the member, and a read behind the fixed
sector returns it (`roundTrips_iff`).

A transfer takes effect when it is submitted. A copy that leaves a page ends the model without a
result.
-/

namespace JRaid

/-- The bytes of a member. -/
abbrev Member := ℕ → UInt8

/-- A transfer of a page to a member. -/
def Member.writePage (member : Member) (sector : UInt64) (page : Page) : Member := fun x =>
  if h : 512 * sector.toNat ≤ x ∧ x < 512 * sector.toNat + pageSize then
    page ⟨x - 512 * sector.toNat, by omega⟩
  else member x

/-- A transfer of a page from a member. -/
def Member.readPage (member : Member) (sector : UInt64) : Page := fun k =>
  member (512 * sector.toNat + k)

/-- What the kernel answers in the passes of a loop: the pages of `alloc_page`, with whatever
they hold, and whether `bio_kmalloc` yields a bio. -/
structure PageIoEnv where
  page : ℕ → Option Page
  bio : ℕ → Bool

/-- The sector from which on `submit_readwrite` transfers nothing. -/
def sectorLimit : UInt64 := 20971520

/-- `submit_readwrite`: the error code, the member and the page. -/
def submitReadwrite (rw : Dir) (bio : Bool) (member : Member) (page : Page) (sector : UInt64) :
    Int32 × Member × Page :=
  if !bio then (-Jmd.enomem, member, page)
  else
    let biSector := sector / pageSectors * pageSectors
    if biSector ≥ sectorLimit then (0, member, page)
    else match rw with
      | .write => (0, member.writePage biSector page, page)
      | .read => (0, member, member.readPage biSector)

/-- The loop of `non_stripe_write`, from the pass `i` on. What `submit_readwrite` returns is not
looked at. -/
def writePieces (env : PageIoEnv) (src : Page) : ℕ → List Piece → Member → Option (Int32 × Member)
  | _, [], member => some (0, member)
  | i, p :: rest, member =>
    match env.page i with
    | none => some (-Jmd.enomem, member)
    | some page => do
      let page ← Area.copyRange page p.offset src p.pos p.copy
      let (_, member, _) := submitReadwrite .write (env.bio i) member page p.sector
      writePieces env src (i + 1) rest member

/-- `non_stripe_write`. -/
def nonStripeWrite (env : PageIoEnv) (member : Member) (bv : BioVec Page) (sector : UInt64) :
    Option (Int32 × Member) :=
  writePieces env bv.bvPage 0 (bv.pieces sector) member

/-- The loop of `non_stripe_read`, from the pass `i` on. -/
def readPieces (env : PageIoEnv) (member : Member) : ℕ → List Piece → Page → Option (Int32 × Page)
  | _, [], dst => some (0, dst)
  | i, p :: rest, dst =>
    match env.page i with
    | none => some (-Jmd.enomem, dst)
    | some page => do
      let (_, _, page) := submitReadwrite .read (env.bio i) member page p.sector
      let dst ← Area.copyRange dst p.pos page p.offset p.copy
      readPieces env member (i + 1) rest dst

/-- `non_stripe_read`: the error code and the page of the segment. -/
def nonStripeRead (env : PageIoEnv) (member : Member) (bv : BioVec Page) (sector : UInt64) :
    Option (Int32 × Page) :=
  readPieces env member 0 (bv.pieces sector) bv.bvPage

/-! ### The round trip -/

/-- Every allocation succeeds, and the pages hold what `fresh` says. -/
def PageIoEnv.granted (fresh : ℕ → Page) : PageIoEnv := ⟨fun i => some (fresh i), fun _ => true⟩

/-- A write has stored a segment at its range of the member and has left the rest alone. -/
structure Stored (member member' : Member) (bv : BioVec Page) (sector : UInt64) : Prop where
  stores : ∀ k < bv.bvLen, Area.get bv.bvPage (bv.bvOffset + k : ℕ) =
    some (member' (512 * sector.toNat + k))
  frame : ∀ x, ¬(512 * sector.toNat ≤ x ∧ x < 512 * sector.toNat + bv.bvLen) →
    member' x = member x

/-- A segment is stored, and read back into any segment of its length, whatever the fresh pages
hold. -/
def RoundTrips (member : Member) (bv : BioVec Page) (sector : UInt64) : Prop :=
  ∀ fresh, ∃ member', nonStripeWrite (.granted fresh) member bv sector = some (0, member') ∧
    Stored member member' bv sector ∧
    ∀ fresh' (bv' : BioVec Page), bv'.bvLen = bv.bvLen →
      ∃ dst, nonStripeRead (.granted fresh') member' bv' sector = some (0, dst) ∧
        ∀ k < bv.bvLen,
          Area.get dst (bv'.bvOffset + k : ℕ) = Area.get bv.bvPage (bv.bvOffset + k : ℕ)

/-! ### What a transfer does -/

theorem Member.writePage_apply (member : Member) (sector : UInt64) (page : Page) (x : ℕ) :
    member.writePage sector page x =
      (Area.get page (x - (512 * sector.toNat : ℕ))).getD (member x) := by
  rw [writePage, Area.get]
  by_cases hx : 512 * sector.toNat ≤ x ∧ x < 512 * sector.toNat + pageSize
  · rw [dif_pos hx, dif_pos (by omega), Option.getD_some]
    congr 2
    omega
  · rw [dif_neg hx, dif_neg (by omega), Option.getD_none]

theorem toNat_roundDown (sector : UInt64) :
    (sector / pageSectors * pageSectors).toNat = 8 * (sector.toNat / 8) := by
  have hlt := sector.toNat_lt
  rw [UInt64.toNat_mul, UInt64.toNat_div, show pageSectors.toNat = 8 from rfl]
  omega

/-- The limit lies between two pages. -/
theorem roundDown_ge_iff (sector : UInt64) :
    sector / pageSectors * pageSectors ≥ sectorLimit ↔ 20971520 ≤ sector.toNat := by
  rw [ge_iff_le, UInt64.le_iff_toNat_le, toNat_roundDown,
    show sectorLimit.toNat = 20971520 from rfl]
  omega

section

variable {member : Member} {page : Page} {sector : UInt64}

theorem submitReadwrite_of_le (rw : Dir) (h : 20971520 ≤ sector.toNat) :
    submitReadwrite rw true member page sector = (0, member, page) := by
  simp only [submitReadwrite, Bool.not_true, Bool.false_eq_true, if_false,
    if_pos ((roundDown_ge_iff sector).mpr h)]

/-- A write below the limit replaces the page of its sector. -/
theorem submitReadwrite_write (h : sector.toNat < 20971520) (x : ℕ) :
    (submitReadwrite .write true member page sector).2.1 x =
      (Area.get page (x - (pageSize * (sector.toNat / 8) : ℕ))).getD (member x) := by
  simp only [submitReadwrite, Bool.not_true, Bool.false_eq_true, if_false,
    if_neg (mt (roundDown_ge_iff sector).mp h.not_ge)]
  rw [Member.writePage_apply, toNat_roundDown, ← Nat.mul_assoc]
  rfl

/-- A read below the limit fetches the page of its sector. -/
theorem submitReadwrite_read (h : sector.toNat < 20971520) :
    (submitReadwrite .read true member page sector).2.2 =
      fun k : Fin pageSize => member (pageSize * (sector.toNat / 8) + k) := by
  simp only [submitReadwrite, Bool.not_true, Bool.false_eq_true, if_false,
    if_neg (mt (roundDown_ge_iff sector).mp h.not_ge)]
  funext k
  rw [Member.readPage, toNat_roundDown, ← Nat.mul_assoc]
  rfl

/-- A write leaves the other pages alone. -/
theorem submitReadwrite_frame {x : ℕ} (hx : x / pageSize ≠ sector.toNat / 8) :
    (submitReadwrite .write true member page sector).2.1 x = member x := by
  by_cases h : sector.toNat < 20971520
  · rw [submitReadwrite_write h, Area.get_eq_none, Option.getD_none]
    rw [pageSize] at hx ⊢
    omega
  · rw [submitReadwrite_of_le _ (Nat.le_of_not_lt h)]

end

/-! ### What the loops do -/

section

variable {fresh : ℕ → Page} {member member' : Member} {src dst dst' : Page} {i : ℕ} {p : Piece}
  {rest : List Piece} {e : Int32}

/-- A pass of the write loop. -/
theorem writePieces_cons
    (h : writePieces (.granted fresh) src i (p :: rest) member = some (e, member')) :
    ∃ page, Area.copyRange (fresh i) p.offset src p.pos p.copy = some page ∧
      writePieces (.granted fresh) src (i + 1) rest
        (submitReadwrite .write true member page p.sector).2.1 = some (e, member') := by
  obtain ⟨page, hpage, h⟩ := Option.bind_eq_some_iff.mp h
  exact ⟨page, hpage, h⟩

/-- A pass of the read loop. -/
theorem readPieces_cons
    (h : readPieces (.granted fresh) member i (p :: rest) dst = some (e, dst')) :
    ∃ d, Area.copyRange dst p.pos (submitReadwrite .read true member (fresh i) p.sector).2.2
        p.offset p.copy = some d ∧
      readPieces (.granted fresh) member (i + 1) rest d = some (e, dst') := by
  obtain ⟨d, hd, h⟩ := Option.bind_eq_some_iff.mp h
  exact ⟨d, hd, h⟩

/-- The write loop leaves the pages alone in which no piece lies. -/
theorem writePieces_frame {ps : List Piece}
    (h : writePieces (.granted fresh) src i ps member = some (e, member')) {x : ℕ}
    (hx : ∀ p ∈ ps, x / pageSize ≠ p.sector.toNat / 8) : member' x = member x := by
  induction ps generalizing i member with
  | nil =>
    obtain ⟨-, rfl⟩ := Prod.mk.inj (Option.some.inj h)
    rfl
  | cons p rest ih =>
    obtain ⟨page, -, h⟩ := writePieces_cons h
    rw [ih h fun q hq => hx q (List.mem_cons_of_mem p hq),
      submitReadwrite_frame (hx p List.mem_cons_self)]

/-- The read loop leaves the bytes of the segment's page alone that belong to no piece. -/
theorem readPieces_frame {ps : List Piece}
    (h : readPieces (.granted fresh) member i ps dst = some (e, dst')) {z : ℤ}
    (hz : ∀ p ∈ ps, ¬(p.pos ≤ z ∧ z < p.pos + p.copy)) : Area.get dst' z = Area.get dst z := by
  induction ps generalizing i dst with
  | nil =>
    obtain ⟨-, rfl⟩ := Prod.mk.inj (Option.some.inj h)
    rfl
  | cons p rest ih =>
    obtain ⟨d, hd, h⟩ := readPieces_cons h
    rw [ih h fun q hq => hz q (List.mem_cons_of_mem p hq), Area.get_copyRange hd,
      if_neg (hz p List.mem_cons_self)]

end

/-! ### Segments that are damaged -/

section

variable {member : Member} {bv : BioVec Page} {sector : UInt64}

/-- A write takes to the member what the first fresh page holds beside the first piece. -/
theorem nonStripeWrite_beside {fresh : ℕ → Page} {member' : Member} {e : Int32}
    (h : nonStripeWrite (.granted fresh) member bv sector = some (e, member'))
    (hlimit : sector.toNat < 20971520) (k : Fin pageSize)
    (hk : ¬(firstOffset sector ≤ k ∧ k < firstOffset sector + bv.bvLen)) :
    member' (pageSize * (sector.toNat / 8) + k) = fresh 0 k := by
  obtain ⟨rest, heq, hrest⟩ := bv.exists_pieces_eq_cons sector
  rw [nonStripeWrite, heq] at h
  obtain ⟨page, hpage, h⟩ := writePieces_cons h
  have hk' := k.isLt
  have hblock : (pageSize * (sector.toNat / 8) + k) / pageSize = sector.toNat / 8 := by
    rw [Nat.mul_add_div (by decide), Nat.div_eq_of_lt hk', Nat.add_zero]
  have hother : ∀ p ∈ rest, (pageSize * (sector.toNat / 8) + k) / pageSize ≠
      p.sector.toNat / 8 := by
    intro p hp
    obtain ⟨-, -, -, hsector⟩ := hrest p hp
    rw [hblock, hsector, toNat_nextSector (by omega)]
    omega
  have hbyte : Area.get page k = Area.get (fresh 0) k := by
    rw [Area.get_copyRange hpage, if_neg]
    dsimp only
    omega
  have hplace : ((pageSize * (sector.toNat / 8) + k : ℕ) : ℤ) -
      (pageSize * (sector.toNat / 8) : ℕ) = (k : ℕ) := by omega
  rw [writePieces_frame h hother, submitReadwrite_write hlimit, hplace, hbyte,
    Area.get_of_lt _ hk']
  rfl

/-- Behind the limit a read returns what the first fresh page holds. -/
theorem nonStripeRead_first {fresh : ℕ → Page} {dst : Page} {e : Int32}
    (h : nonStripeRead (.granted fresh) member bv sector = some (e, dst))
    (hlimit : 20971520 ≤ sector.toNat) (hlen : 0 < bv.bvLen) :
    Area.get dst bv.bvOffset = Area.get (fresh 0) (firstOffset sector) := by
  have hoff := firstOffset_lt sector
  obtain ⟨rest, heq, hrest⟩ := bv.exists_pieces_eq_cons sector
  rw [nonStripeRead, heq] at h
  obtain ⟨d, hd, h⟩ := readPieces_cons h
  have hother : ∀ p ∈ rest,
      ¬((p.pos : ℤ) ≤ bv.bvOffset ∧ (bv.bvOffset : ℤ) < p.pos + p.copy) := by
    intro p hp
    obtain ⟨-, -, hpos, -⟩ := hrest p hp
    omega
  rw [submitReadwrite_of_le _ hlimit] at hd
  dsimp only at hd
  rw [readPieces_frame h hother, Area.get_copyRange hd, if_pos (by omega)]
  congr 1
  omega

/-- Below the limit only whole pages survive. -/
theorem RoundTrips.whole (h : RoundTrips member bv sector) (hlimit : sector.toNat < 20971520) :
    bv.bvLen = pageSize ∧ 8 ∣ sector.toNat := by
  obtain ⟨member', hwrite, hstored, -⟩ :=
    h fun _ k => member (pageSize * (sector.toNat / 8) + k) + 1
  have hcover : ∀ k : Fin pageSize,
      firstOffset sector ≤ k ∧ k < firstOffset sector + bv.bvLen := by
    intro k
    by_contra hk
    have hfresh := nonStripeWrite_beside hwrite hlimit k hk
    have hstart : 512 * sector.toNat = pageSize * (sector.toNat / 8) + firstOffset sector := by
      rw [firstOffset_eq, pageSize]
      omega
    rw [hstored.frame _ (by omega)] at hfresh
    exact absurd hfresh.symm (by simp)
  have hfits := bv.fits
  have hfirst := (hcover ⟨0, by decide⟩).1
  have hlast := (hcover ⟨pageSize - 1, by decide⟩).2
  have hpage : pageSize = 4096 := rfl
  rw [firstOffset_eq] at hfirst hlast
  dsimp only at hfirst hlast
  omega

/-- Behind the limit only empty segments survive. -/
theorem RoundTrips.empty (h : RoundTrips member bv sector) (hlimit : 20971520 ≤ sector.toNat) :
    bv.bvLen = 0 := by
  by_contra hlen
  have hpos : 0 < bv.bvLen := Nat.pos_of_ne_zero hlen
  have hfits := bv.fits
  obtain ⟨member', -, -, hread⟩ := h fun _ _ => 0
  obtain ⟨dst, hdst, hbytes⟩ :=
    hread (fun _ _ => bv.bvPage ⟨bv.bvOffset, by omega⟩ + 1) bv rfl
  have hfirst := hbytes 0 hpos
  rw [Nat.add_zero, nonStripeRead_first hdst hlimit hpos, Area.get_of_lt _ (firstOffset_lt sector),
    Area.get_of_lt bv.bvPage (by omega)] at hfirst
  exact absurd (Option.some.inj hfirst) (by simp)

end

/-! ### Segments that survive -/

section

variable {fresh : ℕ → Page} {bv : BioVec Page} {sector : UInt64}

/-- The write of a segment with a single piece. -/
theorem nonStripeWrite_of_le (fresh : ℕ → Page) (member : Member) (bv : BioVec Page)
    (sector : UInt64) (h : bv.bvLen ≤ pageSize - firstOffset sector) :
    ∃ page, Area.copyRange (fresh 0) (firstOffset sector) bv.bvPage bv.bvOffset bv.bvLen =
        some page ∧
      nonStripeWrite (.granted fresh) member bv sector =
        some (0, (submitReadwrite .write true member page sector).2.1) := by
  have hlt := firstOffset_lt sector
  obtain ⟨page, hpage⟩ := Area.exists_copyRange (fresh 0) (firstOffset sector) bv.bvPage
    bv.bvOffset bv.bvLen (by omega) bv.fits
  refine ⟨page, hpage, ?_⟩
  rw [nonStripeWrite, bv.pieces_of_le sector h]
  exact Option.bind_eq_some_iff.mpr ⟨page, hpage, rfl⟩

/-- The read of a segment with a single piece. -/
theorem nonStripeRead_of_le (fresh : ℕ → Page) (member : Member) (bv : BioVec Page)
    (sector : UInt64) (h : bv.bvLen ≤ pageSize - firstOffset sector) :
    ∃ dst, Area.copyRange bv.bvPage bv.bvOffset
        (submitReadwrite .read true member (fresh 0) sector).2.2 (firstOffset sector) bv.bvLen =
        some dst ∧
      nonStripeRead (.granted fresh) member bv sector = some (0, dst) := by
  have hlt := firstOffset_lt sector
  obtain ⟨dst, hdst⟩ := Area.exists_copyRange bv.bvPage bv.bvOffset
    (submitReadwrite .read true member (fresh 0) sector).2.2 (firstOffset sector) bv.bvLen
    bv.fits (by omega)
  refine ⟨dst, hdst, ?_⟩
  rw [nonStripeRead, bv.pieces_of_le sector h]
  exact Option.bind_eq_some_iff.mpr ⟨dst, hdst, rfl⟩

theorem roundTrips_of_empty (member : Member) (hlen : bv.bvLen = 0)
    (hlimit : 20971520 ≤ sector.toNat) : RoundTrips member bv sector := by
  intro fresh
  obtain ⟨page, -, hwrite⟩ := nonStripeWrite_of_le fresh member bv sector
    (hlen ▸ Nat.zero_le (pageSize - firstOffset sector))
  rw [submitReadwrite_of_le _ hlimit] at hwrite
  refine ⟨member, hwrite, ⟨fun k hk => absurd hk (by omega), fun _ _ => rfl⟩, ?_⟩
  intro fresh' bv' hlen'
  obtain ⟨dst, -, hread⟩ := nonStripeRead_of_le fresh' member bv' sector
    ((hlen'.trans hlen) ▸ Nat.zero_le (pageSize - firstOffset sector))
  exact ⟨dst, hread, fun k hk => absurd hk (by omega)⟩

/-- A whole page at the boundary of a page. -/
theorem roundTrips_of_whole (member : Member) (hlen : bv.bvLen = pageSize)
    (hsector : 8 ∣ sector.toNat) (hlimit : sector.toNat < 20971520) :
    RoundTrips member bv sector := by
  intro fresh
  have hoff : firstOffset sector = 0 := by rw [firstOffset_eq]; omega
  have hstart : pageSize * (sector.toNat / 8) = 512 * sector.toNat := by rw [pageSize]; omega
  have hbv := bv.fits
  obtain ⟨page, hpage, hwrite⟩ := nonStripeWrite_of_le fresh member bv sector (by omega)
  have hcopied : ∀ k < pageSize, Area.get page k = Area.get bv.bvPage (bv.bvOffset + k : ℕ) := by
    intro k hk
    rw [Area.get_copyRange hpage, if_pos (by omega), hoff]
    congr 1
    omega
  refine ⟨_, hwrite, ⟨fun k hk => ?_, fun x hx => ?_⟩, fun fresh' bv' hlen' => ?_⟩
  · rw [submitReadwrite_write hlimit, hstart, show ((512 * sector.toNat + k : ℕ) : ℤ) -
      (512 * sector.toNat : ℕ) = k by omega, hcopied k (by omega), Area.get_of_lt _ (by omega)]
    rfl
  · rw [submitReadwrite_write hlimit, Area.get_eq_none (by omega)]
    rfl
  · have hbv' := bv'.fits
    obtain ⟨dst, hdst, hread⟩ := nonStripeRead_of_le fresh'
      (submitReadwrite .write true member page sector).2.1 bv' sector (by omega)
    refine ⟨dst, hread, fun k hk => ?_⟩
    rw [Area.get_copyRange hdst, if_pos (by omega), hoff, submitReadwrite_read hlimit,
      show ((bv'.bvOffset + k : ℕ) : ℤ) - bv'.bvOffset + (0 : ℕ) = (k : ℕ) by omega,
      Area.get_of_lt _ (by omega), submitReadwrite_write hlimit]
    dsimp only
    rw [show ((pageSize * (sector.toNat / 8) + k : ℕ) : ℤ) -
      (pageSize * (sector.toNat / 8) : ℕ) = k by omega, hcopied k (by omega),
      Area.get_of_lt _ (by omega)]
    rfl

end

/-- **Which segments survive.** A segment is stored exactly and read back exactly, whatever the
fresh pages hold, if it is a whole page at the boundary of a page below the limit, or if it is
empty and lies behind the limit. No other segment is. -/
theorem roundTrips_iff (member : Member) (bv : BioVec Page) (sector : UInt64) :
    RoundTrips member bv sector ↔
      bv.bvLen = pageSize ∧ 8 ∣ sector.toNat ∧ sector.toNat < 20971520 ∨
      bv.bvLen = 0 ∧ 20971520 ≤ sector.toNat := by
  constructor
  · intro h
    by_cases hlimit : sector.toNat < 20971520
    · obtain ⟨hlen, hsector⟩ := h.whole hlimit
      exact Or.inl ⟨hlen, hsector, hlimit⟩
    · exact Or.inr ⟨h.empty (Nat.le_of_not_lt hlimit), Nat.le_of_not_lt hlimit⟩
  · rintro (⟨hlen, hsector, hlimit⟩ | ⟨hlen, hlimit⟩)
    · exact roundTrips_of_whole member hlen hsector hlimit
    · exact roundTrips_of_empty member hlen hlimit

/-- One sector at the start of a blank member. -/
theorem not_roundTrips_sector :
    ¬RoundTrips (fun _ => 0) ⟨fun _ => 1, 512, 0, by decide⟩ 0 := fun h =>
  absurd (h.whole (by decide)).1 (by decide)

end JRaid
