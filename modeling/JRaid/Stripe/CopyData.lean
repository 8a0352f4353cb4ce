import JRaid.CInt
import JRaid.ForMathlib.Area
import JRaid.Stripe.Basic
import Mathlib.Algebra.Order.Group.Unbundled.Int

/-!
# Copying between a bio and a page

`copy_data` walks along the segments of a bio and copies what they have in common with the page
of a device. It keeps the place of the next segment relative to the page in an `int`, which is
negative as long as the bio has not reached the page. A pass computes with this number in ways
that can wrap around, but what it transfers is the common range (`copyPass_spec`); the run along
the segments is an induction with the place of the segment as its only invariant.

A segment is what `__bio_kmap_atomic` maps. An access that is out of bounds ends the model of
`copy_data` without a result.
-/

namespace JRaid

/-! ### `copy_data` -/

/-- A segment of a bio: its length and its bytes. It lies in a page, so that its length is an
`int`. -/
structure Segment where
  bvLen : ℕ
  bytes : Fin bvLen → UInt8
  bvLen_lt : bvLen < 2 ^ 31

/-- The variables of a pass of `copy_data` that its `memcpy` and its end depend on. -/
structure CopyPass where
  pageOffset : Int32
  bOffset : Int32
  len : Int32
  clen : Int32

/-- `clen` of `copy_data`; `STRIPE_SIZE` is an `unsigned long`. -/
def copyLen (pageOffset len : Int32) : Int32 :=
  if len > 0 ∧ ulong (pageOffset + len) > UInt64.ofNat pageSize then
    int32OfULong (UInt64.ofNat pageSize - ulong pageOffset)
  else len

/-- The arithmetic of a pass of `copy_data`. -/
def copyPass (pageOffset len : Int32) : CopyPass :=
  if pageOffset < 0 then
    let bOffset := -pageOffset
    let pageOffset := pageOffset + bOffset
    let len := len - bOffset
    ⟨pageOffset, bOffset, len, copyLen pageOffset len⟩
  else ⟨pageOffset, 0, len, copyLen pageOffset len⟩

/-- `memcpy` between places that are given by `int` offsets. -/
def memcpyInt {m n : ℕ} (dst : Fin n → UInt8) (i : Int32) (src : Fin m → UInt8) (j len : Int32) :
    Option (Fin n → UInt8) :=
  if 0 ≤ i ∧ 0 ≤ j then
    Area.copyRange dst i.toNatClampNeg src j.toNatClampNeg len.toNatClampNeg
  else none

/-- The transfer of a pass of `copy_data`. -/
def CopyPass.transfer (p : CopyPass) (frombio : Bool) (page : Page) (bvl : Segment) :
    Option (Page × Segment) :=
  if 0 < p.clen then
    if frombio then
      (memcpyInt page p.pageOffset bvl.bytes p.bOffset p.clen).map fun page => (page, bvl)
    else
      (memcpyInt bvl.bytes p.bOffset page p.pageOffset p.clen).map fun b =>
        (page, { bvl with bytes := b })
  else some (page, bvl)

/-- The loop of `copy_data`. -/
def copySegments (frombio : Bool) : Int32 → List Segment → Page → Option (Page × List Segment)
  | _, [], page => some (page, [])
  | pageOffset, bvl :: rest, page => do
    let p := copyPass pageOffset (Int32.ofNat bvl.bvLen)
    let (page, bvl) ← p.transfer frombio page bvl
    if p.clen < p.len then some (page, bvl :: rest)
    else
      let (page, rest) ← copySegments frombio (p.pageOffset + p.len) rest page
      some (page, bvl :: rest)

/-- The first value of `page_offset`. -/
def firstPageOffset (biSector sector : UInt64) : Int32 :=
  if biSector ≥ sector then int32OfULong (biSector - sector) * 512
  else int32OfULong (sector - biSector) * -512

/-- `copy_data`, on a bio that starts at `biSector` and has the segments `bvecs`. -/
def copyData (frombio : Bool) (biSector : UInt64) (bvecs : List Segment) (page : Page)
    (sector : UInt64) : Option (Page × List Segment) :=
  copySegments frombio (firstPageOffset biSector sector) bvecs page

/-! ### Bytes by their places -/

/-- The byte of a bio at a place relative to its start. -/
def bioByte : List Segment → ℤ → Option UInt8
  | [], _ => none
  | bvl :: rest, z => (Area.get bvl.bytes z).or (bioByte rest (z - bvl.bvLen))

theorem bioByte_of_neg {bvecs : List Segment} {z : ℤ} (hz : z < 0) : bioByte bvecs z = none := by
  induction bvecs generalizing z with
  | nil => rfl
  | cons bvl rest ih =>
    rw [bioByte, Area.get_eq_none (by omega), Option.none_or]
    exact ih (by omega)

/-! ### One pass -/

/-- What a pass does with a segment of length `l` that lies at the place `z` relative to the
page: the range that it transfers, and where it goes on. -/
structure CopyPass.Spec (p : CopyPass) (z : ℤ) (l : ℕ) : Prop where
  copies : 0 < p.clen → 0 ≤ p.pageOffset ∧ 0 ≤ p.bOffset ∧
    (p.pageOffset.toNatClampNeg : ℤ) = max z 0 ∧ (p.bOffset.toNatClampNeg : ℤ) = max z 0 - z ∧
    (p.clen.toNatClampNeg : ℤ) = min (z + l) pageSize - max z 0
  skips : ¬0 < p.clen → min (z + l) pageSize ≤ max z 0
  stops : p.clen < p.len → pageSize ≤ z + l
  next : ¬p.clen < p.len → (p.pageOffset + p.len).toInt = z + l

/-- The lower end of a pass: the part of the segment before the page is left out. Where
`b_offset` has wrapped around, the whole segment lies before the page. -/
theorem toInt_copyPass (pageOffset : Int32) {l : ℕ} (hl : l < 2 ^ 31) :
    let p := copyPass pageOffset (Int32.ofNat l)
    p.pageOffset.toInt = max pageOffset.toInt 0 ∧ p.len.toInt = l + min pageOffset.toInt 0 ∧
      (0 < p.len.toInt → p.bOffset.toInt = max pageOffset.toInt 0 - pageOffset.toInt) ∧
      p.clen = copyLen p.pageOffset p.len := by
  have hlo := pageOffset.le_toInt
  have hhi := pageOffset.toInt_lt
  have hlen : (Int32.ofNat l).toInt = l := Int32.toInt_ofNat_of_lt hl
  unfold copyPass
  split_ifs with hneg
  all_goals rw [Int32.lt_iff_toInt_lt, Int32.toInt_zero] at hneg
  · simp only [Int32.toInt_add, Int32.toInt_sub, Int32.toInt_neg, hlen, Int.bmod_def]
    refine ⟨?_, ?_, ?_, trivial⟩ <;> omega
  · simp only [Int32.toInt_zero, hlen]
    refine ⟨?_, ?_, ?_, trivial⟩ <;> omega

/-- The upper end of a pass: the part behind the page is left out. -/
theorem toInt_copyLen {pageOffset len : Int32} (hp : 0 ≤ pageOffset.toInt) :
    (copyLen pageOffset len).toInt =
      if 0 < len.toInt ∧ pageSize < pageOffset.toInt + len.toInt then pageSize - pageOffset.toInt
      else len.toInt := by
  have hphi := pageOffset.toInt_lt
  have hlhi := len.toInt_lt
  have hstart := toNat_ulong_eq_emod pageOffset
  have hend := toNat_ulong_eq_emod (pageOffset + len)
  have hiff : (len > 0 ∧ ulong (pageOffset + len) > UInt64.ofNat pageSize) ↔
      0 < len.toInt ∧ pageSize < pageOffset.toInt + len.toInt := by
    rw [Int32.toInt_add, Int.bmod_def] at hend
    rw [gt_iff_lt, gt_iff_lt, Int32.lt_iff_toInt_lt, Int32.toInt_zero, UInt64.lt_iff_toNat_lt,
      show (UInt64.ofNat pageSize).toNat = pageSize from rfl, pageSize]
    omega
  rw [copyLen]
  simp only [hiff]
  split_ifs with h
  · rw [toInt_int32OfULong_eq_bmod, UInt64.toNat_sub,
      show (UInt64.ofNat pageSize).toNat = pageSize from rfl, Int.bmod_def, pageSize]
    omega
  · rfl

theorem copyPass_spec (pageOffset : Int32) {l : ℕ} (hl : l < 2 ^ 31) :
    (copyPass pageOffset (Int32.ofNat l)).Spec pageOffset.toInt l := by
  obtain ⟨hp, hlen, hb, hclen⟩ := toInt_copyPass pageOffset hl
  generalize copyPass pageOffset (Int32.ofNat l) = p at *
  have hc := @toInt_copyLen p.pageOffset p.len (hp ▸ le_max_right _ _)
  rw [← hclen] at hc
  have hlo := pageOffset.le_toInt
  have hhi := pageOffset.toInt_lt
  rw [pageSize] at hc
  refine ⟨fun hpos => ?_, fun hpos => ?_, fun hstop => ?_, fun hstop => ?_⟩
  all_goals simp only [Int32.lt_iff_toInt_lt, Int32.toInt_zero] at *
  · have hpos' : 0 ≤ p.pageOffset := by rw [Int32.le_iff_toInt_le, hp]; exact le_max_right _ _
    have hlenpos : 0 < p.len.toInt := by split_ifs at hc <;> omega
    have hb' : 0 ≤ p.bOffset := by
      rw [Int32.le_iff_toInt_le, hb hlenpos, Int32.toInt_zero]
      omega
    have hc' : 0 ≤ p.clen := by rw [Int32.le_iff_toInt_le, Int32.toInt_zero]; exact hpos.le
    rw [← toInt_eq_toNatClampNeg hpos', ← toInt_eq_toNatClampNeg hb',
      ← toInt_eq_toNatClampNeg hc']
    refine ⟨hpos', hb', hp, hb hlenpos, ?_⟩
    rw [hc, pageSize]
    split_ifs <;> omega
  · rw [pageSize]
    split_ifs at hc <;> omega
  · rw [pageSize]
    split_ifs at hc <;> omega
  · rw [Int32.toInt_add, Int.bmod_def]
    split_ifs at hc <;> omega

/-! ### The run along the segments -/

open Area

section

variable {p : CopyPass} {z : ℤ} {bvl : Segment}

/-- A pass from the bio lays the segment over the page. -/
theorem CopyPass.Spec.transfer_from (h : p.Spec z bvl.bvLen) (page : Page) :
    p.transfer true page bvl = some (overlay page bvl.bytes z, bvl) := by
  rw [transfer]
  by_cases hpos : 0 < p.clen
  · obtain ⟨hp, hb, hi, hj, hlen⟩ := h.copies hpos
    rw [if_pos hpos, if_pos rfl, memcpyInt, if_pos ⟨hp, hb⟩,
      copyRange_eq_overlay page bvl.bytes hi hj hlen]
    rfl
  · rw [if_neg hpos, overlay_eq_self (h.skips hpos)]

/-- A pass to the bio lays the page over the segment. -/
theorem CopyPass.Spec.transfer_to (h : p.Spec z bvl.bvLen) (page : Page) :
    p.transfer false page bvl = some (page, { bvl with bytes := overlay bvl.bytes page (-z) }) := by
  rw [transfer]
  by_cases hpos : 0 < p.clen
  · obtain ⟨hp, hb, hi, hj, hlen⟩ := h.copies hpos
    rw [if_pos hpos, if_neg Bool.false_ne_true, memcpyInt, if_pos ⟨hb, hp⟩,
      copyRange_eq_overlay (z := -z) bvl.bytes page (hj.trans (by omega)) (hi.trans (by omega))
        (hlen.trans (by omega))]
    rfl
  · have hskip := h.skips hpos
    rw [if_neg hpos, overlay_eq_self (by omega)]

end

/-- The page with the segments of a bio laid over it, the first one from the place `z` on. -/
def pageOverlay : ℤ → List Segment → Page → Page
  | _, [], page => page
  | z, bvl :: rest, page => pageOverlay (z + bvl.bvLen) rest (overlay page bvl.bytes z)

/-- The segments of a bio with the page laid over them. -/
def bioOverlay (page : Page) : ℤ → List Segment → List Segment
  | _, [] => []
  | z, bvl :: rest =>
    { bvl with bytes := overlay bvl.bytes page (-z) } :: bioOverlay page (z + bvl.bvLen) rest

variable {z : ℤ} {bvecs : List Segment} {page : Page}

/-- Segments behind the page leave it alone. -/
theorem pageOverlay_eq_self (hz : pageSize ≤ z) : pageOverlay z bvecs page = page := by
  induction bvecs generalizing z with
  | nil => rfl
  | cons bvl rest ih => rw [pageOverlay, overlay_eq_self (by omega), ih (by omega)]

/-- The page leaves segments behind it alone. -/
theorem bioOverlay_eq_self (hz : pageSize ≤ z) : bioOverlay page z bvecs = bvecs := by
  induction bvecs generalizing z with
  | nil => rfl
  | cons bvl rest ih => rw [bioOverlay, overlay_eq_self (by omega), ih (by omega)]

/-- **The loop from the bio** lays the segments over the page. -/
theorem copySegments_from (pageOffset : Int32) (bvecs : List Segment) (page : Page) :
    copySegments true pageOffset bvecs page =
      some (pageOverlay pageOffset.toInt bvecs page, bvecs) := by
  induction bvecs generalizing pageOffset page with
  | nil => rfl
  | cons bvl rest ih =>
    have h := copyPass_spec pageOffset bvl.bvLen_lt
    simp only [copySegments, h.transfer_from page, Option.bind_eq_bind, Option.bind_some]
    split_ifs with hstop
    · rw [pageOverlay, pageOverlay_eq_self (h.stops hstop)]
    · rw [ih, Option.bind_some, pageOverlay, h.next hstop]

/-- **The loop to the bio** lays the page over the segments. -/
theorem copySegments_to (pageOffset : Int32) (bvecs : List Segment) (page : Page) :
    copySegments false pageOffset bvecs page =
      some (page, bioOverlay page pageOffset.toInt bvecs) := by
  induction bvecs generalizing pageOffset with
  | nil => rfl
  | cons bvl rest ih =>
    have h := copyPass_spec pageOffset bvl.bvLen_lt
    simp only [copySegments, h.transfer_to page, Option.bind_eq_bind, Option.bind_some]
    split_ifs with hstop
    · rw [bioOverlay, bioOverlay_eq_self (h.stops hstop)]
    · rw [ih, Option.bind_some, bioOverlay, h.next hstop]

/-! ### Byte by byte -/

/-- A byte of the page, after the segments have been laid over it. -/
theorem get_pageOverlay (z : ℤ) (bvecs : List Segment) (page : Page) (w : ℤ) :
    get (pageOverlay z bvecs page) w =
      (get page w).map fun b => (bioByte bvecs (w - z)).getD b := by
  induction bvecs generalizing z page with
  | nil => simp [pageOverlay, bioByte]
  | cons bvl rest ih =>
    rw [pageOverlay, ih, get_overlay, Option.map_map, bioByte, show w - (z + bvl.bvLen) =
      w - z - bvl.bvLen by omega]
    refine Option.map_congr fun b _ => ?_
    by_cases hin : 0 ≤ w - z ∧ w - z < bvl.bvLen
    · rw [bioByte_of_neg (by omega), Option.or_none]
      rfl
    · rw [get_eq_none hin, Option.none_or]
      rfl

/-- A byte of the bio, after the page has been laid over its segments. -/
theorem bioByte_bioOverlay (page : Page) (z : ℤ) (bvecs : List Segment) (w : ℤ) :
    bioByte (bioOverlay page z bvecs) w =
      (bioByte bvecs w).map fun b => (get page (w + z)).getD b := by
  induction bvecs generalizing z w with
  | nil => rfl
  | cons bvl rest ih =>
    rw [bioOverlay, bioByte, bioByte, ih, get_overlay, Option.map_or, show w - -z = w + z by omega,
      show w - bvl.bvLen + (z + bvl.bvLen) = w + z by omega]

theorem map_bvLen_bioOverlay (page : Page) (z : ℤ) (bvecs : List Segment) :
    (bioOverlay page z bvecs).map Segment.bvLen = bvecs.map Segment.bvLen := by
  induction bvecs generalizing z with
  | nil => rfl
  | cons bvl rest ih => rw [bioOverlay, List.map_cons, List.map_cons, ih]

/-! ### `copy_data` -/

/-- The byte that a page which starts at a sector holds of a byte position of the device. -/
def pageByteAt (sector : UInt64) (page : Page) (pos : ℕ) : Option UInt8 :=
  get page (pos - 512 * sector.toNat)

/-- The byte that a bio which starts at a sector has for a byte position of the device. -/
def bioByteAt (biSector : UInt64) (bvecs : List Segment) (pos : ℕ) : Option UInt8 :=
  bioByte bvecs (pos - 512 * biSector.toNat)

/-- The first value of `page_offset` is the distance in bytes, if that is an `int`. -/
theorem toInt_firstPageOffset {biSector sector : UInt64}
    (hlo : -2 ^ 31 ≤ 512 * (biSector.toNat : ℤ) - 512 * sector.toNat)
    (hhi : 512 * (biSector.toNat : ℤ) - 512 * sector.toNat < 2 ^ 31) :
    (firstPageOffset biSector sector).toInt =
      512 * (biSector.toNat : ℤ) - 512 * sector.toNat := by
  have hbi := biSector.toNat_lt
  have hsector := sector.toNat_lt
  unfold firstPageOffset
  simp only [ge_iff_le, UInt64.le_iff_toNat_le]
  split_ifs with hle
  · rw [Int32.toInt_mul, toInt_int32OfULong_eq_bmod, UInt64.toNat_sub]
    simp only [Int.bmod_def, Int32.reduceToInt]
    omega
  · rw [Int32.toInt_mul, toInt_int32OfULong_eq_bmod, UInt64.toNat_sub]
    simp only [Int.bmod_def, Int32.reduceToInt]
    omega

/-- **`copy_data` copies exactly the intersection.** If the distance between the start of a bio
and the start of a page is an `int`, then `copy_data` makes no access outside the page or a
segment. From the bio it writes to the page the bytes that the bio has for it, and to the bio the
bytes that the page has for it, and it leaves all other bytes alone. -/
theorem copyData_intersection (biSector sector : UInt64) (bvecs : List Segment) (page : Page)
    (hlo : -2 ^ 31 ≤ 512 * (biSector.toNat : ℤ) - 512 * sector.toNat)
    (hhi : 512 * (biSector.toNat : ℤ) - 512 * sector.toNat < 2 ^ 31) :
    (∃ page', copyData true biSector bvecs page sector = some (page', bvecs) ∧
      ∀ pos, pageByteAt sector page' pos =
        (pageByteAt sector page pos).map fun b => (bioByteAt biSector bvecs pos).getD b) ∧
    ∃ bvecs', copyData false biSector bvecs page sector = some (page, bvecs') ∧
      bvecs'.map Segment.bvLen = bvecs.map Segment.bvLen ∧
      ∀ pos, bioByteAt biSector bvecs' pos =
        (bioByteAt biSector bvecs pos).map fun b => (pageByteAt sector page pos).getD b := by
  have hoff := toInt_firstPageOffset hlo hhi
  refine ⟨⟨_, copySegments_from _ _ _, fun pos => ?_⟩, _, copySegments_to _ _ _,
    map_bvLen_bioOverlay _ _ _, fun pos => ?_⟩
  · rw [pageByteAt, get_pageOverlay, hoff, pageByteAt, bioByteAt]
    congr! 4
    omega
  · rw [bioByteAt, bioByte_bioOverlay, hoff, pageByteAt, bioByteAt]
    congr! 4
    omega

/-- A bio that starts a sector before the page and ends in it. -/
theorem copyData_intersection_two :
    let bvecs : List Segment := [⟨512, fun _ => 1, by decide⟩, ⟨1024, fun _ => 2, by decide⟩]
    ∃ page', copyData true 7 bvecs (fun _ => 0) 8 = some (page', bvecs) ∧
      pageByteAt 8 page' 4096 = some 2 ∧ pageByteAt 8 page' 5120 = some 0 := by
  intro bvecs
  obtain ⟨⟨page', heq, hbytes⟩, -⟩ :=
    copyData_intersection 7 8 bvecs (fun _ => 0) (by decide) (by decide)
  exact ⟨page', heq, (hbytes _).trans (by decide), (hbytes _).trans (by decide)⟩

end JRaid
