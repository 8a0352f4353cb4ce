import Mathlib.Data.List.TakeWhile
import Mathlib.Data.Nat.Digits.Defs
import Mathlib.Tactic

/-!
# `sscanf`

`sscanf` reads a text by a format of blanks, `%s` and `%d`, and stores one value for each conversion
until one fails; what belongs to the later ones is left alone. Blanks before a conversion are passed
over, a string ends at the next blank, and a number at the first byte that is not a digit. A number
may have a minus sign but no plus sign, and is taken modulo the size of an `int`.

`Reads` is the grammar of the texts that a format reads to its end. `sscanf` stores a value for each
conversion exactly on these texts, and what it stores is what the grammar says
(`reads_iff`).
-/

namespace Sscanf

/-! ### Bytes -/

/-- Blanks, as in Latin 1. -/
def isSpace (c : UInt8) : Bool := (9 ≤ c && c ≤ 13) || c = 32 || c = 160

def isDigit (c : UInt8) : Bool := 48 ≤ c && c ≤ 57

/-- The sign of a negative number. -/
def minus : UInt8 := 45

theorem isSpace_minus : isSpace minus = false := by decide

theorem isSpace_of_isDigit {c : UInt8} (h : isDigit c) : isSpace c = false := by
  simp only [isDigit, Bool.and_eq_true, decide_eq_true_eq, UInt8.le_iff_toNat_le,
    UInt8.reduceToNat] at h
  rw [Bool.eq_false_iff]
  intro hspace
  simp only [isSpace, Bool.or_eq_true, Bool.and_eq_true, decide_eq_true_eq,
    UInt8.le_iff_toNat_le, ← UInt8.toNat_inj, UInt8.reduceToNat] at hspace
  omega

/-! ### The scanner -/

/-- A directive of a format: blanks, `%s` or `%d`. -/
inductive Directive where
  | space
  | str
  | int
  deriving DecidableEq

/-- What a conversion stores. -/
inductive Value where
  | str (s : List UInt8)
  | int (n : Int32)
  deriving DecidableEq

/-- The width of a `%s` without one. -/
def shrtMax : ℕ := 32767

/-- `simple_strtoull`, for decimal digits. -/
def simpleStrtoull (digits : List UInt8) : UInt64 :=
  digits.foldl (fun n c => n * 10 + (c - 48).toUInt64) 0

/-- The digits that a text begins with, and what is behind them. -/
def readDigits (text : List UInt8) : Option (UInt64 × List UInt8) :=
  let digits := text.takeWhile isDigit
  if digits = [] then none else some (simpleStrtoull digits, text.dropWhile isDigit)

/-- The number that a text begins with, and what is behind it. -/
def readInt (text : List UInt8) : Option (Int32 × List UInt8) :=
  if text.head? = some minus then
    (readDigits text.tail).map fun r => ((-r.1).toUInt32.toInt32, r.2)
  else (readDigits text).map fun r => (r.1.toUInt32.toInt32, r.2)

/-- `sscanf`: the values that it stores. -/
def sscanf : List Directive → List UInt8 → List Value
  | [], _ => []
  | .space :: fmt, text => sscanf fmt (text.dropWhile isSpace)
  | .str :: fmt, text =>
    if text = [] then []
    else
      let text := text.dropWhile isSpace
      let s := (text.takeWhile fun c => !isSpace c).take shrtMax
      .str s :: sscanf fmt (text.drop s.length)
  | .int :: fmt, text =>
    if text = [] then []
    else
      match readInt (text.dropWhile isSpace) with
      | none => []
      | some (n, text) => .int n :: sscanf fmt text

/-- The number of conversions. -/
def conversions (fmt : List Directive) : ℕ := fmt.countP (· ≠ .space)

/-! ### The longest piece of a kind -/

section Pieces

variable {α : Type*} {p : α → Bool} {w rest text : List α}

/-- The text does not go on with an element that has `p`. -/
def Stops (p : α → Bool) (rest : List α) : Prop := ∀ c ∈ rest.head?, p c = false

theorem stops_nil : Stops p [] := nofun

theorem stops_cons {c : α} : Stops p (c :: rest) ↔ p c = false := by simp [Stops]

theorem stops_dropWhile (text : List α) : Stops p (text.dropWhile p) := by
  intro c hc
  have h := List.head?_dropWhile_not p text
  rw [Option.mem_def.mp hc] at h
  simpa using h

theorem takeWhile_append_of_stops (hw : ∀ c ∈ w, p c) (h : Stops p rest) :
    (w ++ rest).takeWhile p = w := by
  rw [List.takeWhile_append_of_pos hw]
  cases rest with
  | nil => rw [List.takeWhile_nil, List.append_nil]
  | cons c rest => rw [List.takeWhile_cons, if_neg (by simp [stops_cons.mp h]), List.append_nil]

theorem dropWhile_append_of_stops (hw : ∀ c ∈ w, p c) (h : Stops p rest) :
    (w ++ rest).dropWhile p = rest := by
  rw [List.dropWhile_append_of_pos hw]
  cases rest with
  | nil => rfl
  | cons c rest => rw [List.dropWhile_cons, if_neg (by simp [stops_cons.mp h])]

theorem stops_append (hw : Stops p w) (h : w = [] → Stops p rest) : Stops p (w ++ rest) := by
  cases w with
  | nil => exact h rfl
  | cons c w => exact stops_cons.mpr (stops_cons.mp hw)

theorem drop_length_takeWhile (p : α → Bool) (text : List α) :
    text.drop (text.takeWhile p).length = text.dropWhile p := by
  induction text with
  | nil => rfl
  | cons c text ih =>
    rw [List.takeWhile_cons, List.dropWhile_cons]
    split
    · exact ih
    · rfl

end Pieces

/-! ### Numbers -/

/-- The number that decimal digits stand for. -/
def number (digits : List UInt8) : ℕ := digits.foldl (fun n c => n * 10 + (c.toNat - 48)) 0

/-- The text is a number: digits, or a minus sign and digits. -/
inductive Numeral : List UInt8 → ℤ → Prop
  | pos {digits : List UInt8} (hne : digits ≠ []) (h : ∀ c ∈ digits, isDigit c) :
    Numeral digits (number digits)
  | neg {digits : List UInt8} (hne : digits ≠ []) (h : ∀ c ∈ digits, isDigit c) :
    Numeral (minus :: digits) (-number digits)

theorem simpleStrtoull_eq {digits : List UInt8} (h : ∀ c ∈ digits, isDigit c) :
    simpleStrtoull digits = UInt64.ofNat (number digits) := by
  have hgeneral : ∀ n : ℕ, digits.foldl (fun n c => n * 10 + (c - 48).toUInt64) (UInt64.ofNat n) =
      UInt64.ofNat (digits.foldl (fun n c => n * 10 + (c.toNat - 48)) n) := by
    induction digits with
    | nil => exact fun _ => rfl
    | cons c digits ih =>
      intro n
      obtain ⟨hc, hdigits⟩ := List.forall_mem_cons.mp h
      have hle : 48 ≤ c := by
        rw [isDigit, Bool.and_eq_true, decide_eq_true_eq] at hc
        exact hc.1
      have hvalue : (c - 48).toUInt64 = UInt64.ofNat (c.toNat - 48) := by
        rw [← UInt64.toNat_inj, UInt8.toNat_toUInt64, UInt8.toNat_sub_of_le _ _ hle,
          UInt64.toNat_ofNat_of_lt'
            (by exact (Nat.sub_le _ _).trans_lt (c.toNat_lt.trans (by decide)))]
        rfl
      rw [List.foldl_cons, List.foldl_cons, ← ih hdigits, UInt64.ofNat_add, UInt64.ofNat_mul,
        hvalue]
      rfl
  exact hgeneral 0

/-- The first byte of a number is not a blank. -/
theorem Numeral.stops_isSpace {t : List UInt8} {z : ℤ} (h : Numeral t z) : Stops isSpace t := by
  cases h with
  | pos hne h =>
    intro c hc
    exact isSpace_of_isDigit (h c (List.mem_of_mem_head? hc))
  | neg => exact stops_cons.mpr isSpace_minus

theorem Numeral.ne_nil {t : List UInt8} {z : ℤ} (h : Numeral t z) : t ≠ [] := by
  cases h with
  | pos hne => exact hne
  | neg => exact List.cons_ne_nil _ _

theorem toInt32_ofNat (n : ℕ) : (UInt64.ofNat n).toUInt32.toInt32 = Int32.ofInt n := by
  rw [UInt64.toUInt32_ofNat', Int32.ofInt_eq_ofNat]
  rfl

theorem toInt32_neg_ofNat (n : ℕ) : (-UInt64.ofNat n).toUInt32.toInt32 = Int32.ofInt (-n) := by
  rw [UInt64.toUInt32_neg, UInt64.toUInt32_ofNat', Int32.ofInt_neg, Int32.ofInt_eq_ofNat]
  rfl

theorem readDigits_eq_some_iff {text rest : List UInt8} {n : UInt64} :
    readDigits text = some (n, rest) ↔ ∃ digits, digits ≠ [] ∧ (∀ c ∈ digits, isDigit c) ∧
      Stops isDigit rest ∧ text = digits ++ rest ∧ n = UInt64.ofNat (number digits) := by
  rw [readDigits]
  constructor
  · intro h
    split at h
    · cases h
    rename_i hne
    obtain ⟨rfl, rfl⟩ := Prod.mk.inj (Option.some.inj h)
    have hdigits : ∀ c ∈ text.takeWhile isDigit, isDigit c := fun c => List.mem_takeWhile_imp
    exact ⟨_, hne, hdigits, stops_dropWhile _, List.takeWhile_append_dropWhile.symm,
      simpleStrtoull_eq hdigits⟩
  · rintro ⟨digits, hne, hdigits, hstop, rfl, rfl⟩
    rw [takeWhile_append_of_stops hdigits hstop, dropWhile_append_of_stops hdigits hstop,
      if_neg hne, simpleStrtoull_eq hdigits]

/-- **What is read of a number**: its value, modulo the size of an `int`. -/
theorem readInt_eq_some_iff {text rest : List UInt8} {n : Int32} :
    readInt text = some (n, rest) ↔ ∃ t z, Numeral t z ∧ Stops isDigit rest ∧
      text = t ++ rest ∧ n = Int32.ofInt z := by
  rw [readInt]
  constructor
  · intro h
    split at h
    · rename_i hneg
      obtain ⟨⟨m, rest⟩, hread, heq⟩ := Option.map_eq_some_iff.mp h
      obtain ⟨rfl, rfl⟩ := Prod.mk.inj heq
      obtain ⟨digits, hne, hdigits, hstop, htail, rfl⟩ := readDigits_eq_some_iff.mp hread
      refine ⟨_, _, .neg hne hdigits, hstop, ?_, toInt32_neg_ofNat _⟩
      rw [List.cons_append, ← htail]
      exact (List.cons_head?_tail hneg).symm
    · obtain ⟨⟨m, rest⟩, hread, heq⟩ := Option.map_eq_some_iff.mp h
      obtain ⟨rfl, rfl⟩ := Prod.mk.inj heq
      obtain ⟨digits, hne, hdigits, hstop, rfl, rfl⟩ := readDigits_eq_some_iff.mp hread
      exact ⟨_, _, .pos hne hdigits, hstop, rfl, toInt32_ofNat _⟩
  · rintro ⟨t, z, ht, hstop, rfl, rfl⟩
    cases ht with
    | pos hne hdigits =>
      obtain ⟨c, digits, rfl⟩ := List.exists_cons_of_ne_nil hne
      have hread := readDigits_eq_some_iff.mpr ⟨_, hne, hdigits, hstop, rfl, rfl⟩
      rw [if_neg, hread, Option.map_some, toInt32_ofNat]
      intro heq
      obtain rfl : c = minus := by simpa using heq
      exact absurd (hdigits minus List.mem_cons_self) (by decide)
    | neg hne hdigits =>
      have hread := readDigits_eq_some_iff.mpr ⟨_, hne, hdigits, hstop, rfl, rfl⟩
      rw [List.cons_append, if_pos List.head?_cons, List.tail_cons, hread, Option.map_some,
        toInt32_neg_ofNat]

/-! ### Texts that are read to the end of a format -/

/-- The grammar of a format: what it reads, and the values. Each piece is as long as it can be. -/
inductive Reads : List Directive → List UInt8 → List Value → Prop
  | nil (text : List UInt8) : Reads [] text []
  | space {fmt : List Directive} {w rest : List UInt8} {vs : List Value}
    (hw : ∀ c ∈ w, isSpace c) (hstop : Stops isSpace rest) (h : Reads fmt rest vs) :
    Reads (.space :: fmt) (w ++ rest) vs
  | str {fmt : List Directive} {w s rest : List UInt8} {vs : List Value}
    (hw : ∀ c ∈ w, isSpace c) (hs : ∀ c ∈ s, isSpace c = false)
    (hstop : Stops (fun c => !isSpace c) rest) (hempty : s = [] → w ≠ [] ∧ rest = [])
    (hwidth : s.length < shrtMax) (h : Reads fmt rest vs) :
    Reads (.str :: fmt) (w ++ (s ++ rest)) (.str s :: vs)
  | int {fmt : List Directive} {w t rest : List UInt8} {z : ℤ} {vs : List Value}
    (hw : ∀ c ∈ w, isSpace c) (ht : Numeral t z) (hstop : Stops isDigit rest)
    (h : Reads fmt rest vs) :
    Reads (.int :: fmt) (w ++ (t ++ rest)) (.int (Int32.ofInt z) :: vs)

theorem conversions_cons {d : Directive} {fmt : List Directive} (h : d ≠ .space) :
    conversions (d :: fmt) = conversions fmt + 1 := by
  rw [conversions, List.countP_cons_of_pos (by simpa using h)]
  rfl

/-- The values of the grammar are stored. -/
theorem Reads.sscanf_eq {fmt : List Directive} {text : List UInt8} {vs : List Value}
    (h : Reads fmt text vs) : sscanf fmt text = vs := by
  induction h with
  | nil => rfl
  | space hw hstop _ ih => rw [sscanf, dropWhile_append_of_stops hw hstop, ih]
  | @str fmt w s rest vs hw hs hstop hempty hwidth _ ih =>
    have hne : w ++ (s ++ rest) ≠ [] := fun heq => by
      obtain ⟨hnil, heq⟩ := List.append_eq_nil_iff.mp heq
      exact (hempty (List.append_eq_nil_iff.mp heq).1).1 hnil
    have hspace : Stops isSpace (s ++ rest) := by
      cases s with
      | nil =>
        rw [(hempty rfl).2]
        exact stops_nil
      | cons c s => exact stops_cons.mpr (hs c List.mem_cons_self)
    have hs' : ∀ c ∈ s, (!isSpace c) = true := fun c hc => by rw [hs c hc, Bool.not_false]
    rw [sscanf, if_neg hne]
    dsimp only
    rw [dropWhile_append_of_stops hw hspace, takeWhile_append_of_stops hs' hstop,
      List.take_of_length_le hwidth.le, List.drop_left, ih]
  | @int fmt w t rest z vs hw ht hstop _ ih =>
    have hne : w ++ (t ++ rest) ≠ [] := fun heq =>
      ht.ne_nil (List.append_eq_nil_iff.mp (List.append_eq_nil_iff.mp heq).2).1
    have hspace : Stops isSpace (t ++ rest) :=
      stops_append ht.stops_isSpace fun h => absurd h ht.ne_nil
    rw [sscanf, if_neg hne, dropWhile_append_of_stops hw hspace,
      readInt_eq_some_iff.mpr ⟨t, z, ht, hstop, rfl, rfl⟩]
    dsimp only
    rw [ih]

/-- Where all conversions have stored something, the text is in the grammar. -/
theorem reads_of_sscanf {fmt : List Directive} {text : List UInt8}
    (hlen : (sscanf fmt text).length = conversions fmt)
    (hwidth : ∀ s, Value.str s ∈ sscanf fmt text → s.length < shrtMax) :
    Reads fmt text (sscanf fmt text) := by
  induction fmt generalizing text with
  | nil => exact .nil text
  | cons d fmt ih =>
    cases d with
    | space =>
      have h := @ih (text.dropWhile isSpace) hlen hwidth
      have hread := Reads.space (w := text.takeWhile isSpace) (fun c => List.mem_takeWhile_imp)
        (stops_dropWhile text) h
      rwa [List.takeWhile_append_dropWhile] at hread
    | str =>
      rw [conversions_cons (by decide)] at hlen
      rw [sscanf] at hlen hwidth ⊢
      split at hlen
      · cases hlen
      rename_i hne
      rw [if_neg hne] at hwidth ⊢
      dsimp only at hlen hwidth ⊢
      -- the string is cut off at the next blank, and not by the width
      have hshort := hwidth _ List.mem_cons_self
      have htake : ((text.dropWhile isSpace).takeWhile fun c => !isSpace c).take shrtMax =
          (text.dropWhile isSpace).takeWhile fun c => !isSpace c := by
        rw [List.length_take] at hshort
        exact List.take_of_length_le (by omega)
      rw [htake] at hlen hwidth hshort ⊢
      rw [drop_length_takeWhile] at hlen hwidth ⊢
      have h := ih (Nat.succ.inj hlen) fun s hs => hwidth s (List.mem_cons_of_mem _ hs)
      have hread := Reads.str (w := text.takeWhile isSpace)
        (s := (text.dropWhile isSpace).takeWhile fun c => !isSpace c)
        (fun c => List.mem_takeWhile_imp) (fun c hc => by simpa using List.mem_takeWhile_imp hc)
        (stops_dropWhile _) ?_ hshort h
      · rwa [List.takeWhile_append_dropWhile, List.takeWhile_append_dropWhile] at hread
      · intro hnil
        cases hrest : text.dropWhile isSpace with
        | nil =>
          refine ⟨fun hw => hne ?_, rfl⟩
          rw [← List.takeWhile_append_dropWhile (p := isSpace) (l := text), hw, hrest]
          rfl
        | cons c rest =>
          have hc := stops_cons.mp (hrest ▸ stops_dropWhile (p := isSpace) text)
          rw [hrest, List.takeWhile_cons, if_pos (by rw [hc, Bool.not_false])] at hnil
          cases hnil
    | int =>
      rw [conversions_cons (by decide)] at hlen
      rw [sscanf] at hlen hwidth ⊢
      split at hlen
      · cases hlen
      rename_i hne
      rw [if_neg hne] at hwidth ⊢
      split at hlen
      · cases hlen
      rename_i n rest hint
      rw [hint] at hwidth
      dsimp only at hwidth
      have h := ih (Nat.succ.inj hlen) fun s hs => hwidth s (List.mem_cons_of_mem _ hs)
      obtain ⟨t, z, ht, hstop, heq, rfl⟩ := readInt_eq_some_iff.mp hint
      have hread := Reads.int (w := text.takeWhile isSpace) (fun c => List.mem_takeWhile_imp) ht
        hstop h
      rwa [← heq, List.takeWhile_append_dropWhile] at hread

/-- **What `sscanf` reads to the end** is what is in the grammar, as long as no string is cut
off. -/
theorem reads_iff {fmt : List Directive} {text : List UInt8} {vs : List Value} :
    Reads fmt text vs ↔ sscanf fmt text = vs ∧ vs.length = conversions fmt ∧
      ∀ s, Value.str s ∈ vs → s.length < shrtMax := by
  constructor
  · intro h
    refine ⟨h.sscanf_eq, ?_⟩
    induction h with
    | nil => exact ⟨rfl, nofun⟩
    | space _ _ _ ih => exact ih
    | str _ _ _ _ hwidth _ ih =>
      refine ⟨by rw [conversions_cons (by decide), ← ih.1]; rfl, fun s hs => ?_⟩
      rcases List.mem_cons.mp hs with heq | hs
      · rw [Value.str.inj heq]
        exact hwidth
      · exact ih.2 s hs
    | int _ _ _ _ ih =>
      refine ⟨by rw [conversions_cons (by decide), ← ih.1]; rfl, fun s hs => ?_⟩
      rcases List.mem_cons.mp hs with heq | hs
      · cases heq
      · exact ih.2 s hs
  · rintro ⟨rfl, hlen, hwidth⟩
    exact reads_of_sscanf hlen hwidth

/-! ### Writing numbers -/

/-- The decimal digits of a number. -/
def decimalDigits (n : ℕ) : List UInt8 :=
  if n = 0 then [48] else (Nat.digits 10 n).reverse.map fun d => UInt8.ofNat (48 + d)

/-- A number as `%d` writes it. -/
def decimal (n : Int32) : List UInt8 :=
  if n < 0 then minus :: decimalDigits n.toInt.natAbs else decimalDigits n.toInt.natAbs

theorem toNat_digit {d : ℕ} (h : d < 10) : (UInt8.ofNat (48 + d)).toNat = 48 + d :=
  UInt8.toNat_ofNat_of_lt' (by change 48 + d < 256; omega)

theorem number_decimalDigits (n : ℕ) : number (decimalDigits n) = n := by
  by_cases hzero : n = 0
  · subst hzero
    rfl
  have hstep : ∀ c d : ℕ, d ∈ Nat.digits 10 n →
      c * 10 + ((UInt8.ofNat (48 + d)).toNat - 48) = d + 10 * c := fun c d hd => by
    rw [toNat_digit (Nat.digits_lt_base (by decide) hd)]
    omega
  rw [decimalDigits, if_neg hzero, number, List.foldl_map, List.foldl_reverse]
  conv_rhs => rw [← Nat.ofDigits_digits 10 n, Nat.ofDigits_eq_foldr]
  exact List.foldr_ext _ _ _ fun d hd c => hstep c d hd

theorem isDigit_of_mem_decimalDigits {n : ℕ} {c : UInt8} (h : c ∈ decimalDigits n) :
    isDigit c := by
  rw [decimalDigits] at h
  split at h
  · obtain rfl := List.mem_singleton.mp h
    rfl
  · obtain ⟨d, hd, rfl⟩ := List.mem_map.mp h
    have hlt := Nat.digits_lt_base (by decide) (List.mem_reverse.mp hd)
    have hvalue := toNat_digit hlt
    simp only [isDigit, Bool.and_eq_true, decide_eq_true_eq, UInt8.le_iff_toNat_le,
      UInt8.reduceToNat, hvalue]
    omega

theorem decimalDigits_ne_nil (n : ℕ) : decimalDigits n ≠ [] := by
  rw [decimalDigits]
  split
  · exact List.cons_ne_nil _ _
  · rename_i hzero
    simpa using Nat.digits_ne_nil_iff_ne_zero.mpr hzero

/-- A number that has been written can be read. -/
theorem numeral_decimal (n : Int32) : Numeral (decimal n) n.toInt := by
  have hdigits : ∀ c ∈ decimalDigits n.toInt.natAbs, isDigit c := fun c =>
    isDigit_of_mem_decimalDigits
  have hne := decimalDigits_ne_nil n.toInt.natAbs
  rw [decimal]
  split
  · rename_i hneg
    have hlt : n.toInt < 0 := Int32.lt_iff_toInt_lt.mp hneg
    have h := Numeral.neg hne hdigits
    rwa [number_decimalDigits, ← Int.eq_neg_natAbs_of_nonpos hlt.le] at h
  · rename_i hpos
    have hle : 0 ≤ n.toInt := Int32.le_iff_toInt_le.mp (Int32.not_lt.mp hpos)
    have h := Numeral.pos hne hdigits
    rwa [number_decimalDigits, Int.natAbs_of_nonneg hle] at h

theorem ne_zero_of_mem_decimal {n : Int32} {c : UInt8} (h : c ∈ decimal n) : c ≠ 0 := by
  have hdigit : ∀ d ∈ decimalDigits n.toInt.natAbs, d ≠ 0 := by
    rintro d hd rfl
    exact absurd (isDigit_of_mem_decimalDigits hd) (by decide)
  rw [decimal] at h
  split at h
  · rcases List.mem_cons.mp h with rfl | h
    · decide
    · exact hdigit c h
  · exact hdigit c h

/-- A number behind a blank. -/
theorem Reads.decimal {fmt : List Directive} {rest : List UInt8} {vs : List Value}
    (h : Reads fmt rest vs) (hstop : Stops isDigit rest) (n : Int32) :
    Reads (.space :: .int :: fmt) (32 :: (decimal n ++ rest)) (.int n :: vs) := by
  have hnum := numeral_decimal n
  have hint := Reads.int (w := []) (by simp) hnum hstop h
  rw [Int32.ofInt_toInt, List.nil_append] at hint
  exact Reads.space (w := [32]) (fun c hc => by rw [List.mem_singleton.mp hc]; decide)
    (stops_append hnum.stops_isSpace fun h => absurd h hnum.ne_nil) hint

end Sscanf
