import AgentDesktop.UnicodeText
import Mathlib.Data.Rat.Floor
import Mathlib.Tactic.Linarith
import Mathlib.Tactic.FieldSimp

namespace AgentDesktop

/-- The value of an attribute. A double is its bits; the values of an array or a list may
not be set. -/
inductive OtlpValue where
  | stringValue (text : String)
  | boolValue (flag : Bool)
  | intValue (number : Int64)
  | doubleValue (number : UInt64)
  | arrayValue (values : List (Option OtlpValue))
  | kvlistValue (values : List (String × Option (Option OtlpValue)))
  | bytesValue (bytes : Octets)

/-- The functions on doubles: the parser, and the conversions of a double to an integer and
of dollars to billionths. -/
structure Floats where
  parse : List Char → Option UInt64
  integer : UInt64 → Option Int
  dollarsToNanos : UInt64 → Option Int

/-- The first digits of a fraction as a number, with a zero for each one that is missing. -/
def fractionNanos (digits : List Char) : Nat → Int
  | 0 => 0
  | index + 1 => fractionNanos digits index * 10 + (digits[index]?.map fun c => (digitValue c : Int)).getD 0

/-- Whether the digits after the ninth round it up. -/
def roundUp (fraction : List Char) : Bool :=
  fraction[9]?.any fun c => '5' ≤ c

def isPlain (whole fraction : List Char) : Bool :=
  !(whole.isEmpty && fraction.isEmpty) && (whole ++ fraction).all Char.isDigit

/-- Parses a plain decimal exactly; other notations go through a double. -/
def decimalNanos (floats : Floats) (text : List Char) : Option Int :=
  let (whole, fraction) := (splitOnce '.' text).getD (text, [])
  if isPlain whole fraction then
    (if whole.isEmpty then some 0 else parseI64 whole).bind fun whole =>
      (toI64 (whole * 1000000000)).bind fun product =>
        toI64 (product + (fractionNanos fraction 9 + if roundUp fraction then 1 else 0))
  else (floats.parse text).bind floats.dollarsToNanos

/-- A non-negative US dollar amount in billionths, rounded to the nearest. -/
def costNanos (floats : Floats) : OtlpValue → Option Int
  | .stringValue text => decimalNanos floats (trimUnicode text.toList)
  | .doubleValue dollars => floats.dollarsToNanos dollars
  | .intValue dollars => (toI64 (dollars.toInt * 1000000000)).filter fun nanos => 0 ≤ nanos
  | _ => none

/-- The rational number that the digits around a decimal point denote. -/
def decimalValue (whole fraction : List Char) : ℚ :=
  ofDigits whole + ofDigits fraction / 10 ^ fraction.length

/-- A text of decimal digits with at most one point and at least one digit. -/
structure PlainDecimal (text whole fraction : List Char) : Prop where
  text_eq : text = whole ++ '.' :: fraction ∨ fraction = [] ∧ text = whole
  digits : ∀ c ∈ whole ++ fraction, c.isDigit = true
  nonempty : whole ++ fraction ≠ []

theorem fractionNanos_eq_take {digits : List Char} {index : Nat} (h : index ≤ digits.length) :
    fractionNanos digits index = ofDigits (digits.take index) := by
  induction index with
  | zero => simp [fractionNanos]
  | succ index ih =>
    have hlt : index < digits.length := h
    have hsplit : digits.take (index + 1) = digits.take index ++ [digits[index]] := by
      rw [List.take_add_one, List.getElem?_eq_getElem hlt]
      rfl
    rw [fractionNanos, ih (by omega), hsplit, ofDigits_append, ofDigits_cons, List.getElem?_eq_getElem hlt]
    simp
    ring

theorem fractionNanos_of_length_le {digits : List Char} {index : Nat} (h : digits.length ≤ index) :
    fractionNanos digits index = ofDigits digits * 10 ^ (index - digits.length) := by
  induction index, h using Nat.le_induction with
  | base => simp [fractionNanos_eq_take (Nat.le_refl _)]
  | succ index h ih =>
    rw [fractionNanos, ih, List.getElem?_eq_none h, Nat.succ_sub h, pow_succ]
    simp [mul_assoc]

theorem fractionNanos_bounds {digits : List Char} (h : ∀ c ∈ digits, c.isDigit = true) (index : Nat) :
    0 ≤ fractionNanos digits index ∧ fractionNanos digits index < 10 ^ index := by
  induction index with
  | zero => simp [fractionNanos]
  | succ index ih =>
    have hdigit : (digits[index]?.map fun c => (digitValue c : Int)).getD 0 < 10 ∧
        0 ≤ (digits[index]?.map fun c => (digitValue c : Int)).getD 0 := by
      cases hget : digits[index]? with
      | none => simp
      | some c =>
        have := digitValue_lt (h c (List.mem_of_getElem? hget))
        simp
        omega
    rw [fractionNanos, pow_succ]
    omega

theorem five_le_digitValue {c : Char} : '5' ≤ c ↔ 5 ≤ digitValue c := by
  have hzero : '0'.toNat = 48 := rfl
  have hfive : '5'.toNat = 53 := rfl
  have hle : '5' ≤ c ↔ '5'.toNat ≤ c.toNat := Iff.rfl
  rw [hle, hfive, digitValue, hzero]
  omega

theorem rounded_at_tenth {unit nanos digit rest : Int} {up : Bool} (hlow : 0 ≤ digit) (hhigh : digit < 10)
    (hrest : 0 ≤ rest) (hunit : rest < unit) (hup : up = true ↔ 5 ≤ digit) :
    2 * (nanos + if up then 1 else 0) * (unit * 10 ^ 10) ≤
        2 * (unit * (10 * nanos + digit) + rest) * 10 ^ 9 + unit * 10 ^ 10 ∧
      2 * (unit * (10 * nanos + digit) + rest) * 10 ^ 9 + unit * 10 ^ 10 <
        2 * (nanos + (if up then 1 else 0) + 1) * (unit * 10 ^ 10) := by
  have hpos : 0 ≤ unit := by omega
  by_cases hfive : 5 ≤ digit
  · rw [if_pos (hup.mpr hfive)]
    have hat : unit * 5 ≤ unit * digit := mul_le_mul_of_nonneg_left hfive hpos
    have hbelow : unit * digit ≤ unit * 9 := mul_le_mul_of_nonneg_left (by omega) hpos
    constructor <;> linarith
  · rw [if_neg (mt hup.mp hfive)]
    have hat : 0 ≤ unit * digit := mul_nonneg hpos hlow
    have hbelow : unit * digit ≤ unit * 4 := mul_le_mul_of_nonneg_left (by omega) hpos
    constructor <;> linarith

/-- Rounding by the tenth digit alone: what follows it is less than a unit of it. -/
theorem rounded_bounds {fraction : List Char} (h : ∀ c ∈ fraction, c.isDigit = true) :
    2 * (fractionNanos fraction 9 + if roundUp fraction then 1 else 0) * 10 ^ fraction.length ≤
        2 * ofDigits fraction * 10 ^ 9 + 10 ^ fraction.length ∧
      2 * (ofDigits fraction : Int) * 10 ^ 9 + 10 ^ fraction.length <
        2 * (fractionNanos fraction 9 + (if roundUp fraction then 1 else 0) + 1) * 10 ^ fraction.length := by
  by_cases hlen : fraction.length ≤ 9
  · have hround : roundUp fraction = false := by simp [roundUp, List.getElem?_eq_none hlen]
    have hpow : (10 : Int) ^ (9 - fraction.length) * 10 ^ fraction.length = 10 ^ 9 := by
      rw [← pow_add, Nat.sub_add_cancel hlen]
    have hnanos : fractionNanos fraction 9 * 10 ^ fraction.length = ofDigits fraction * 10 ^ 9 := by
      rw [fractionNanos_of_length_le hlen, mul_assoc, hpow]
    have hpos : (0 : Int) < 10 ^ fraction.length := by positivity
    rw [hround]
    constructor <;> simp <;> nlinarith
  · have hlt : 9 < fraction.length := by omega
    have hdigit : fraction[9].isDigit = true := h _ (List.getElem_mem hlt)
    have hround : roundUp fraction = true ↔ 5 ≤ digitValue fraction[9] := by
      simp [roundUp, List.getElem?_eq_getElem hlt, five_le_digitValue]
    have hten := digitValue_lt hdigit
    have hrest : ofDigits (fraction.drop 10) < 10 ^ (fraction.drop 10).length :=
      ofDigits_lt fun c hc => h c (List.mem_of_mem_drop hc)
    have hlength : (10 : Int) ^ fraction.length = (10 ^ (fraction.drop 10).length : Nat) * 10 ^ 10 := by
      rw [Nat.cast_pow, Nat.cast_ofNat, ← pow_add, List.length_drop, Nat.sub_add_cancel (by omega)]
    have hsplit : fraction = fraction.take 9 ++ fraction[9] :: fraction.drop 10 := by
      rw [List.getElem_cons_drop, List.take_append_drop]
    have hvalue : (ofDigits fraction : Int) =
        (10 ^ (fraction.drop 10).length : Nat) * (10 * fractionNanos fraction 9 + digitValue fraction[9]) +
          ofDigits (fraction.drop 10) := by
      rw [fractionNanos_eq_take (by omega)]
      conv_lhs => rw [hsplit, ofDigits_append, ofDigits_cons, List.length_cons]
      push_cast
      ring
    rw [hvalue, hlength]
    exact rounded_at_tenth (by omega) (by omega) (by omega) (by omega) (by simpa using hround)

theorem floor_decimalValue {whole fraction : List Char} (h : ∀ c ∈ fraction, c.isDigit = true) :
    ⌊decimalValue whole fraction * 10 ^ 9 + 1 / 2⌋ =
      ofDigits whole * 10 ^ 9 + (fractionNanos fraction 9 + if roundUp fraction then 1 else 0) := by
  obtain ⟨hlow, hhigh⟩ := rounded_bounds h
  generalize (fractionNanos fraction 9 + if roundUp fraction then 1 else 0) = nanos at *
  have hpos : (0 : ℚ) < 10 ^ fraction.length := by positivity
  have hlow : 2 * (nanos : ℚ) * 10 ^ fraction.length ≤ 2 * ofDigits fraction * 10 ^ 9 + 10 ^ fraction.length := by
    exact_mod_cast hlow
  have hhigh : 2 * (ofDigits fraction : ℚ) * 10 ^ 9 + 10 ^ fraction.length <
      2 * (nanos + 1) * 10 ^ fraction.length := by
    exact_mod_cast hhigh
  have hquotient : (ofDigits fraction : ℚ) / 10 ^ fraction.length * 10 ^ fraction.length = ofDigits fraction :=
    div_mul_cancel₀ _ hpos.ne'
  have hlower : 2 * (nanos : ℚ) ≤ 2 * (ofDigits fraction / 10 ^ fraction.length) * 10 ^ 9 + 1 := by
    refine le_of_mul_le_mul_right ?_ hpos
    linarith
  have hupper : 2 * (ofDigits fraction / 10 ^ fraction.length) * 10 ^ 9 + 1 < 2 * ((nanos : ℚ) + 1) := by
    refine lt_of_mul_lt_mul_right ?_ hpos.le
    linarith
  rw [Int.floor_eq_iff, decimalValue]
  push_cast
  constructor <;> linarith

/-- The product and the sum are checked; neither is lost while the exact amount fits. -/
theorem toI64_mul_add {whole nanos : Int} (hwhole : 0 ≤ whole) (hnanos : 0 ≤ nanos) :
    ((toI64 whole).bind fun whole => (toI64 (whole * 1000000000)).bind fun product => toI64 (product + nanos)) =
      toI64 (whole * 10 ^ 9 + nanos) := by
  by_cases hfits : whole * 1000000000 < 2 ^ 63
  · rw [toI64_eq_some (by omega) (by omega), Option.bind_some, toI64_eq_some (by omega) hfits, Option.bind_some]
    rfl
  · have hnone : toI64 (whole * 10 ^ 9 + nanos) = none := toI64_eq_none (by omega)
    rw [hnone]
    by_cases hrange : whole < 2 ^ 63
    · rw [toI64_eq_some (by omega) hrange, Option.bind_some, toI64_eq_none (by omega), Option.bind_none]
    · rw [toI64_eq_none (by omega), Option.bind_none]

namespace PlainDecimal

variable {text whole fraction : List Char}

theorem point_not_mem (h : PlainDecimal text whole fraction) : '.' ∉ whole := by
  intro hmem
  have hdigit := h.digits _ (List.mem_append_left _ hmem)
  revert hdigit
  decide

theorem split (h : PlainDecimal text whole fraction) : (splitOnce '.' text).getD (text, []) = (whole, fraction) := by
  obtain rfl | ⟨rfl, rfl⟩ := h.text_eq
  · rw [splitOnce_eq_some_iff.mpr ⟨rfl, h.point_not_mem⟩]
    rfl
  · rw [splitOnce_eq_none_iff.mpr h.point_not_mem]
    rfl

theorem isPlain (h : PlainDecimal text whole fraction) : isPlain whole fraction = true := by
  have hne := h.nonempty
  have hdigits := h.digits
  simp only [AgentDesktop.isPlain, Bool.and_eq_true, Bool.not_eq_true', List.all_eq_true]
  exact ⟨by simpa using hne, hdigits⟩

theorem decimalNanos_eq (h : PlainDecimal text whole fraction) (floats : Floats) :
    decimalNanos floats text = toI64 ⌊decimalValue whole fraction * 10 ^ 9 + 1 / 2⌋ := by
  have hwhole : ∀ c ∈ whole, c.isDigit = true := fun c hc => h.digits c (List.mem_append_left _ hc)
  have hfraction : ∀ c ∈ fraction, c.isDigit = true := fun c hc => h.digits c (List.mem_append_right _ hc)
  have hparse : (if whole.isEmpty then some 0 else parseI64 whole) = toI64 (ofDigits whole) := by
    cases whole with
    | nil => rfl
    | cons c digits => exact parseI64_digits (List.cons_ne_nil c digits) hwhole
  have hnanos : 0 ≤ fractionNanos fraction 9 + if roundUp fraction then 1 else 0 := by
    have := (fractionNanos_bounds hfraction 9).1
    split <;> omega
  rw [floor_decimalValue hfraction, ← toI64_mul_add (Int.natCast_nonneg _) hnanos, ← hparse, decimalNanos, h.split]
  exact if_pos h.isPlain

theorem replicate_append (h : PlainDecimal text whole fraction) (n : Nat) :
    PlainDecimal (List.replicate n '0' ++ text) (List.replicate n '0' ++ whole) fraction where
  text_eq := by
    obtain rfl | ⟨rfl, rfl⟩ := h.text_eq
    · exact Or.inl (by simp)
    · exact Or.inr ⟨rfl, rfl⟩
  digits := by
    intro c hc
    rw [List.append_assoc, List.mem_append] at hc
    obtain hc | hc := hc
    · rw [List.eq_of_mem_replicate hc]
      rfl
    · exact h.digits c hc
  nonempty := by
    have := h.nonempty
    simp_all

theorem append_replicate (h : PlainDecimal text whole fraction) (hpoint : '.' ∈ text) (n : Nat) :
    PlainDecimal (text ++ List.replicate n '0') whole (fraction ++ List.replicate n '0') where
  text_eq := by
    obtain rfl | ⟨rfl, rfl⟩ := h.text_eq
    · exact Or.inl (by simp)
    · exact absurd hpoint h.point_not_mem
  digits := by
    intro c hc
    rw [← List.append_assoc, List.mem_append] at hc
    obtain hc | hc := hc
    · exact h.digits c hc
    · rw [List.eq_of_mem_replicate hc]
      rfl
  nonempty := by
    have := h.nonempty
    simp_all

end PlainDecimal

theorem decimalValue_replicate_append (n : Nat) (whole fraction : List Char) :
    decimalValue (List.replicate n '0' ++ whole) fraction = decimalValue whole fraction := by
  simp [decimalValue, ofDigits_append]

theorem decimalValue_append_replicate (n : Nat) (whole fraction : List Char) :
    decimalValue whole (fraction ++ List.replicate n '0') = decimalValue whole fraction := by
  have hpos : (10 : ℚ) ^ n ≠ 0 := by positivity
  simp only [decimalValue, ofDigits_append, ofDigits_zeros, List.length_append, List.length_replicate]
  push_cast
  rw [pow_add]
  field_simp
  ring

theorem plainDecimal_natural (n : Nat) : PlainDecimal n.repr.toList n.repr.toList [] where
  text_eq := Or.inr ⟨rfl, rfl⟩
  digits := by
    intro c hc
    rw [List.append_nil, Nat.toList_repr] at hc
    exact Nat.isDigit_of_mem_toDigits (by omega) (by omega) hc
  nonempty := by
    rw [List.append_nil, Nat.toList_repr]
    exact Nat.toDigits_ne_nil

theorem decimalNanos_natural (floats : Floats) (n : Nat) :
    decimalNanos floats n.repr.toList = toI64 (n * 1000000000) := by
  have hvalue : ofDigits n.repr.toList = n := by
    rw [Nat.toList_repr]
    exact Nat.ofDigitChars_ten_toDigits
  have hnone : fractionNanos [] 9 + (if roundUp [] then 1 else 0) = 0 := rfl
  rw [(plainDecimal_natural n).decimalNanos_eq floats, floor_decimalValue (by simp), hvalue, hnone, Int.add_zero]
  rfl

theorem costNanos_integer (floats : Floats) (n : Int64) :
    costNanos floats (.intValue n) =
      if 0 ≤ n.toInt then decimalNanos floats (toString n.toInt).toList else none := by
  rw [costNanos]
  split
  next hnonneg =>
    obtain ⟨m, hm⟩ := Int.eq_ofNat_of_zero_le hnonneg
    rw [hm]
    have htext : toString (m : Int) = m.repr := rfl
    rw [htext, decimalNanos_natural]
    by_cases hfits : (m : Int) * 1000000000 < 2 ^ 63
    · rw [toI64_eq_some (by omega) hfits]
      exact Option.filter_some_pos (by simp)
    · rw [toI64_eq_none (by omega)]
      rfl
  next hnegative =>
    unfold toI64
    split
    · exact Option.filter_some_neg (by simp; omega)
    · rfl

/-- A plain decimal of any length is read as the number it denotes, rounded half up to
billionths, if that fits, and no step of the loop overflows. Zeros before the digits or
after a fraction do not matter, and an integer costs what its text does. -/
theorem plain_decimals_exact (floats : Floats) :
    (∀ text whole fraction, PlainDecimal text whole fraction →
      decimalNanos floats text = toI64 ⌊decimalValue whole fraction * 10 ^ 9 + 1 / 2⌋ ∧
      (∀ index < 9, toI64 (fractionNanos fraction index * 10) = some (fractionNanos fraction index * 10) ∧
        toI64 (fractionNanos fraction (index + 1)) = some (fractionNanos fraction (index + 1))) ∧
      toI64 (fractionNanos fraction 9 + 1) = some (fractionNanos fraction 9 + 1) ∧
      (∀ n, decimalNanos floats (List.replicate n '0' ++ text) = decimalNanos floats text) ∧
      ('.' ∈ text → ∀ n, decimalNanos floats (text ++ List.replicate n '0') = decimalNanos floats text)) ∧
    ∀ n : Int64, costNanos floats (.intValue n) =
      if 0 ≤ n.toInt then decimalNanos floats (toString n.toInt).toList else none := by
  refine ⟨?_, costNanos_integer floats⟩
  intro text whole fraction h
  have hfraction : ∀ c ∈ fraction, c.isDigit = true := fun c hc => h.digits c (List.mem_append_right _ hc)
  have hbounds (index : Nat) (hle : index ≤ 9) : 0 ≤ fractionNanos fraction index ∧
      fractionNanos fraction index < 1000000000 := by
    obtain ⟨hlow, hhigh⟩ := fractionNanos_bounds hfraction index
    have hpow : (10 : Int) ^ index ≤ 10 ^ 9 := pow_le_pow_right₀ (by omega) hle
    omega
  refine ⟨h.decimalNanos_eq floats, ?_, ?_, ?_, ?_⟩
  · intro index hlt
    have hbefore := hbounds index (by omega)
    have hafter := hbounds (index + 1) (by omega)
    exact ⟨toI64_eq_some (by omega) (by omega), toI64_eq_some (by omega) (by omega)⟩
  · have hlast := hbounds 9 (by omega)
    exact toI64_eq_some (by omega) (by omega)
  · intro n
    rw [(h.replicate_append n).decimalNanos_eq floats, decimalValue_replicate_append, h.decimalNanos_eq floats]
  · intro hpoint n
    rw [(h.append_replicate hpoint n).decimalNanos_eq floats, decimalValue_append_replicate,
      h.decimalNanos_eq floats]

theorem plain_decimals_exact_half :
    PlainDecimal "1.5000000005".toList "1".toList "5000000005".toList ∧
      decimalNanos ⟨fun _ => none, fun _ => none, fun _ => none⟩ "1.5000000005".toList =
        toI64 ⌊decimalValue "1".toList "5000000005".toList * 10 ^ 9 + 1 / 2⌋ ∧
      decimalNanos ⟨fun _ => none, fun _ => none, fun _ => none⟩ "1.5000000005".toList = some 1500000001 := by
  have hplain : PlainDecimal "1.5000000005".toList "1".toList "5000000005".toList :=
    ⟨Or.inl rfl, List.all_eq_true.mp (by decide), by decide⟩
  exact ⟨hplain, ((plain_decimals_exact _).1 _ _ _ hplain).1, by decide +kernel⟩

end AgentDesktop
