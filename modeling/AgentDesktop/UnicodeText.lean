import AgentDesktop.OctetText
import Mathlib.Tactic.Ring

namespace AgentDesktop

/-- Unicode white space, which `trim` takes off. -/
def isUnicodeWhitespace (c : Char) : Bool :=
  let n := c.toNat
  (9 ≤ n && n ≤ 13) || n = 32 || n = 133 || n = 160 || n = 5760 || (8192 ≤ n && n ≤ 8202) || n = 8232 || n = 8233 ||
    n = 8239 || n = 8287 || n = 12288

def isBlank (text : String) : Bool :=
  text.toList.all isUnicodeWhitespace

def trimUnicode (text : List Char) : List Char :=
  trimEndMatches isUnicodeWhitespace (trimStartMatches isUnicodeWhitespace text)

/-- An exact result, if it is a signed 64-bit number. -/
def toI64 (value : Int) : Option Int :=
  if -2 ^ 63 ≤ value ∧ value < 2 ^ 63 then some value else none

def digitValue (c : Char) : Nat :=
  c.toNat - '0'.toNat

/-- The digits after a sign. Each multiplication and each addition is checked. -/
def parseDigits (sign : Int) : List Char → Int → Option Int
  | [], value => some value
  | c :: digits, value =>
    if c.isDigit then
      (toI64 (value * 10)).bind fun tens =>
        (toI64 (tens + sign * digitValue c)).bind fun value => parseDigits sign digits value
    else none

/-- `parse` of a signed 64-bit number. -/
def parseI64 : List Char → Option Int
  | [] => none
  | ['+'] => none
  | ['-'] => none
  | '+' :: digits => parseDigits 1 digits 0
  | '-' :: digits => parseDigits (-1) digits 0
  | digits => parseDigits 1 digits 0

/-- The number that decimal digits denote. -/
def ofDigits (digits : List Char) : Nat :=
  Nat.ofDigitChars 10 digits 0

theorem toI64_eq_some {value : Int} (hlow : -2 ^ 63 ≤ value) (hhigh : value < 2 ^ 63) : toI64 value = some value :=
  if_pos ⟨hlow, hhigh⟩

theorem toI64_eq_none {value : Int} (h : 2 ^ 63 ≤ value) : toI64 value = none :=
  if_neg (by omega)

theorem digitValue_lt {c : Char} (h : c.isDigit = true) : digitValue c < 10 := by
  have hrange := Char.isDigit_iff_toNat.mp h
  have hzero : '0'.toNat = 48 := rfl
  have hnine : '9'.toNat = 57 := rfl
  unfold digitValue
  omega

@[simp] theorem ofDigits_nil : ofDigits [] = 0 := rfl

theorem ofDigits_append (digits more : List Char) :
    ofDigits (digits ++ more) = 10 ^ more.length * ofDigits digits + ofDigits more := by
  unfold ofDigits
  rw [Nat.ofDigitChars_append, Nat.ofDigitChars_eq_ofDigitChars_zero]

theorem ofDigits_cons (c : Char) (digits : List Char) :
    ofDigits (c :: digits) = 10 ^ digits.length * digitValue c + ofDigits digits := by
  have h := ofDigits_append [c] digits
  have hone : ofDigits [c] = digitValue c := by simp [ofDigits, Nat.ofDigitChars_cons, digitValue]
  rw [hone] at h
  exact h

@[simp] theorem ofDigits_zeros (n : Nat) : ofDigits (List.replicate n '0') = 0 := by
  simp [ofDigits]

theorem ofDigits_lt {digits : List Char} (h : ∀ c ∈ digits, c.isDigit = true) :
    ofDigits digits < 10 ^ digits.length := by
  induction digits with
  | nil => simp
  | cons c digits ih =>
    have hrest := ih fun d hd => h d (List.mem_cons_of_mem _ hd)
    have hfirst := digitValue_lt (h c List.mem_cons_self)
    rw [ofDigits_cons, List.length_cons, Nat.pow_succ]
    have hle : 10 ^ digits.length * (digitValue c + 1) ≤ 10 ^ digits.length * 10 :=
      Nat.mul_le_mul_left _ hfirst
    rw [Nat.mul_succ] at hle
    omega

/-- Digits are read as the number they denote, if it fits; no step before loses it. -/
theorem parseDigits_eq {digits : List Char} {value : Nat} (h : ∀ c ∈ digits, c.isDigit = true)
    (hvalue : value < 2 ^ 63) :
    parseDigits 1 digits value = toI64 ((10 ^ digits.length * value + ofDigits digits : Nat) : Int) := by
  induction digits generalizing value with
  | nil =>
    rw [parseDigits, List.length_nil, ofDigits_nil, Nat.pow_zero, Nat.one_mul, Nat.add_zero]
    exact (toI64_eq_some (by omega) (by omega)).symm
  | cons c digits ih =>
    have hdigits : ∀ d ∈ digits, d.isDigit = true := fun d hd => h d (List.mem_cons_of_mem _ hd)
    -- The number read so far is at most the number that the whole text denotes.
    have hexact : 10 ^ (c :: digits).length * value + ofDigits (c :: digits) =
        10 ^ digits.length * (value * 10 + digitValue c) + ofDigits digits := by
      rw [ofDigits_cons, List.length_cons, Nat.pow_succ]
      ring
    have hle : value * 10 + digitValue c ≤ 10 ^ (c :: digits).length * value + ofDigits (c :: digits) := by
      rw [hexact]
      have hpos : 1 ≤ 10 ^ digits.length := Nat.one_le_pow _ _ (by omega)
      have := Nat.mul_le_mul_right (value * 10 + digitValue c) hpos
      omega
    rw [parseDigits, if_pos (h c List.mem_cons_self)]
    by_cases hfits : value * 10 + digitValue c < 2 ^ 63
    · rw [toI64_eq_some (by omega) (by omega), Option.bind_some, Int.one_mul,
        toI64_eq_some (by omega) (by omega), Option.bind_some]
      have hcast : (value : Int) * 10 + (digitValue c : Int) = ((value * 10 + digitValue c : Nat) : Int) := by
        push_cast
        rfl
      rw [hcast, ih hdigits hfits, hexact]
    · have hnone : toI64 ((10 ^ (c :: digits).length * value + ofDigits (c :: digits) : Nat) : Int) = none :=
        toI64_eq_none (by omega)
      rw [hnone]
      by_cases htens : value * 10 < 2 ^ 63
      · rw [toI64_eq_some (by omega) (by omega), Option.bind_some, Int.one_mul, toI64_eq_none (by omega),
          Option.bind_none]
      · rw [toI64_eq_none (by omega), Option.bind_none]

theorem parseI64_digits {digits : List Char} (hne : digits ≠ []) (h : ∀ c ∈ digits, c.isDigit = true) :
    parseI64 digits = toI64 (ofDigits digits) := by
  have hplus : ('+' :: digits.tail) ≠ digits := by
    intro heq
    have := h '+' (heq ▸ List.mem_cons_self)
    revert this
    decide
  have hminus : ('-' :: digits.tail) ≠ digits := by
    intro heq
    have := h '-' (heq ▸ List.mem_cons_self)
    revert this
    decide
  have hparse : parseI64 digits = parseDigits 1 digits 0 := by
    unfold parseI64
    split <;> simp_all
  have hread : parseDigits 1 digits (0 : Nat) = _ := parseDigits_eq h (by omega)
  rw [Nat.mul_zero, Nat.zero_add] at hread
  rw [hparse]
  exact hread

end AgentDesktop
