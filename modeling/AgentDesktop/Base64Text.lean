import Mathlib.Data.List.Basic

namespace AgentDesktop

/-- A digit of the standard alphabet. -/
def base64Char (n : Nat) : Char :=
  if n < 26 then Char.ofNat (65 + n)
  else if n < 52 then Char.ofNat (71 + n)
  else if n < 62 then Char.ofNat (n - 4)
  else if n = 62 then '+'
  else '/'

def base64Value (c : Char) : Option Nat :=
  let n := c.toNat
  if 65 ≤ n ∧ n ≤ 90 then some (n - 65)
  else if 97 ≤ n ∧ n ≤ 122 then some (n - 71)
  else if 48 ≤ n ∧ n ≤ 57 then some (n + 4)
  else if c = '+' then some 62
  else if c = '/' then some 63
  else none

/-- Three bytes as four digits, and a shorter end padded. -/
def base64Encode : List UInt8 → List Char
  | [] => []
  | [a] => [base64Char (a.toNat / 4), base64Char (a.toNat % 4 * 16), '=', '=']
  | [a, b] =>
    [base64Char (a.toNat / 4), base64Char (a.toNat % 4 * 16 + b.toNat / 16), base64Char (b.toNat % 16 * 4), '=']
  | a :: b :: c :: rest =>
    base64Char (a.toNat / 4) :: base64Char (a.toNat % 4 * 16 + b.toNat / 16) ::
      base64Char (b.toNat % 16 * 4 + c.toNat / 64) :: base64Char (c.toNat % 64) :: base64Encode rest

/-- The bytes of the last digits before the padding, whose unused bits are zero. -/
def base64DecodeLast (w x y : Char) : Option (List UInt8) := do
  let first ← base64Value w
  let second ← base64Value x
  if y = '=' then
    if second % 16 = 0 then some [UInt8.ofNat (first * 4 + second / 16)] else none
  else
    let third ← base64Value y
    if third % 4 = 0 then
      some [UInt8.ofNat (first * 4 + second / 16), UInt8.ofNat (second % 16 * 16 + third / 4)]
    else none

def base64Decode : List Char → Option (List UInt8)
  | [] => some []
  | w :: x :: y :: z :: rest =>
    if z = '=' ∧ rest = [] then base64DecodeLast w x y
    else do
      let first ← base64Value w
      let second ← base64Value x
      let third ← base64Value y
      let fourth ← base64Value z
      let bytes ← base64Decode rest
      some (UInt8.ofNat (first * 4 + second / 16) :: UInt8.ofNat (second % 16 * 16 + third / 4) ::
        UInt8.ofNat (third % 4 * 64 + fourth) :: bytes)
  | _ => none

theorem base64Value_char {n : Nat} (h : n < 64) : base64Value (base64Char n) = some n := by
  have hall : ∀ n < 64, base64Value (base64Char n) = some n := by decide
  exact hall n h

theorem base64Char_ne {n : Nat} (h : n < 64) : base64Char n ≠ '=' ∧ base64Char n ≠ ' ' := by
  have hall : ∀ n < 64, base64Char n ≠ '=' ∧ base64Char n ≠ ' ' := by decide
  exact hall n h

section

variable {first second third fourth : Nat} (hfirst : first < 64) (hsecond : second < 64)

include hfirst hsecond

theorem base64Decode_one (hzero : second % 16 = 0) :
    base64Decode [base64Char first, base64Char second, '=', '='] = some [UInt8.ofNat (first * 4 + second / 16)] := by
  simp only [base64Decode, and_self, if_true, base64DecodeLast, base64Value_char hfirst, base64Value_char hsecond,
    Option.bind_eq_bind, Option.bind_some, hzero]

variable (hthird : third < 64)

include hthird

theorem base64Decode_two (hzero : third % 4 = 0) :
    base64Decode [base64Char first, base64Char second, base64Char third, '='] =
      some [UInt8.ofNat (first * 4 + second / 16), UInt8.ofNat (second % 16 * 16 + third / 4)] := by
  simp only [base64Decode, and_self, if_true, base64DecodeLast, base64Value_char hfirst, base64Value_char hsecond,
    base64Value_char hthird, Option.bind_eq_bind, Option.bind_some, if_neg (base64Char_ne hthird).1, hzero]

theorem base64Decode_three (hfourth : fourth < 64) (rest : List Char) :
    base64Decode (base64Char first :: base64Char second :: base64Char third :: base64Char fourth :: rest) =
      (base64Decode rest).map fun bytes => UInt8.ofNat (first * 4 + second / 16) ::
        UInt8.ofNat (second % 16 * 16 + third / 4) :: UInt8.ofNat (third % 4 * 64 + fourth) :: bytes := by
  have hopen : ¬ (base64Char fourth = '=' ∧ rest = []) := fun hlast => (base64Char_ne hfourth).1 hlast.1
  rw [base64Decode, if_neg hopen]
  simp only [base64Value_char hfirst, base64Value_char hsecond, base64Value_char hthird, base64Value_char hfourth,
    Option.bind_eq_bind, Option.bind_some]
  cases base64Decode rest <;> rfl

end

theorem uint8_ofNat_eq {a : UInt8} {n : Nat} (h : n = a.toNat) : UInt8.ofNat n = a := by
  rw [h, UInt8.ofNat_toNat]

/-- Encoded bytes are read back. -/
theorem base64Decode_encode (bytes : List UInt8) : base64Decode (base64Encode bytes) = some bytes := by
  fun_induction base64Encode bytes with
  | case1 => rfl
  | case2 a =>
    have ha := a.toNat_lt
    have hbyte : UInt8.ofNat (a.toNat / 4 * 4 + a.toNat % 4 * 16 / 16) = a := uint8_ofNat_eq (by omega)
    rw [base64Decode_one (by omega) (by omega) (by omega), hbyte]
  | case3 a b =>
    have ha := a.toNat_lt
    have hb := b.toNat_lt
    have hfirst : UInt8.ofNat (a.toNat / 4 * 4 + (a.toNat % 4 * 16 + b.toNat / 16) / 16) = a :=
      uint8_ofNat_eq (by omega)
    have hsecond : UInt8.ofNat ((a.toNat % 4 * 16 + b.toNat / 16) % 16 * 16 + b.toNat % 16 * 4 / 4) = b :=
      uint8_ofNat_eq (by omega)
    rw [base64Decode_two (by omega) (by omega) (by omega) (by omega), hfirst, hsecond]
  | case4 a b c rest ih =>
    have ha := a.toNat_lt
    have hb := b.toNat_lt
    have hc := c.toNat_lt
    have hfirst : UInt8.ofNat (a.toNat / 4 * 4 + (a.toNat % 4 * 16 + b.toNat / 16) / 16) = a :=
      uint8_ofNat_eq (by omega)
    have hsecond : UInt8.ofNat
        ((a.toNat % 4 * 16 + b.toNat / 16) % 16 * 16 + (b.toNat % 16 * 4 + c.toNat / 64) / 4) = b :=
      uint8_ofNat_eq (by omega)
    have hthird : UInt8.ofNat ((b.toNat % 16 * 4 + c.toNat / 64) % 4 * 64 + c.toNat % 64) = c :=
      uint8_ofNat_eq (by omega)
    rw [base64Decode_three (by omega) (by omega) (by omega) (by omega), ih, Option.map_some, hfirst, hsecond, hthird]

/-- No encoded text has a blank. -/
theorem blank_notMem_base64Encode (bytes : List UInt8) : ' ' ∉ base64Encode bytes := by
  have hdigit : ∀ n < 64, ' ' ≠ base64Char n := fun n hn => (base64Char_ne hn).2.symm
  have hpad : ' ' ≠ '=' := by decide
  fun_induction base64Encode bytes with
  | case1 => simp
  | case2 a =>
    have ha := a.toNat_lt
    simp [hdigit (a.toNat / 4) (by omega), hdigit (a.toNat % 4 * 16) (by omega)]
  | case3 a b =>
    have ha := a.toNat_lt
    have hb := b.toNat_lt
    simp [hdigit (a.toNat / 4) (by omega), hdigit (a.toNat % 4 * 16 + b.toNat / 16) (by omega),
      hdigit (b.toNat % 16 * 4) (by omega)]
  | case4 a b c rest ih =>
    have ha := a.toNat_lt
    have hb := b.toNat_lt
    have hc := c.toNat_lt
    simp [hdigit (a.toNat / 4) (by omega), hdigit (a.toNat % 4 * 16 + b.toNat / 16) (by omega),
      hdigit (b.toNat % 16 * 4 + c.toNat / 64) (by omega), hdigit (c.toNat % 64) (by omega), ih]

end AgentDesktop
