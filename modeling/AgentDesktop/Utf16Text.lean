import Mathlib.Data.List.Basic

namespace AgentDesktop

/-- A character as one unit, or as a pair of surrogates. -/
def encodeUtf16Char (c : Char) : List UInt16 :=
  if c.toNat < 0x10000 then [UInt16.ofNat c.toNat]
  else
    [UInt16.ofNat (0xD800 + (c.toNat - 0x10000) / 0x400), UInt16.ofNat (0xDC00 + (c.toNat - 0x10000) % 0x400)]

def encodeUtf16 (text : List Char) : List UInt16 :=
  text.flatMap encodeUtf16Char

/-- Text of which no surrogate is alone. -/
def decodeUtf16 : List UInt16 → Option (List Char)
  | [] => some []
  | unit :: rest =>
    if 0xD800 ≤ unit.toNat ∧ unit.toNat < 0xDC00 then
      match rest with
      | [] => none
      | low :: after =>
        if 0xDC00 ≤ low.toNat ∧ low.toNat < 0xE000 then
          (decodeUtf16 after).map
            (Char.ofNat (0x10000 + (unit.toNat - 0xD800) * 0x400 + (low.toNat - 0xDC00)) :: ·)
        else none
    else if 0xDC00 ≤ unit.toNat ∧ unit.toNat < 0xE000 then none
    else (decodeUtf16 rest).map (Char.ofNat unit.toNat :: ·)

def toLeBytes (unit : UInt16) : List UInt8 :=
  [UInt8.ofNat (unit.toNat % 256), UInt8.ofNat (unit.toNat / 256)]

def fromLeBytes : List UInt8 → Option (List UInt16)
  | [] => some []
  | low :: high :: rest => (fromLeBytes rest).map (UInt16.ofNat (low.toNat + 256 * high.toNat) :: ·)
  | [_] => none

theorem fromLeBytes_toLeBytes (units : List UInt16) : fromLeBytes (units.flatMap toLeBytes) = some units := by
  induction units with
  | nil => rfl
  | cons unit rest ih =>
    have hunit := unit.toNat_lt
    have hlow : (UInt8.ofNat (unit.toNat % 256)).toNat = unit.toNat % 256 :=
      UInt8.toNat_ofNat_of_lt' (show _ < 256 by omega)
    have hhigh : (UInt8.ofNat (unit.toNat / 256)).toNat = unit.toNat / 256 :=
      UInt8.toNat_ofNat_of_lt' (show _ < 256 by omega)
    have hsame : UInt16.ofNat (unit.toNat % 256 + 256 * (unit.toNat / 256)) = unit := by
      rw [Nat.mod_add_div, UInt16.ofNat_toNat]
    simp only [List.flatMap_cons, toLeBytes, List.cons_append, List.nil_append, fromLeBytes, hlow, hhigh, hsame]
    rw [ih]
    rfl

theorem decodeUtf16_char (c : Char) (rest : List UInt16) :
    decodeUtf16 (encodeUtf16Char c ++ rest) = (decodeUtf16 rest).map (c :: ·) := by
  have hvalid : c.toNat < 0xD800 ∨ 0xDFFF < c.toNat ∧ c.toNat < 0x110000 := c.valid
  unfold encodeUtf16Char
  split
  next hsmall =>
    have hunit : (UInt16.ofNat c.toNat).toNat = c.toNat := UInt16.toNat_ofNat_of_lt' (show _ < 65536 by omega)
    rw [List.singleton_append, decodeUtf16.eq_def]
    dsimp only
    rw [hunit, if_neg (by omega), if_neg (by omega), Char.ofNat_toNat]
  next hlarge =>
    have hhigh : (UInt16.ofNat (0xD800 + (c.toNat - 0x10000) / 0x400)).toNat =
        0xD800 + (c.toNat - 0x10000) / 0x400 := UInt16.toNat_ofNat_of_lt' (show _ < 65536 by omega)
    have hlow : (UInt16.ofNat (0xDC00 + (c.toNat - 0x10000) % 0x400)).toNat =
        0xDC00 + (c.toNat - 0x10000) % 0x400 := UInt16.toNat_ofNat_of_lt' (show _ < 65536 by omega)
    have hnumber : 0x10000 + (0xD800 + (c.toNat - 0x10000) / 0x400 - 0xD800) * 0x400 +
        (0xDC00 + (c.toNat - 0x10000) % 0x400 - 0xDC00) = c.toNat := by omega
    rw [List.cons_append, List.singleton_append, decodeUtf16, hhigh, hlow, if_pos (by omega), if_pos (by omega),
      hnumber, Char.ofNat_toNat]

/-- Encoded text is read back. -/
theorem decodeUtf16_encode (text : List Char) : decodeUtf16 (encodeUtf16 text) = some text := by
  induction text with
  | nil => rfl
  | cons c rest ih =>
    rw [encodeUtf16, List.flatMap_cons, decodeUtf16_char]
    rw [encodeUtf16] at ih
    rw [ih]
    rfl

end AgentDesktop
