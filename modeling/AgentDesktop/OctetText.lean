import Mathlib.Data.List.Basic

namespace AgentDesktop

section

variable {α : Type} [DecidableEq α]

/-- The text after a prefix it starts with. -/
def stripPrefix : List α → List α → Option (List α)
  | [], text => some text
  | _ :: _, [] => none
  | x :: start, y :: text => if x = y then stripPrefix start text else none

/-- The text before and after the first occurrence of a separator. -/
def splitOnce (separator : α) : List α → Option (List α × List α)
  | [] => none
  | x :: text =>
    if x = separator then some ([], text)
    else (splitOnce separator text).map fun (before, after) => (x :: before, after)

/-- The text before and after the last occurrence of a separator. -/
def rsplitOnce (separator : α) (text : List α) : Option (List α × List α) :=
  (splitOnce separator text.reverse).map fun (after, before) => (before.reverse, after.reverse)

def trimStartMatches (p : α → Bool) (text : List α) : List α :=
  text.dropWhile p

def trimEndMatches (p : α → Bool) (text : List α) : List α :=
  (text.reverse.dropWhile p).reverse

theorem stripPrefix_eq_some_iff {start text rest : List α} :
    stripPrefix start text = some rest ↔ text = start ++ rest := by
  induction start generalizing text with
  | nil => simp [stripPrefix]
  | cons x start ih =>
    cases text with
    | nil => simp [stripPrefix]
    | cons y text =>
      simp only [stripPrefix, List.cons_append, List.cons.injEq]
      split
      next heq =>
        subst heq
        simp [ih]
      next hne =>
        constructor
        · nofun
        · rintro ⟨heq, _⟩
          exact absurd heq.symm hne

variable {separator : α}

theorem splitOnce_eq_some_iff {text before after : List α} :
    splitOnce separator text = some (before, after) ↔ text = before ++ separator :: after ∧ separator ∉ before := by
  induction text generalizing before with
  | nil => simp [splitOnce]
  | cons x text ih =>
    simp only [splitOnce]
    split
    next heq =>
      subst heq
      cases before with
      | nil => simp [eq_comm]
      | cons y before => simp +contextual [eq_comm]
    next hne =>
      cases before with
      | nil => simp [hne]
      | cons y before =>
        simp only [Option.map_eq_some_iff, Prod.exists, Prod.mk.injEq, List.cons.injEq, List.cons_append,
          List.mem_cons, not_or]
        constructor
        · rintro ⟨_, _, h, ⟨rfl, rfl⟩, rfl⟩
          exact ⟨⟨rfl, (ih.mp h).1⟩, Ne.symm hne, (ih.mp h).2⟩
        · rintro ⟨⟨rfl, h⟩, _, hnot⟩
          exact ⟨_, _, ih.mpr ⟨h, hnot⟩, ⟨rfl, rfl⟩, rfl⟩

theorem splitOnce_eq_none_iff {text : List α} :
    splitOnce separator text = none ↔ separator ∉ text := by
  induction text with
  | nil => simp [splitOnce]
  | cons x text ih =>
    simp only [splitOnce]
    split
    next heq => simp [heq]
    next hne => simp [ih, Ne.symm hne]

theorem splitOnce_append {start : List α} (h : separator ∉ start) (text : List α) :
    splitOnce separator (start ++ text) =
      (splitOnce separator text).map fun (before, after) => (start ++ before, after) := by
  cases hsplit : splitOnce separator text with
  | none =>
    rw [splitOnce_eq_none_iff] at hsplit
    exact splitOnce_eq_none_iff.mpr (by simp [h, hsplit])
  | some pair =>
    obtain ⟨rfl, hnot⟩ := splitOnce_eq_some_iff.mp hsplit
    exact splitOnce_eq_some_iff.mpr ⟨by simp, by simp [h, hnot]⟩

theorem rsplitOnce_eq_some_iff {text before after : List α} :
    rsplitOnce separator text = some (before, after) ↔ text = before ++ separator :: after ∧ separator ∉ after := by
  simp only [rsplitOnce, Option.map_eq_some_iff, Prod.exists, Prod.mk.injEq]
  constructor
  · rintro ⟨_, _, h, rfl, rfl⟩
    obtain ⟨htext, hnot⟩ := splitOnce_eq_some_iff.mp h
    refine ⟨?_, by simpa using hnot⟩
    rw [← text.reverse_reverse, htext]
    simp
  · rintro ⟨rfl, hnot⟩
    refine ⟨after.reverse, before.reverse, splitOnce_eq_some_iff.mpr ⟨by simp, by simpa using hnot⟩, by simp, by simp⟩

end

/-- The octets of an HTTP text. -/
abbrev Octets := List UInt8

/-- The octets of a text, in UTF-8. -/
def octets (text : String) : Octets :=
  text.toUTF8.data.toList

theorem octets_injective {a b : String} (h : octets a = octets b) : a = b := by
  have hdata : a.toUTF8.data = b.toUTF8.data := Array.toList_inj.mp h
  exact String.toByteArray_inj.mp (ByteArray.ext hdata)

/-- The octet of an ASCII character. -/
def octet (c : Char) : UInt8 :=
  UInt8.ofNat c.toNat

theorem octets_append (a b : String) : octets (a ++ b) = octets a ++ octets b := by
  simp [octets]

theorem utf8EncodeChar_ascii {c : Char} (h : c.toNat < 128) : String.utf8EncodeChar c = [octet c] := by
  have hsize : c.utf8Size = 1 := Char.utf8Size_eq_one_iff.mpr (UInt32.le_iff_toNat_le.mpr (Nat.le_of_lt_succ h))
  rw [String.utf8EncodeChar_eq_singleton hsize]
  rfl

theorem octets_ofList_eq (cs : List Char) : octets (String.ofList cs) = cs.flatMap String.utf8EncodeChar := by
  simp [octets, List.utf8Encode]

theorem octets_ofList {cs : List Char} (h : ∀ c ∈ cs, c.toNat < 128) : octets (String.ofList cs) = cs.map octet := by
  rw [octets_ofList_eq]
  induction cs with
  | nil => rfl
  | cons c cs ih =>
    rw [List.flatMap_cons, utf8EncodeChar_ascii (h c List.mem_cons_self),
      ih (fun d hd => h d (List.mem_cons_of_mem _ hd))]
    rfl

theorem octet_toNat {c : Char} (h : c.toNat < 128) : (octet c).toNat = c.toNat := by
  simp [octet]
  omega

theorem utf8EncodeChar_large {c : Char} (h : 128 ≤ c.toNat) : ∀ o ∈ String.utf8EncodeChar c, 128 ≤ o.toNat := by
  have hnot : ¬ c.val.toNat ≤ 127 := Nat.not_le.mpr h
  have hlow : ∀ v, 128 ≤ v → v < 256 → 128 ≤ (UInt8.ofNat v).toNat := by
    intro v hv hlt
    rw [UInt8.toNat_ofNat']
    omega
  intro o ho
  simp only [String.utf8EncodeChar, if_neg hnot] at ho
  split at ho
  next =>
    simp only [List.mem_cons, List.not_mem_nil, or_false] at ho
    rcases ho with rfl | rfl <;> exact hlow _ (by omega) (by omega)
  next =>
    split at ho
    next =>
      simp only [List.mem_cons, List.not_mem_nil, or_false] at ho
      rcases ho with rfl | rfl | rfl <;> exact hlow _ (by omega) (by omega)
    next =>
      simp only [List.mem_cons, List.not_mem_nil, or_false] at ho
      rcases ho with rfl | rfl | rfl | rfl <;> exact hlow _ (by omega) (by omega)

theorem mem_of_octet_mem_octets {c : Char} (hc : c.toNat < 128) {text : String} (h : octet c ∈ octets text) :
    c ∈ text.toList := by
  rw [← String.ofList_toList (s := text), octets_ofList_eq, List.mem_flatMap] at h
  obtain ⟨d, hd, hmem⟩ := h
  have hsmall : d.toNat < 128 := by
    by_contra hlarge
    have hvalue := utf8EncodeChar_large (Nat.not_lt.mp hlarge) (octet c) hmem
    rw [octet_toNat hc] at hvalue
    omega
  rw [utf8EncodeChar_ascii hsmall, List.mem_singleton] at hmem
  have heq : c = d := by
    apply Char.toNat_inj.mp
    rw [← octet_toNat hc, ← octet_toNat hsmall, hmem]
  exact heq ▸ hd

def isWhitespace (o : UInt8) : Bool :=
  o == 32 || decide (9 ≤ o) && decide (o ≤ 13)

/-- `trim` of a text in ASCII. -/
def trim (text : Octets) : Octets :=
  trimEndMatches isWhitespace (trimStartMatches isWhitespace text)

def toAsciiLowercase (text : Octets) : Octets :=
  text.map fun o => if 65 ≤ o ∧ o ≤ 90 then o + 32 else o

def eqIgnoreAsciiCase (a b : Octets) : Bool :=
  toAsciiLowercase a == toAsciiLowercase b

end AgentDesktop
