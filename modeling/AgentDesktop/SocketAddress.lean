import AgentDesktop.IpAddress
import AgentDesktop.UnicodeText

namespace AgentDesktop

/-- An address with a port. The scope is that of an IPv6 address; its flow label is neither
shown nor read back. -/
structure SocketAddr where
  ip : IpAddr
  scopeId : Nat := 0
  port : Nat
  deriving DecidableEq

/-- The octets, groups, scopes and ports that there are. -/
def SocketAddr.valid (address : SocketAddr) : Bool :=
  decide (address.port < 65536) &&
    match address.ip with
    | .v4 octets => decide (octets.length = 4) && octets.all (· < 256) && decide (address.scopeId = 0)
    | .v6 groups => decide (groups.length = 8) && groups.all (· < 65536) && decide (address.scopeId < 2 ^ 32)

def joinWith (separator : String) : List String → String
  | [] => ""
  | [text] => text
  | text :: rest => text ++ separator ++ joinWith separator rest

def hexGroups (groups : List Nat) : String :=
  joinWith ":" (groups.map fun group => String.ofList (Nat.toDigits 16 group))

/-- Where the longest run of zero groups starts, and its length. -/
def zeroSpan (groups : List Nat) : Nat × Nat :=
  let scanned := groups.zipIdx.foldl (fun (spans : (Nat × Nat) × (Nat × Nat)) (group, index) =>
    if group = 0 then
      let current := (if spans.2.2 = 0 then index else spans.2.1, spans.2.2 + 1)
      (if current.2 > spans.1.2 then current else spans.1, current)
    else (spans.1, (0, 0))) ((0, 0), (0, 0))
  scanned.1

def displayIpv4 (octets : List Nat) : String :=
  joinWith "." (octets.map toString)

def displayIpv6 (groups : List Nat) : String :=
  match groups with
  | [0, 0, 0, 0, 0, 65535, high, low] =>
    "::ffff:" ++ displayIpv4 [high / 256, high % 256, low / 256, low % 256]
  | _ =>
    let (start, length) := zeroSpan groups
    if length > 1 then hexGroups (groups.take start) ++ "::" ++ hexGroups (groups.drop (start + length))
    else hexGroups groups

def SocketAddr.display (address : SocketAddr) : String :=
  match address.ip with
  | .v4 octets => displayIpv4 octets ++ ":" ++ toString address.port
  | .v6 groups =>
    "[" ++ displayIpv6 groups ++ (if address.scopeId = 0 then "" else "%" ++ toString address.scopeId) ++ "]:" ++
      toString address.port

/-- A number after a character, with any number of digits. -/
def readNumberAfter (c : Char) (limit : Nat) (text : Octets) : Option (Nat × Octets) :=
  (readGivenChar c text).bind fun text => readNumber 10 text.length true limit text

def readSocketAddrV4 (text : Octets) : Option (SocketAddr × Octets) := do
  let (octets, text) ← readIpv4Addr text
  let (port, text) ← readNumberAfter ':' 65535 text
  return (⟨.v4 octets, 0, port⟩, text)

def readSocketAddrV6 (text : Octets) : Option (SocketAddr × Octets) := do
  let text ← readGivenChar '[' text
  let (groups, text) ← readIpv6Addr text
  let (scopeId, text) := (readNumberAfter '%' (2 ^ 32 - 1) text).getD (0, text)
  let text ← readGivenChar ']' text
  let (port, text) ← readNumberAfter ':' 65535 text
  return (⟨.v6 groups, scopeId, port⟩, text)

/-- `parse` of a socket address, which must be the whole text. -/
def parseSocketAddr (text : Octets) : Option SocketAddr :=
  match (readSocketAddrV4 text).or (readSocketAddrV6 text) with
  | some (address, []) => some address
  | _ => none

/-- The decimal digits of a number, as octets. -/
def decimal (n : Nat) : Octets :=
  (Nat.toDigits 10 n).map octet

/-- A text at which no decimal number can go on. -/
def EndsNumber (text : Octets) : Prop :=
  ∀ o ∈ text.head?, toDigit 10 o = none

theorem octets_repr (n : Nat) : octets n.repr = decimal n := by
  rw [Nat.repr_eq_ofList_toDigits]
  refine octets_ofList fun c hc => ?_
  have hdigit := Char.isDigit_iff_toNat.mp (Nat.isDigit_of_mem_toDigits (by omega) (by omega) hc)
  have hnine : '9'.toNat = 57 := rfl
  omega

theorem toDigit_octet {c : Char} (h : c.isDigit = true) : toDigit 10 (octet c) = some (digitValue c) := by
  obtain ⟨hlow, hhigh⟩ := Char.isDigit_iff_toNat.mp h
  have hzero : '0'.toNat = 48 := rfl
  have hnine : '9'.toNat = 57 := rfl
  have hoctet : (octet c).toNat = c.toNat := octet_toNat (by omega)
  have hrange : 48 ≤ octet c ∧ octet c ≤ 57 := by
    simp only [UInt8.le_iff_toNat_le, hoctet]
    exact ⟨hlow, hhigh⟩
  have hvalue := digitValue_lt h
  simp only [toDigit, if_pos hrange, hoctet]
  exact if_pos hvalue

theorem readDigits_append {digits : List Char} (h : ∀ c ∈ digits, c.isDigit = true) {rest : Octets}
    (hrest : EndsNumber rest) : readDigits 10 (digits.map octet ++ rest) = (digits.map digitValue, rest) := by
  induction digits with
  | nil =>
    cases rest with
    | nil => rfl
    | cons o rest => simp [readDigits, hrest o rfl]
  | cons c digits ih =>
    rw [List.map_cons, List.cons_append, readDigits, toDigit_octet (h c List.mem_cons_self)]
    simp only [ih fun d hd => h d (List.mem_cons_of_mem _ hd), List.map_cons]

theorem foldl_digitValue (digits : List Char) :
    (digits.map digitValue).foldl (fun sum digit => sum * 10 + digit) 0 = ofDigits digits := by
  rw [List.foldl_map, ofDigits, Nat.ofDigitChars_eq_foldl]
  simp only [Nat.mul_comm, digitValue]

theorem digitValue_digitChar {n : Nat} (h : n < 10) : digitValue n.digitChar = n :=
  Nat.toNat_digitChar_sub_48_of_lt_ten h

/-- A number of two digits or more does not start with a zero. -/
theorem head_toDigits {n : Nat} (h : 0 < n) : ∀ c ∈ (Nat.toDigits 10 n).head?, digitValue c ≠ 0 := by
  induction n using Nat.strongRecOn with
  | _ n ih =>
    intro c hc
    by_cases hsmall : n < 10
    · rw [Nat.toDigits_of_lt_base hsmall] at hc
      cases hc
      rw [digitValue_digitChar hsmall]
      omega
    · rw [Nat.toDigits_of_base_le (by omega) (by omega), List.head?_append_of_ne_nil _ Nat.toDigits_ne_nil] at hc
      exact ih (n / 10) (by omega) (by omega) c hc

theorem readNumber_decimal {n maxDigits limit : Nat} {allowZeroPrefix : Bool} {rest : Octets}
    (hlimit : n ≤ limit) (hdigits : (decimal n).length ≤ maxDigits) (hrest : EndsNumber rest) :
    readNumber 10 maxDigits allowZeroPrefix limit (decimal n ++ rest) = some (n, rest) := by
  have hall : ∀ c ∈ Nat.toDigits 10 n, c.isDigit = true :=
    fun c hc => Nat.isDigit_of_mem_toDigits (by omega) (by omega) hc
  have hvalue : ofDigits (Nat.toDigits 10 n) = n := Nat.ofDigitChars_ten_toDigits
  have hempty : ((Nat.toDigits 10 n).map digitValue).isEmpty = false := by simp
  have hlength : ¬ ((Nat.toDigits 10 n).map digitValue).length > maxDigits := by
    simpa [decimal] using hdigits
  have hzero : (((Nat.toDigits 10 n).map digitValue).head? == some 0 &&
      decide (((Nat.toDigits 10 n).map digitValue).length > 1)) = false := by
    by_cases hsmall : n < 10
    · simp [Nat.toDigits_of_lt_base hsmall]
    · have hhead := head_toDigits (show 0 < n by omega)
      rw [Bool.and_eq_false_iff]
      left
      rw [List.head?_map, beq_eq_false_iff_ne]
      intro heq
      obtain ⟨c, hc, hc0⟩ := Option.map_eq_some_iff.mp heq
      exact hhead c hc hc0
  unfold readNumber decimal
  rw [readDigits_append hall hrest]
  simp only [hempty, hlength, foldl_digitValue, hvalue, hlimit, Bool.and_assoc, hzero]
  simp

theorem length_decimal_le {n k : Nat} (hk : 0 < k) (h : n < 10 ^ k) : (decimal n).length ≤ k := by
  rw [decimal, List.length_map]
  exact (Nat.length_toDigits_le_iff (by omega) hk).mpr h

theorem endsNumber_nil : EndsNumber [] := by
  rintro o ⟨⟩

theorem endsNumber_octet {c : Char} (h : toDigit 10 (octet c) = none) (rest : Octets) :
    EndsNumber (octet c :: rest) := by
  rintro o ⟨⟩
  exact h

theorem readGivenChar_octet (c : Char) (rest : Octets) : readGivenChar c (octet c :: rest) = some rest := by
  simp [readGivenChar]

theorem readNumberAfter_decimal {c : Char} {n limit : Nat} {rest : Octets} (hlimit : n ≤ limit)
    (hrest : EndsNumber rest) : readNumberAfter c limit (octet c :: (decimal n ++ rest)) = some (n, rest) := by
  rw [readNumberAfter, readGivenChar_octet, Option.bind_some]
  exact readNumber_decimal hlimit (by simp) hrest

theorem readIpv4Addr_display {a b c d : Nat} {rest : Octets} (ha : a < 256) (hb : b < 256) (hc : c < 256)
    (hd : d < 256) (hrest : EndsNumber rest) :
    readIpv4Addr (octets (displayIpv4 [a, b, c, d]) ++ rest) = some ([a, b, c, d], rest) := by
  have hdot (text : Octets) : EndsNumber (octet '.' :: text) := endsNumber_octet (by decide) text
  have htext : octets (displayIpv4 [a, b, c, d]) ++ rest = decimal a ++ octet '.' :: (decimal b ++
      octet '.' :: (decimal c ++ octet '.' :: (decimal d ++ rest))) := by
    have hpoint : octets "." = [octet '.'] := by decide
    simp [displayIpv4, joinWith, octets_append, octets_repr, hpoint]
  have hnumber {n : Nat} (hn : n < 256) {text : Octets} (hends : EndsNumber text) :
      readNumber 10 3 false 255 (decimal n ++ text) = some (n, text) :=
    readNumber_decimal (by omega) (length_decimal_le (by omega) (by omega)) hends
  rw [htext, readIpv4Addr, hnumber ha (hdot _)]
  simp only [Option.bind_eq_bind, Option.bind_some, readGivenChar_octet, hnumber hb (hdot _), hnumber hc (hdot _),
    hnumber hd hrest]
  rfl

theorem readIpv4Addr_bracket (text : Octets) : readIpv4Addr (octet '[' :: text) = none := rfl

/-- The loopback address of IPv6, up to its scope or its bracket. -/
theorem readIpv6Addr_loopback {c : Char} (h : c = '%' ∨ c = ']') (text : Octets) :
    readIpv6Addr (octets "::1" ++ octet c :: text) = some ([0, 0, 0, 0, 0, 0, 0, 1], octet c :: text) := by
  rcases h with rfl | rfl
  · rfl
  · rfl

section

variable {scopeId port : Nat} (hport : port < 65536)

theorem octets_colon : octets ":" = [octet ':'] := by decide

include hport

theorem readNumberAfter_port : readNumberAfter ':' 65535 (octet ':' :: decimal port) = some (port, []) := by
  have h := readNumberAfter_decimal (c := ':') (show port ≤ 65535 by omega) endsNumber_nil
  rwa [List.append_nil] at h

theorem parseSocketAddr_v4 {numbers : List Nat} (hlength : numbers.length = 4) (hsmall : numbers.all (· < 256) = true) :
    parseSocketAddr (octets (SocketAddr.display ⟨.v4 numbers, 0, port⟩)) = some ⟨.v4 numbers, 0, port⟩ := by
  obtain ⟨a, b, c, d, rfl⟩ := List.length_eq_four.mp hlength
  simp only [List.all_cons, List.all_nil, Bool.and_true, Bool.and_eq_true, decide_eq_true_eq] at hsmall
  have htext : octets (SocketAddr.display ⟨.v4 [a, b, c, d], 0, port⟩) =
      octets (displayIpv4 [a, b, c, d]) ++ octet ':' :: decimal port := by
    simp [SocketAddr.display, octets_append, octets_repr, octets_colon]
  have hread := readIpv4Addr_display hsmall.1 hsmall.2.1 hsmall.2.2.1 hsmall.2.2.2
    (endsNumber_octet (c := ':') (by decide) (decimal port))
  rw [htext, parseSocketAddr, readSocketAddrV4, hread]
  simp [readNumberAfter_port hport]

/-- After the address of IPv6 comes the scope, if it has one. -/
theorem parseSocketAddr_v6 (hscope : scopeId < 2 ^ 32) :
    parseSocketAddr (octets (SocketAddr.display ⟨.v6 [0, 0, 0, 0, 0, 0, 0, 1], scopeId, port⟩)) =
      some ⟨.v6 [0, 0, 0, 0, 0, 0, 0, 1], scopeId, port⟩ := by
  have hshown : displayIpv6 [0, 0, 0, 0, 0, 0, 0, 1] = "::1" := by decide
  have hends := readNumberAfter_port hport
  by_cases hzero : scopeId = 0
  · subst hzero
    have hopen : octets "[::1]:" = octet '[' :: (octets "::1" ++ [octet ']', octet ':']) := by decide
    have htext : octets (SocketAddr.display ⟨.v6 [0, 0, 0, 0, 0, 0, 0, 1], 0, port⟩) =
        octet '[' :: (octets "::1" ++ octet ']' :: octet ':' :: decimal port) := by
      simp [SocketAddr.display, octets_append, octets_repr, hshown, hopen]
    have hscoped : readNumberAfter '%' 4294967295 (octet ']' :: octet ':' :: decimal port) = none := rfl
    rw [htext, parseSocketAddr, readSocketAddrV4, readIpv4Addr_bracket, readSocketAddrV6, readGivenChar_octet]
    simp [readIpv6Addr_loopback (Or.inr rfl), hscoped, readGivenChar_octet, hends]
  · have hopen : octets "[::1" = octet '[' :: octets "::1" := by decide
    have hpercent : octets "%" = [octet '%'] := by decide
    have hclose : octets "]:" = [octet ']', octet ':'] := by decide
    have htext : octets (SocketAddr.display ⟨.v6 [0, 0, 0, 0, 0, 0, 0, 1], scopeId, port⟩) =
        octet '[' :: (octets "::1" ++ octet '%' :: (decimal scopeId ++ octet ']' :: octet ':' :: decimal port)) := by
      simp [SocketAddr.display, octets_append, octets_repr, hshown, hzero, hopen, hpercent, hclose]
    have hscoped := readNumberAfter_decimal (c := '%') (show scopeId ≤ 4294967295 by omega)
      (endsNumber_octet (c := ']') (by decide) (octet ':' :: decimal port))
    rw [htext, parseSocketAddr, readSocketAddrV4, readIpv4Addr_bracket, readSocketAddrV6, readGivenChar_octet]
    simp [readIpv6Addr_loopback (Or.inl rfl), hscoped, readGivenChar_octet, hends]

end

/-- A loopback socket address is read back from its text. -/
theorem parseSocketAddr_display {address : SocketAddr} (hvalid : address.valid = true)
    (hloopback : address.ip.isLoopback = true) : parseSocketAddr (octets address.display) = some address := by
  obtain ⟨ip, scopeId, port⟩ := address
  simp only [SocketAddr.valid, Bool.and_eq_true, decide_eq_true_eq] at hvalid
  obtain ⟨hport, hip⟩ := hvalid
  cases ip with
  | v4 numbers =>
    simp only [Bool.and_eq_true, decide_eq_true_eq] at hip
    obtain ⟨⟨hlength, hsmall⟩, rfl⟩ := hip
    exact parseSocketAddr_v4 hport hlength hsmall
  | v6 groups =>
    obtain rfl : groups = [0, 0, 0, 0, 0, 0, 0, 1] := by simpa [IpAddr.isLoopback] using hloopback
    simp only [Bool.and_eq_true, decide_eq_true_eq] at hip
    exact parseSocketAddr_v6 hport hip.2

example : parseSocketAddr (octets "[::1%3]:8080") = some ⟨.v6 [0, 0, 0, 0, 0, 0, 0, 1], 3, 8080⟩ := by decide

example : SocketAddr.display ⟨.v6 [0x2001, 0xdb8, 0, 0, 0, 0, 2, 1], 0, 443⟩ = "[2001:db8::2:1]:443" := by decide

end AgentDesktop
