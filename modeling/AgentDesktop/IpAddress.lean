import AgentDesktop.OctetText

namespace AgentDesktop

/-- An address, by its four octets or its eight groups. -/
inductive IpAddr where
  | v4 (octets : List Nat)
  | v6 (groups : List Nat)
  deriving DecidableEq

/-- An address of 127.0.0.0/8, or ::1. -/
def IpAddr.isLoopback : IpAddr → Bool
  | .v4 octets => octets.head? == some 127
  | .v6 groups => groups == [0, 0, 0, 0, 0, 0, 0, 1]

def toDigit (radix : Nat) (o : UInt8) : Option Nat :=
  let value :=
    if 48 ≤ o ∧ o ≤ 57 then o.toNat - 48
    else if 97 ≤ o ∧ o ≤ 122 then o.toNat - 87
    else if 65 ≤ o ∧ o ≤ 90 then o.toNat - 55
    else 36
  if value < radix then some value else none

def readDigits (radix : Nat) : Octets → List Nat × Octets
  | [] => ([], [])
  | o :: text =>
    match toDigit radix o with
    | some digit => ((digit :: (readDigits radix text).1), (readDigits radix text).2)
    | none => ([], o :: text)

/-- A number of at most `maxDigits` digits that does not exceed `limit`, and the text after it. -/
def readNumber (radix maxDigits : Nat) (allowZeroPrefix : Bool) (limit : Nat) (text : Octets) :
    Option (Nat × Octets) :=
  let (digits, rest) := readDigits radix text
  let value := digits.foldl (fun sum digit => sum * radix + digit) 0
  if digits.isEmpty || decide (digits.length > maxDigits) then none
  else if !allowZeroPrefix && digits.head? == some 0 && decide (digits.length > 1) then none
  else if value ≤ limit then some (value, rest)
  else none

def readGivenChar (c : Char) : Octets → Option Octets
  | [] => none
  | o :: text => if o = octet c then some text else none

/-- Reads an item of a list, after its separator unless it is the first. -/
def readSeparator {A : Type} (c : Char) (index : Nat) (read : Octets → Option A) (text : Octets) : Option A :=
  if index > 0 then (readGivenChar c text).bind read else read text

def readIpv4Addr (text : Octets) : Option (List Nat × Octets) := do
  let (one, text) ← readNumber 10 3 false 255 text
  let text ← readGivenChar '.' text
  let (two, text) ← readNumber 10 3 false 255 text
  let text ← readGivenChar '.' text
  let (three, text) ← readNumber 10 3 false 255 text
  let text ← readGivenChar '.' text
  let (four, text) ← readNumber 10 3 false 255 text
  return ([one, two, three, four], text)

/-- Groups from `index` on, `remaining` at most, whether they end in an IPv4 address,
and the text after them. -/
def readGroups (index : Nat) : Nat → Octets → List Nat × Bool × Octets
  | 0, text => ([], false, text)
  | remaining + 1, text =>
    match if remaining > 0 then readSeparator ':' index readIpv4Addr text else none with
    | some ([one, two, three, four], rest) => ([one * 256 + two, three * 256 + four], true, rest)
    | _ =>
      match readSeparator ':' index (readNumber 16 4 true 65535) text with
      | none => ([], false, text)
      | some (group, rest) =>
        let (groups, ipv4, rest) := readGroups (index + 1) remaining rest
        (group :: groups, ipv4, rest)

def readIpv6Addr (text : Octets) : Option (List Nat × Octets) := do
  let (head, headIpv4, text) := readGroups 0 8 text
  if head.length = 8 then return (head, text)
  if headIpv4 then none
  let text ← readGivenChar ':' text
  let text ← readGivenChar ':' text
  let (tail, _, text) := readGroups 0 (8 - (head.length + 1)) text
  return (head ++ List.replicate (8 - head.length - tail.length) 0 ++ tail, text)

def readIpAddr (text : Octets) : Option (IpAddr × Octets) :=
  match readIpv4Addr text with
  | some (octets, rest) => some (.v4 octets, rest)
  | none => (readIpv6Addr text).map fun (groups, rest) => (.v6 groups, rest)

/-- `parse` of an address, which must be the whole text. -/
def parseIpAddr (text : Octets) : Option IpAddr :=
  match readIpAddr text with
  | some (ip, []) => some ip
  | _ => none

example : parseIpAddr (octets "127.0.0.1") = some (.v4 [127, 0, 0, 1]) := by decide

example : parseIpAddr (octets "::1") = some (.v6 [0, 0, 0, 0, 0, 0, 0, 1]) := by decide

example : parseIpAddr (octets "127.0.0.01") = none := by decide

end AgentDesktop
