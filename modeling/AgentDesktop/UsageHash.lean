import AgentDesktop.UsageCost

namespace AgentDesktop

/-- An attribute, or an entry of a list of them. The value, or what is in it, may not be set. -/
abbrev KeyValue := String × Option (Option OtlpValue)

/-- The big-endian bytes of an unsigned number. -/
def beBytes : Nat → Nat → Octets
  | 0, _ => []
  | width + 1, n => beBytes width (n / 256) ++ [UInt8.ofNat n]

def toBeBytes (n : Nat) : Octets :=
  beBytes 8 n

def hashBytes (bytes : Octets) : Octets :=
  toBeBytes bytes.length ++ bytes

mutual
/-- The bytes that are hashed of a value that is set. -/
def hashSet : OtlpValue → Octets
  | .stringValue text => 1 :: hashBytes (octets text)
  | .boolValue flag => [2, if flag then 1 else 0]
  | .intValue number => 3 :: toBeBytes number.toUInt64.toNat
  | .doubleValue number => 4 :: toBeBytes number.toNat
  | .arrayValue values => 5 :: (toBeBytes values.length ++ hashItems values)
  | .kvlistValue values => 6 :: (toBeBytes values.length ++ hashEntries values)
  | .bytesValue bytes => 7 :: hashBytes bytes
def hashAny : Option OtlpValue → Octets
  | none => [0]
  | some value => hashSet value
def hashValue : Option (Option OtlpValue) → Octets
  | none => [0]
  | some value => hashAny value
def hashItems : List (Option OtlpValue) → Octets
  | [] => []
  | item :: items => hashAny item ++ hashItems items
def hashEntries : List KeyValue → Octets
  | [] => []
  | (key, value) :: entries => hashBytes (octets key) ++ (hashValue value ++ hashEntries entries)
end

mutual
/-- A value in which what is not set is not set in one way only. -/
def OtlpValue.canonical : OtlpValue → OtlpValue
  | .arrayValue values => .arrayValue (canonicalItems values)
  | .kvlistValue values => .kvlistValue (canonicalEntries values)
  | value => value
def canonicalAny : Option OtlpValue → Option OtlpValue
  | none => none
  | some value => some value.canonical
def canonicalValue : Option (Option OtlpValue) → Option OtlpValue
  | none => none
  | some value => canonicalAny value
def canonicalItems : List (Option OtlpValue) → List (Option OtlpValue)
  | [] => []
  | item :: items => canonicalAny item :: canonicalItems items
def canonicalEntries : List KeyValue → List KeyValue
  | [] => []
  | (key, value) :: entries => (key, some (canonicalValue value)) :: canonicalEntries entries
end

mutual
/-- The lengths in a value are unsigned 64-bit numbers. -/
def OtlpValue.fits : OtlpValue → Bool
  | .stringValue text => (octets text).length < 2 ^ 64
  | .arrayValue values => values.length < 2 ^ 64 && fitsItems values
  | .kvlistValue values => values.length < 2 ^ 64 && fitsEntries values
  | .bytesValue bytes => bytes.length < 2 ^ 64
  | _ => true
def fitsAny : Option OtlpValue → Bool
  | none => true
  | some value => value.fits
def fitsValue : Option (Option OtlpValue) → Bool
  | none => true
  | some value => fitsAny value
def fitsItems : List (Option OtlpValue) → Bool
  | [] => true
  | item :: items => fitsAny item && fitsItems items
def fitsEntries : List KeyValue → Bool
  | [] => true
  | (key, value) :: entries => (octets key).length < 2 ^ 64 && (fitsValue value && fitsEntries entries)
end

theorem length_beBytes (width n : Nat) : (beBytes width n).length = width := by
  induction width generalizing n with
  | zero => rfl
  | succ width ih => simp [beBytes, ih]

theorem beBytes_inj {width n m : Nat} (hn : n < 256 ^ width) (hm : m < 256 ^ width)
    (h : beBytes width n = beBytes width m) : n = m := by
  induction width generalizing n m with
  | zero => omega
  | succ width ih =>
    simp only [beBytes] at h
    obtain ⟨hfirst, hlast⟩ := List.append_inj h (by simp [length_beBytes])
    have hhigh : n / 256 = m / 256 := ih (by omega) (by omega) hfirst
    have hlow : n % 256 = m % 256 := by simpa [← UInt8.toNat_inj] using hlast
    omega

theorem toBeBytes_append_inj {n m : Nat} {r s : Octets} (hn : n < 2 ^ 64) (hm : m < 2 ^ 64)
    (h : toBeBytes n ++ r = toBeBytes m ++ s) : n = m ∧ r = s := by
  obtain ⟨hbytes, hrest⟩ := List.append_inj h (by simp [toBeBytes, length_beBytes])
  exact ⟨beBytes_inj (by omega) (by omega) hbytes, hrest⟩

theorem hashBytes_append_inj {a b r s : Octets} (ha : a.length < 2 ^ 64) (hb : b.length < 2 ^ 64)
    (h : hashBytes a ++ r = hashBytes b ++ s) : a = b ∧ r = s := by
  simp only [hashBytes, List.append_assoc] at h
  obtain ⟨hlength, hrest⟩ := toBeBytes_append_inj ha hb h
  exact List.append_inj hrest hlength

theorem hashSet_ne_unset (value : OtlpValue) (r s : Octets) : hashSet value ++ r ≠ 0 :: s := by
  cases value <;> simp [hashSet]

mutual
/-- The bytes of a value determine it and where it ends. -/
theorem hashSet_append_inj : ∀ (v w : OtlpValue) (r s : Octets), v.fits = true → w.fits = true →
    hashSet v ++ r = hashSet w ++ s → v.canonical = w.canonical ∧ r = s
  | .stringValue text, w, r, s, hv, hw, h => by
    cases w with
    | stringValue other =>
      simp only [OtlpValue.fits, decide_eq_true_eq] at hv hw
      simp only [hashSet, List.cons_append, List.cons.injEq, true_and] at h
      obtain ⟨hoctets, hrest⟩ := hashBytes_append_inj hv hw h
      rw [octets_injective hoctets]
      exact ⟨rfl, hrest⟩
    | _ => simp [hashSet] at h
  | .boolValue flag, w, r, s, hv, hw, h => by
    cases w with
    | boolValue other =>
      cases flag <;> cases other <;> simp_all [hashSet]
    | _ => simp [hashSet] at h
  | .intValue number, w, r, s, hv, hw, h => by
    cases w with
    | intValue other =>
      simp only [hashSet, List.cons_append, List.cons.injEq, true_and] at h
      obtain ⟨hnumber, hrest⟩ := toBeBytes_append_inj (UInt64.toNat_lt _) (UInt64.toNat_lt _) h
      have hbits : number.toUInt64 = other.toUInt64 := UInt64.toNat_inj.mp hnumber
      rw [Int64.toBitVec.inj (congrArg UInt64.toBitVec hbits)]
      exact ⟨rfl, hrest⟩
    | _ => simp [hashSet] at h
  | .doubleValue number, w, r, s, hv, hw, h => by
    cases w with
    | doubleValue other =>
      simp only [hashSet, List.cons_append, List.cons.injEq, true_and] at h
      obtain ⟨hnumber, hrest⟩ := toBeBytes_append_inj (UInt64.toNat_lt _) (UInt64.toNat_lt _) h
      rw [UInt64.toNat_inj.mp hnumber]
      exact ⟨rfl, hrest⟩
    | _ => simp [hashSet] at h
  | .arrayValue values, w, r, s, hv, hw, h => by
    cases w with
    | arrayValue others =>
      simp only [OtlpValue.fits, Bool.and_eq_true, decide_eq_true_eq] at hv hw
      simp only [hashSet, List.cons_append, List.append_assoc, List.cons.injEq, true_and] at h
      obtain ⟨hlength, hitems⟩ := toBeBytes_append_inj hv.1 hw.1 h
      obtain ⟨hcanonical, hrest⟩ := hashItems_append_inj values others r s hlength hv.2 hw.2 hitems
      simp only [OtlpValue.canonical, hcanonical]
      exact ⟨trivial, hrest⟩
    | _ => simp [hashSet] at h
  | .kvlistValue values, w, r, s, hv, hw, h => by
    cases w with
    | kvlistValue others =>
      simp only [OtlpValue.fits, Bool.and_eq_true, decide_eq_true_eq] at hv hw
      simp only [hashSet, List.cons_append, List.append_assoc, List.cons.injEq, true_and] at h
      obtain ⟨hlength, hentries⟩ := toBeBytes_append_inj hv.1 hw.1 h
      obtain ⟨hcanonical, hrest⟩ := hashEntries_append_inj values others r s hlength hv.2 hw.2 hentries
      simp only [OtlpValue.canonical, hcanonical]
      exact ⟨trivial, hrest⟩
    | _ => simp [hashSet] at h
  | .bytesValue bytes, w, r, s, hv, hw, h => by
    cases w with
    | bytesValue others =>
      simp only [OtlpValue.fits, decide_eq_true_eq] at hv hw
      simp only [hashSet, List.cons_append, List.cons.injEq, true_and] at h
      obtain ⟨rfl, hrest⟩ := hashBytes_append_inj hv hw h
      exact ⟨rfl, hrest⟩
    | _ => simp [hashSet] at h
theorem hashAny_append_inj : ∀ (v w : Option OtlpValue) (r s : Octets), fitsAny v = true → fitsAny w = true →
    hashAny v ++ r = hashAny w ++ s → canonicalAny v = canonicalAny w ∧ r = s
  | none, none, _, _, _, _, h => ⟨rfl, (List.cons.inj h).2⟩
  | none, some w, r, s, _, _, h => absurd h.symm (hashSet_ne_unset w s r)
  | some v, none, r, s, _, _, h => absurd h (hashSet_ne_unset v r s)
  | some v, some w, r, s, hv, hw, h => by
    obtain ⟨hcanonical, hrest⟩ := hashSet_append_inj v w r s hv hw h
    simp only [canonicalAny, hcanonical]
    exact ⟨trivial, hrest⟩
theorem hashValue_append_inj : ∀ (v w : Option (Option OtlpValue)) (r s : Octets), fitsValue v = true →
    fitsValue w = true → hashValue v ++ r = hashValue w ++ s → canonicalValue v = canonicalValue w ∧ r = s
  | none, none, _, _, _, _, h => ⟨rfl, (List.cons.inj h).2⟩
  | none, some none, _, _, _, _, h => ⟨rfl, (List.cons.inj h).2⟩
  | none, some (some w), r, s, _, _, h => absurd h.symm (hashSet_ne_unset w s r)
  | some none, none, _, _, _, _, h => ⟨rfl, (List.cons.inj h).2⟩
  | some (some v), none, r, s, _, _, h => absurd h (hashSet_ne_unset v r s)
  | some v, some w, r, s, hv, hw, h => hashAny_append_inj v w r s hv hw h
theorem hashItems_append_inj : ∀ (xs ys : List (Option OtlpValue)) (r s : Octets), xs.length = ys.length →
    fitsItems xs = true → fitsItems ys = true → hashItems xs ++ r = hashItems ys ++ s →
    canonicalItems xs = canonicalItems ys ∧ r = s
  | [], [], _, _, _, _, _, h => ⟨rfl, h⟩
  | x :: xs, y :: ys, r, s, hlength, hxs, hys, h => by
    simp only [fitsItems, Bool.and_eq_true] at hxs hys
    simp only [hashItems, List.append_assoc] at h
    obtain ⟨hfirst, h⟩ := hashAny_append_inj x y _ _ hxs.1 hys.1 h
    obtain ⟨hitems, hrest⟩ := hashItems_append_inj xs ys r s (Nat.succ.inj hlength) hxs.2 hys.2 h
    simp only [canonicalItems, hfirst, hitems]
    exact ⟨trivial, hrest⟩
theorem hashEntries_append_inj : ∀ (xs ys : List KeyValue) (r s : Octets), xs.length = ys.length →
    fitsEntries xs = true → fitsEntries ys = true → hashEntries xs ++ r = hashEntries ys ++ s →
    canonicalEntries xs = canonicalEntries ys ∧ r = s
  | [], [], _, _, _, _, _, h => ⟨rfl, h⟩
  | (j, x) :: xs, (k, y) :: ys, r, s, hlength, hxs, hys, h => by
    simp only [fitsEntries, Bool.and_eq_true, decide_eq_true_eq] at hxs hys
    simp only [hashEntries, List.append_assoc] at h
    obtain ⟨hkey, h⟩ := hashBytes_append_inj hxs.1 hys.1 h
    obtain ⟨hvalue, h⟩ := hashValue_append_inj x y _ _ hxs.2.1 hys.2.1 h
    obtain ⟨hentries, hrest⟩ := hashEntries_append_inj xs ys r s (Nat.succ.inj hlength) hxs.2.2 hys.2.2 h
    simp only [canonicalEntries, octets_injective hkey, hvalue, hentries]
    exact ⟨trivial, hrest⟩
end

end AgentDesktop
