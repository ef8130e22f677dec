import AgentDesktop.PathSegments
import AgentDesktop.ProxyIndependence

namespace AgentDesktop

/-- The octets of a generated pairing: URL-safe base64. -/
def isUrlSafe (o : UInt8) : Bool :=
  decide (48 ≤ o ∧ o ≤ 57) || decide (65 ≤ o ∧ o ≤ 90) || decide (97 ≤ o ∧ o ≤ 122) || o == octet '-' || o == octet '_'

theorem not_mem_of_urlSafe {pairing : Octets} (h : ∀ o ∈ pairing, isUrlSafe o = true) {o : UInt8}
    (ho : isUrlSafe o = false) : o ∉ pairing := by
  intro hmem
  rw [h o hmem] at ho
  cases ho

theorem toStr_urlSafe {pairing : Octets} (h : ∀ o ∈ pairing, isUrlSafe o = true) : toStr pairing = some pairing := by
  unfold toStr
  rw [if_pos]
  rw [List.all_eq_true]
  intro o ho
  have hsafe := h o ho
  simp only [isUrlSafe, octet, Bool.or_eq_true, decide_eq_true_eq, beq_iff_eq] at hsafe
  simp only [Bool.or_eq_true, decide_eq_true_eq, beq_iff_eq]
  left
  rcases hsafe with (((hsafe | hsafe) | hsafe) | rfl) | rfl
  · exact ⟨UInt8.le_trans (by decide) hsafe.1, UInt8.lt_of_le_of_lt hsafe.2 (by decide)⟩
  · exact ⟨UInt8.le_trans (by decide) hsafe.1, UInt8.lt_of_le_of_lt hsafe.2 (by decide)⟩
  · exact ⟨UInt8.le_trans (by decide) hsafe.1, UInt8.lt_of_le_of_lt hsafe.2 (by decide)⟩
  · decide
  · decide

/-- No escape reaches over a `/`. -/
theorem percentDecode_slash (a b : Octets) :
    percentDecode (a ++ octet '/' :: b) =
      (percentDecode a).bind fun first => (percentDecode b).map fun second => first ++ octet '/' :: second := by
  have hne : octet '/' ≠ octet '%' := by decide
  rw [percentDecode_append (startsApart_slash b), percentDecode_cons_of_ne hne]
  simp only [Option.map_map, Function.comp_def]

theorem percentDecode_urlSafe {pairing : Octets} (h : ∀ o ∈ pairing, isUrlSafe o = true) :
    percentDecode pairing = some pairing := by
  induction pairing with
  | nil => rfl
  | cons o pairing ih =>
    have hne : o ≠ octet '%' := by
      rintro rfl
      exact absurd (h _ List.mem_cons_self) (by decide)
    rw [percentDecode_cons_of_ne hne, ih fun o ho => h o (List.mem_cons_of_mem _ ho), Option.map_some]

/-- A path that does not escape keeps that when a segment of it is replaced by one that
needs no escapes. -/
theorem pathEscapesBase_replace {before segment other tail : Octets}
    (hother : ∀ o ∈ other, isUrlSafe o = true) (htail : tail = [] ∨ tail.head? = some (octet '/'))
    (h : pathEscapesBase (before ++ octet '/' :: (segment ++ tail)) = false) :
    pathEscapesBase (before ++ octet '/' :: (other ++ tail)) = false := by
  have hseparator : isPathSeparator (octet '/') = true := by decide
  have hsingle : other.splitOnP isPathSeparator = [other] := by
    refine List.splitOnP_eq_singleton fun o ho => ?_
    simp only [isPathSeparator, Bool.or_eq_false_iff, beq_eq_false_iff_ne]
    constructor
    · rintro rfl
      exact absurd (hother _ ho) (by decide)
    · rintro rfl
      exact absurd (hother _ ho) (by decide)
  have hdots : octets ".." ≠ other := by
    rintro rfl
    exact absurd (hother (octet '.') (by decide)) (by decide)
  obtain ⟨decoded, hdecoded, hnot⟩ := pathEscapesBase_eq_false_iff.mp h
  rw [percentDecode_slash] at hdecoded
  obtain ⟨first, hfirst, hdecoded⟩ := Option.bind_eq_some_iff.mp hdecoded
  obtain ⟨second, hsecond, rfl⟩ := Option.map_eq_some_iff.mp hdecoded
  rw [List.splitOnP_append_cons _ _ hseparator, List.mem_append, not_or] at hnot
  rw [pathEscapesBase_eq_false_iff, percentDecode_slash, hfirst]
  rcases htail with rfl | htail
  · rw [List.append_nil, percentDecode_urlSafe hother]
    refine ⟨_, rfl, ?_⟩
    simp [List.splitOnP_append_cons _ _ hseparator, hsingle, hnot.1, hdots]
  · cases tail with
    | nil => cases htail
    | cons o tail =>
      obtain rfl : o = octet '/' := by simpa using htail
      rw [percentDecode_slash] at hsecond ⊢
      obtain ⟨third, _, hsecond⟩ := Option.bind_eq_some_iff.mp hsecond
      obtain ⟨fourth, hfourth, rfl⟩ := Option.map_eq_some_iff.mp hsecond
      rw [List.splitOnP_append_cons _ _ hseparator, List.mem_append, not_or] at hnot
      rw [percentDecode_urlSafe hother, hfourth]
      refine ⟨_, rfl, ?_⟩
      simp [List.splitOnP_append_cons _ _ hseparator, hsingle, hnot.1, hnot.2.2, hdots]

end AgentDesktop
