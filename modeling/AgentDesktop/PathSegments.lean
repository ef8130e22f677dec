import AgentDesktop.ProxyRouteSpecs

namespace AgentDesktop

/-- The octet of an escape after its `%`, and the text after it. -/
def readEscape : Octets → Option (UInt8 × Octets)
  | high :: low :: rest =>
    match toDigit 16 high, toDigit 16 low with
    | some high, some low => some (UInt8.ofNat (high * 16 + low), rest)
    | _, _ => none
  | _ => none

/-- The octets a path stands for where a malformed escape stands for itself. -/
def decodeLossy : Octets → Octets
  | [] => []
  | o :: rest =>
    if o = octet '%' then
      match rest with
      | high :: low :: after =>
        match toDigit 16 high, toDigit 16 low with
        | some high, some low => UInt8.ofNat (high * 16 + low) :: decodeLossy after
        | _, _ => o :: decodeLossy (high :: low :: after)
      | rest => o :: decodeLossy rest
    else o :: decodeLossy rest

/-- The segments of a path once it is decoded, between slashes and backslashes. -/
def segments (path : Octets) : List Octets :=
  (decodeLossy path).splitOnP isPathSeparator

def resolveSegment (resolved : List Octets) (segment : Octets) : List Octets :=
  if segment = octets "." then resolved
  else if segment = octets ".." then resolved.dropLast
  else resolved ++ [segment]

/-- The segments that are left when `.` and `..` are resolved. -/
def resolveSegments (path : List Octets) : List Octets :=
  path.foldl resolveSegment []

/-- A `%` that two hexadecimal digits do not follow. -/
def MalformedEscape (path : Octets) : Prop :=
  ∃ before after, path = before ++ octet '%' :: after ∧ readEscape after = none

/-- A text at which no escape can go on. -/
def StartsApart (text : Octets) : Prop :=
  ∀ o ∈ text.head?, toDigit 16 o = none

theorem startsApart_slash (text : Octets) : StartsApart (octet '/' :: text) := by
  rintro o ⟨⟩
  decide

theorem readEscape_length {text after : Octets} {o : UInt8} (h : readEscape text = some (o, after)) :
    after.length < text.length := by
  unfold readEscape at h
  split at h
  next high low rest =>
    split at h
    next =>
      cases h
      simp only [List.length_cons]
      omega
    next => cases h
  next => cases h

theorem readEscape_append {text : Octets} (h : StartsApart text) (start : Octets) :
    readEscape (start ++ text) = (readEscape start).map fun (o, after) => (o, after ++ text) := by
  match start with
  | [] =>
    match text with
    | [] => rfl
    | [_] => rfl
    | o :: _ :: _ => simp [readEscape, h o rfl]
  | [high] =>
    match text with
    | [] => rfl
    | o :: _ => simp [readEscape, h o rfl]
  | high :: low :: start =>
    simp only [readEscape, List.cons_append]
    cases toDigit 16 high <;> cases toDigit 16 low <;> rfl

/-- A path is read octet by octet, an escape at once. -/
theorem escape_induction {motive : Octets → Prop} (nil : motive [])
    (plain : ∀ o rest, o ≠ octet '%' → motive rest → motive (o :: rest))
    (bare : ∀ rest, readEscape rest = none → motive rest → motive (octet '%' :: rest))
    (escape : ∀ rest o after, readEscape rest = some (o, after) → motive after → motive (octet '%' :: rest))
    (path : Octets) : motive path := by
  induction hlength : path.length using Nat.strongRecOn generalizing path with
  | _ n ih =>
    cases path with
    | nil => exact nil
    | cons o rest =>
      rw [List.length_cons] at hlength
      by_cases ho : o = octet '%'
      · subst ho
        cases hread : readEscape rest with
        | none => exact bare rest hread (ih _ (by omega) rest rfl)
        | some pair =>
          obtain ⟨o, after⟩ := pair
          have hshort := readEscape_length hread
          exact escape rest o after hread (ih _ (by omega) after rfl)
      · exact plain o rest ho (ih _ (by omega) rest rfl)

theorem decodeLossy_plain {o : UInt8} (h : o ≠ octet '%') (rest : Octets) :
    decodeLossy (o :: rest) = o :: decodeLossy rest := by
  rw [decodeLossy.eq_def]
  simp [h]

theorem decodeLossy_bare {rest : Octets} (h : readEscape rest = none) :
    decodeLossy (octet '%' :: rest) = octet '%' :: decodeLossy rest := by
  match rest with
  | [] => rfl
  | [_] => simp [decodeLossy]
  | high :: low :: after =>
    rw [decodeLossy.eq_def]
    simp only [if_true]
    cases hhigh : toDigit 16 high <;> cases hlow : toDigit 16 low <;> simp_all [readEscape]

theorem decodeLossy_escape {rest after : Octets} {o : UInt8} (h : readEscape rest = some (o, after)) :
    decodeLossy (octet '%' :: rest) = o :: decodeLossy after := by
  match rest with
  | [] => cases h
  | [_] => cases h
  | high :: low :: after =>
    rw [decodeLossy.eq_def]
    simp only [if_true]
    cases hhigh : toDigit 16 high <;> cases hlow : toDigit 16 low <;> simp_all [readEscape]

theorem percentDecode_percent (rest : Octets) :
    percentDecode (octet '%' :: rest) =
      (readEscape rest).bind fun (o, after) => (percentDecode after).map (o :: ·) := by
  match rest with
  | [] => rfl
  | [_] => rfl
  | high :: low :: after =>
    rw [percentDecode.eq_def, readEscape]
    simp only [if_true]
    cases toDigit 16 high <;> cases toDigit 16 low <;> rfl

theorem decodeLossy_append {text : Octets} (h : StartsApart text) (path : Octets) :
    decodeLossy (path ++ text) = decodeLossy path ++ decodeLossy text := by
  induction path using escape_induction with
  | nil => rfl
  | plain o rest ho ih => rw [List.cons_append, decodeLossy_plain ho, decodeLossy_plain ho, ih, List.cons_append]
  | bare rest hread ih =>
    have happend : readEscape (rest ++ text) = none := by
      rw [readEscape_append h, hread]
      rfl
    rw [List.cons_append, decodeLossy_bare happend, decodeLossy_bare hread, ih, List.cons_append]
  | escape rest o after hread ih =>
    have happend : readEscape (rest ++ text) = some (o, after ++ text) := by
      rw [readEscape_append h, hread]
      rfl
    rw [List.cons_append, decodeLossy_escape happend, decodeLossy_escape hread, ih, List.cons_append]

/-- Where every escape is well formed, both decodings agree. -/
theorem decodeLossy_eq {path decoded : Octets} (h : percentDecode path = some decoded) :
    decodeLossy path = decoded := by
  induction path using escape_induction generalizing decoded with
  | nil => exact Option.some.inj h
  | plain o rest ho ih =>
    rw [percentDecode_cons_of_ne ho] at h
    obtain ⟨decoded, hdecoded, rfl⟩ := Option.map_eq_some_iff.mp h
    rw [decodeLossy_plain ho, ih hdecoded]
  | bare rest hread ih =>
    rw [percentDecode_percent, hread] at h
    cases h
  | escape rest o after hread ih =>
    rw [percentDecode_percent, hread, Option.bind_some] at h
    obtain ⟨decoded, hdecoded, rfl⟩ := Option.map_eq_some_iff.mp h
    rw [decodeLossy_escape hread, ih hdecoded]

/-- A path is decoded piece by piece where no escape reaches over. -/
theorem percentDecode_append {text : Octets} (h : StartsApart text) (path : Octets) :
    percentDecode (path ++ text) =
      (percentDecode path).bind fun first => (percentDecode text).map fun second => first ++ second := by
  induction path using escape_induction with
  | nil => simp [percentDecode]
  | plain o rest ho ih =>
    rw [List.cons_append, percentDecode_cons_of_ne ho, percentDecode_cons_of_ne ho, ih]
    cases percentDecode rest with
    | none => rfl
    | some first => cases percentDecode text <;> rfl
  | bare rest hread ih =>
    rw [List.cons_append, percentDecode_percent, percentDecode_percent, readEscape_append h, hread]
    rfl
  | escape rest o after hread ih =>
    rw [List.cons_append, percentDecode_percent, percentDecode_percent, readEscape_append h, hread]
    simp only [Option.map_some, Option.bind_some, ih]
    cases percentDecode after with
    | none => rfl
    | some first => cases percentDecode text <;> rfl

/-- A path with a malformed escape is not decoded. -/
theorem percentDecode_malformed {path : Octets} (h : MalformedEscape path) : percentDecode path = none := by
  obtain ⟨before, after, rfl, hread⟩ := h
  have hapart : StartsApart (octet '%' :: after) := by
    rintro o ⟨⟩
    decide
  rw [percentDecode_append hapart, percentDecode_percent, hread]
  cases percentDecode before <;> rfl

/-- The segments after a slash follow those before it. -/
theorem segments_append_slash (start text : Octets) :
    segments (start ++ octet '/' :: text) = segments start ++ segments text := by
  have hslash : octet '/' ≠ octet '%' := by decide
  rw [segments, decodeLossy_append (startsApart_slash text), decodeLossy_plain hslash,
    List.splitOnP_append_cons _ _ rfl]
  rfl

theorem resolveSegments_of_plain {path : List Octets}
    (h : ∀ segment ∈ path, segment ≠ octets "." ∧ segment ≠ octets "..") :
    resolveSegments path = path := by
  have hfold : ∀ resolved, path.foldl resolveSegment resolved = resolved ++ path := by
    induction path with
    | nil => simp
    | cons segment path ih =>
      intro resolved
      obtain ⟨hdot, hdotdot⟩ := h segment List.mem_cons_self
      rw [List.foldl_cons, resolveSegment, if_neg hdot, if_neg hdotdot,
        ih fun other hother => h other (List.mem_cons_of_mem _ hother)]
      simp
  exact hfold []

/-- Segments without `..` only add to what stands before them. -/
theorem resolveSegments_append {start path : List Octets} (h : octets ".." ∉ path) :
    resolveSegments start <+: resolveSegments (start ++ path) := by
  rw [resolveSegments, resolveSegments, List.foldl_append]
  generalize start.foldl resolveSegment [] = resolved
  induction path generalizing resolved with
  | nil => exact List.prefix_rfl
  | cons segment path ih =>
    rw [List.mem_cons, not_or] at h
    obtain ⟨hne, hrest⟩ := h
    refine List.IsPrefix.trans ?_ (ih hrest (resolveSegment resolved segment))
    unfold resolveSegment
    split
    · exact List.prefix_rfl
    · rw [if_neg (Ne.symm hne)]
      exact List.prefix_append _ _

/-- A path that does not escape has no `..` after any of its slashes. -/
theorem segments_suffix {path start text : Octets} (h : pathEscapesBase path = false)
    (hpath : path = start ++ octet '/' :: text) : octets ".." ∉ segments text := by
  obtain ⟨decoded, hdecoded, hnot⟩ := pathEscapesBase_eq_false_iff.mp h
  have hsegments : segments path = decoded.splitOnP isPathSeparator := by
    rw [segments, decodeLossy_eq hdecoded]
  rw [← hsegments, hpath, segments_append_slash] at hnot
  exact fun hmem => hnot (List.mem_append_right _ hmem)

end AgentDesktop
