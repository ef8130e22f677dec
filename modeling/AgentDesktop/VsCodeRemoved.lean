import AgentDesktop.VsCodeRecord

namespace AgentDesktop

section

variable {restore : Option Value} {entries : List String} {dropEmptyArray : Bool} {property kept : Property}

theorem restoredProperty_key (h : restoredProperty restore entries dropEmptyArray property = some kept) :
    kept.1 = property.1 := by
  unfold restoredProperty at h
  split at h
  next hkey =>
    obtain ⟨value, _, rfl⟩ := Option.map_eq_some_iff.mp h
    exact hkey.symm
  next =>
    split at h
    next hkey =>
      split at h
      next =>
        dsimp only at h
        split at h
        next => cases h
        next =>
          cases h
          exact hkey.symm
      next =>
        cases h
        rfl
    next =>
      cases h
      rfl

theorem restoredProperty_self (h : restoredProperty restore entries dropEmptyArray property = some kept) :
    restoredProperty restore entries dropEmptyArray kept = some kept := by
  have hkept := restoredProperty_key h
  by_cases hoverride : property.1 = overrideKey
  · rw [restoredProperty, if_pos hoverride] at h
    rw [restoredProperty, if_pos (hkept.trans hoverride), h]
  · by_cases hignored : property.1 = ignoredSettingsKey
    · cases hvalue : property.2 with
      | array elements =>
        simp only [restoredProperty, if_neg hoverride, if_pos hignored, hvalue] at h
        split at h
        next => cases h
        next hdrop =>
          cases h
          simp only [restoredProperty, if_neg (Ne.symm overrideKey_ne), if_true, List.filter_filter, Bool.and_self]
          rw [if_neg hdrop]
      | _ =>
        simp only [restoredProperty, if_neg hoverride, if_pos hignored, hvalue] at h
        cases h
        simp only [restoredProperty, if_neg hoverride, if_pos hignored, hvalue]
    · rw [restoredProperty, if_neg hoverride, if_neg hignored] at h
      cases h
      rw [restoredProperty, if_neg hoverride, if_neg hignored]

end

section

variable {base : Option (List Property)} {properties original : List Property}

/-- What was restored is restored. -/
theorem restoredFrom_restored (base : Option (List Property)) (properties : List Property) :
    restoredFrom base (restoredFrom base properties) = restoredFrom base properties := by
  unfold restoredFrom
  rw [List.filterMap_filterMap]
  refine List.filterMap_congr fun property _ => ?_
  cases hkept : restoredProperty (overrideIn base) (missingEntries base) (ignoredIn base).isNone property with
  | none => rfl
  | some kept => exact restoredProperty_self hkept

/-- The entries that the document lacks are out of the ignore list. -/
def keptElements (base : Option (List Property)) (elements : List Value) : List Value :=
  elements.filter fun element => !(missingEntries base).any fun entry => decide (element = .string entry)

theorem restoredProperty_ignored (base : Option (List Property)) (elements : List Value) :
    restoredProperty (overrideIn base) (missingEntries base) (ignoredIn base).isNone
        (ignoredSettingsKey, .array elements) =
      if (ignoredIn base).isNone && (keptElements base elements).isEmpty then none
      else some (ignoredSettingsKey, .array (keptElements base elements)) := by
  simp only [restoredProperty, if_neg (Ne.symm overrideKey_ne), if_true]
  rfl

theorem ParsedObject.ignored_property (h : ParsedObject properties) {property : Property}
    (hproperty : property ∈ properties) (hkey : property.1 = ignoredSettingsKey) :
    ∃ elements, ignoredElements properties = some elements ∧ property = (ignoredSettingsKey, .array elements) := by
  have hvalue := lookup_of_single h.ignored hproperty hkey
  obtain ⟨elements, helements⟩ := Option.ne_none_iff_exists'.mp (h.array (by simp [hvalue]))
  rw [ignoredElements_iff.mp helements] at hvalue
  exact ⟨elements, helements, Prod.ext hkey (Option.some.inj hvalue).symm⟩

/-- A file with the managed parts of a document is restored to itself. -/
theorem Untouched.restored (h : Untouched original properties) :
    restoredFrom (some original) properties = properties := by
  have hself : ∀ property ∈ properties, restoredProperty (overrideIn (some original)) (missingEntries (some original))
      (ignoredIn (some original)).isNone property = some property := by
    intro property hproperty
    by_cases hoverride : property.1 = overrideKey
    · have hvalue := lookup_of_single h.parsed.override hproperty hoverride
      have hbefore : overrideIn (some original) = some property.2 := h.override.symm.trans hvalue
      rw [restoredProperty, if_pos hoverride, hbefore, Option.map_some, ← hoverride]
    · by_cases hignored : property.1 = ignoredSettingsKey
      · obtain ⟨elements, helements, rfl⟩ := h.parsed.ignored_property hproperty hignored
        have hkept : keptElements (some original) elements = elements := by
          refine List.filter_eq_self.mpr fun element helement => ?_
          rw [Bool.not_eq_true', List.any_eq_false]
          intro entry hentry heq
          rw [of_decide_eq_true heq] at helement
          obtain ⟨hmanaged, hlacks⟩ := mem_missingEntries.mp hentry
          refine hlacks ((h.entries entry hmanaged).mp ?_)
          rw [helements]
          exact helement
        have hlist : (ignoredIn (some original)).isNone = false := by
          have hsame := h.ignored
          rw [helements] at hsame
          exact Option.isNone_eq_false_iff.mpr hsame.symm
        rw [restoredProperty_ignored, hkept, hlist]
        rfl
      · rw [restoredProperty, if_neg hoverride, if_neg hignored]
  unfold restoredFrom
  rw [List.filterMap_congr hself, List.filterMap_some]

theorem countP_restored (base : Option (List Property)) (properties : List Property) (key : String) :
    (restoredFrom base properties).countP (·.1 = key) ≤ properties.countP (·.1 = key) := by
  unfold restoredFrom
  rw [List.countP_filterMap]
  refine List.countP_mono_left fun property _ hcounted => ?_
  cases hkept : restoredProperty (overrideIn base) (missingEntries base) (ignoredIn base).isNone property with
  | none => simp [hkept] at hcounted
  | some kept =>
    rw [← restoredProperty_key hkept]
    simpa [hkept] using hcounted

theorem mem_restoredFrom {kept : Property} : kept ∈ restoredFrom base properties ↔ ∃ property ∈ properties,
    restoredProperty (overrideIn base) (missingEntries base) (ignoredIn base).isNone property = some kept :=
  List.mem_filterMap

theorem lookup_none_of_keys {key : String} (h : ∀ property ∈ properties, property.1 ≠ key) :
    properties.lookup key = none :=
  SortedMap.lookup_none_of_not_mem fun hmem => by
    obtain ⟨property, hproperty, hkey⟩ := List.mem_map.mp hmem
    exact h property hproperty hkey

/-- The override is back to its value in the document. -/
theorem Manages.restored_override (h : Manages base properties) :
    (restoredFrom base properties).lookup overrideKey = overrideIn base := by
  cases hoverride : overrideIn base with
  | none =>
    refine lookup_none_of_keys fun kept hkept hkey => ?_
    obtain ⟨property, _, hrestored⟩ := mem_restoredFrom.mp hkept
    rw [restoredProperty, if_pos ((restoredProperty_key hrestored).symm.trans hkey), hoverride] at hrestored
    cases hrestored
  | some value =>
    obtain ⟨current, hcurrent⟩ := Option.ne_none_iff_exists'.mp (h.override (by simp [hoverride]))
    have hmem : (overrideKey, value) ∈ restoredFrom base properties := by
      refine mem_restoredFrom.mpr ⟨_, SortedMap.lookup_mem hcurrent, ?_⟩
      rw [restoredProperty, if_pos rfl, hoverride, Option.map_some]
    exact lookup_of_single ((countP_restored base properties overrideKey).trans h.parsed.override) hmem rfl

theorem ParsedObject.restored_ignored (h : ParsedObject properties) :
    ignoredElements (restoredFrom base properties) =
      (ignoredElements properties).bind fun elements =>
        if (ignoredIn base).isNone && (keptElements base elements).isEmpty then none
        else some (keptElements base elements) := by
  have hnone : (∀ kept ∈ restoredFrom base properties, kept.1 ≠ ignoredSettingsKey) →
      ignoredElements (restoredFrom base properties) = none := by
    intro hkeys
    simp [ignoredElements, lookup_none_of_keys hkeys]
  cases helements : ignoredElements properties with
  | none =>
    refine hnone fun kept hkept hkey => ?_
    obtain ⟨property, hproperty, hrestored⟩ := mem_restoredFrom.mp hkept
    obtain ⟨elements, hfound, _⟩ := h.ignored_property hproperty ((restoredProperty_key hrestored).symm.trans hkey)
    rw [helements] at hfound
    cases hfound
  | some elements =>
    rw [Option.bind_some]
    split
    next hdrop =>
      refine hnone fun kept hkept hkey => ?_
      obtain ⟨property, hproperty, hrestored⟩ := mem_restoredFrom.mp hkept
      obtain ⟨found, hfound, rfl⟩ := h.ignored_property hproperty ((restoredProperty_key hrestored).symm.trans hkey)
      cases helements.symm.trans hfound
      rw [restoredProperty_ignored, if_pos hdrop] at hrestored
      cases hrestored
    next hdrop =>
      have hmem : (ignoredSettingsKey, Value.array (keptElements base elements)) ∈ restoredFrom base properties := by
        refine mem_restoredFrom.mpr ⟨_, SortedMap.lookup_mem (ignoredElements_iff.mp helements), ?_⟩
        rw [restoredProperty_ignored, if_neg hdrop]
      refine ignoredElements_iff.mpr ?_
      exact lookup_of_single ((countP_restored base properties ignoredSettingsKey).trans h.ignored) hmem rfl

theorem mem_keptElements {entry : String} {elements : List Value} :
    Value.string entry ∈ keptElements base elements ↔ Value.string entry ∈ elements ∧ entry ∉ missingEntries base := by
  simp only [keptElements, List.mem_filter, Bool.not_eq_true', List.any_eq_false, decide_eq_true_eq,
    Value.string.injEq]
  exact and_congr_right fun _ => ⟨fun h hentry => h entry hentry rfl, fun h other hother heq => h (heq ▸ hother)⟩

theorem ParsedObject.restored (h : ParsedObject properties) : ParsedObject (restoredFrom base properties) := by
  refine ⟨(countP_restored base properties overrideKey).trans h.override,
    (countP_restored base properties ignoredSettingsKey).trans h.ignored, fun hfound hnone => ?_⟩
  obtain ⟨value, hvalue⟩ := Option.ne_none_iff_exists'.mp hfound
  obtain ⟨property, hproperty, hrestored⟩ := mem_restoredFrom.mp (SortedMap.lookup_mem hvalue)
  obtain ⟨elements, _, rfl⟩ := h.ignored_property hproperty (restoredProperty_key hrestored).symm
  rw [restoredProperty_ignored] at hrestored
  split at hrestored
  next => cases hrestored
  next =>
    cases hrestored
    rw [ignoredElements_iff.mpr hvalue] at hnone
    cases hnone

theorem Manages.restored (h : Manages base properties) : Manages base (restoredFrom base properties) := by
  have hlist : ignoredElements (restoredFrom base properties) = _ := h.parsed.restored_ignored
  refine ⟨h.parsed.restored, fun hoverride => ?_, fun hignored => ?_, fun entry hentry hthere => ?_⟩
  · rw [h.restored_override]
    exact hoverride
  · obtain ⟨elements, helements⟩ := Option.ne_none_iff_exists'.mp (h.ignored hignored)
    rw [hlist, helements]
    simp [hignored]
  · obtain ⟨elements, helements, hmem⟩ := h.entries entry hentry hthere
    have hkept : Value.string entry ∈ keptElements base elements := mem_keptElements.mpr ⟨hmem, hthere⟩
    refine ⟨keptElements base elements, ?_, hkept⟩
    rw [hlist, helements]
    simp [List.ne_nil_of_mem hkept]

end

end AgentDesktop
