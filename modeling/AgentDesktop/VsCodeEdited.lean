import AgentDesktop.VsCodeRestored

namespace AgentDesktop

/-- The properties with the override, at the front if it is new. -/
def withOverride (url : String) (properties : List Property) : List Property :=
  if (properties.lookup overrideKey).isSome then setProperty overrideKey (.string url) properties
  else (overrideKey, .string url) :: properties

section

variable {properties : List Property} {url : String}

theorem editedProperties_some {elements : List Value} (h : ignoredElements properties = some elements) :
    editedProperties url properties =
      setProperty ignoredSettingsKey (.array (elements ++ (appendedEntries properties).map .string))
        (withOverride url properties) := by
  unfold editedProperties
  rw [h]
  rfl

/-- A new ignore list stands right after a new override. -/
theorem editedProperties_none (h : ignoredElements properties = none) :
    editedProperties url properties =
      if (properties.lookup overrideKey).isSome then
        (ignoredSettingsKey, .array (managedEntries.map .string)) :: setProperty overrideKey (.string url) properties
      else
        (overrideKey, .string url) :: (ignoredSettingsKey, .array (managedEntries.map .string)) :: properties := by
  unfold editedProperties
  rw [h]
  dsimp only
  split <;> simp

theorem lookup_withOverride (url : String) (properties : List Property) (key : String) :
    (withOverride url properties).lookup key =
      if key = overrideKey then some (.string url) else properties.lookup key := by
  unfold withOverride
  split
  next hsome =>
    obtain ⟨value, hvalue⟩ := Option.isSome_iff_exists.mp hsome
    rw [lookup_setProperty, hvalue]
    rfl
  next => rw [SortedMap.lookup_cons_ite]

theorem countP_withOverride {key : String} (h : properties.countP (·.1 = key) ≤ 1) (url : String) :
    (withOverride url properties).countP (·.1 = key) ≤ 1 := by
  unfold withOverride
  split
  next =>
    rw [countP_setProperty]
    exact h
  next hnone =>
    have hnone : properties.lookup overrideKey = none := Option.not_isSome_iff_eq_none.mp hnone
    by_cases hkey : overrideKey = key
    · subst hkey
      rw [List.countP_cons_of_pos (by simp), countP_of_lookup hnone]
    · rw [List.countP_cons_of_neg (by simpa using hkey)]
      exact h

theorem lookup_edited (url : String) (properties : List Property) :
    (editedProperties url properties).lookup overrideKey = some (.string url) ∧
      ignoredElements (editedProperties url properties) =
        some ((ignoredElements properties).getD [] ++ (appendedEntries properties).map .string) := by
  have hne := overrideKey_ne
  cases helements : ignoredElements properties with
  | some elements =>
    have hlist := ignoredElements_iff.mp helements
    rw [editedProperties_some helements, ignoredElements_iff, lookup_setProperty, lookup_setProperty,
      lookup_withOverride, lookup_withOverride, hlist]
    simp [hne, Ne.symm hne]
  | none =>
    have happended : appendedEntries properties = managedEntries := by simp [appendedEntries, helements]
    rw [happended, editedProperties_none helements, ignoredElements_iff]
    split
    next hsome =>
      obtain ⟨value, hvalue⟩ := Option.isSome_iff_exists.mp hsome
      rw [SortedMap.lookup_cons_ite, SortedMap.lookup_cons_ite, lookup_setProperty, hvalue]
      simp [hne]
    next =>
      rw [SortedMap.lookup_cons_ite, SortedMap.lookup_cons_ite, SortedMap.lookup_cons_ite]
      simp [Ne.symm hne]

theorem ParsedObject.edited (h : ParsedObject properties) (url : String) :
    ParsedObject (editedProperties url properties) := by
  have hne := overrideKey_ne
  have hlist := (lookup_edited url properties).2
  have harray : ignoredElements (editedProperties url properties) ≠ none := by simp [hlist]
  cases helements : ignoredElements properties with
  | some elements =>
    have hoverride := countP_withOverride h.override url
    have hignored := countP_withOverride h.ignored url
    rw [editedProperties_some helements] at harray ⊢
    exact ⟨by rw [countP_setProperty]; exact hoverride, by rw [countP_setProperty]; exact hignored, fun _ => harray⟩
  | none =>
    have hzero := countP_of_lookup (h.ignored_none.mp helements)
    have hoverride := h.override
    rw [editedProperties_none helements] at harray ⊢
    split
    next hsome =>
      rw [if_pos hsome] at harray
      refine ⟨?_, ?_, fun _ => harray⟩
      · rw [List.countP_cons_of_neg (by simpa using Ne.symm hne), countP_setProperty]
        exact hoverride
      · rw [List.countP_cons_of_pos (by simp), countP_setProperty, hzero]
    next hnone =>
      rw [if_neg hnone] at harray
      have hnone : properties.lookup overrideKey = none := Option.not_isSome_iff_eq_none.mp hnone
      refine ⟨?_, ?_, fun _ => harray⟩
      · rw [List.countP_cons_of_pos (by simp), List.countP_cons_of_neg (by simpa using Ne.symm hne),
          countP_of_lookup hnone]
      · rw [List.countP_cons_of_neg (by simpa using hne), List.countP_cons_of_pos (by simp), hzero]

/-- An edit leaves both managed entries in the ignore list. -/
theorem managed_mem_edited {entry : String} (h : entry ∈ managedEntries) (properties : List Property) :
    Value.string entry ∈ (ignoredElements properties).getD [] ++ (appendedEntries properties).map .string := by
  unfold appendedEntries
  cases ignoredElements properties with
  | none => exact List.mem_append_right _ (List.mem_map_of_mem h)
  | some elements =>
    by_cases hthere : Value.string entry ∈ elements
    · exact List.mem_append_left _ hthere
    · refine List.mem_append_right _ (List.mem_map_of_mem (List.mem_filter.mpr ⟨h, ?_⟩))
      simpa using hthere

/-- An edit of properties that are edited already changes nothing. -/
theorem editedProperties_self (h : ParsedObject properties)
    (hoverride : properties.lookup overrideKey = some (.string url))
    {elements : List Value} (helements : ignoredElements properties = some elements)
    (hmanaged : ∀ entry ∈ managedEntries, Value.string entry ∈ elements) :
    editedProperties url properties = properties := by
  have hself : ∀ {key : String} {value : Value}, properties.countP (·.1 = key) ≤ 1 →
      properties.lookup key = some value → setProperty key value properties = properties := by
    intro key value hsingle hvalue
    unfold setProperty
    refine (List.map_congr_left fun property hproperty => ?_).trans (List.map_id _)
    split
    next hkey =>
      have hfound := lookup_of_single hsingle hproperty hkey
      rw [hvalue] at hfound
      exact Prod.ext hkey.symm (Option.some.inj hfound)
    next => rfl
  have happended : appendedEntries properties = [] := by
    unfold appendedEntries
    rw [helements]
    refine List.filter_eq_nil_iff.mpr fun entry hentry => ?_
    simpa using hmanaged entry hentry
  have hset : withOverride url properties = properties := by
    unfold withOverride
    rw [if_pos (by simp [hoverride])]
    exact hself h.override hoverride
  rw [editedProperties_some helements, happended, hset, List.map_nil, List.append_nil]
  exact hself h.ignored (ignoredElements_iff.mp helements)

section

variable {restore : Option Value} {entries : List String} {dropEmptyArray : Bool}

theorem restoredProperty_override (value other : Value) :
    restoredProperty restore entries dropEmptyArray (overrideKey, value) =
      restoredProperty restore entries dropEmptyArray (overrideKey, other) := by
  simp [restoredProperty]

theorem restoredProperty_appended {elements : List Value} {appended : List String}
    (h : ∀ entry ∈ appended, entry ∈ entries) :
    restoredProperty restore entries dropEmptyArray
        (ignoredSettingsKey, .array (elements ++ appended.map .string)) =
      restoredProperty restore entries dropEmptyArray (ignoredSettingsKey, .array elements) := by
  have hgone : (appended.map Value.string).filter
      (fun element => !entries.any fun entry => decide (element = .string entry)) = [] := by
    refine List.filter_eq_nil_iff.mpr fun element helement => ?_
    obtain ⟨entry, hentry, rfl⟩ := List.mem_map.mp helement
    simpa using h entry hentry
  simp [restoredProperty, Ne.symm overrideKey_ne, List.filter_append, hgone]

theorem filterMap_withOverride (h : properties.lookup overrideKey = none → restore = none) (url : String) :
    (withOverride url properties).filterMap (restoredProperty restore entries dropEmptyArray) =
      properties.filterMap (restoredProperty restore entries dropEmptyArray) := by
  unfold withOverride
  split
  next =>
    unfold setProperty
    rw [List.filterMap_map]
    refine List.filterMap_congr fun property _ => ?_
    obtain ⟨key, value⟩ := property
    dsimp only [Function.comp_apply]
    split
    next hkey =>
      subst hkey
      exact restoredProperty_override _ _
    next => rfl
  next hnone =>
    have hrestore := h (Option.not_isSome_iff_eq_none.mp hnone)
    rw [List.filterMap_cons_none (by simp [restoredProperty, hrestore])]

/-- An edit does not change what a removal leaves. -/
theorem filterMap_edited (h : ParsedObject properties)
    (hoverride : properties.lookup overrideKey = none → restore = none)
    (hlist : ignoredElements properties = none → dropEmptyArray = true)
    (happended : ∀ entry ∈ appendedEntries properties, entry ∈ entries) (url : String) :
    (editedProperties url properties).filterMap (restoredProperty restore entries dropEmptyArray) =
      properties.filterMap (restoredProperty restore entries dropEmptyArray) := by
  rw [← filterMap_withOverride hoverride url]
  cases helements : ignoredElements properties with
  | some elements =>
    rw [editedProperties_some helements]
    unfold setProperty
    rw [List.filterMap_map]
    refine List.filterMap_congr fun property hproperty => ?_
    obtain ⟨key, value⟩ := property
    dsimp only [Function.comp_apply]
    split
    next hkey =>
      subst hkey
      have hvalue := lookup_of_single (countP_withOverride h.ignored url) hproperty rfl
      rw [lookup_withOverride, if_neg (Ne.symm overrideKey_ne), ignoredElements_iff.mp helements] at hvalue
      cases hvalue
      exact restoredProperty_appended happended
    next => rfl
  | none =>
    have hentries : ∀ entry ∈ managedEntries, entry ∈ entries := by
      simpa [appendedEntries, helements] using happended
    have hgone : restoredProperty restore entries dropEmptyArray
        (ignoredSettingsKey, .array (managedEntries.map .string)) = none := by
      rw [← List.nil_append (managedEntries.map Value.string), restoredProperty_appended hentries]
      simp [restoredProperty, Ne.symm overrideKey_ne, hlist helements]
    rw [editedProperties_none helements]
    unfold withOverride
    split
    next => rw [List.filterMap_cons_none hgone]
    next => rw [List.filterMap_cons, List.filterMap_cons_none hgone, List.filterMap_cons]

end

end

end AgentDesktop
