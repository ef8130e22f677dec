import AgentDesktop.VsCodeProperties

namespace AgentDesktop

/-- What becomes of one property when the override goes back to an earlier value and the given
entries go: it is kept, restored in its place or dropped. -/
def restoredProperty (restore : Option Value) (entries : List String) (dropEmptyArray : Bool) (property : Property) :
    Option Property :=
  if property.1 = overrideKey then restore.map fun value => (overrideKey, value)
  else if property.1 = ignoredSettingsKey then
    match property.2 with
    | .array elements =>
      let kept := elements.filter fun element => !entries.any fun entry => decide (element = .string entry)
      if dropEmptyArray && kept.isEmpty then none else some (ignoredSettingsKey, .array kept)
    | _ => some property
  else some property

section

variable {properties : List Property} {restore : Option Value} {entries : List String} {dropEmptyArray : Bool}

theorem overrideKey_ne : overrideKey ≠ ignoredSettingsKey := by decide

theorem ignoredElements_iff {elements : List Value} :
    ignoredElements properties = some elements ↔ properties.lookup ignoredSettingsKey = some (.array elements) := by
  unfold ignoredElements
  split
  next found hfound => simp [hfound]
  next hother =>
    refine iff_of_false (by simp) fun hfound => ?_
    exact hother elements hfound

theorem ParsedObject.ignored_none (h : ParsedObject properties) :
    ignoredElements properties = none ↔ properties.lookup ignoredSettingsKey = none := by
  constructor
  · intro hnone
    by_contra hfound
    exact h.array hfound hnone
  · intro hnone
    simp [ignoredElements, hnone]

theorem ignoredElements_congr {others : List Property}
    (h : others.lookup ignoredSettingsKey = properties.lookup ignoredSettingsKey) :
    ignoredElements others = ignoredElements properties := by
  unfold ignoredElements
  rw [h]

theorem removeProperty_eq (key : String) (properties : List Property) :
    removeProperty key properties =
      properties.filterMap fun property => if property.1 = key then none else some property := by
  unfold removeProperty
  rw [← List.filterMap_eq_filter]
  refine List.filterMap_congr fun property _ => ?_
  by_cases hkey : property.1 = key
  · simp [hkey]
  · simp [hkey, Option.guard]

theorem setProperty_eq (key : String) (value : Value) (properties : List Property) :
    setProperty key value properties =
      properties.filterMap fun property => if property.1 = key then some (key, value) else some property := by
  unfold setProperty
  rw [← List.filterMap_eq_map]
  refine List.filterMap_congr fun property _ => ?_
  simp only [Function.comp_apply]
  split <;> rfl

theorem filterMap_absent {key : String} (h : properties.lookup key = none) (f : Property → Option Property) :
    (properties.filterMap fun property => if property.1 = key then f property else some property) = properties := by
  have hzero := List.countP_eq_zero.mp (countP_of_lookup h)
  have hself : (properties.filterMap fun property => if property.1 = key then f property else some property) =
      properties.filterMap some := by
    refine List.filterMap_congr fun property hproperty => if_neg ?_
    simpa using hzero property hproperty
  rw [hself, List.filterMap_some]

theorem restoreOverride_eq (hpresent : restore ≠ none → properties.lookup overrideKey ≠ none) :
    restoreOverride restore properties = properties.filterMap fun property =>
      if property.1 = overrideKey then restore.map fun value => (overrideKey, value) else some property := by
  unfold restoreOverride
  cases hlookup : properties.lookup overrideKey with
  | none =>
    have hrestore : restore = none := by
      by_contra hsome
      exact hpresent hsome hlookup
    rw [hrestore, filterMap_absent hlookup]
  | some current =>
    cases restore with
    | none => exact removeProperty_eq overrideKey properties
    | some value => exact setProperty_eq overrideKey value properties

theorem lookup_restoreOverride (restore : Option Value) (properties : List Property) :
    (restoreOverride restore properties).lookup ignoredSettingsKey = properties.lookup ignoredSettingsKey := by
  have hne := Ne.symm overrideKey_ne
  unfold restoreOverride
  split
  · rw [lookup_setProperty, if_neg hne]
  · rw [lookup_removeProperty, if_neg hne]
  · simp [List.lookup_append, List.lookup_cons, beq_eq_false_iff_ne.mpr hne]
  · rfl

/-- The override is restored and then the ignore list, each where it is. -/
theorem filterMap_restored (h : ParsedObject properties) {elements : List Value}
    (helements : ignoredElements properties = some elements) {list : Option Property}
    (hlist : restoredProperty restore entries dropEmptyArray (ignoredSettingsKey, .array elements) = list) :
    ((properties.filterMap fun property =>
        if property.1 = overrideKey then restore.map fun value => (overrideKey, value) else some property).filterMap
      fun property => if property.1 = ignoredSettingsKey then list else some property) =
      properties.filterMap (restoredProperty restore entries dropEmptyArray) := by
  rw [List.filterMap_filterMap]
  refine List.filterMap_congr fun property hproperty => ?_
  by_cases hoverride : property.1 = overrideKey
  · rw [if_pos hoverride]
    cases restore with
    | none => simp [restoredProperty, hoverride]
    | some value => simp [restoredProperty, hoverride, overrideKey_ne]
  · rw [if_neg hoverride, Option.bind_some]
    by_cases hignored : property.1 = ignoredSettingsKey
    · have hvalue := lookup_of_single h.ignored hproperty hignored
      rw [ignoredElements_iff.mp helements] at hvalue
      have hself : property = (ignoredSettingsKey, .array elements) :=
        Prod.ext hignored (Option.some.inj hvalue).symm
      rw [if_pos hignored, hself, hlist]
    · simp [restoredProperty, hoverride, hignored]

/-- A removal goes property by property. -/
theorem restoredProperties_eq (h : ParsedObject properties)
    (hpresent : restore ≠ none → properties.lookup overrideKey ≠ none) :
    restoredProperties restore entries dropEmptyArray properties =
      properties.filterMap (restoredProperty restore entries dropEmptyArray) := by
  have hlist := ignoredElements_congr (lookup_restoreOverride restore properties)
  unfold restoredProperties
  dsimp only
  rw [hlist, restoreOverride_eq hpresent]
  cases helements : ignoredElements properties with
  | none =>
    have hzero := List.countP_eq_zero.mp (countP_of_lookup (h.ignored_none.mp helements))
    refine List.filterMap_congr fun property hproperty => ?_
    have hignored : property.1 ≠ ignoredSettingsKey := by simpa using hzero property hproperty
    simp [restoredProperty, hignored]
  | some elements =>
    dsimp only
    split
    next hdrop =>
      rw [removeProperty_eq]
      exact filterMap_restored h helements (by simp [restoredProperty, Ne.symm overrideKey_ne, hdrop])
    next hdrop =>
      rw [setProperty_eq]
      exact filterMap_restored h helements (by simp [restoredProperty, Ne.symm overrideKey_ne, hdrop])

end

end AgentDesktop
