import AgentDesktop.VsCodeSettings

namespace AgentDesktop

/-- An object whose managed keys are single and whose ignore list is an array. -/
structure ParsedObject (properties : List Property) : Prop where
  override : properties.countP (·.1 = overrideKey) ≤ 1
  ignored : properties.countP (·.1 = ignoredSettingsKey) ≤ 1
  array : properties.lookup ignoredSettingsKey ≠ none → ignoredElements properties ≠ none

section

variable {properties : List Property} {key : String} {value : Value}

theorem parseObject_iff : parseObject (.object properties) = .ok properties ↔ ParsedObject properties := by
  dsimp only [parseObject]
  split
  next hcount =>
    refine iff_of_false (by simp) fun h => ?_
    have hoverride := h.override
    have hignored := h.ignored
    omega
  next hcount =>
    obtain ⟨hoverride, hignored⟩ := not_or.mp hcount
    split
    next harray =>
      refine iff_of_false (by simp) fun h => h.array ?_ harray.2
      exact Option.isSome_iff_ne_none.mp harray.1
    next harray =>
      refine iff_of_true rfl ⟨by omega, by omega, fun hlist hnone => harray ⟨?_, hnone⟩⟩
      exact Option.isSome_iff_ne_none.mpr hlist

theorem parseObject_eq {others : List Property} (h : parseObject (.object properties) = .ok others) :
    others = properties := by
  dsimp only [parseObject] at h
  split at h
  next => cases h
  next =>
    split at h
    next => cases h
    next =>
      cases h
      rfl

theorem lookup_setProperty (other : String) :
    (setProperty key value properties).lookup other =
      if other = key then (properties.lookup key).map fun _ => value else properties.lookup other := by
  induction properties with
  | nil => simp [setProperty]
  | cons property rest ih =>
    obtain ⟨name, old⟩ := property
    have hrest : setProperty key value ((name, old) :: rest) =
        (if name = key then (key, value) else (name, old)) :: setProperty key value rest := rfl
    rw [hrest]
    by_cases hname : name = key
    · subst hname
      rw [if_pos rfl, SortedMap.lookup_cons_ite, SortedMap.lookup_cons_ite, SortedMap.lookup_cons_ite, ih]
      by_cases hother : other = name
      · simp [hother]
      · simp [hother]
    · rw [if_neg hname, SortedMap.lookup_cons_ite, SortedMap.lookup_cons_ite, SortedMap.lookup_cons_ite, ih]
      by_cases hother : other = key
      · simp [hother, Ne.symm hname]
      · simp [hother]

theorem lookup_removeProperty (other : String) :
    (removeProperty key properties).lookup other = if other = key then none else properties.lookup other :=
  SortedMap.lookup_erase key other properties

theorem countP_setProperty (other : String) :
    (setProperty key value properties).countP (·.1 = other) = properties.countP (·.1 = other) := by
  unfold setProperty
  rw [List.countP_map]
  refine List.countP_congr fun property _ => ?_
  by_cases hkey : property.1 = key
  · simp [hkey]
  · simp [hkey]

theorem countP_of_lookup (h : properties.lookup key = none) : properties.countP (·.1 = key) = 0 := by
  rw [List.countP_eq_zero]
  intro property hproperty hkey
  have hkey : property.1 = key := by simpa using hkey
  have hmem : (property.1, property.2) ∈ properties := hproperty
  rw [hkey] at hmem
  have hnone := List.lookup_eq_none_iff.mp h _ hmem
  simp at hnone

/-- A single property has the value that its key is looked up with. -/
theorem lookup_of_single (h : properties.countP (·.1 = key) ≤ 1) {property : Property}
    (hproperty : property ∈ properties) (hkey : property.1 = key) : properties.lookup key = some property.2 := by
  induction properties with
  | nil => cases hproperty
  | cons first rest ih =>
    obtain ⟨name, old⟩ := first
    rw [SortedMap.lookup_cons_ite]
    by_cases hname : key = name
    · rw [if_pos hname]
      rcases List.mem_cons.mp hproperty with rfl | hrest
      · rfl
      · have hmore : 0 < rest.countP (·.1 = key) := List.countP_pos_iff.mpr ⟨property, hrest, by simp [hkey]⟩
        rw [List.countP_cons_of_pos (by simp [hname])] at h
        omega
    · rw [if_neg hname]
      rw [List.countP_cons_of_neg (by simpa using Ne.symm hname)] at h
      rcases List.mem_cons.mp hproperty with rfl | hrest
      · exact absurd hkey.symm hname
      · exact ih h hrest

end

end AgentDesktop
