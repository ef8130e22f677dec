import AgentDesktop.VsCodeEdited

namespace AgentDesktop

/-- The override of a document, if there is one. -/
def overrideIn (base : Option (List Property)) : Option Value :=
  base.bind (·.lookup overrideKey)

def ignoredIn (base : Option (List Property)) : Option (List Value) :=
  base.bind ignoredElements

/-- The managed entries that the ignore list of a document lacks. -/
def missingEntries (base : Option (List Property)) : List String :=
  managedEntries.filter fun entry => !((ignoredIn base).getD []).contains (.string entry)

/-- The sidecar that stands for a document, or for no file. -/
def recordOf (base : Option (List Property)) : SettingsState where
  version := settingsStateVersion
  created := base.isNone
  overrideBefore := overrideIn base
  addedIgnored := missingEntries base
  ignoredCreated := (ignoredIn base).isNone

/-- The properties of a file with everything of ours as in a document. -/
def restoredFrom (base : Option (List Property)) (properties : List Property) : List Property :=
  properties.filterMap (restoredProperty (overrideIn base) (missingEntries base) (ignoredIn base).isNone)

/-- A file over a document: what the document has of the managed parts is there. -/
structure Manages (base : Option (List Property)) (properties : List Property) : Prop where
  parsed : ParsedObject properties
  override : overrideIn base ≠ none → properties.lookup overrideKey ≠ none
  ignored : ignoredIn base ≠ none → ignoredElements properties ≠ none
  entries : ∀ entry ∈ managedEntries, entry ∉ missingEntries base →
    ∃ elements, ignoredElements properties = some elements ∧ Value.string entry ∈ elements

/-- A file whose managed parts are those of a document. -/
structure Untouched (original properties : List Property) : Prop where
  parsed : ParsedObject properties
  override : properties.lookup overrideKey = original.lookup overrideKey
  ignored : (ignoredElements properties).isSome = (ignoredElements original).isSome
  entries : ∀ entry ∈ managedEntries, Value.string entry ∈ (ignoredElements properties).getD [] ↔
    Value.string entry ∈ (ignoredElements original).getD []

section

variable {base : Option (List Property)} {properties original : List Property}

theorem parseObject_parsed {text : SettingsText} (h : parseObject text = .ok properties) : ParsedObject properties := by
  cases text with
  | blank =>
    cases h
    exact ⟨by simp, by simp, by simp⟩
  | invalid => cases h
  | notObject => cases h
  | object others =>
    have hself := parseObject_eq h
    subst hself
    exact parseObject_iff.mp h

theorem mem_missingEntries {entry : String} :
    entry ∈ missingEntries base ↔ entry ∈ managedEntries ∧ Value.string entry ∉ (ignoredIn base).getD [] := by
  simp [missingEntries]

theorem Manages.appended (h : Manages base properties) :
    ∀ entry ∈ appendedEntries properties, entry ∈ missingEntries base := by
  intro entry hentry
  have hmanaged : entry ∈ managedEntries := by
    unfold appendedEntries at hentry
    split at hentry
    next => exact hentry
    next => exact List.mem_of_mem_filter hentry
  by_contra hthere
  obtain ⟨elements, helements, hmem⟩ := h.entries entry hmanaged hthere
  simp [appendedEntries, helements, hmem] at hentry

theorem Manages.restored_edited (h : Manages base properties) (url : String) :
    restoredFrom base (editedProperties url properties) = restoredFrom base properties := by
  refine filterMap_edited h.parsed (fun hnone => ?_) (fun hnone => ?_) h.appended url
  · by_contra hoverride
    exact h.override hoverride hnone
  · by_contra hignored
    exact h.ignored (by simpa using hignored) hnone

theorem Manages.edited (h : Manages base properties) (url : String) :
    Manages base (editedProperties url properties) := by
  obtain ⟨hoverride, hlist⟩ := lookup_edited url properties
  refine ⟨h.parsed.edited url, fun _ => by simp [hoverride], fun _ => by simp [hlist], fun entry hentry _ => ?_⟩
  exact ⟨_, hlist, managed_mem_edited hentry properties⟩

theorem Untouched.manages (h : Untouched original properties) : Manages (some original) properties := by
  refine ⟨h.parsed, fun hoverride => ?_, fun hignored => ?_, fun entry hentry hthere => ?_⟩
  · rw [h.override]
    exact hoverride
  · have hsome : (ignoredElements original).isSome = true := Option.isSome_iff_ne_none.mpr hignored
    rw [← h.ignored] at hsome
    exact Option.isSome_iff_ne_none.mp hsome
  · have hmem : Value.string entry ∈ (ignoredElements original).getD [] := by
      by_contra hnot
      exact hthere (mem_missingEntries.mpr ⟨hentry, hnot⟩)
    rw [← h.entries entry hentry] at hmem
    cases helements : ignoredElements properties with
    | none => simp [helements] at hmem
    | some elements =>
      rw [helements] at hmem
      exact ⟨elements, rfl, hmem⟩

theorem Untouched.appended (h : Untouched original properties) :
    appendedEntries properties = missingEntries (some original) := by
  have hlacks : ∀ entry ∈ managedEntries, (!((ignoredElements properties).getD []).contains (Value.string entry)) =
      !((ignoredElements original).getD []).contains (Value.string entry) := by
    intro entry hentry
    have hsame := h.entries entry hentry
    rw [Bool.eq_iff_iff]
    simpa using not_congr hsame
  have hfilter : appendedEntries properties =
      managedEntries.filter fun entry => !((ignoredElements properties).getD []).contains (.string entry) := by
    unfold appendedEntries
    cases ignoredElements properties with
    | none => exact (List.filter_eq_self.mpr (by simp)).symm
    | some elements => rfl
  rw [hfilter]
  exact List.filter_congr hlacks

end

end AgentDesktop
