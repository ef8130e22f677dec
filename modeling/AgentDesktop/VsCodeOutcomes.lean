import AgentDesktop.VsCodeRemoved

namespace AgentDesktop

section

variable {base : Option (List Property)} {properties original : List Property} {loopback : String → Bool}
  {text : SettingsText} {url : String}

/-- Over a record of a document an edit leaves that record. -/
theorem editSettings_again (htext : parseObject text = .ok properties) (h : Manages base properties) :
    editSettings loopback (some text) url (some (recordOf base)) =
      .ok (.object (editedProperties url properties), recordOf base) := by
  have happended : (appendedEntries properties).filter (fun entry => !(missingEntries base).contains entry) = [] := by
    refine List.filter_eq_nil_iff.mpr fun entry hentry => ?_
    simpa using h.appended entry hentry
  have hcreated : ((ignoredIn base).isNone || (ignoredElements properties).isNone) = (ignoredIn base).isNone := by
    cases hignored : ignoredIn base with
    | none => rfl
    | some elements =>
      have hfound := h.ignored (by simp [hignored])
      simp [Option.ne_none_iff_isSome.mp hfound]
  unfold editSettings
  simp only [Option.getD_some, htext, recordOf, happended, hcreated, Option.isNone_some, Bool.or_false,
    List.append_nil]

/-- A first edit records the document. -/
theorem editSettings_first (htext : parseObject text = .ok properties) (h : Untouched original properties)
    (hours : ownOverride loopback (some url) (original.lookup overrideKey) = false) :
    editSettings loopback (some text) url none =
      .ok (.object (editedProperties url properties), recordOf (some original)) := by
  have hignored : (ignoredElements properties).isNone = (ignoredElements original).isNone := by
    rw [← Option.not_isSome, ← Option.not_isSome, h.ignored]
  unfold editSettings
  simp only [Option.getD_some, htext, h.override, hours, h.appended, hignored, Option.isNone_some, Bool.false_and,
    Bool.or_false, recordOf]
  rfl

theorem editSettings_created (state : Option SettingsState) (h : state = none ∨ state = some (recordOf none)) :
    editSettings loopback none url state = .ok (.object (editedProperties url []), recordOf none) := by
  rcases h with rfl | rfl <;> rfl

/-- What a removal leaves of a file. -/
def Removal.leaves (text : SettingsText) : Removal → Option SettingsText
  | .unchanged => some text
  | .write text => some text
  | .delete => none

/-- A file over a document with the managed parts restored. A file made where there was none
goes if nothing else is in it. -/
def leftOf (base : Option (List Property)) (properties : List Property) : Option (List Property) :=
  if base.isNone && (restoredFrom base properties).isEmpty then none else some (restoredFrom base properties)

theorem removeSettings_managed (htext : parseObject text = .ok properties) (h : Manages base properties)
    (ownUrl : Option String) : ∃ removal,
      removeSettings loopback text (some (recordOf base)) ownUrl = .ok removal ∧
      (removal.leaves text).map parseObject = (leftOf base properties).map .ok := by
  have hrestored : restoredProperties (overrideIn base) (missingEntries base) (ignoredIn base).isNone properties =
      restoredFrom base properties := restoredProperties_eq h.parsed h.override
  unfold removeSettings
  by_cases hblank : text = .blank
  · subst hblank
    cases htext
    rw [if_pos rfl]
    refine ⟨_, rfl, ?_⟩
    cases base <;> rfl
  · rw [if_neg hblank, htext]
    simp only [recordOf, hrestored]
    unfold leftOf
    by_cases hgone : (base.isNone && (restoredFrom base properties).isEmpty) = true
    · rw [if_pos hgone, if_pos hgone]
      exact ⟨_, rfl, rfl⟩
    · rw [if_neg hgone, if_neg hgone]
      by_cases hsame : restoredFrom base properties = properties
      · rw [if_pos hsame, hsame]
        exact ⟨_, rfl, congrArg some htext⟩
      · rw [if_neg hsame]
        exact ⟨_, rfl, congrArg some (parseObject_iff.mpr h.parsed.restored)⟩

theorem removeSettings_untouched (htext : parseObject text = .ok properties) {ownUrl : Option String}
    (hours : ownOverride loopback ownUrl (properties.lookup overrideKey) = false) :
    removeSettings loopback text none ownUrl = .ok .unchanged := by
  unfold removeSettings
  split
  next => rfl
  next => simp [htext, hours]

end

end AgentDesktop
