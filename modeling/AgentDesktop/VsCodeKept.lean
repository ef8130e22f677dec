import AgentDesktop.VsCodeApplied
import AgentDesktop.VsCodeLeft

namespace AgentDesktop

/-- The properties of a settings file without a conflict. -/
def settingsDocument (path : Path) (files : FileSystem SettingsContents) : Option (List Property) :=
  match readOptional files path with
  | .ok (some (.text text)) => (parseObject text).toOption
  | _ => none

/-- A settings file with these properties, or no file. -/
def HoldsDocument (path : Path) (files : FileSystem SettingsContents) (document : Option (List Property)) :
    Prop :=
  ∃ text : Option SettingsText, readOptional files path = .ok (text.map .text) ∧ text.map parseObject = document.map .ok

/-- The settings as they are without what an apply put there. -/
def restoredDocument (base : Option (List Property)) (path : Path) (files : FileSystem SettingsContents) :
    Option (List Property) :=
  (settingsDocument path files).bind (leftOf base)

/-- The override is not an agentdesktop loopback CAPI URL. -/
def ForeignOverride (loopback : String → Bool) (document : Option (List Property)) : Prop :=
  ∀ value, overrideIn document = some (.string value) → isDaemonCapiUrl loopback value = false

section

variable {loopback : String → Bool} {path : Path} {base document : Option (List Property)}
  {text : Option SettingsText} {state : Option SettingsState} {files : FileSystem SettingsContents}

theorem ForeignOverride.not_own (h : ForeignOverride loopback document) {ownUrl : Option String}
    (hurl : ∀ url, ownUrl = some url → isDaemonCapiUrl loopback url = true) :
    ownOverride loopback ownUrl (overrideIn document) = false := by
  unfold ownOverride
  split
  next value hvalue =>
    have hforeign := h value hvalue
    have hdiffers : ownUrl ≠ some value := by
      intro hsame
      rw [hurl value hsame] at hforeign
      cases hforeign
    simp [hforeign, hdiffers]
  next => rfl

theorem FileOver.document_eq (h : FileOver base text document)
    (hpath : readOptional files path = .ok (text.map .text)) : settingsDocument path files = document := by
  unfold settingsDocument
  rw [hpath]
  cases h with
  | absent => rfl
  | present htext =>
    simp only [Option.map_some, htext]
    rfl

/-- An edit over a document keeps what is recorded of it. -/
theorem FileOver.edit {url : String} (h : FileOver base text document)
    (hstate : state = none ∧ document = base ∨ state = some (recordOf base)) (hforeign : ForeignOverride loopback base)
    (hurl : isDaemonCapiUrl loopback url = true) :
    editSettings loopback text url state =
      .ok (.object (editedProperties url (document.getD [])), recordOf base) := by
  cases h with
  | absent hbase =>
    subst hbase
    refine editSettings_created state (hstate.imp And.left id)
  | present htext hmanages =>
    rcases hstate with ⟨rfl, rfl⟩ | rfl
    · have hown : ownOverride loopback (some url) (overrideIn _) = false :=
        hforeign.not_own fun other hother => Option.some.inj hother ▸ hurl
      exact editSettings_first htext ⟨parseObject_parsed htext, rfl, rfl, fun _ _ => Iff.rfl⟩ hown
    · exact editSettings_again htext hmanages

theorem FileOver.edited (h : FileOver base text document) (url : String) :
    FileOver base (some (.object (editedProperties url (document.getD []))))
      (some (editedProperties url (document.getD []))) := by
  have hmanages := h.manages.edited url
  exact .present (parseObject_iff.mpr hmanages.parsed) hmanages

theorem FileOver.left_edited (h : FileOver base text document) (url : String) :
    leftOf base (editedProperties url (document.getD [])) = document.bind (leftOf base) := by
  have hrestored := h.manages.restored_edited url
  cases h with
  | absent hbase =>
    subst hbase
    unfold leftOf
    rw [hrestored]
    rfl
  | present =>
    unfold leftOf
    rw [hrestored]
    rfl

theorem leftOf_left (base : Option (List Property)) (properties : List Property) :
    (leftOf base properties).bind (leftOf base) = leftOf base properties := by
  by_cases hgone : (base.isNone && (restoredFrom base properties).isEmpty) = true
  · rw [leftOf, if_pos hgone]
    rfl
  · rw [leftOf, if_neg hgone, Option.bind_some, leftOf, restoredFrom_restored, if_neg hgone]

/-- A document is all that is left of it. -/
theorem FileOver.left_self (h : FileOver base text base) : base.bind (leftOf base) = base := by
  cases h with
  | absent => rfl
  | present htext =>
    rw [Option.bind_some, leftOf, Untouched.restored ⟨parseObject_parsed htext, rfl, rfl, fun _ _ => Iff.rfl⟩]
    rfl

/-- The sidecar is of the document, or there is none and nothing to restore. -/
def SettledOver (loopback : String → Bool) (base document : Option (List Property)) (state : Option SettingsState) :
    Prop :=
  state = none ∧ ForeignOverride loopback document ∧ document.bind (leftOf base) = document ∨
    state = some (recordOf base)

/-- A removal leaves what is left over the document. -/
theorem FileOver.withdraw (h : FileOver base text document) (hsettled : SettledOver loopback base document state)
    {ownUrl : Option String} (hurl : ∀ url, ownUrl = some url → isDaemonCapiUrl loopback url = true) :
    ∃ removal, removalOf loopback state ownUrl text = .ok removal ∧
      FileOver base (settingsLeft text removal) (document.bind (leftOf base)) := by
  cases h with
  | absent hbase => exact ⟨none, rfl, .absent hbase⟩
  | @present text properties htext hmanages =>
    rcases hsettled with ⟨rfl, hforeign, hsame⟩ | rfl
    · have hremoval := removeSettings_untouched htext (hforeign.not_own hurl)
      refine ⟨some .unchanged, by rw [removalOf, hremoval]; rfl, ?_⟩
      rw [hsame]
      exact .present htext hmanages
    · obtain ⟨removal, hremoval, hleaves⟩ : ∃ removal,
          removeSettings loopback text (some (recordOf base)) ownUrl = .ok removal ∧
            (removal.leaves text).map parseObject = (leftOf base properties).map .ok :=
        removeSettings_managed htext hmanages ownUrl
      refine ⟨some removal, by rw [removalOf, hremoval]; rfl, ?_⟩
      rw [Option.bind_some]
      unfold leftOf at hleaves ⊢
      by_cases hgone : (base.isNone && (restoredFrom base properties).isEmpty) = true
      · rw [if_pos hgone] at hleaves ⊢
        have hnothing : settingsLeft (some text) (some removal) = none := Option.map_eq_none_iff.mp hleaves
        rw [hnothing]
        exact .absent (Option.isNone_iff_eq_none.mp (Bool.and_eq_true_iff.mp hgone).1)
      · rw [if_neg hgone] at hleaves ⊢
        obtain ⟨written, hwritten, hparsed⟩ := Option.map_eq_some_iff.mp hleaves
        have hleft : settingsLeft (some text) (some removal) = some written := hwritten
        rw [hleft]
        exact .present hparsed hmanages.restored

end

end AgentDesktop
