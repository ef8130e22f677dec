import AgentDesktop.Transitions
import AgentDesktop.VsCodeKept

namespace AgentDesktop

/-- The settings, beside the document that a removal goes back to: the file as the user has it
until an apply records it. -/
structure SettingsRun where
  world : World SettingsContents
  base : Option (List Property)

inductive SettingsStep where
  | apply (url : String) (env : ApplyEnv SettingsContents)
  | edit (text : SettingsText) (mode : UInt32)

def SettingsStep.isApply : SettingsStep → Bool
  | .apply _ _ => true
  | .edit _ _ => false

/-- An edit that keeps the override, the ignore list and its managed entries. -/
def userEdit (before after : List Property) : Bool :=
  decide (after.lookup overrideKey = before.lookup overrideKey) &&
    ((ignoredElements before).isNone || (ignoredElements after).isSome) &&
    managedEntries.all fun entry => ((ignoredElements after).getD []).contains (.string entry) ==
      ((ignoredElements before).getD []).contains (.string entry)

section

variable (loopback : String → Bool) (path : Path)

/-- An apply, as far as it gets, or an edit by the user. -/
def SettingsRun.step (run : SettingsRun) : SettingsStep → Option SettingsRun
  | .apply url env => some { run with world := (applySettings loopback path env url run.world).1 }
  | .edit text mode =>
    let files := FileSystem.set run.world.files path (.file (.text text) mode)
    let recorded := (run.world.files (statePath path)).contents.isSome
    some { world := { run.world with files }, base := if recorded then run.base else (parseObject text).toOption }

def SettingsRun.allowed (run : SettingsRun) : SettingsStep → Bool
  | .apply url _ => isDaemonCapiUrl loopback url
  | .edit text _ =>
    match settingsDocument path run.world.files, parseObject text with
    | some before, .ok after => userEdit before after
    | _, _ => false

/-- The document that is recorded has the managed parts of the first one. -/
structure Since (original base : Option (List Property)) : Prop where
  file : base = none → original = none
  override : overrideIn base = overrideIn original
  entries : ∀ entry ∈ managedEntries,
    Value.string entry ∈ (ignoredIn base).getD [] ↔ Value.string entry ∈ (ignoredIn original).getD []
  list : ignoredIn base = none → ignoredIn original = none

/-- The settings between applies: nothing is recorded yet, or the document is. -/
structure SettingsKept (original base : Option (List Property)) (files : FileSystem SettingsContents)
    (text : Option SettingsText) (document : Option (List Property)) (state : Option SettingsState) : Prop where
  since : Since original base
  read : readOptional files path = .ok (text.map .text)
  sidecar : SidecarRead files path state
  file : FileOver base text document
  recorded : state = none ∧ document = base ∨ state = some (recordOf base)

end

section

variable {loopback : String → Bool} {path : Path} {original base document : Option (List Property)}
  {text : Option SettingsText} {state : Option SettingsState} {files : FileSystem SettingsContents}
  {world : World SettingsContents}

theorem FileOver.holds (h : FileOver base text document) (hread : readOptional files path = .ok (text.map .text)) :
    HoldsDocument path files document := by
  refine ⟨text, hread, ?_⟩
  cases h with
  | absent => rfl
  | present htext => exact congrArg some htext

theorem LeftOver.since {current left : Option (List Property)} (h : LeftOver base current left)
    (hsince : Since original base) : LeftOver original current left :=
  ⟨h.own, h.order, h.override.trans hsince.override,
    fun entry hentry => (h.entries entry hentry).trans (hsince.entries entry hentry),
    fun hnone => hsince.file (h.file hnone), fun hnone => hsince.list (h.list hnone)⟩

theorem ForeignOverride.since (h : ForeignOverride loopback original) (hsince : Since original base) :
    ForeignOverride loopback base := by
  intro value hvalue
  exact h value (hsince.override ▸ hvalue)

theorem SettingsKept.applied (h : SettingsKept path original base world.files text document state)
    (hforeign : ForeignOverride loopback original) {url : String} (hurl : isDaemonCapiUrl loopback url = true)
    (env : ApplyEnv SettingsContents) :
    EditApplied env path world (.object (editedProperties url (document.getD []))) (recordOf base)
      (applySettings loopback path env url world) :=
  applySettings_applied h.read h.sidecar (h.file.edit h.recorded (hforeign.since h.since) hurl) env

/-- After any part of an apply the settings are kept, with the same left of them. -/
theorem SettingsKept.step_apply (h : SettingsKept path original base world.files text document state)
    (hforeign : ForeignOverride loopback original) {url : String} (hurl : isDaemonCapiUrl loopback url = true)
    (env : ApplyEnv SettingsContents) :
    ∃ text after state,
      SettingsKept path original base (applySettings loopback path env url world).1.files text after state ∧
        after.bind (leftOf base) = document.bind (leftOf base) := by
  have happlied := h.applied hforeign hurl env
  have hversion : ∀ found, some (recordOf base) = some found → found.version = settingsStateVersion := by
    rintro _ ⟨⟩
    rfl
  rcases happlied.files with ⟨hstate, htext⟩ | ⟨hstate, htext | htext⟩
  · exact ⟨text, document, state, ⟨h.since, htext.trans h.read, ⟨hstate.trans h.sidecar.read, h.sidecar.version⟩,
      h.file, h.recorded⟩, rfl⟩
  · exact ⟨text, document, some (recordOf base), ⟨h.since, htext.trans h.read, ⟨hstate, hversion⟩, h.file, Or.inr rfl⟩,
      rfl⟩
  · exact ⟨some _, _, some (recordOf base), ⟨h.since, htext, ⟨hstate, hversion⟩, h.file.edited url, Or.inr rfl⟩,
      h.file.left_edited url⟩

variable {before after : List Property}

theorem userEdit_iff : userEdit before after = true ↔
    after.lookup overrideKey = before.lookup overrideKey ∧
      (ignoredElements after = none → ignoredElements before = none) ∧
      ∀ entry ∈ managedEntries, Value.string entry ∈ (ignoredElements after).getD [] ↔
        Value.string entry ∈ (ignoredElements before).getD [] := by
  have hlist : ((ignoredElements before).isNone || (ignoredElements after).isSome) = true ↔
      (ignoredElements after = none → ignoredElements before = none) := by
    cases ignoredElements after <;> simp
  rw [userEdit, Bool.and_eq_true_iff, Bool.and_eq_true_iff, hlist, decide_eq_true_iff, List.all_eq_true, and_assoc]
  refine and_congr_right fun _ => and_congr_right fun _ => forall₂_congr fun entry _ => ?_
  rw [beq_iff_eq, Bool.eq_iff_iff, List.contains_iff_mem, List.contains_iff_mem]

/-- An edit by the user keeps what the document has of the managed parts. -/
theorem Manages.user_edit (h : Manages base before) (hparsed : ParsedObject after)
    (hedit : userEdit before after = true) : Manages base after := by
  obtain ⟨hoverride, hlist, hentries⟩ := userEdit_iff.mp hedit
  refine ⟨hparsed, fun hbase => hoverride ▸ h.override hbase, fun hbase hnone => h.ignored hbase (hlist hnone),
    fun entry hentry hthere => ?_⟩
  obtain ⟨elements, helements, hmem⟩ := h.entries entry hentry hthere
  have hafter : Value.string entry ∈ (ignoredElements after).getD [] := by
    rw [hentries entry hentry, helements]
    exact hmem
  cases hfound : ignoredElements after with
  | none => simp [hfound] at hafter
  | some found =>
    rw [hfound] at hafter
    exact ⟨found, rfl, hafter⟩

theorem Since.user_edit (h : Since original (some before)) (hedit : userEdit before after = true) :
    Since original (some after) := by
  obtain ⟨hoverride, hlist, hentries⟩ := userEdit_iff.mp hedit
  exact ⟨by simp, hoverride.trans h.override,
    fun entry hentry => (hentries entry hentry).trans (h.entries entry hentry),
    fun hnone => h.list (hlist hnone)⟩

theorem SettingsKept.step_edit {run next : SettingsRun} {edit : SettingsText} {mode : UInt32}
    (h : SettingsKept path original run.base run.world.files text document state)
    (hallowed : run.allowed loopback path (.edit edit mode) = true)
    (hstep : run.step loopback path (.edit edit mode) = some next) :
    ∃ text document state, SettingsKept path original next.base next.world.files text document state := by
  cases hstep
  unfold SettingsRun.allowed at hallowed
  rw [h.file.document_eq h.read] at hallowed
  cases hbefore : document with
  | none => simp [hbefore] at hallowed
  | some before =>
    cases hafter : parseObject edit with
    | error conflict => simp [hbefore, hafter] at hallowed
    | ok after =>
      simp only [hbefore, hafter] at hallowed
      have hparsed := parseObject_parsed hafter
      have hread : readOptional (FileSystem.set run.world.files path (.file (.text edit) mode)) path =
          .ok (some (.text edit)) := by
        simp [readOptional, FileSystem.set]
      have hside : readOptional (FileSystem.set run.world.files path (.file (.text edit) mode)) (statePath path) =
          readOptional run.world.files (statePath path) :=
        readOptional_congr (FileSystem.set_ne run.world.files _ (statePath_ne path))
      have hcontents := readOptional_contents h.sidecar.read
      refine ⟨some edit, some after, state, ?_⟩
      have hover := h.file
      rw [hbefore] at hover
      dsimp only
      rw [hcontents]
      rcases h.recorded with ⟨rfl, hbase⟩ | rfl
      · have hsince := h.since
        rw [← hbase, hbefore] at hsince
        refine ⟨hsince.user_edit hallowed, hread, ⟨hside.trans h.sidecar.read, h.sidecar.version⟩, ?_,
          Or.inl ⟨rfl, rfl⟩⟩
        exact .present hafter (Untouched.manages ⟨hparsed, rfl, rfl, fun _ _ => Iff.rfl⟩)
      · refine ⟨h.since, hread, ⟨hside.trans h.sidecar.read, h.sidecar.version⟩, ?_, Or.inr rfl⟩
        exact .present hafter (hover.manages.user_edit hparsed hallowed)

end

end AgentDesktop
