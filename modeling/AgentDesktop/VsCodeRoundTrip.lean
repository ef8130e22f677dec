import AgentDesktop.VsCodeRuns

namespace AgentDesktop

section

variable (loopback : String → Bool) (path : Path)

/-- A removal, as far as it gets. -/
def withdrawStep (world : World SettingsContents) (attempt : Option String × ApplyEnv SettingsContents) :
    Option (World SettingsContents) :=
  some (withdrawSettings loopback path attempt.2 attempt.1 world).1

def ownAttempt (_ : World SettingsContents) (attempt : Option String × ApplyEnv SettingsContents) : Bool :=
  attempt.1.all (isDaemonCapiUrl loopback)

/-- What an apply does, complete or not. -/
structure ApplyKeeps (run : SettingsRun) (url : String) (env : ApplyEnv SettingsContents)
    (result : World SettingsContents × Except String Unit) : Prop where
  kept : restoredDocument run.base path result.1.files = restoredDocument run.base path run.world.files
  reliable : Reliable env → result.2 = .ok ()
  complete : result.2 = .ok () → ∃ properties, HoldsDocument path result.1.files (some properties) ∧
    properties.lookup overrideKey = some (.string url) ∧
    ∀ entry ∈ managedEntries, Value.string entry ∈ (ignoredElements properties).getD []
  again : result.2 = .ok () → ∀ other, other.host = env.host →
    (applySettings loopback path other url result.1).1.files = result.1.files

/-- What applies and removals do from here. -/
structure RoundTrips (original : Option (List Property)) (run : SettingsRun) : Prop where
  left : LeftOver original (settingsDocument path run.world.files) (restoredDocument run.base path run.world.files)
  applies : ∀ url env, isDaemonCapiUrl loopback url = true →
    ApplyKeeps loopback path run url env (applySettings loopback path env url run.world)
  removes : ∀ attempts stopped, execute (withdrawStep loopback path) (ownAttempt loopback) attempts run.world =
      some stopped → ∀ ownUrl env, ownAttempt loopback stopped (ownUrl, env) = true →
    (Reliable env → (withdrawSettings loopback path env ownUrl stopped).2 = .ok ()) ∧
    ((withdrawSettings loopback path env ownUrl stopped).2 = .ok () →
      HoldsDocument path (withdrawSettings loopback path env ownUrl stopped).1.files
          (restoredDocument run.base path run.world.files) ∧
        (withdrawSettings loopback path env ownUrl stopped).1.files (statePath path) = .absent)

end

section

variable {loopback : String → Bool} {path : Path} {original base document : Option (List Property)}
  {text : Option SettingsText} {state : Option SettingsState} {run : SettingsRun}

theorem SettingsKept.apply_keeps (h : SettingsKept path original run.base run.world.files text document state)
    (hforeign : ForeignOverride loopback original) {url : String} (hurl : isDaemonCapiUrl loopback url = true)
    (env : ApplyEnv SettingsContents) :
    ApplyKeeps loopback path run url env (applySettings loopback path env url run.world) := by
  have happlied := h.applied hforeign hurl env
  obtain ⟨hoverride, hlist⟩ := lookup_edited url (document.getD [])
  refine ⟨?_, happlied.reliable, fun hok => ?_, fun hok other hhost => ?_⟩
  · obtain ⟨_, after, _, hkept, hleft⟩ := h.step_apply hforeign hurl env
    unfold restoredDocument
    rw [hkept.file.document_eq hkept.read, h.file.document_eq h.read]
    exact hleft
  · refine ⟨_, (h.file.edited url).holds (happlied.complete hok).2.1, hoverride, fun entry hentry => ?_⟩
    rw [hlist]
    exact managed_mem_edited hentry _
  · obtain ⟨hstate, hfile⟩ := happlied.complete hok
    have hmanages := h.file.manages.edited url
    have hself : editedProperties url (editedProperties url (document.getD [])) =
        editedProperties url (document.getD []) :=
      editedProperties_self hmanages.parsed hoverride hlist fun entry hentry => managed_mem_edited hentry _
    have hagain : editSettings loopback (some (.object (editedProperties url (document.getD [])))) url
        (some (recordOf run.base)) = .ok (.object (editedProperties url (editedProperties url (document.getD []))),
          recordOf run.base) := editSettings_again (parseObject_iff.mpr hmanages.parsed) hmanages
    rw [hself] at hagain
    rw [← hhost] at hstate hfile
    exact applySettings_current hstate rfl hfile hagain

/-- The settings between the attempts at a removal. -/
structure Withdrawing (loopback : String → Bool) (path : Path) (base left : Option (List Property))
    (files : FileSystem SettingsContents) (text : Option SettingsText) (document : Option (List Property))
    (state : Option SettingsState) : Prop where
  read : readOptional files path = .ok (text.map .text)
  sidecar : SidecarRead files path state
  file : FileOver base text document
  settled : SettledOver loopback base document state
  left : document.bind (leftOf base) = left

theorem SettingsKept.withdrawing {files : FileSystem SettingsContents}
    (h : SettingsKept path original base files text document state) (hforeign : ForeignOverride loopback original) :
    Withdrawing loopback path base (restoredDocument base path files) files text document state := by
  refine ⟨h.read, h.sidecar, h.file, ?_, ?_⟩
  · rcases h.recorded with ⟨rfl, rfl⟩ | rfl
    · exact Or.inl ⟨rfl, hforeign.since h.since, h.file.left_self⟩
    · exact Or.inr rfl
  · rw [restoredDocument, h.file.document_eq h.read]

variable {left : Option (List Property)} {world : World SettingsContents}

theorem Withdrawing.applied (h : Withdrawing loopback path base left world.files text document state)
    {ownUrl : Option String} (hurl : ownUrl.all (isDaemonCapiUrl loopback) = true) (env : ApplyEnv SettingsContents) :
    ∃ after, RemovalApplied env path world after (withdrawSettings loopback path env ownUrl world) ∧
      FileOver base after left := by
  have howns : ∀ url, ownUrl = some url → isDaemonCapiUrl loopback url = true := by
    rintro url rfl
    exact hurl
  obtain ⟨removal, hremoval, hover⟩ := h.file.withdraw h.settled howns
  exact ⟨_, withdrawSettings_applied h.read h.sidecar hremoval env, h.left ▸ hover⟩

theorem Withdrawing.step (h : Withdrawing loopback path base left world.files text document state)
    (hforeign : ForeignOverride loopback base) {ownUrl : Option String}
    (hurl : ownUrl.all (isDaemonCapiUrl loopback) = true) (env : ApplyEnv SettingsContents) :
    ∃ text document state, Withdrawing loopback path base left
      (withdrawSettings loopback path env ownUrl world).1.files text document state := by
  obtain ⟨after, happlied, hover⟩ := h.applied hurl env
  have hleft : left.bind (leftOf base) = left := by
    rw [← h.left]
    cases document with
    | none => rfl
    | some properties => exact leftOf_left base properties
  have hclean : SettledOver loopback base left none := by
    refine Or.inl ⟨rfl, fun value hvalue => hforeign value ?_, hleft⟩
    rw [← h.file.leftOver.override, h.left]
    exact hvalue
  rcases happlied.files with ⟨htext, hstate⟩ | ⟨htext, hstate | hstate⟩
  · exact ⟨text, document, state, htext.trans h.read, ⟨hstate.trans h.sidecar.read, h.sidecar.version⟩, h.file,
      h.settled, h.left⟩
  · refine ⟨after, left, state, htext, ⟨hstate.trans h.sidecar.read, h.sidecar.version⟩, hover, ?_, hleft⟩
    rcases h.settled with ⟨rfl, _⟩ | rfl
    · exact hclean
    · exact Or.inr rfl
  · exact ⟨after, left, none, htext, ⟨hstate, by simp⟩, hover, hclean, hleft⟩

theorem SettingsKept.round_trips (h : SettingsKept path original run.base run.world.files text document state)
    (hforeign : ForeignOverride loopback original) : RoundTrips loopback path original run := by
  refine ⟨?_, fun url env hurl => h.apply_keeps hforeign hurl env, fun attempts stopped hattempts ownUrl env hown => ?_⟩
  · rw [restoredDocument, h.file.document_eq h.read]
    exact h.file.leftOver.since h.since
  · have hbase := hforeign.since h.since
    obtain ⟨text, document, state, hstopped⟩ :=
      execute_invariant (fun world attempt next (hkept : ∃ text document state, Withdrawing loopback path run.base
          (restoredDocument run.base path run.world.files) world.files text document state) hallowed hstep => by
        obtain ⟨text, document, state, hkept⟩ := hkept
        cases hstep
        exact hkept.step hbase hallowed attempt.2) ⟨text, document, state, h.withdrawing hforeign⟩ hattempts
    obtain ⟨after, happlied, hover⟩ := hstopped.applied hown env
    refine ⟨happlied.reliable, fun hok => ?_⟩
    obtain ⟨htext, hstate⟩ := happlied.complete hok
    exact ⟨hover.holds htext, absent_of_read hstate⟩

theorem SettingsKept.step {next : SettingsRun} {action : SettingsStep} (hforeign : ForeignOverride loopback original)
    (hallowed : run.allowed loopback path action = true) (hstep : run.step loopback path action = some next)
    (h : ∃ text document state, SettingsKept path original run.base run.world.files text document state) :
    ∃ text document state, SettingsKept path original next.base next.world.files text document state := by
  obtain ⟨text, document, state, h⟩ := h
  cases action with
  | apply url env =>
    obtain ⟨text, document, state, hkept, _⟩ := h.step_apply hforeign hallowed env
    cases hstep
    exact ⟨text, document, state, hkept⟩
  | edit => exact h.step_edit hallowed hstep

theorem settingsKept_start (hfile : HoldsDocument path world.files original)
    (hside : world.files (statePath path) = .absent) :
    ∃ text, SettingsKept path original original world.files text original none := by
  obtain ⟨text, hread, hparsed⟩ := hfile
  have hover : FileOver original text original := by
    cases text with
    | none =>
      cases original with
      | none => exact .absent rfl
      | some properties => cases hparsed
    | some text =>
      cases original with
      | none => cases hparsed
      | some properties =>
        have htext : parseObject text = .ok properties := Option.some.inj hparsed
        exact .present htext (Untouched.manages ⟨parseObject_parsed htext, rfl, rfl, fun _ _ => Iff.rfl⟩)
  refine ⟨text, ⟨id, rfl, fun _ _ => Iff.rfl, id⟩, hread, ⟨?_, by simp⟩, hover, Or.inl ⟨rfl, rfl⟩⟩
  simp [readOptional, hside]

/-- Whatever applies, complete or not, and edits there were, each apply and each removal does
what it should, and without edits a removal goes back to the first document. -/
theorem settings_round_trip (hfile : HoldsDocument path world.files original)
    (hside : world.files (statePath path) = .absent) (hforeign : ForeignOverride loopback original)
    (steps : List SettingsStep) (final : SettingsRun)
    (hrun : execute (SettingsRun.step loopback path) (SettingsRun.allowed loopback path) steps ⟨world, original⟩ =
      some final) :
    RoundTrips loopback path original final ∧
      ((∀ step ∈ steps, step.isApply = true) → restoredDocument final.base path final.world.files = original) := by
  obtain ⟨text, hstart⟩ := settingsKept_start hfile hside
  have hkept : ∃ text document state, SettingsKept path original final.base final.world.files text document state :=
    execute_invariant (fun run action next (hkept : ∃ text document state,
        SettingsKept path original run.base run.world.files text document state) hallowed hstep =>
      SettingsKept.step hforeign hallowed hstep hkept) ⟨text, original, none, hstart⟩ hrun
  refine ⟨?_, fun hunedited => ?_⟩
  · obtain ⟨text, document, state, hkept⟩ := hkept
    exact hkept.round_trips hforeign
  · have hleft : restoredDocument original path world.files = original := by
      rw [restoredDocument, hstart.file.document_eq hstart.read]
      exact hstart.file.left_self
    have hsame := execute_invariant_of_mem (fun run action hmem next (hkept : (∃ text document state,
        SettingsKept path original run.base run.world.files text document state) ∧
          restoredDocument run.base path run.world.files = original) hallowed hstep => by
      refine ⟨SettingsKept.step hforeign hallowed hstep hkept.1, ?_⟩
      obtain ⟨⟨text, document, state, hkept⟩, hrestored⟩ := hkept
      cases action with
      | apply url env =>
        cases hstep
        exact (hkept.apply_keeps hforeign hallowed env).kept.trans hrestored
      | edit edited mode => cases hunedited _ hmem) ⟨⟨text, original, none, hstart⟩, hleft⟩ hrun
    exact hsame.2

end

section

def settingsPath : Path := ["home", "Code", "User", "settings.json"]

def loopbackAddress (authority : String) : Bool :=
  decide (authority = "127.0.0.1:4141")

def nullSettings : List Property :=
  [("workbench.colorTheme", .string "Dark"), (overrideKey, .null)]

def nullWorld : World SettingsContents where
  files path := if path = settingsPath then .file (.text (.object nullSettings)) 0o664 else .absent
  registry _ := .empty

/-- The disk is full at the second file. -/
def secondFails : ApplyEnv SettingsContents where
  operationFails index _ _ := if index = 1 then some "no space left on device" else none

/-- The user turns the theme and then ignores it too, in the file as an apply left it. -/
def lightSettings (url : String) : List Property :=
  [(ignoredSettingsKey, .array (.string "workbench.colorTheme" :: managedEntries.map .string)),
    ("workbench.colorTheme", .string "Light"), (overrideKey, .string url)]

def capiUrl (pairing : String) : String :=
  "http://127.0.0.1:4141/vscode-copilot-capi/" ++ pairing

/-- An apply that stops between its writes, a complete one, an edit and another apply: a
removal then puts the `null` back. -/
theorem settings_round_trip_dark : ∃ final,
    execute (SettingsRun.step loopbackAddress settingsPath) (SettingsRun.allowed loopbackAddress settingsPath)
        [.apply (capiUrl "first") secondFails, .apply (capiUrl "second") {},
          .edit (.object (lightSettings (capiUrl "second"))) 0o664, .apply (capiUrl "third") {}]
        ⟨nullWorld, some nullSettings⟩ = some final ∧
      RoundTrips loopbackAddress settingsPath (some nullSettings) final ∧
      restoredDocument final.base settingsPath final.world.files =
        some [(ignoredSettingsKey, .array [.string "workbench.colorTheme"]), ("workbench.colorTheme", .string "Light"),
          (overrideKey, .null)] := by
  have hrun : execute (SettingsRun.step loopbackAddress settingsPath)
      (SettingsRun.allowed loopbackAddress settingsPath)
      [.apply (capiUrl "first") secondFails, .apply (capiUrl "second") {},
        .edit (.object (lightSettings (capiUrl "second"))) 0o664, .apply (capiUrl "third") {}]
      ⟨nullWorld, some nullSettings⟩ = some _ := rfl
  have hforeign : ForeignOverride loopbackAddress (some nullSettings) := by
    intro value hvalue
    cases hvalue
  exact ⟨_, hrun, (settings_round_trip ⟨some (.object nullSettings), rfl, rfl⟩ rfl hforeign _ _ hrun).1,
    by decide +kernel⟩

end

end AgentDesktop
