import AgentDesktop.VsCodeKept

namespace AgentDesktop

section

variable (loopback : String → Bool) (path : Path)

def completeApply (world : World SettingsContents) (apply : String × ApplyEnv SettingsContents) : Bool :=
  (applySettings loopback path apply.2 apply.1 world).2.isOk

/-- The override that an apply leaves recorded. -/
def recordedOverride (url : String) (existing : Option Value) : Option SettingsState → Option Value
  | some previous => previous.overrideBefore
  | none => if ownOverride loopback (some url) existing then none else existing

/-- The properties of a file that an apply makes. -/
def createdProperties (url : String) : List Property :=
  [(overrideKey, .string url), (ignoredSettingsKey, .array (managedEntries.map .string))]

/-- A sidecar from before the file was deleted, after the file was made again. -/
structure Remade (remembered : Option Value) (state : SettingsState) : Prop where
  version : state.version = settingsStateVersion
  created : state.created = true
  overrideBefore : state.overrideBefore = remembered
  added : ∀ entry ∈ managedEntries, entry ∈ state.addedIgnored
  ignoredCreated : state.ignoredCreated = true

/-- The file that was made again beside its sidecar. -/
structure Recreated (remembered : Option Value) (files : FileSystem SettingsContents) (url : String)
    (state : SettingsState) : Prop where
  read : readOptional files path = .ok (some (.text (.object (createdProperties url))))
  sidecar : readOptional files (statePath path) = .ok (some (.state state))
  remade : Remade remembered state

end

section

variable {loopback : String → Bool} {path : Path} {url other : String} {text : Option SettingsText}
  {properties : List Property} {state : Option SettingsState} {remembered : Option Value}
  {files : FileSystem SettingsContents} {world : World SettingsContents}

theorem parseObject_created (url : String) :
    parseObject (.object (createdProperties url)) = .ok (createdProperties url) :=
  rfl

/-- An edit of a file without a conflict. -/
theorem editSettings_ok (htext : parseObject (text.getD .blank) = .ok properties) (url : String)
    (state : Option SettingsState) : ∃ newState,
      editSettings loopback text url state = .ok (.object (editedProperties url properties), newState) ∧
      newState.version = settingsStateVersion ∧
      newState.overrideBefore = recordedOverride loopback url (properties.lookup overrideKey) state := by
  unfold editSettings
  rw [htext]
  cases state with
  | none => exact ⟨_, rfl, rfl, rfl⟩
  | some previous => exact ⟨_, rfl, rfl, rfl⟩

variable {apply : String × ApplyEnv SettingsContents}

theorem completeApply_ok (h : completeApply loopback path world apply = true) :
    (applySettings loopback path apply.2 apply.1 world).2 = .ok () := by
  unfold completeApply at h
  cases hresult : (applySettings loopback path apply.2 apply.1 world).2 with
  | ok => rfl
  | error => simp [hresult, Except.isOk, Except.toBool] at h

variable {found : SettingsState}

theorem sidecarRead_some (hread : readOptional files (statePath path) = .ok (some (.state found)))
    (hversion : found.version = settingsStateVersion) : SidecarRead files path (some found) := by
  refine ⟨hread, ?_⟩
  rintro _ ⟨⟩
  exact hversion

/-- A file without a conflict beside a sidecar with the remembered override. -/
structure RecordedOver (path : Path) (remembered : Option Value) (files : FileSystem SettingsContents)
    (text : SettingsText) (properties : List Property) (state : SettingsState) : Prop where
  read : readOptional files path = .ok (some (.text text))
  parsed : parseObject text = .ok properties
  sidecar : SidecarRead files path (some state)
  overrideBefore : state.overrideBefore = remembered

/-- A complete apply records the override, or leaves what is recorded. -/
theorem apply_records (hread : readOptional world.files path = .ok (text.map .text))
    (hparsed : parseObject (text.getD .blank) = .ok properties) (hside : SidecarRead world.files path state)
    (hcomplete : completeApply loopback path world apply = true) :
    ∃ newText after newState,
      RecordedOver path (recordedOverride loopback apply.1 (properties.lookup overrideKey) state)
        (applySettings loopback path apply.2 apply.1 world).1.files newText after newState := by
  obtain ⟨newState, hedit, hversion, hoverride⟩ := editSettings_ok hparsed apply.1 state
  have happlied := applySettings_applied hread hside hedit apply.2
  obtain ⟨hstate, hfile⟩ := happlied.complete (completeApply_ok hcomplete)
  have hafter : ParsedObject (editedProperties apply.1 properties) := by
    refine ParsedObject.edited ?_ apply.1
    exact parseObject_parsed hparsed
  exact ⟨_, _, newState, hfile.1, parseObject_iff.mpr hafter, sidecarRead_some hstate.1 hversion, hoverride⟩

theorem RecordedOver.step {remembered : Option Value} {text : SettingsText} {state : SettingsState}
    (h : RecordedOver path remembered world.files text properties state)
    (hcomplete : completeApply loopback path world apply = true) :
    ∃ text properties state,
      RecordedOver path remembered (applySettings loopback path apply.2 apply.1 world).1.files text properties
        state := by
  have hread : readOptional world.files path = .ok (Option.map .text (some text)) := h.read
  obtain ⟨newText, after, newState, hrecorded⟩ := apply_records hread h.parsed h.sidecar hcomplete
  exact ⟨newText, after, newState, h.overrideBefore ▸ hrecorded⟩

variable (loopback) in
theorem editSettings_made (h : state.bind (·.overrideBefore) = remembered) (url : String) : ∃ newState,
    editSettings loopback none url state = .ok (.object (createdProperties url), newState) ∧
      Remade remembered newState := by
  cases state with
  | none => exact ⟨_, rfl, rfl, rfl, h, fun entry hentry => hentry, rfl⟩
  | some previous =>
    refine ⟨_, rfl, rfl, Bool.or_true _, h, fun entry hentry => ?_, Bool.or_true _⟩
    by_cases hthere : entry ∈ previous.addedIgnored
    · exact List.mem_append_left _ hthere
    · refine List.mem_append_right _ (List.mem_filter.mpr ⟨hentry, ?_⟩)
      simpa using hthere

variable (loopback) in
theorem Remade.edit (h : Remade remembered found) (url other : String) : ∃ newState,
    editSettings loopback (some (.object (createdProperties other))) url (some found) =
        .ok (.object (createdProperties url), newState) ∧ Remade remembered newState := by
  refine ⟨_, rfl, rfl, ?_, h.overrideBefore, fun entry hentry => List.mem_append_left _ (h.added entry hentry), ?_⟩
  · rw [h.created]
    rfl
  · rw [h.ignoredCreated]
    rfl

theorem Recreated.start (hread : readOptional world.files path = .ok none) (hside : SidecarRead world.files path state)
    (hremembered : state.bind (·.overrideBefore) = remembered)
    (hcomplete : completeApply loopback path world apply = true) : ∃ newState,
    Recreated path remembered (applySettings loopback path apply.2 apply.1 world).1.files apply.1 newState := by
  obtain ⟨newState, hedit, hremade⟩ := editSettings_made loopback hremembered apply.1
  have hnone : readOptional world.files path = .ok (Option.map .text none) := hread
  have happlied := applySettings_applied hnone hside hedit apply.2
  obtain ⟨hstate, hfile⟩ := happlied.complete (completeApply_ok hcomplete)
  exact ⟨newState, hfile.1, hstate.1, hremade⟩

theorem Recreated.step (h : Recreated path remembered world.files url found)
    (hcomplete : completeApply loopback path world apply = true) :
    ∃ newState,
    Recreated path remembered (applySettings loopback path apply.2 apply.1 world).1.files apply.1 newState := by
  obtain ⟨newState, hedit, hremade⟩ := h.remade.edit loopback apply.1 url
  have hside := sidecarRead_some h.sidecar h.remade.version
  have hmade : readOptional world.files path = .ok (Option.map .text (some (.object (createdProperties url)))) := h.read
  have happlied := applySettings_applied hmade hside hedit apply.2
  obtain ⟨hstate, hfile⟩ := happlied.complete (completeApply_ok hcomplete)
  exact ⟨newState, hfile.1, hstate.1, hremade⟩

/-- Only the remembered override stays in a file that was made again. -/
theorem Remade.restored (h : Remade remembered found) (url : String) :
    restoredProperties found.overrideBefore found.addedIgnored found.ignoredCreated (createdProperties url) =
      (remembered.map fun value => (overrideKey, value)).toList := by
  have hkept : (managedEntries.map Value.string).filter
      (fun element => !found.addedIgnored.any fun entry => decide (element = .string entry)) = [] := by
    refine List.filter_eq_nil_iff.mpr fun element helement => ?_
    obtain ⟨entry, hentry, rfl⟩ := List.mem_map.mp helement
    simpa using h.added entry hentry
  have hlist : ∀ restore, ignoredElements (restoreOverride restore (createdProperties url)) =
      some (managedEntries.map .string) := by
    intro restore
    cases restore <;> rfl
  unfold restoredProperties
  dsimp only
  rw [hlist, h.overrideBefore, h.ignoredCreated]
  dsimp only
  rw [hkept]
  cases remembered <;> rfl

variable (loopback) in
theorem Remade.removal (h : Remade remembered found) (url : String) (ownUrl : Option String) :
    ∃ removal, removalOf loopback (some found) ownUrl (some (.object (createdProperties url))) = .ok (some removal) ∧
      removal.leaves (.object (createdProperties url)) =
        remembered.map fun value => .object [(overrideKey, value)] := by
  have hremaining := h.restored url
  obtain ⟨removal, houtcome, hleaves⟩ : ∃ removal,
      removeSettings loopback (.object (createdProperties url)) (some found) ownUrl = .ok removal ∧
        removal.leaves (.object (createdProperties url)) =
          remembered.map fun value => .object [(overrideKey, value)] := by
    unfold removeSettings
    rw [if_neg (by simp), parseObject_created]
    dsimp only
    rw [hremaining, h.created]
    cases remembered with
    | none => exact ⟨.delete, rfl, rfl⟩
    | some value =>
      have hdiffers : [(overrideKey, value)] ≠ createdProperties url := by simp [createdProperties]
      exact ⟨.write (.object [(overrideKey, value)]), if_neg hdiffers, rfl⟩
  refine ⟨removal, ?_, hleaves⟩
  rw [removalOf, houtcome]
  rfl

/-- A removal leaves the file with the remembered override, or no file if there is none. -/
theorem Recreated.withdraw (h : Recreated path remembered world.files url found) {ownUrl : Option String}
    {env : ApplyEnv SettingsContents} (hremoved : (withdrawSettings loopback path env ownUrl world).2 = .ok ()) :
    readOptional (withdrawSettings loopback path env ownUrl world).1.files path =
        .ok (remembered.map fun value => .text (.object [(overrideKey, value)])) ∧
      readOptional (withdrawSettings loopback path env ownUrl world).1.files (statePath path) = .ok none := by
  obtain ⟨removal, hremoval, hleaves⟩ := h.remade.removal loopback url ownUrl
  have hmade : readOptional world.files path = .ok (Option.map .text (some (.object (createdProperties url)))) := h.read
  have hside := sidecarRead_some h.sidecar h.remade.version
  have happlied := withdrawSettings_applied hmade hside hremoval env
  obtain ⟨hfile, hstate⟩ := happlied.complete hremoved
  have hleft : settingsLeft (some (.object (createdProperties url))) (some removal) = _ := hleaves
  rw [hleft, Option.map_map] at hfile
  exact ⟨hfile, hstate⟩

end

end AgentDesktop
