import AgentDesktop.VsCodeRemade
import AgentDesktop.VsCodeRoundTrip

namespace AgentDesktop

section

variable (loopback : String → Bool) (path : Path)

def applyStep (world : World SettingsContents) (apply : String × ApplyEnv SettingsContents) :
    Option (World SettingsContents) :=
  some (applySettings loopback path apply.2 apply.1 world).1

/-- The user deletes the settings file. -/
def deleteSettings (world : World SettingsContents) : World SettingsContents :=
  { world with files := FileSystem.set world.files path .absent }

/-- The override that the first of the applies records. -/
def rememberedOverride (document : Option (List Property)) :
    List (String × ApplyEnv SettingsContents) → Option Value
  | [] => none
  | apply :: _ => recordedOverride loopback apply.1 (overrideIn document) none

end

section

variable {loopback : String → Bool} {path : Path} {world : World SettingsContents}

/-- The sidecar after complete applies has the override that the first of them recorded. -/
theorem applies_record {document : Option (List Property)} (hfile : HoldsDocument path world.files document)
    (hside : world.files (statePath path) = .absent) {applies : List (String × ApplyEnv SettingsContents)}
    {final : World SettingsContents}
    (h : execute (applyStep loopback path) (completeApply loopback path) applies world = some final) :
    ∃ state, SidecarRead final.files path state ∧
      state.bind (·.overrideBefore) = rememberedOverride loopback document applies := by
  have hnone : SidecarRead world.files path none := ⟨by simp [readOptional, hside], by simp⟩
  cases applies with
  | nil =>
    cases h
    exact ⟨none, hnone, rfl⟩
  | cons apply rest =>
    obtain ⟨next, hcomplete, hnext, hrest⟩ := execute_cons h
    cases hnext
    obtain ⟨text, hread, hparsed⟩ := hfile
    have hproperties : parseObject (text.getD .blank) = .ok (document.getD []) := by
      cases text with
      | none =>
        cases document with
        | none => rfl
        | some properties => cases hparsed
      | some text =>
        cases document with
        | none => cases hparsed
        | some properties => exact Option.some.inj hparsed
    have hexisting : (document.getD []).lookup overrideKey = overrideIn document := by
      cases document <;> rfl
    have hfirst := apply_records hread hproperties hnone hcomplete
    rw [hexisting] at hfirst
    have hfinal : ∃ text properties state,
        RecordedOver path (recordedOverride loopback apply.1 (overrideIn document) none) final.files text properties
          state :=
      execute_invariant (fun (world : World SettingsContents) later next (hkept : ∃ text properties state,
          RecordedOver path (recordedOverride loopback apply.1 (overrideIn document) none) world.files text properties
            state) hcomplete hstep => by
        obtain ⟨text, properties, state, hkept⟩ := hkept
        cases hstep
        exact hkept.step hcomplete) hfirst hrest
    obtain ⟨text, properties, state, hfinal⟩ := hfinal
    exact ⟨some state, hfinal.sidecar, hfinal.overrideBefore⟩

/-- After a deletion and complete applies a removal leaves nothing, just if no apply followed
the deletion or the first one before it recorded no override. -/
theorem deleted_settings_stay_away_iff {document : Option (List Property)}
    (hfile : HoldsDocument path world.files document) (hside : world.files (statePath path) = .absent)
    (before after : List (String × ApplyEnv SettingsContents)) (recorded final : World SettingsContents)
    (hbefore : execute (applyStep loopback path) (completeApply loopback path) before world = some recorded)
    (hafter : execute (applyStep loopback path) (completeApply loopback path) after (deleteSettings path recorded) =
      some final)
    (ownUrl : Option String) (env : ApplyEnv SettingsContents)
    (hremoved : (withdrawSettings loopback path env ownUrl final).2 = .ok ()) :
    ((withdrawSettings loopback path env ownUrl final).1.files path = .absent ∧
        (withdrawSettings loopback path env ownUrl final).1.files (statePath path) = .absent) ↔
      after = [] ∨ rememberedOverride loopback document before = none := by
  obtain ⟨state, hstate, hremembered⟩ := applies_record hfile hside hbefore
  have hdeleted : readOptional (deleteSettings path recorded).files path = .ok none := by
    simp [readOptional, deleteSettings, FileSystem.set]
  have hkept : SidecarRead (deleteSettings path recorded).files path state := by
    refine ⟨?_, hstate.version⟩
    rw [← hstate.read]
    exact readOptional_congr (FileSystem.set_ne recorded.files _ (statePath_ne path))
  cases after with
  | nil =>
    cases hafter
    have hnone : readOptional (deleteSettings path recorded).files path = .ok (Option.map .text none) := hdeleted
    obtain ⟨hgone, hdropped⟩ := (withdrawSettings_applied hnone hkept rfl env).complete hremoved
    exact iff_of_true ⟨absent_of_read hgone, absent_of_read hdropped⟩ (Or.inl rfl)
  | cons apply rest =>
    obtain ⟨next, hcomplete, hnext, hrest⟩ := execute_cons hafter
    cases hnext
    obtain ⟨newState, hfirst⟩ := Recreated.start hdeleted hkept hremembered hcomplete
    have hfinal : ∃ url found, Recreated path (rememberedOverride loopback document before) final.files url found :=
      execute_invariant (fun (world : World SettingsContents) later next (hkept : ∃ url found,
          Recreated path (rememberedOverride loopback document before) world.files url found) hcomplete hstep => by
        obtain ⟨url, found, hkept⟩ := hkept
        cases hstep
        exact ⟨later.1, hkept.step hcomplete⟩) ⟨apply.1, newState, hfirst⟩ hrest
    obtain ⟨url, found, hfinal⟩ := hfinal
    obtain ⟨hleft, hdropped⟩ := hfinal.withdraw hremoved
    rw [or_iff_right (by simp)]
    constructor
    · rintro ⟨hgone, _⟩
      rw [readOptional, hgone] at hleft
      exact Option.map_eq_none_iff.mp (Except.ok.inj hleft).symm
    · intro hnone
      rw [hnone] at hleft
      exact ⟨absent_of_read hleft, absent_of_read hdropped⟩

end

section

def corpSettings : List Property :=
  [(overrideKey, .string "https://capi.corp.example"), ("workbench.colorTheme", .string "Dark")]

def settingsWorld (properties : List Property) : World SettingsContents where
  files path := if path = settingsPath then .file (.text (.object properties)) 0o600 else .absent
  registry _ := .empty

/-- Without an override nothing comes back after two more applies. -/
theorem deleted_settings_stay_away_theme : ∃ recorded final,
    execute (applyStep loopbackAddress settingsPath) (completeApply loopbackAddress settingsPath)
        [(capiUrl "first", {})] (settingsWorld [("workbench.colorTheme", .string "Dark")]) = some recorded ∧
      execute (applyStep loopbackAddress settingsPath) (completeApply loopbackAddress settingsPath)
        [(capiUrl "first", {}), (capiUrl "second", {})] (deleteSettings settingsPath recorded) = some final ∧
      (withdrawSettings loopbackAddress settingsPath {} none final).1.files settingsPath = .absent ∧
      (withdrawSettings loopbackAddress settingsPath {} none final).1.files (statePath settingsPath) = .absent := by
  have hfile : HoldsDocument settingsPath (settingsWorld [("workbench.colorTheme", .string "Dark")]).files
      (some [("workbench.colorTheme", .string "Dark")]) :=
    ⟨some (.object [("workbench.colorTheme", .string "Dark")]), rfl, rfl⟩
  refine ⟨_, _, rfl, rfl, ?_⟩
  exact (deleted_settings_stay_away_iff hfile rfl
    [(capiUrl "first", {})] [(capiUrl "first", {}), (capiUrl "second", {})] _ _ rfl rfl none {} rfl).mpr (Or.inr rfl)

/-- The override from before the first apply comes back, in a file of its own, though without
the second apply a removal leaves nothing. -/
theorem deleted_settings_come_back : ∃ recorded final,
    execute (applyStep loopbackAddress settingsPath) (completeApply loopbackAddress settingsPath)
        [(capiUrl "first", {})] (settingsWorld corpSettings) = some recorded ∧
      execute (applyStep loopbackAddress settingsPath) (completeApply loopbackAddress settingsPath)
        [(capiUrl "first", {})] (deleteSettings settingsPath recorded) = some final ∧
      (withdrawSettings loopbackAddress settingsPath {} none final).2 = .ok () ∧
      settingsDocument settingsPath (withdrawSettings loopbackAddress settingsPath {} none final).1.files =
        some [(overrideKey, .string "https://capi.corp.example")] ∧
      (withdrawSettings loopbackAddress settingsPath {} none (deleteSettings settingsPath recorded)).2 = .ok () ∧
      (withdrawSettings loopbackAddress settingsPath {} none (deleteSettings settingsPath recorded)).1.files
        settingsPath = .absent := by
  exact ⟨_, _, rfl, rfl, rfl, by decide +kernel, rfl, rfl⟩

end

end AgentDesktop
