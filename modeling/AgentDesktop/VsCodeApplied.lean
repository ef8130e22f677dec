import AgentDesktop.VsCodeOutcomes
import AgentDesktop.VsCodePlanned

namespace AgentDesktop

section

variable (loopback : String → Bool) (path : Path)

/-- An edit planned from the files and applied to them. -/
def applySettings (env : ApplyEnv SettingsContents) (url : String) (world : World SettingsContents) :
    World SettingsContents × Except String Unit :=
  match planSettings world.files loopback env.host path url {} with
  | .error error => (world, .error error)
  | .ok plan => plan.apply env world

/-- A removal planned from the files and applied to them. -/
def withdrawSettings (env : ApplyEnv SettingsContents) (ownUrl : Option String) (world : World SettingsContents) :
    World SettingsContents × Except String Unit :=
  match planSettingsRemoval world.files loopback env.host path ownUrl {} with
  | .error error => (world, .error error)
  | .ok plan => plan.apply env world

end

/-- A file with these contents that only its owner can read. -/
def Current (host : Host) (files : FileSystem SettingsContents) (path : Path) (contents : SettingsContents) : Prop :=
  readOptional files path = .ok (some contents) ∧ grantsBeyond host files path 0o600 = false

section

variable {files next : FileSystem SettingsContents} {path : Path} {current : Option SettingsContents}
  {contents : SettingsContents} {host : Host}

theorem currentWrites_length (host : Host) (files : FileSystem SettingsContents) (path : Path)
    (current : Option SettingsContents) (contents : SettingsContents) :
    (currentWrites host files path current contents).length ≤ 1 := by
  unfold currentWrites
  split <;> simp

theorem currentWrites_path {change : FileChange SettingsContents}
    (h : change ∈ currentWrites host files path current contents) : change.path = path := by
  unfold currentWrites at h
  split at h
  next => rw [List.mem_singleton.mp h]
  next => cases h

theorem Current.writes (h : Current host files path contents) :
    currentWrites host files path (some contents) contents = [] := by
  unfold currentWrites
  rw [if_neg (by simp [h.2])]

/-- A file is current once what was planned for it is done. -/
theorem currentWrites_carried (hread : readOptional files path = .ok current)
    (h : Carried host files next path (currentWrites host files path current contents)) :
    Current host next path contents := by
  by_cases hwrite : current ≠ some contents ∨ grantsBeyond host files path 0o600 = true
  · rw [currentWrites, if_pos hwrite] at h
    have hdone := h.effect _ (List.mem_singleton_self _)
    exact ⟨readOptional_of_inEffect hdone, hdone.2⟩
  · rw [currentWrites, if_neg hwrite] at h
    have hsame := h.kept rfl
    obtain ⟨hcurrent, hmode⟩ := not_or.mp hwrite
    refine ⟨?_, ?_⟩
    · rw [readOptional_congr hsame, hread, not_not.mp hcurrent]
    · unfold grantsBeyond at hmode ⊢
      rw [hsame]
      exact Bool.not_eq_true _ ▸ hmode

end

/-- What an apply leaves: nothing changed, or the sidecar is written, and after it the file. -/
structure EditApplied (env : ApplyEnv SettingsContents) (path : Path) (world : World SettingsContents)
    (edited : SettingsText) (newState : SettingsState) (result : World SettingsContents × Except String Unit) :
    Prop where
  files : (readOptional result.1.files (statePath path) = readOptional world.files (statePath path) ∧
      readOptional result.1.files path = readOptional world.files path) ∨
    (readOptional result.1.files (statePath path) = .ok (some (.state newState)) ∧
      (readOptional result.1.files path = readOptional world.files path ∨
        readOptional result.1.files path = .ok (some (.text edited))))
  complete : result.2 = .ok () → Current env.host result.1.files (statePath path) (.state newState) ∧
    Current env.host result.1.files path (.text edited)
  reliable : Reliable env → result.2 = .ok ()

section

variable {loopback : String → Bool} {path : Path} {world : World SettingsContents} {text : Option SettingsText}
  {state : Option SettingsState} {url : String}

theorem applySettings_applied (hpath : readOptional world.files path = .ok (text.map .text))
    (hside : SidecarRead world.files path state) {edited : SettingsText} {newState : SettingsState}
    (hedit : editSettings loopback text url state = .ok (edited, newState)) (env : ApplyEnv SettingsContents) :
    EditApplied env path world edited newState (applySettings loopback path env url world) := by
  obtain ⟨plan, hplan, hplans⟩ := planSettings_plans hpath hside hedit env.host
  obtain ⟨hfiles, hcomplete⟩ := hplans.applied_files (fun _ => currentWrites_path) (fun _ => currentWrites_path)
    (statePath_ne path) (currentWrites_length ..) (currentWrites_length ..) env
  have hresult : applySettings loopback path env url world =
      ((applyTracked env plan world).1, (applyTracked env plan world).2.mapError Prod.fst) := by
    rw [applySettings, hplan]
    exact apply_eq world rfl
  rw [hresult]
  refine ⟨?_, fun hok => ?_, fun hreliable => ?_⟩
  · rcases hfiles with ⟨hstate, htext⟩ | ⟨hstate, htext⟩ | ⟨hstate, htext⟩
    · exact Or.inl ⟨readOptional_congr hstate, readOptional_congr htext⟩
    · exact Or.inr ⟨(currentWrites_carried hside.read hstate).1, Or.inl (readOptional_congr htext)⟩
    · exact Or.inr ⟨(currentWrites_carried hside.read hstate).1, Or.inr (currentWrites_carried hpath htext).1⟩
  · obtain ⟨hstate, htext⟩ := hcomplete (tracked_ok world ((apply_eq world rfl).symm ▸ hok))
    exact ⟨currentWrites_carried hside.read hstate, currentWrites_carried hpath htext⟩
  · rw [hplans.completes hreliable]
    rfl

/-- An edit that changes nothing writes nothing. -/
theorem applySettings_current {found : SettingsState} {settings : SettingsText} {env : ApplyEnv SettingsContents}
    (hstate : Current env.host world.files (statePath path) (.state found))
    (hversion : found.version = settingsStateVersion) (hfile : Current env.host world.files path (.text settings))
    (hedit : editSettings loopback (some settings) url (some found) = .ok (settings, found)) :
    (applySettings loopback path env url world).1.files = world.files := by
  have hside : SidecarRead world.files path (some found) := by
    refine ⟨hstate.1, ?_⟩
    rintro _ ⟨⟩
    exact hversion
  obtain ⟨plan, hplan, hplans⟩ := planSettings_plans hfile.1 hside hedit env.host
  rw [Option.map_some, Option.map_some, hstate.writes, hfile.writes] at hplans
  rw [applySettings, hplan]
  exact hplans.apply_without_operations

/-- What a removal leaves of a settings file. -/
def settingsLeft : Option SettingsText → Option Removal → Option SettingsText
  | some text, some removal => removal.leaves text
  | _, _ => none

/-- What a removal leaves: nothing changed, or the file is done, and after it the sidecar. -/
structure RemovalApplied (env : ApplyEnv SettingsContents) (path : Path) (world : World SettingsContents)
    (left : Option SettingsText) (result : World SettingsContents × Except String Unit) : Prop where
  files : (readOptional result.1.files path = readOptional world.files path ∧
      readOptional result.1.files (statePath path) = readOptional world.files (statePath path)) ∨
    (readOptional result.1.files path = .ok (left.map .text) ∧
      (readOptional result.1.files (statePath path) = readOptional world.files (statePath path) ∨
        readOptional result.1.files (statePath path) = .ok none))
  complete : result.2 = .ok () → readOptional result.1.files path = .ok (left.map .text) ∧
    readOptional result.1.files (statePath path) = .ok none
  reliable : Reliable env → result.2 = .ok ()

theorem removalWrites_carried (hpath : readOptional world.files path = .ok (text.map .text)) {ownUrl : Option String}
    {removal : Option Removal} (hremoval : removalOf loopback state ownUrl text = .ok removal) {host : Host}
    {next : FileSystem SettingsContents} {mode : UInt32}
    (h : Carried host world.files next path (removalWrites path mode removal)) :
    readOptional next path = .ok ((settingsLeft text removal).map .text) := by
  cases text with
  | none =>
    cases hremoval
    rw [readOptional_congr (h.kept rfl)]
    exact hpath
  | some found =>
    obtain ⟨outcome, _, rfl⟩ := removalOf_some hremoval
    cases outcome with
    | unchanged =>
      rw [readOptional_congr (h.kept rfl)]
      exact hpath
    | write written => exact readOptional_of_inEffect (h.effect _ (List.mem_singleton_self _))
    | delete => exact readOptional_of_inEffect (h.effect _ (List.mem_singleton_self _))

theorem sidecarDrops_carried (hside : SidecarRead world.files path state) {host : Host}
    {next : FileSystem SettingsContents}
    (h : Carried host world.files next (statePath path) (sidecarDrops path state)) :
    readOptional next (statePath path) = .ok none := by
  have hread := hside.read
  cases state with
  | none =>
    rw [readOptional_congr (h.kept rfl)]
    exact hread
  | some found => exact readOptional_of_inEffect (h.effect _ (List.mem_singleton_self _))

theorem withdrawSettings_applied (hpath : readOptional world.files path = .ok (text.map .text))
    (hside : SidecarRead world.files path state) {ownUrl : Option String} {removal : Option Removal}
    (hremoval : removalOf loopback state ownUrl text = .ok removal) (env : ApplyEnv SettingsContents) :
    RemovalApplied env path world (settingsLeft text removal) (withdrawSettings loopback path env ownUrl world) := by
  obtain ⟨plan, hplan, hplans⟩ := planSettingsRemoval_plans hpath hside hremoval env.host
  have hfirst : ∀ change ∈ removalWrites path ((currentMode env.host world.files path).getD 0o600) removal,
      change.path = path := by
    intro change hchange
    unfold removalWrites at hchange
    split at hchange <;> simp_all
  have hsecond : ∀ change ∈ sidecarDrops path state, change.path = statePath path := by
    intro change hchange
    unfold sidecarDrops at hchange
    split at hchange <;> simp_all
  have hbefore : (removalWrites path ((currentMode env.host world.files path).getD 0o600) removal).length ≤ 1 := by
    unfold removalWrites
    split <;> simp
  have hafter : (sidecarDrops path state).length ≤ 1 := by
    unfold sidecarDrops
    split <;> simp
  obtain ⟨hfiles, hcomplete⟩ := hplans.applied_files hfirst hsecond (Ne.symm (statePath_ne path)) hbefore hafter env
  have hresult : withdrawSettings loopback path env ownUrl world =
      ((applyTracked env plan world).1, (applyTracked env plan world).2.mapError Prod.fst) := by
    rw [withdrawSettings, hplan]
    exact apply_eq world rfl
  rw [hresult]
  refine ⟨?_, fun hok => ?_, fun hreliable => ?_⟩
  · rcases hfiles with ⟨htext, hstate⟩ | ⟨htext, hstate⟩ | ⟨htext, hstate⟩
    · exact Or.inl ⟨readOptional_congr htext, readOptional_congr hstate⟩
    · exact Or.inr ⟨removalWrites_carried hpath hremoval htext, Or.inl (readOptional_congr hstate)⟩
    · exact Or.inr ⟨removalWrites_carried hpath hremoval htext, Or.inr (sidecarDrops_carried hside hstate)⟩
  · obtain ⟨htext, hstate⟩ := hcomplete (tracked_ok world ((apply_eq world rfl).symm ▸ hok))
    exact ⟨removalWrites_carried hpath hremoval htext, sidecarDrops_carried hside hstate⟩
  · rw [hplans.completes hreliable]
    rfl

end

end AgentDesktop
