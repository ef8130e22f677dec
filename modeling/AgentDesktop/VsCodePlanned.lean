import AgentDesktop.VsCodePlan

namespace AgentDesktop

/-- The write of a file that is not current. -/
def currentWrites (host : Host) (files : FileSystem SettingsContents) (path : Path) (current : Option SettingsContents)
    (contents : SettingsContents) : List (FileChange SettingsContents) :=
  if current ≠ some contents ∨ grantsBeyond host files path 0o600 = true then [⟨path, some contents, 0o600⟩] else []

/-- What a removal does to a settings file, if there is one. -/
def removalOf (loopback : String → Bool) (state : Option SettingsState) (ownUrl : Option String) :
    Option SettingsText → Except SettingsConflict (Option Removal)
  | none => .ok none
  | some text => (removeSettings loopback text state ownUrl).map some

/-- What is written for a removal. -/
def removalWrites (path : Path) (mode : UInt32) : Option Removal → List (FileChange SettingsContents)
  | some (.write text) => [⟨path, some (.text text), mode⟩]
  | some .delete => [⟨path, none, 0⟩]
  | _ => []

def sidecarDrops (path : Path) (state : Option SettingsState) : List (FileChange SettingsContents) :=
  if state.isSome then [⟨statePath path, none, 0⟩] else []

/-- A sidecar of this version, or none. -/
structure SidecarRead (files : FileSystem SettingsContents) (path : Path) (state : Option SettingsState) : Prop where
  read : readOptional files (statePath path) = .ok (state.map .state)
  version : ∀ found, state = some found → found.version = settingsStateVersion

section

variable {files : FileSystem SettingsContents} {path : Path} {state : Option SettingsState}
  {operations : List (FileChange SettingsContents)} {plan : ReconcilePlan SettingsContents}

theorem Plans.readSidecar_ok (h : Plans files operations false plan) (hside : SidecarRead files path state) :
    ∃ next, readSidecar files (statePath path) plan = .ok (next, state.map .state, state) ∧
      Plans files operations false next := by
  obtain ⟨next, hread, hplans⟩ := h.read_ok hside.read
  refine ⟨next, ?_, hplans⟩
  unfold readSidecar
  rw [hread]
  cases state with
  | none => rfl
  | some found => simp [readSettingsState, hside.version found rfl]

theorem Plans.writeUnlessCurrent_ok (h : Plans files operations false plan) {current : Option SettingsContents}
    (hread : readOptional files path = .ok current) (host : Host) (contents : SettingsContents) :
    ∃ next, writeUnlessCurrent files host path current contents plan = .ok next ∧
      Plans files (operations ++ currentWrites host files path current contents) false next := by
  unfold writeUnlessCurrent currentWrites
  split
  next => exact h.writeFile_ok hread contents 0o600
  next =>
    rw [List.append_nil]
    exact ⟨plan, rfl, h⟩

theorem Plans.dropSidecar_ok (h : Plans files operations false plan) (hside : SidecarRead files path state) :
    ∃ next, dropSidecar files path (state.map .state) plan = .ok next ∧
      Plans files (operations ++ sidecarDrops path state) false next := by
  have hread := hside.read
  unfold dropSidecar sidecarDrops
  cases state with
  | none =>
    rw [if_neg (by simp), if_neg (by simp), List.append_nil]
    exact ⟨plan, rfl, h⟩
  | some found =>
    obtain ⟨next, hremoved, hplans⟩ := h.removeFile_ok hread
    refine ⟨next, ?_, hplans⟩
    simp [hremoved]

theorem Plans.recordUnchanged (h : Plans files operations false plan) (sidecar : Option SettingsContents) :
    Plans files operations false (AgentDesktop.recordUnchanged files path sidecar plan) := by
  unfold AgentDesktop.recordUnchanged
  split
  next => exact h.record_plain _ _ (by simp) _
  next => exact h

variable {loopback : String → Bool} {url : String} {text : Option SettingsText}

theorem Plans.writeSettings_ok (h : Plans files operations false plan)
    (hpath : readOptional files path = .ok (text.map .text)) (host : Host) (edited : SettingsText) :
    ∃ next, writeSettings files host path text edited plan = .ok next ∧
      Plans files (operations ++ currentWrites host files path (text.map .text) (.text edited)) false next := by
  have hsame : text.map SettingsContents.text = some (.text edited) ↔ text = some edited := by
    cases text <;> simp
  unfold writeSettings currentWrites
  by_cases hcurrent : text = some edited ∧ grantsBeyond host files path 0o600 = false
  · rw [if_pos hcurrent, if_neg (by simp [hcurrent]), List.append_nil]
    exact ⟨_, rfl, h.record_plain _ _ (by simp) _⟩
  · have hwrite : text.map SettingsContents.text ≠ some (.text edited) ∨
        grantsBeyond host files path 0o600 = true := by
      rw [ne_eq, hsame, ← Bool.not_eq_false]
      exact not_and_or.mp hcurrent
    have hrecorded := h.recordDiff "VS Code" "settings" (if text.isNone then .create else .update) path none none
    rw [if_neg hcurrent, if_pos hwrite]
    refine Plans.writeFile_ok ?_ hpath (.text edited) 0o600
    have haction : (if text.isNone then Action.create else .update) ≠ .conflict := by split <;> simp
    rw [decide_eq_false haction] at hrecorded
    exact hrecorded

/-- An edit writes the sidecar and then the file, each unless it is current. -/
theorem planSettings_plans (hpath : readOptional files path = .ok (text.map .text))
    (hside : SidecarRead files path state) {edited : SettingsText} {newState : SettingsState}
    (hedit : editSettings loopback text url state = .ok (edited, newState)) (host : Host) :
    ∃ plan, planSettings files loopback host path url {} = .ok plan ∧
      Plans files (currentWrites host files (statePath path) (state.map .state) (.state newState) ++
        currentWrites host files path (text.map .text) (.text edited)) false plan := by
  obtain ⟨first, hfirst, hplans⟩ := (Plans.start files).read_ok hpath
  obtain ⟨second, hsecond, hplans⟩ := hplans.readSidecar_ok hside
  obtain ⟨third, hthird, hplans⟩ := hplans.writeUnlessCurrent_ok hside.read host (.state newState)
  obtain ⟨plan, hplan, hplans⟩ := hplans.writeSettings_ok hpath host edited
  have hplanned : planEdit files loopback host path url text (state.map .state) state second = .ok plan := by
    unfold planEdit
    simp only [hedit, hthird, hplan]
  refine ⟨plan, ?_, hplans⟩
  unfold planSettings
  rw [hfirst]
  dsimp only
  rw [hsecond]
  cases text with
  | none => exact hplanned
  | some text => exact hplanned

theorem removalOf_some {found : SettingsText} {ownUrl : Option String} {removal : Option Removal}
    (h : removalOf loopback state ownUrl (some found) = .ok removal) :
    ∃ outcome, removeSettings loopback found state ownUrl = .ok outcome ∧ removal = some outcome := by
  simp only [removalOf] at h
  cases houtcome : removeSettings loopback found state ownUrl with
  | error conflict =>
    rw [houtcome] at h
    cases h
  | ok outcome =>
    rw [houtcome] at h
    cases h
    exact ⟨outcome, rfl, rfl⟩

/-- A removal changes the file and then removes the sidecar. -/
theorem planSettingsRemoval_plans (hpath : readOptional files path = .ok (text.map .text))
    (hside : SidecarRead files path state) {ownUrl : Option String} {removal : Option Removal}
    (hremoval : removalOf loopback state ownUrl text = .ok removal) (host : Host) :
    ∃ plan, planSettingsRemoval files loopback host path ownUrl {} = .ok plan ∧
      Plans files (removalWrites path ((currentMode host files path).getD 0o600) removal ++ sidecarDrops path state)
        false plan := by
  obtain ⟨first, hfirst, hplans⟩ := (Plans.start files).readSidecar_ok hside
  obtain ⟨second, hsecond, hplans⟩ := hplans.read_ok hpath
  unfold planSettingsRemoval
  rw [hfirst]
  dsimp only
  rw [hsecond]
  cases text with
  | none =>
    cases hremoval
    exact (hplans.recordUnchanged (state.map .state)).dropSidecar_ok hside
  | some found =>
    obtain ⟨outcome, houtcome, rfl⟩ := removalOf_some hremoval
    have hcontents : removeContents loopback (.text found) state ownUrl = .ok outcome := houtcome
    simp only [Option.map_some]
    rw [hcontents]
    cases outcome with
    | unchanged => exact (hplans.recordUnchanged (state.map .state)).dropSidecar_ok hside
    | write written =>
      have hrecorded := hplans.recordDiff "VS Code" "settings" .update path none none
      obtain ⟨third, hthird, hplans⟩ := hrecorded.writeFile_ok hpath (.text written)
        ((currentMode host files path).getD 0o600)
      dsimp only
      rw [hthird]
      exact hplans.dropSidecar_ok hside
    | delete =>
      have hrecorded := hplans.record_plain "VS Code" "settings" (by simp : Action.remove ≠ .conflict) path
      obtain ⟨third, hthird, hplans⟩ := hrecorded.removeFile_ok hpath
      dsimp only
      rw [hthird]
      exact hplans.dropSidecar_ok hside

end

end AgentDesktop
