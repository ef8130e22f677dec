import AgentDesktop.JsonApplied
import AgentDesktop.VsCodeSettings

namespace AgentDesktop

/-- What the settings file and its sidecar hold, up to layout: the text of a settings file, a
sidecar, the whole-document sidecar of earlier versions, or anything else. -/
inductive SettingsContents where
  | text (text : SettingsText)
  | state (state : SettingsState)
  | merged (created : Bool) (before : Value)
  | other
  deriving DecidableEq

/-- Reads a sidecar, upgrading the earlier form. -/
def readSettingsState : SettingsContents → Option SettingsState
  | .state state => if state.version = settingsStateVersion then some state else none
  | .merged created before =>
    let beforeIgnored := before.get ignoredSettingsKey
    let held entry := ((beforeIgnored.bind Value.asArray).getD []).contains (Value.string entry)
    some
      { version := settingsStateVersion
        created := created
        overrideBefore := before.get overrideKey
        addedIgnored := managedEntries.filter fun entry => !held entry
        ignoredCreated := beforeIgnored.isNone }
  | _ => none

section

variable (files : FileSystem SettingsContents)

def readSidecar (statePath : Path) (plan : ReconcilePlan SettingsContents) :
    Except String (ReconcilePlan SettingsContents × Option SettingsContents × Option SettingsState) :=
  match plan.read files statePath with
  | .error _ => .error ("read " ++ displayPath statePath)
  | .ok (plan, none) => .ok (plan, none, none)
  | .ok (plan, some contents) =>
    match readSettingsState contents with
    | some state => .ok (plan, some contents, some state)
    | none =>
      .error ("parse VS Code settings state from " ++ displayPath statePath ++ ": not a valid settings state; " ++
        "fix it, or delete it (the override's earlier value is then not restored)")

def settingsConflict (path : Path) (plan : ReconcilePlan SettingsContents) : ReconcilePlan SettingsContents :=
  plan.record files "VS Code" "settings" .conflict path

/-- Writes a file unless it has those contents and grants no more than its mode. -/
def writeUnlessCurrent (host : Host) (path : Path) (current : Option SettingsContents) (contents : SettingsContents)
    (plan : ReconcilePlan SettingsContents) : Except String (ReconcilePlan SettingsContents) :=
  if current ≠ some contents ∨ grantsBeyond host files path 0o600 = true then
    plan.writeFile files path contents 0o600
  else .ok plan

variable (loopback : String → Bool) (host : Host)

/-- An unchanged file is not rewritten unless its mode grants more than it should. -/
def writeSettings (path : Path) (text : Option SettingsText) (edited : SettingsText)
    (plan : ReconcilePlan SettingsContents) : Except String (ReconcilePlan SettingsContents) :=
  if text = some edited ∧ grantsBeyond host files path 0o600 = false then
    .ok (plan.record files "VS Code" "settings" .unchanged path)
  else
    let action := if text.isNone then .create else .update
    (plan.recordDiff "VS Code" "settings" action path none none).writeFile files path (.text edited) 0o600

/-- Writes the sidecar and then the file. -/
def planEdit (path : Path) (url : String) (text : Option SettingsText) (sidecar : Option SettingsContents)
    (state : Option SettingsState) (plan : ReconcilePlan SettingsContents) :
    Except String (ReconcilePlan SettingsContents) :=
  match editSettings loopback text url state with
  | .error _ => .ok (settingsConflict files path plan)
  | .ok (edited, newState) =>
    match writeUnlessCurrent files host (statePath path) sidecar (.state newState) plan with
    | .error error => .error error
    | .ok plan => writeSettings files host path text edited plan

/-- What `plan` does once the override URL is known. -/
def planSettings (path : Path) (url : String) (plan : ReconcilePlan SettingsContents) :
    Except String (ReconcilePlan SettingsContents) :=
  match plan.read files path with
  | .error _ => .error ("read " ++ displayPath path)
  | .ok (plan, existing) =>
  match readSidecar files (statePath path) plan with
  | .error error => .error error
  | .ok (plan, sidecar, state) =>
  match existing with
  | none => planEdit files loopback host path url none sidecar state plan
  | some (.text text) => planEdit files loopback host path url (some text) sidecar state plan
  | some _ => .ok (settingsConflict files path plan)

/-- Removes the sidecar, if there is one. -/
def dropSidecar (path : Path) (sidecar : Option SettingsContents) (plan : ReconcilePlan SettingsContents) :
    Except String (ReconcilePlan SettingsContents) :=
  if sidecar.isSome then
    match plan.removeFile files (statePath path) with
    | .ok (plan, _) => .ok plan
    | .error _ => .error ("remove " ++ displayPath (statePath path))
  else .ok plan

def recordUnchanged (path : Path) (sidecar : Option SettingsContents) (plan : ReconcilePlan SettingsContents) :
    ReconcilePlan SettingsContents :=
  if sidecar.isSome then plan.record files "VS Code" "settings" .unchanged path else plan

/-- Contents that are not a settings file are kept, and are a conflict for a recorded file. -/
def removeContents (existing : SettingsContents) (state : Option SettingsState) (ownUrl : Option String) :
    Except SettingsConflict Removal :=
  match existing with
  | .text text => removeSettings loopback text state ownUrl
  | _ => if state.isSome then .error .parse else .ok .unchanged

/-- Takes the managed parts out of the file, and then the sidecar away. -/
def planSettingsRemoval (path : Path) (ownUrl : Option String) (plan : ReconcilePlan SettingsContents) :
    Except String (ReconcilePlan SettingsContents) :=
  match readSidecar files (statePath path) plan with
  | .error error => .error error
  | .ok (plan, sidecar, state) =>
  match plan.read files path with
  | .error _ => if state.isNone then .ok plan else .error ("read " ++ displayPath path)
  | .ok (plan, none) => dropSidecar files path sidecar (recordUnchanged files path sidecar plan)
  | .ok (plan, some existing) =>
  match removeContents loopback existing state ownUrl with
  | .error _ => .ok (settingsConflict files path plan)
  | .ok .unchanged => dropSidecar files path sidecar (recordUnchanged files path sidecar plan)
  | .ok (.write text) =>
    let plan := plan.recordDiff "VS Code" "settings" .update path none none
    let mode := (currentMode host files path).getD 0o600
    match plan.writeFile files path (.text text) mode with
    | .error error => .error error
    | .ok plan => dropSidecar files path sidecar plan
  | .ok .delete =>
    let plan := plan.record files "VS Code" "settings" .remove path
    match plan.removeFile files path with
    | .error _ => .error ("remove " ++ displayPath path)
    | .ok (plan, _) => dropSidecar files path sidecar plan

end

end AgentDesktop
