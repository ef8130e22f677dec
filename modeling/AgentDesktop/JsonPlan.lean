import AgentDesktop.JsonFiles

namespace AgentDesktop

/-- A user file that managed documents are merged into. -/
structure MergeTarget where
  path : Path
  statePath : Path
  description : String
  displayName : String
  options : MergeOptions := {}

/-- The target of a user file with its sidecar next to it. -/
def userTarget (path : Path) (description displayName : String) (options : MergeOptions) : MergeTarget where
  path := path
  statePath := statePath path
  description := description
  displayName := displayName
  options := options

section

variable {β : Type}

/-- The state the sidecar records, if there is one. -/
def readState (codec : Codec β) (files : FileSystem β) (path : Path) (displayName : String)
    (plan : ReconcilePlan β) : Except String (ReconcilePlan β × Option MergeState) :=
  match plan.read files path with
  | .error _ => .error ("read " ++ displayName ++ " merge state from " ++ displayPath path)
  | .ok (plan, none) => .ok (plan, none)
  | .ok (plan, some contents) =>
    match (codec.parse .json contents).bind parseState with
    | some state => .ok (plan, some state)
    | none => .error ("parse " ++ displayName ++ " merge state from " ++ displayPath path ++
        ": not a valid merge state")

/-- The document in the file; an absent or blank file is an empty one, and a file
that does not parse to the managed document's shape is a conflict. -/
def existingDocument (codec : Codec β) (format : JsonFormat) (managed : Json) (existing : Option β) :
    Option Json :=
  match existing with
  | none => some managed.emptyRoot
  | some contents =>
    if codec.blank contents then some managed.emptyRoot
    else
      match codec.parse format contents with
      | some document => if sameShape document.value managed.value then some document else none
      | none => none

/-- A file recorded as changing, with its contents unless they are to be hidden. -/
def recordChange (target : MergeTarget) (action : Action) (before after : Option β) (plan : ReconcilePlan β) :
    ReconcilePlan β :=
  if target.options.redactDiff then plan.recordDiff target.displayName target.description action target.path none none
  else plan.recordDiff target.displayName target.description action target.path before after

variable [DecidableEq β]

/-- What a merge does to the user's file. One that grants more than the planned
mode is rewritten with the same contents. -/
def mergeAction (host : Host) (files : FileSystem β) (target : MergeTarget) (existing : Option β) (contents : β) :
    Action :=
  match existing with
  | some existing =>
    if existing = contents ∧ grantsBeyond host files target.path target.options.mode = false then .unchanged
    else .update
  | none => .create

def writeMerge (files : FileSystem β) (target : MergeTarget) (action : Action) (contents state : β)
    (plan : ReconcilePlan β) : Except String (ReconcilePlan β) :=
  if action = .unchanged then plan.writeFile files target.statePath state 0o600
  else
    match plan.writeFile files target.path contents target.options.mode with
    | .error error => .error error
    | .ok plan => plan.writeFile files target.statePath state 0o600

/-- `plan_merge_with`: the managed document is merged into the user's file, and
the sidecar records the document without it. -/
def planMergeWith (codec : Codec β) (host : Host) (files : FileSystem β) (target : MergeTarget) (managed : Json)
    (legacyOwned : Bool) (plan : ReconcilePlan β) : Except String (ReconcilePlan β) :=
  match plan.read files target.path with
  | .error _ => .error ("read " ++ target.displayName ++ " from " ++ displayPath target.path)
  | .ok (plan, existing) =>
  match readState codec files target.statePath target.displayName plan with
  | .error error => .error error
  | .ok (plan, previous) =>
  let created := existing.isNone || (previous.map MergeState.created).getD legacyOwned
  match existingDocument codec target.options.format managed existing with
  | none => .ok (plan.record files target.displayName target.description .conflict target.path)
  | some combined =>
    let before := Json.user target.options previous legacyOwned managed combined
    let after := Json.merge target.options before managed
    let contents := codec.print after
    let action := mergeAction host files target existing contents
    let plan := recordChange target action existing (some contents) plan
    writeMerge files target action contents (codec.print (stateJson ⟨created, before, after⟩)) plan

/-- Plans the removal of the sidecar, which ends every removal; one that is not
there is no error. -/
def removeState (files : FileSystem β) (target : MergeTarget) (plan : ReconcilePlan β) :
    Except String (ReconcilePlan β × Bool) :=
  match plan.removeFile files target.statePath with
  | .ok (plan, _) => .ok (plan, true)
  | .error _ => .error ("remove " ++ target.displayName ++ " merge state at " ++ displayPath target.statePath)

/-- Plans the removal of the user's file, then of the sidecar. -/
def removeUserFile (files : FileSystem β) (target : MergeTarget) (plan : ReconcilePlan β) :
    Except String (ReconcilePlan β × Bool) :=
  match plan.removeFile files target.path with
  | .ok (plan, true) => removeState files target plan
  | _ => .error ("remove " ++ target.displayName ++ " at " ++ displayPath target.path)

/-- The document in the file if it still has the shape the merge left. -/
def mergedDocument (codec : Codec β) (format : JsonFormat) (state : MergeState) (existing : β) : Option Json :=
  match codec.parse format existing with
  | some document => if sameShape document.value state.after.value then some document else none
  | none => none

/-- The removal from a file that is there. The user's remaining content keeps
the file's current mode. -/
def removeFromFile (codec : Codec β) (host : Host) (files : FileSystem β) (target : MergeTarget)
    (state : MergeState) (existing : β) (plan : ReconcilePlan β) : Except String (ReconcilePlan β × Bool) :=
  if codec.blank existing then
    if state.created then
      removeUserFile files target (plan.record files target.displayName target.description .remove target.path)
    else removeState files target (plan.record files target.displayName target.description .unchanged target.path)
  else
  match mergedDocument codec target.options.format state existing with
  | none => .ok (plan.record files target.displayName target.description .conflict target.path, true)
  | some document =>
    let settings := Json.removed target.options state.before state.after document
    if state.created && settings.isEmpty then
      removeUserFile files target (recordChange target .remove (some existing) none plan)
    else
      let contents := codec.print settings
      if contents = existing then
        removeState files target (recordChange target .unchanged (some existing) (some contents) plan)
      else
        let plan := recordChange target .update (some existing) (some contents) plan
        match plan.writeFile files target.path contents ((currentMode host files target.path).getD 0o644) with
        | .error error => .error error
        | .ok plan => removeState files target plan

/-- `plan_remove_with`: takes the last merge out of the user's file. The result
also says whether there was a merge to take out. -/
def planRemoveWith (codec : Codec β) (host : Host) (files : FileSystem β) (target : MergeTarget)
    (plan : ReconcilePlan β) : Except String (ReconcilePlan β × Bool) :=
  match readState codec files target.statePath target.displayName plan with
  | .error error => .error error
  | .ok (plan, none) => .ok (plan, false)
  | .ok (plan, some state) =>
  match plan.read files target.path with
  | .error _ => .error ("read " ++ target.displayName ++ " from " ++ displayPath target.path)
  | .ok (plan, none) =>
    removeState files target (plan.record files target.displayName target.description .unchanged target.path)
  | .ok (plan, some existing) => removeFromFile codec host files target state existing plan

end

end AgentDesktop
