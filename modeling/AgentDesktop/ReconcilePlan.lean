import AgentDesktop.SortedMap
import Mathlib.Data.List.Lex

namespace AgentDesktop

/-- A path by its components. -/
abbrev Path := List String

def displayPath (path : Path) : String :=
  "/".intercalate path

/-- What a path holds: nothing, a readable file, or something that cannot be
read as a file. -/
inductive Entry (β : Type) where
  | absent
  | file (contents : β) (mode : UInt32)
  | unreadable

def Entry.contents {β : Type} : Entry β → Option β
  | .file contents _ => some contents
  | _ => none

abbrev FileSystem (β : Type) := Path → Entry β

/-- `read_optional`: an absent file reads as nothing, and anything else that is
not a readable file is an error. -/
def readOptional {β : Type} (files : FileSystem β) (path : Path) : Except Unit (Option β) :=
  match files path with
  | .absent => .ok none
  | .file contents _ => .ok (some contents)
  | .unreadable => .error ()

/-- The platform facts the file operations depend on. -/
structure Host where
  unix : Bool := true
  umask : UInt32 := 0o022

/-- The file grants a permission bit outside `mode`. -/
def grantsBeyond {β : Type} (host : Host) (files : FileSystem β) (path : Path) (mode : UInt32) : Bool :=
  match files path with
  | .file _ current => host.unix && decide (current &&& ~~~mode &&& 0o777 ≠ 0)
  | _ => false

/-- The mode bits of an existing file, on platforms that have them. -/
def currentMode {β : Type} (host : Host) (files : FileSystem β) (path : Path) : Option UInt32 :=
  match files path with
  | .file _ current => if host.unix then some (current &&& 0o777) else none
  | _ => none

inductive RegistryRoot where
  | localMachine
  | currentUser
  deriving DecidableEq

structure RegistryKey where
  root : RegistryRoot
  path : String
  deriving DecidableEq

/-- The key as plans and logs display it, by path components. -/
def RegistryKey.displayPath (key : RegistryKey) : Path :=
  (match key.root with
  | .localMachine => "HKLM"
  | .currentUser => "HKCU") ::
    ((key.path.toList.splitOnP fun c => c == '\\' || c == '/').filter fun part =>
      decide (part ≠ [] ∧ part ≠ ['.'])).map String.ofList

/-- The string values under a key; `none` is a value of any other type. -/
abbrev RegistryValues := BTreeMap String (Option String)

structure RegistryKeyPlan where
  key : RegistryKey
  observed : RegistryValues
  changes : List (String × Option String)
  deleteKeyWhenEmpty : Bool

structure FileChange (β : Type) where
  path : Path
  contents : Option β
  permissions : UInt32

/-- What a planner records about a file in the dry-run report. -/
inductive Action where
  | create
  | update
  | remove
  | unchanged
  | conflict
  deriving DecidableEq

structure DryRunChange (β : Type) where
  displayName : String
  description : String
  action : Action
  path : Path
  before : Option β
  after : Option β

/-- A snapshot of proposed file and registry changes. -/
structure ReconcilePlan (β : Type) where
  observed : BTreeMap Path (Option β) := .empty
  operations : List (FileChange β) := []
  registry : List RegistryKeyPlan := []
  privateDirs : List Path := []
  changes : List (DryRunChange β) := []
  reportInactive : List String := []
  inactive : Option String := none

namespace ReconcilePlan

variable {β : Type}

def hasConflicts (plan : ReconcilePlan β) : Bool :=
  plan.changes.any fun change => decide (change.action = .conflict)

/-- Reads through the plan's snapshot, so that every decision and the apply see
the same contents. `none` is a file that does not exist. -/
def read (files : FileSystem β) (path : Path) (plan : ReconcilePlan β) :
    Except Unit (ReconcilePlan β × Option β) :=
  match plan.observed.get? path with
  | some contents => .ok (plan, contents)
  | none =>
    match readOptional files path with
    | .ok contents => .ok ({ plan with observed := plan.observed.insert path contents }, contents)
    | .error e => .error e

def writeFile (files : FileSystem β) (path : Path) (contents : β) (permissions : UInt32)
    (plan : ReconcilePlan β) : Except String (ReconcilePlan β) :=
  match plan.read files path with
  | .ok (plan, _) => .ok { plan with operations := plan.operations ++ [⟨path, some contents, permissions⟩] }
  | .error _ => .error ("read " ++ displayPath path ++ " before planning write")

/-- Plans the removal of a file, and says whether there is one to remove. -/
def removeFile (files : FileSystem β) (path : Path) (plan : ReconcilePlan β) :
    Except Unit (ReconcilePlan β × Bool) :=
  match plan.read files path with
  | .ok (plan, some _) => .ok ({ plan with operations := plan.operations ++ [⟨path, none, 0⟩] }, true)
  | .ok (plan, none) => .ok (plan, false)
  | .error e => .error e

def recordDiff (displayName description : String) (action : Action) (path : Path) (before after : Option β)
    (plan : ReconcilePlan β) : ReconcilePlan β :=
  { plan with changes := plan.changes ++ [⟨displayName, description, action, path, before, after⟩] }

/-- Like `recordDiff`; a removal is shown with the contents it removes, so those are read. -/
def record (files : FileSystem β) (displayName description : String) (action : Action) (path : Path)
    (plan : ReconcilePlan β) : ReconcilePlan β :=
  match action, plan.read files path with
  | .remove, .ok (plan, before) => plan.recordDiff displayName description action path before none
  | _, _ => plan.recordDiff displayName description action path none none

end ReconcilePlan

end AgentDesktop
