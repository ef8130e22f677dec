import AgentDesktop.PlanAppend
import Mathlib.Data.ENat.Basic

namespace AgentDesktop

/-- What one provider's plan contains, taken before it is appended. -/
structure PlanSummary where
  changes : Bool
  conflicts : List String
  inactive : Option String
  paths : List Path

inductive ProgramState where
  | applied
  | unchanged
  | removed
  | conflict
  | inactive
  | blocked
  | optedOut
  | failed
  deriving DecidableEq

structure ProgramOutcome where
  program : String
  state : ProgramState
  detail : String

structure ApplyReport where
  programs : List ProgramOutcome
  sequence : Nat

/-- The indices from `start` up to, but not including, `stop`. -/
structure IndexRange where
  start : Nat
  stop : Nat

def IndexRange.contains (range : IndexRange) (index : Nat) : Bool :=
  decide (range.start ≤ index) && decide (index < range.stop)

theorem IndexRange.contains_iff {range : IndexRange} {index : Nat} :
    range.contains index = true ↔ range.start ≤ index ∧ index < range.stop := by
  simp [IndexRange.contains]

structure ProgramEntry where
  program : String
  configured : Bool
  optedOut : Bool
  failed : Option String := none
  changes : Bool := false
  conflicts : List String := []
  inactive : Option String := none
  paths : List Path := []
  operations : IndexRange := ⟨0, 0⟩
  registryOperations : IndexRange := ⟨0, 0⟩

/-- A plan with each program's part identified. -/
structure AttributedPlan (β : Type) where
  plan : ReconcilePlan β := {}
  entries : List ProgramEntry := []
  firstError : Option String := none

/-- How an attributed apply ended; `⊤` is a count past every index. -/
inductive Stop where
  | completed
  | beforeWrites
  | failed (owners : List String) (detail : String) (writtenFiles : ENat) (writtenRegistry : Nat)

/-- What planning gave for each provider: the program's name with its plan or
the planning error. -/
abbrev PlanResults (β : Type) := List (String × Except String (ReconcilePlan β))

def detailLimit : Nat := 1024

/-- The longest run of leading characters that fits in `room` bytes. -/
def fittingChars : Nat → List Char → List Char
  | _, [] => []
  | room, c :: rest => if c.utf8Size ≤ room then c :: fittingChars (room - c.utf8Size) rest else []

def truncateDetail (detail : String) : String :=
  if detail.utf8ByteSize > detailLimit then String.ofList (fittingChars detailLimit detail.toList) else detail

def outcome (program : String) (state : ProgramState) (detail : String) : ProgramOutcome :=
  ⟨program, state, truncateDetail detail⟩

/-- The outcome of a program whose own part did not fail or conflict. -/
def ProgramEntry.settled (entry : ProgramEntry) (written : Bool) (blockedBy : String) :
    Option (ProgramState × String) :=
  if entry.changes && !written then some (.blocked, "not applied: " ++ blockedBy)
  else
    match entry.inactive with
    | some reason => some (.inactive, reason)
    | none =>
      if entry.optedOut then some (.optedOut, "")
      else
        match entry.changes, entry.configured with
        | true, true => some (.applied, "")
        | true, false => some (.removed, "")
        | false, true => some (.unchanged, "")
        | false, false => none

/-- The programs responsible for where an apply stopped. -/
def ownersOf (entries : List ProgramEntry) (stopped : ApplyStop) : List String :=
  (entries.filter fun entry =>
    match stopped with
    | .conflict => false
    | .observed path => decide (path ∈ entry.paths)
    | .registry _ path => decide (path ∈ entry.paths)
    | .privateDir dir => entry.paths.any fun path => decide (dir <+: path)
    | .operation index => entry.operations.contains index).map ProgramEntry.program

/-- How many file operations and key plans came before where an apply stopped. -/
def writtenBefore (stopped : ApplyStop) : ENat × Nat :=
  match stopped with
  | .operation index => ((index : Nat), 0)
  | .registry index _ => (⊤, index)
  | _ => ((0 : Nat), 0)

def Stop.failedDuring (stop : Stop) (program : String) : Bool :=
  match stop with
  | .failed owners _ _ _ => decide (program ∈ owners)
  | _ => false

/-- The first program, in registration order, that stopped the apply. -/
def blockedBy (entries : List ProgramEntry) (stop : Stop) : String :=
  (entries.findSome? fun entry =>
    if entry.failed.isSome || stop.failedDuring entry.program then some (entry.program ++ " failed")
    else if !entry.conflicts.isEmpty then some (entry.program ++ " conflicted")
    else none).getD ""

/-- Whether the changes of a program all reached the disk. -/
def ProgramEntry.written (entry : ProgramEntry) (stop : Stop) : Bool :=
  match stop with
  | .completed => true
  | .beforeWrites => false
  | .failed _ _ writtenFiles writtenRegistry =>
    decide ((entry.operations.stop : ENat) ≤ writtenFiles) &&
      decide (entry.registryOperations.stop ≤ writtenRegistry)

/-- One program's part of the report. -/
def programOutcome (entries : List ProgramEntry) (stop : Stop) (entry : ProgramEntry) : Option ProgramOutcome :=
  match entry.failed with
  | some detail => some (outcome entry.program .failed detail)
  | none =>
    match stop, stop.failedDuring entry.program with
    | .failed _ detail _ _, true => some (outcome entry.program .failed detail)
    | _, _ =>
      if !entry.conflicts.isEmpty then
        some (outcome entry.program .conflict ("; ".intercalate entry.conflicts))
      else
        (entry.settled (entry.written stop) (blockedBy entries stop)).map fun settled =>
          outcome entry.program settled.1 settled.2

section

variable {β : Type} [DecidableEq β]

def ReconcilePlan.summary (plan : ReconcilePlan β) : PlanSummary :=
  let differs := plan.operations.any fun change =>
    decide (plan.observed.get? change.path ≠ some change.contents)
  let recorded := plan.changes.any fun change =>
    decide (change.action = .create ∨ change.action = .update ∨ change.action = .remove)
  let conflicts := (plan.changes.filter fun change => decide (change.action = .conflict)).map fun change =>
    change.description ++ " at " ++ displayPath change.path ++ ": conflicting or invalid existing configuration"
  let paths := plan.operations.foldl
    (fun paths change => if change.path ∈ paths then paths else paths ++ [change.path])
    (plan.observed.entries.map Prod.fst)
  { changes := differs || recorded || !plan.registry.isEmpty
    conflicts := conflicts
    inactive := plan.inactive
    paths := paths ++ plan.registry.map fun keyPlan => keyPlan.key.displayPath }

def markFailed (path : Path) (error : String) (entry : ProgramEntry) : ProgramEntry :=
  if path ∈ entry.paths then { entry with failed := some (entry.failed.getD error) } else entry

/-- One provider's turn in `plan_with_report`. -/
def AttributedPlan.addProvider (configured optedOut : List String) (attributed : AttributedPlan β)
    (planned : String × Except String (ReconcilePlan β)) : AttributedPlan β :=
  let entry : ProgramEntry :=
    { program := planned.1
      configured := decide (planned.1 ∈ configured)
      optedOut := decide (planned.1 ∈ optedOut) }
  match planned.2 with
  | .error error =>
    { attributed with
      entries := attributed.entries ++ [{ entry with failed := some error }]
      firstError := some (attributed.firstError.getD error) }
  | .ok own =>
    let summary := own.summary
    let appended := own.appendAttributed attributed.plan
    let entry : ProgramEntry :=
      { entry with
        changes := summary.changes
        conflicts := summary.conflicts
        inactive := summary.inactive
        paths := summary.paths
        operations := ⟨attributed.plan.operations.length, appended.1.operations.length⟩
        registryOperations := ⟨attributed.plan.registry.length, appended.1.registry.length⟩ }
    match appended.2 with
    | none => { attributed with plan := appended.1, entries := attributed.entries ++ [entry] }
    | some (error, path) =>
      { plan := appended.1
        entries := attributed.entries.map (markFailed path error) ++ [{ entry with failed := some error }]
        firstError := some (attributed.firstError.getD error) }

/-- Plans every provider; one whose plan fails is recorded as failed and the
others are still planned. -/
def planWithReport (configured optedOut : List String) (results : PlanResults β) : AttributedPlan β :=
  results.foldl (AttributedPlan.addProvider configured optedOut) {}

/-- The writes of an attributed apply, and how they ended. -/
def AttributedPlan.execute (env : ApplyEnv β) (attributed : AttributedPlan β) (world : World β) :
    World β × Except String Unit × Stop :=
  match attributed.firstError with
  | some error => (world, .error error, .beforeWrites)
  | none =>
    if attributed.entries.any fun entry => !entry.conflicts.isEmpty then
      let applied := attributed.plan.apply env world
      (applied.1, applied.2, .beforeWrites)
    else
      match applyTracked env attributed.plan world with
      | (world, .ok _) => (world, .ok (), .completed)
      | (world, .error (error, stopped)) =>
        let written := writtenBefore stopped
        (world, .error error, .failed (ownersOf attributed.entries stopped) error written.1 written.2)

/-- Applies a plan all or nothing and reports each program's outcome. -/
def AttributedPlan.apply (env : ApplyEnv β) (attributed : AttributedPlan β) (world : World β) :
    World β × ApplyReport × Except String Unit :=
  let executed := attributed.execute env world
  (executed.1, ⟨attributed.entries.filterMap (programOutcome attributed.entries executed.2.2), 0⟩, executed.2.1)

/-- `plan_with_report` followed by `AttributedPlan::apply`. -/
def deviceApply (env : ApplyEnv β) (configured optedOut : List String) (results : PlanResults β)
    (world : World β) : World β × ApplyReport × Except String Unit :=
  (planWithReport configured optedOut results).apply env world

end

end AgentDesktop
