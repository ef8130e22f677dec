import AgentDesktop.Transitions

namespace AgentDesktop

inductive ProgramChoice where
  | all
  | none
  | selected (programs : List String)
  deriving DecidableEq

def managedPrograms : List String :=
  ["claude-code", "claude-desktop", "codex", "opencode", "grok", "copilot", "vscode", "pi"]

/-- Refuses a selection naming a program no configuration can manage. -/
def ProgramChoice.validate : ProgramChoice → Bool
  | .selected programs => programs.all managedPrograms.contains
  | _ => true

/-- The configuration an apply may use. The version counts the parsed pushes before
it; the daemon does not keep it. -/
structure ConfigVersion (Config : Type) where
  version : Nat
  config : Config

/-- What takes the apply lock: a push with the configuration it parsed, a tick, or a
change of the program choice. -/
inductive Applier (Config : Type) where
  | push (config : ConfigVersion Config)
  | tick
  | change

/-- An apply. `lockedOut` and `readOut` say whether the daemon was logged out, with no
parsed push since, when the apply took the lock and when it read the configuration. -/
structure LockedApply (Config : Type) where
  config : ConfigVersion Config
  choice : ProgramChoice
  sequence : Nat
  lockedOut : Bool := false
  readOut : Bool := false

/-- Where an operation is. A change waits for its turn, checks whether the policy
allows it, saves the choice and sets it; then it applies like a tick. -/
inductive Operation (Config : Type) where
  | requested (choice : ProgramChoice)
  | checking (choice : ProgramChoice)
  | saving (choice : ProgramChoice)
  | choosing (choice : ProgramChoice)
  | waiting (applier : Applier Config)
  | locked (applier : Applier Config) (lockedOut : Bool)
  | planning (applier : Applier Config) (config : ConfigVersion Config) (lockedOut readOut : Bool)
  | applying (applier : Applier Config) (config : ConfigVersion Config) (choice : ProgramChoice)
      (lockedOut readOut : Bool)
  | publishing (applier : Applier Config) (outcome : LockedApply Config)

/-- The configuration, the program choice and the apply lock, with the operations on
them. `applies` are the applies in the order of the lock, and `statuses` the
outcomes the status channel held, the last one being the one it holds. -/
structure Appliers (Config : Type) where
  current : Option (ConfigVersion Config)
  choice : ProgramChoice
  locked : Bool := false
  changing : Bool := false
  operations : List (Operation Config) := []
  sequence : Nat := 0
  applies : List (LockedApply Config) := []
  statuses : List (LockedApply Config) := []
  pushes : Nat := 0
  loggedOut : Bool := false

/-- `advance` takes one step of an operation; `saved` says whether a save of the
choice succeeds. -/
inductive AppliersAction (Config : Type) where
  | push (config : Config)
  | logout
  | tick
  | change (choice : ProgramChoice)
  | advance (index : Nat) (saved : Bool)

variable {Config : Type}

/-- The configuration an applier reads under the lock. -/
def Applier.read (applier : Applier Config) (current : Option (ConfigVersion Config)) :
    Option (ConfigVersion Config) :=
  match applier with
  | .push config => some config
  | .tick => current
  | .change => current

def Applier.isChange : Applier Config → Bool
  | .change => true
  | _ => false

/-- The push an operation is, if it is one. -/
def Applier.pushed : Applier Config → Option (ConfigVersion Config)
  | .push config => some config
  | _ => none

def Operation.pushed : Operation Config → Option (ConfigVersion Config)
  | .waiting applier => applier.pushed
  | .locked applier _ => applier.pushed
  | .planning applier _ _ _ => applier.pushed
  | .applying applier _ _ _ _ => applier.pushed
  | _ => none

namespace Appliers

/-- A push in progress: the connection loop handles one at a time, and no logout
while it does. -/
def pushing (s : Appliers Config) : Bool :=
  s.operations.any fun operation => operation.pushed.isSome

/-- Makes a parsed configuration the current one. -/
def push (config : Config) (s : Appliers Config) : Option (Appliers Config) :=
  if s.pushing then none
  else
    let pushed : ConfigVersion Config := ⟨s.pushes + 1, config⟩
    some { s with
      current := some pushed
      pushes := s.pushes + 1
      loggedOut := false
      operations := s.operations ++ [.waiting (.push pushed)] }

def logout (s : Appliers Config) : Option (Appliers Config) :=
  if s.pushing then none else some { s with current := none, loggedOut := true }

/-- A tick does nothing while there is no current configuration. -/
def tick (s : Appliers Config) : Option (Appliers Config) :=
  if s.current.isNone then some s else some { s with operations := s.operations ++ [.waiting .tick] }

def change (choice : ProgramChoice) (s : Appliers Config) : Option (Appliers Config) :=
  if choice.validate then some { s with operations := s.operations ++ [.requested choice] } else some s

/-- A change that ends lets the next one in. -/
def release (applier : Applier Config) (s : Appliers Config) : Appliers Config :=
  if applier.isChange then { s with changing := false } else s

def publish (outcome : LockedApply Config) (s : Appliers Config) : Appliers Config :=
  if s.statuses.getLast?.any fun current => decide (current.sequence > outcome.sequence) then s
  else { s with statuses := s.statuses ++ [outcome] }

/-- One step of an operation, and what is left of it. -/
def advance (allowUserChoice : Config → Bool) (saved : Bool) (s : Appliers Config) :
    Operation Config → Option (Appliers Config × Option (Operation Config))
  | .requested choice => if s.changing then none else some ({ s with changing := true }, some (.checking choice))
  | .checking choice =>
    match s.current with
    | none => some (s.release .change, none)
    | some current =>
      if allowUserChoice current.config then some (s, some (.saving choice)) else some (s.release .change, none)
  | .saving choice => if saved then some (s, some (.choosing choice)) else some (s.release .change, none)
  | .choosing choice => some ({ s with choice }, some (.waiting .change))
  | .waiting applier =>
    if s.locked then none else some ({ s with locked := true }, some (.locked applier s.loggedOut))
  | .locked applier lockedOut =>
    match applier.read s.current with
    | none => some ({ s with locked := false }.release applier, none)
    | some config => some (s, some (.planning applier config lockedOut s.loggedOut))
  | .planning applier config lockedOut readOut =>
    some (s, some (.applying applier config s.choice lockedOut readOut))
  | .applying applier config choice lockedOut readOut =>
    let outcome : LockedApply Config := ⟨config, choice, s.sequence + 1, lockedOut, readOut⟩
    some ({ s with locked := false, sequence := s.sequence + 1, applies := s.applies ++ [outcome] },
      if applier.pushed.isSome then none else some (.publishing applier outcome))
  | .publishing applier outcome => some ((s.publish outcome).release applier, none)

def step (allowUserChoice : Config → Bool) (s : Appliers Config) : AppliersAction Config → Option (Appliers Config)
  | .push config => s.push config
  | .logout => s.logout
  | .tick => s.tick
  | .change choice => s.change choice
  | .advance index saved =>
    match s.operations[index]? with
    | none => none
    | some operation =>
      match s.advance allowUserChoice saved operation with
      | none => none
      | some (next, rest) =>
        some { next with operations := s.operations.take index ++ (rest.toList ++ s.operations.drop (index + 1)) }

/-- The daemon after its startup, which applied the configuration it had, if any. -/
def started (current : Option Config) (choice : ProgramChoice) : Appliers Config :=
  match current with
  | none => { current := none, choice }
  | some config =>
    { current := some ⟨0, config⟩, choice, sequence := 1, applies := [⟨⟨0, config⟩, choice, 1, false, false⟩] }

end Appliers

end AgentDesktop
