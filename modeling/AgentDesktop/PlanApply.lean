import AgentDesktop.ReconcilePlan

namespace AgentDesktop

/-- One thing an apply did, for reasoning about how far it got: a private
directory created, or the file operation or key plan at an index carried out. -/
inductive Performed where
  | dir (path : Path)
  | operation (index : Nat)
  | key (index : Nat)
  deriving DecidableEq

/-- The device as an apply sees it, with the record of what the apply did. -/
structure World (β : Type) where
  files : FileSystem β
  registry : RegistryKey → RegistryValues
  log : List Performed := []

/-- What the environment decides during an apply: which steps fail and with
which error text. A key plan may fail after some of its changes. -/
structure ApplyEnv (β : Type) where
  host : Host := {}
  dirExists : Path → Bool := fun _ => false
  dirFails : Path → Option String := fun _ => none
  operationFails : Nat → FileChange β → FileSystem β → Option String := fun _ _ _ => none
  keyUnreadable : RegistryKey → Option String := fun _ => none
  keyFails : Nat → Option (Nat × String) := fun _ => none

/-- Where an apply stopped. -/
inductive ApplyStop where
  | conflict
  | observed (path : Path)
  | privateDir (path : Path)
  | operation (index : Nat)
  | registry (index : Nat) (path : Path)
  deriving DecidableEq

section

variable {β : Type} [DecidableEq β]

def FileSystem.set (files : FileSystem β) (path : Path) (entry : Entry β) : FileSystem β :=
  fun other => if other = path then entry else files other

/-- A planned write would change nothing: the file holds the planned bytes, as
observed, and grants nothing beyond the planned mode. -/
def alreadyInPlace (host : Host) (files : FileSystem β) (observed : BTreeMap Path (Option β))
    (change : FileChange β) : Bool :=
  match change.contents with
  | none => false
  | some contents =>
    decide (observed.get? change.path = some (some contents)) &&
      (match files change.path with
      | .absent => false
      | _ => true) &&
      !grantsBeyond host files change.path change.permissions

/-- The file operation itself: an atomic write at the planned mode, or a removal. -/
def FileChange.perform (host : Host) (change : FileChange β) (files : FileSystem β) : FileSystem β :=
  FileSystem.set files change.path
    (match change.contents with
    | some contents => .file contents (change.permissions &&& ~~~host.umask)
    | none => .absent)

def sameName (a b : String) : Bool :=
  a.toList.map Char.toLower == b.toList.map Char.toLower

/-- Writes or deletes one value of a key; names are matched without case. -/
def setRegistryValue (values : RegistryValues) (change : String × Option String) : RegistryValues :=
  let stored := (values.entries.map Prod.fst).find? fun name => sameName name change.1
  match change.2 with
  | some data => values.insert (stored.getD change.1) (some data)
  | none =>
    match stored with
    | some name => ⟨SortedMap.erase name values.entries, SortedMap.erase_sorted values.sorted⟩
    | none => values

def applyKeyChanges (values : RegistryValues) (changes : List (String × Option String)) : RegistryValues :=
  changes.foldl setRegistryValue values

def setRegistryKey (registry : RegistryKey → RegistryValues) (key : RegistryKey) (values : RegistryValues) :
    RegistryKey → RegistryValues :=
  fun other => if other = key then values else registry other

/-- The first observed file that no longer holds what was observed. -/
def findChanged (files : FileSystem β) : List (Path × Option β) → Option (Path × String)
  | [] => none
  | (path, expected) :: rest =>
    match readOptional files path with
    | .error _ => some (path, "validate " ++ displayPath path ++ " before applying plan")
    | .ok current =>
      if current = expected then findChanged files rest
      else some (path, displayPath path ++ " changed since reconciliation was planned; retry reconciliation")

/-- The first planned key that no longer holds what was observed. -/
def findChangedKey (env : ApplyEnv β) (registry : RegistryKey → RegistryValues) :
    List RegistryKeyPlan → Option (Path × String)
  | [] => none
  | keyPlan :: rest =>
    let display := keyPlan.key.displayPath
    match env.keyUnreadable keyPlan.key with
    | some cause => some (display, "validate " ++ displayPath display ++ " before applying plan: " ++ cause)
    | none =>
      if registry keyPlan.key = keyPlan.observed then findChangedKey env registry rest
      else some (display, displayPath display ++ " changed since reconciliation was planned; retry reconciliation")

def createDirs (env : ApplyEnv β) : List Path → World β → World β × Option (Path × String)
  | [], world => (world, none)
  | dir :: rest, world =>
    if env.dirExists dir then createDirs env rest world
    else
      match env.dirFails dir with
      | some cause => (world, some (dir, cause))
      | none => createDirs env rest { world with log := world.log ++ [.dir dir] }

/-- The loop over the file operations, from `index` on. -/
def runOperations (env : ApplyEnv β) (observed : BTreeMap Path (Option β)) :
    Nat → List (FileChange β) → World β → World β × Option (Nat × String)
  | _, [], world => (world, none)
  | index, change :: rest, world =>
    if alreadyInPlace env.host world.files observed change then runOperations env observed (index + 1) rest world
    else
      match env.operationFails index change world.files with
      | some cause => (world, some (index, cause))
      | none => runOperations env observed (index + 1) rest
          { world with files := change.perform env.host world.files, log := world.log ++ [.operation index] }

def World.setKey (world : World β) (keyPlan : RegistryKeyPlan) (changes : List (String × Option String)) :
    World β :=
  let values := applyKeyChanges (world.registry keyPlan.key) changes
  { world with registry := setRegistryKey world.registry keyPlan.key values }

/-- The loop over the key plans, from `index` on. -/
def runKeys (env : ApplyEnv β) : Nat → List RegistryKeyPlan → World β → World β × Option (Nat × Path × String)
  | _, [], world => (world, none)
  | index, keyPlan :: rest, world =>
    match env.keyFails index with
    | some (written, cause) =>
      (world.setKey keyPlan (keyPlan.changes.take written), some (index, keyPlan.key.displayPath, cause))
    | none =>
      let changed := world.setKey keyPlan keyPlan.changes
      runKeys env (index + 1) rest { changed with log := changed.log ++ [.key index] }

def conflictError (change : DryRunChange β) : String :=
  "refusing to change " ++ change.displayName ++ " " ++ change.description ++ " at " ++
    displayPath change.path ++ ": conflicting or invalid existing configuration"

/-- Applies the plan and says where it stopped. -/
def applyTracked (env : ApplyEnv β) (plan : ReconcilePlan β) (world : World β) :
    World β × Except (String × ApplyStop) Unit :=
  match plan.changes.find? fun change => decide (change.action = .conflict) with
  | some change => (world, .error (conflictError change, .conflict))
  | none =>
  match findChanged world.files plan.observed.entries with
  | some (path, error) => (world, .error (error, .observed path))
  | none =>
  match findChangedKey env world.registry plan.registry with
  | some (path, error) => (world, .error (error, .observed path))
  | none =>
  match createDirs env plan.privateDirs world with
  | (world, some (dir, error)) => (world, .error (error, .privateDir dir))
  | (world, none) =>
  match runOperations env plan.observed 0 plan.operations world with
  | (world, some (index, error)) => (world, .error (error, .operation index))
  | (world, none) =>
  match runKeys env 0 plan.registry world with
  | (world, some (index, path, error)) => (world, .error (error, .registry index path))
  | (world, none) => (world, .ok ())

/-- `ReconcilePlan::apply`: the apply without where it stopped. -/
def ReconcilePlan.apply (env : ApplyEnv β) (plan : ReconcilePlan β) (world : World β) :
    World β × Except String Unit :=
  let applied := applyTracked env plan world
  (applied.1, applied.2.mapError Prod.fst)

end

end AgentDesktop
