import AgentDesktop.ConfigPush
import AgentDesktop.Transitions

namespace AgentDesktop

/-- The outcome of a re-apply of the current configuration. Which configuration
that was is not part of what the daemon keeps; it is here for reasoning. -/
structure Reapply (Config : Type) where
  status : TickStatus
  config : Config

/-- What the daemon did, in order. A status stems from the apply with the given
sequence number, or from none. -/
inductive DaemonEvent (Config : Type) where
  | applied (config : Config) (sequence : Nat) (ok : Bool)
  | saved (yaml : Bytes)
  | sent (status : ConfigStatus) (sequence : Option Nat)

/-- Where the connection loop is with a push that parsed. -/
inductive Handling (Config : Type) where
  | applying (push : DaemonConfig) (config : Config)
  | saving (push : DaemonConfig) (config : Config) (report : ApplyReport)

/-- The daemon as the connection loop, the reconcile tick and program choice
changes share it. `reapplies` are the outcomes not yet published, `accepted` is
the last push on the stream that parsed, and `saved` is the file a restart reads. -/
structure Daemon (Config : Type) where
  current : Option (CurrentConfig Config) := none
  sequence : Nat := 0
  reapplies : List (Reapply Config) := []
  published : Option (Reapply Config) := none
  unseen : Bool := false
  connected : Bool := false
  streamRevision : Option UInt64 := none
  lastSent : Option ConfigStatus := none
  pendingPersist : Option (UInt64 × Bytes) := none
  handling : Option (Handling Config) := none
  accepted : Option DaemonConfig := none
  saved : Option Bytes := none
  log : List (DaemonEvent Config) := []

/-- What an apply gives: the outcome of each program, and its result. -/
structure ApplyOutcome where
  programs : List ProgramOutcome
  result : Except ErrorText Unit

def ApplyOutcome.error (outcome : ApplyOutcome) : Option ErrorText :=
  match outcome.result with
  | .ok () => none
  | .error error => some error

inductive DaemonAction where
  | connect
  | disconnect
  | logout
  | receive (push : DaemonConfig)
  | applyPushed (outcome : ApplyOutcome)
  | savePushed (result : Except ErrorText Unit)
  | reapply (outcome : ApplyOutcome)
  | publish (index : Nat)
  | consume (saveResult : Except ErrorText Unit)

namespace Daemon

variable {Config : Type}

def idle (s : Daemon Config) : Bool :=
  s.connected && s.handling.isNone

/-- Outcomes from before the stream are not sent on it. -/
def connect (s : Daemon Config) : Option (Daemon Config) :=
  if s.connected then none else some { s with connected := true, unseen := false }

/-- The variables of the loop go with the stream. -/
def endStream (s : Daemon Config) : Daemon Config :=
  { s with
    connected := false
    streamRevision := none
    lastSent := none
    pendingPersist := none
    accepted := none }

def disconnect (s : Daemon Config) : Option (Daemon Config) :=
  if s.idle then some s.endStream else none

/-- A logout takes the current configuration away. It is handled between the
steps of the loop, or while there is no stream. -/
def logout (s : Daemon Config) : Option (Daemon Config) :=
  if s.handling.isNone then some { s.endStream with current := none } else none

/-- Makes a pushed configuration the current one if it parses. -/
def receive (parser : ConfigParser Config) (push : DaemonConfig) (s : Daemon Config) : Option (Daemon Config) :=
  if s.idle then
    match parser.parsePushedConfig push with
    | .error error =>
      let status := configStatus push.revision [] (.error error)
      some { s with
        streamRevision := some push.revision
        pendingPersist := none
        lastSent := some status
        log := s.log ++ [.sent status none] }
    | .ok config =>
      some { s with
        streamRevision := some push.revision
        current := some ⟨some push.revision, config⟩
        accepted := some push
        handling := some (.applying push config) }
  else none

/-- An apply, under the apply lock. -/
def apply (config : Config) (outcome : ApplyOutcome) (s : Daemon Config) : Daemon Config × ApplyReport :=
  let report : ApplyReport := ⟨outcome.programs, s.sequence + 1⟩
  ({ s with
      sequence := report.sequence
      log := s.log ++ [.applied config report.sequence outcome.error.isNone] },
    report)

def persistConfig (yaml : Bytes) (s : Daemon Config) : Daemon Config :=
  { s with saved := some yaml, log := s.log ++ [.saved yaml] }

def finishPush (push : DaemonConfig) (report : ApplyReport) (result : Except ErrorText Unit) (s : Daemon Config) :
    Daemon Config :=
  let status := configStatus push.revision report.programs result
  { s with
    pendingPersist := if status.error = "" then none else some (push.revision, push.yaml)
    lastSent := some status
    handling := none
    log := s.log ++ [.sent status (some report.sequence)] }

def applyPushed (outcome : ApplyOutcome) (s : Daemon Config) : Option (Daemon Config) :=
  match s.handling with
  | some (.applying push config) =>
    let applied := s.apply config outcome
    match outcome.result with
    | .ok () => some { applied.1 with handling := some (.saving push config applied.2) }
    | .error error => some (applied.1.finishPush push applied.2 (.error error))
  | _ => none

def savePushed (result : Except ErrorText Unit) (s : Daemon Config) : Option (Daemon Config) :=
  match s.handling with
  | some (.saving push _ report) =>
    match result with
    | .ok () => some ((s.persistConfig push.yaml).finishPush push report (.ok ()))
    | .error error => some (s.finishPush push report (.error error))
  | _ => none

/-- `apply_current`: the tick and a program choice change read the current
configuration under the apply lock. -/
def reapply (outcome : ApplyOutcome) (s : Daemon Config) : Option (Daemon Config) :=
  match s.current with
  | none => none
  | some current =>
    let applied := s.apply current.config outcome
    let status : TickStatus := ⟨current.revision, applied.2, outcome.error⟩
    some { applied.1 with reapplies := s.reapplies ++ [⟨status, current.config⟩] }

/-- Publishes an outcome unless the channel holds that of a later apply. -/
def publishStatus (reapply : Reapply Config) (s : Daemon Config) : Daemon Config :=
  if s.published.any fun current => decide (current.status.report.sequence > reapply.status.report.sequence) then s
  else { s with published := some reapply, unseen := true }

def publish (index : Nat) (s : Daemon Config) : Option (Daemon Config) :=
  match s.reapplies[index]? with
  | none => none
  | some reapply => some ({ s with reapplies := s.reapplies.eraseIdx index }.publishStatus reapply)

def reportTick (tick : TickStatus) (s : Daemon Config) : Daemon Config :=
  match tickConfigStatus s.lastSent s.streamRevision tick with
  | none => s
  | some status =>
    { s with lastSent := some status, log := s.log ++ [.sent status (some tick.report.sequence)] }

/-- The save a re-apply's outcome calls for. -/
def dueSave (tick : TickStatus) (s : Daemon Config) : Option (UInt64 × Bytes) :=
  if tick.error.isNone && tick.revision.isSome && decide (tick.revision = s.streamRevision) then s.pendingPersist
  else none

/-- The loop's handling of a re-apply's outcome. -/
def handleTick (tick : TickStatus) (saveResult : Except ErrorText Unit) (s : Daemon Config) : Daemon Config :=
  match s.dueSave tick with
  | none => s.reportTick tick
  | some (_, yaml) =>
    match saveResult with
    | .ok () => ({ s with pendingPersist := none }.persistConfig yaml).reportTick tick
    | .error error => s.reportTick { tick with error := some error }

def consume (saveResult : Except ErrorText Unit) (s : Daemon Config) : Option (Daemon Config) :=
  match s.published with
  | none => none
  | some reapply =>
    if s.idle && s.unseen then some ({ s with unseen := false }.handleTick reapply.status saveResult) else none

def step (parser : ConfigParser Config) (s : Daemon Config) : DaemonAction → Option (Daemon Config)
  | .connect => s.connect
  | .disconnect => s.disconnect
  | .logout => s.logout
  | .receive push => s.receive parser push
  | .applyPushed outcome => s.applyPushed outcome
  | .savePushed result => s.savePushed result
  | .reapply outcome => s.reapply outcome
  | .publish index => s.publish index
  | .consume saveResult => s.consume saveResult

end Daemon

end AgentDesktop
