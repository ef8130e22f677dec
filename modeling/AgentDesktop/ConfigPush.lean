import AgentDesktop.AttributedPlan

namespace AgentDesktop

abbrev Bytes := List UInt8

/-- The text of an error; it is never empty. -/
structure ErrorText where
  text : String
  nonempty : text ≠ ""

/-- A configuration as the controller pushes it. -/
structure DaemonConfig where
  revision : UInt64
  yaml : Bytes
  sha256 : Bytes

/-- The checks a pushed configuration goes through. -/
structure ConfigParser (Config : Type) where
  digest : Bytes → Bytes
  utf8 : Bytes → Except String String
  parseDaemon : String → Except ErrorText Config

/-- The daemon's current configuration; one from the startup has no revision. -/
structure CurrentConfig (Config : Type) where
  revision : Option UInt64
  config : Config

/-- The outcome of a re-apply, as it is forwarded to the connection loop. -/
structure TickStatus where
  revision : Option UInt64
  report : ApplyReport
  error : Option ErrorText

inductive ConfigState where
  | applied
  | failed
  deriving DecidableEq

structure ConfigStatus where
  revision : UInt64
  state : ConfigState
  error : String
  programs : List ProgramOutcome
  programsReported : Bool

variable {Config : Type}

namespace ConfigParser

def parseYaml (parser : ConfigParser Config) (yaml : Bytes) : Except ErrorText Config :=
  match parser.utf8 yaml with
  | .error cause => .error ⟨"configuration is not UTF-8: " ++ cause, by simp [← String.toList_inj]⟩
  | .ok text => parser.parseDaemon text

def parsePushedConfig (parser : ConfigParser Config) (config : DaemonConfig) : Except ErrorText Config :=
  if parser.digest config.yaml ≠ config.sha256 then
    .error ⟨"configuration hash does not match payload", by decide⟩
  else parser.parseYaml config.yaml

theorem parseYaml_of_pushed {parser : ConfigParser Config} {push : DaemonConfig} {config : Config}
    (h : parser.parsePushedConfig push = .ok config) : parser.parseYaml push.yaml = .ok config := by
  unfold parsePushedConfig at h
  split at h
  next => cases h
  next => exact h

end ConfigParser

def configStatus (revision : UInt64) (programs : List ProgramOutcome) (result : Except ErrorText Unit) :
    ConfigStatus :=
  match result with
  | .ok () => ⟨revision, .applied, "", programs, true⟩
  | .error error => ⟨revision, .failed, error.text, programs, true⟩

/-- The status has an error exactly when the result is one. -/
theorem configStatus_error (revision : UInt64) (programs : List ProgramOutcome) (result : Except ErrorText Unit) :
    (configStatus revision programs result).error = "" ↔ result = .ok () := by
  cases result with
  | ok => simp [configStatus]
  | error error => simp [configStatus, error.nonempty]

/-- Two lists of outcomes differ by program, state or detail. A program that
settles from applied or removed to unchanged, or a removed one that is no longer
listed, is not a difference. -/
def outcomesDiffer (previous current : List ProgramOutcome) : Bool :=
  let changed := current.any fun now =>
    match previous.find? fun before => before.program == now.program with
    | none => true
    | some before =>
      let settled := decide (now.state = .unchanged) &&
        (decide (before.state = .applied) || decide (before.state = .removed))
      !settled && (decide (now.state ≠ before.state) || decide (now.detail ≠ before.detail))
  let gone := previous.any fun before =>
    decide (before.state ≠ .removed) && !current.any fun now => now.program == before.program
  changed || gone

/-- The status a re-apply's outcome should send on a stream, if any. -/
def tickConfigStatus (lastSent : Option ConfigStatus) (streamRevision : Option UInt64) (tick : TickStatus) :
    Option ConfigStatus :=
  match tick.revision with
  | none => none
  | some revision =>
    if streamRevision ≠ some revision then none
    else
      let status := configStatus revision tick.report.programs
        (match tick.error with
        | none => .ok ()
        | some error => .error error)
      match lastSent with
      | none => some status
      | some last =>
        if decide (last.state ≠ status.state) || decide (last.error ≠ status.error) ||
            outcomesDiffer last.programs status.programs then some status
        else none

end AgentDesktop
