import Mathlib.Algebra.Group.Defs
import Mathlib.Algebra.Group.Int.Defs

namespace AgentDesktop

def hour : Int := 60 * 60

def day : Int := 24 * hour

def hourlyRetention : Int := 90 * day

def dailyRetention : Int := 395 * day

def receiptRetention : Int := 7 * day

def maxClockSkew : Int := 5 * 60

inductive Billing where
  | api
  | subscription
  deriving DecidableEq

/-- Whom and what usage is counted for. -/
structure Attribution where
  subject : String
  deviceId : String
  clientId : String
  provider : String
  model : String
  billing : Billing
  deriving DecidableEq

structure RollupKey where
  bucketStart : Int
  attribution : Attribution
  deriving DecidableEq

/-- The additive measures of a rollup. No counter overflows, so they are integers. -/
@[ext]
structure Measures where
  requests : Int
  errors : Int
  inputTokens : Int
  outputTokens : Int
  cacheReadTokens : Int
  cacheWriteTokens : Int
  costNanos : Int
  unpricedRequests : Int
  deriving DecidableEq

namespace Measures

def add (a b : Measures) : Measures where
  requests := a.requests + b.requests
  errors := a.errors + b.errors
  inputTokens := a.inputTokens + b.inputTokens
  outputTokens := a.outputTokens + b.outputTokens
  cacheReadTokens := a.cacheReadTokens + b.cacheReadTokens
  cacheWriteTokens := a.cacheWriteTokens + b.cacheWriteTokens
  costNanos := a.costNanos + b.costNanos
  unpricedRequests := a.unpricedRequests + b.unpricedRequests

instance : Add Measures := ⟨add⟩

instance : Zero Measures := ⟨⟨0, 0, 0, 0, 0, 0, 0, 0⟩⟩

instance : AddCommMonoid Measures where
  add_assoc a b c := by
    ext <;> exact Int.add_assoc _ _ _
  zero_add a := by
    ext <;> exact Int.zero_add _
  add_zero a := by
    ext <;> exact Int.add_zero _
  add_comm a b := by
    ext <;> exact Int.add_comm _ _
  nsmul := nsmulRec

end Measures

/-- One request that was read from an access log, with the digest of its record. -/
structure UsageRecord where
  id : String
  key : RollupKey
  measures : Measures

/-- A log record: its times in nanoseconds, and its identifiers, attributes and body. -/
structure LogRecord (Content : Type) where
  timeUnixNano : Nat
  observedTimeUnixNano : Nat
  content : Content
  deriving DecidableEq

section

variable {Content : Type}

/-- The time of a record, or when it was observed. -/
def LogRecord.nanos (record : LogRecord Content) : Nat :=
  if record.timeUnixNano = 0 then record.observedTimeUnixNano else record.timeUnixNano

/-- When a request occurred. A record without a time, or one stamped too far ahead,
counts when it is received. -/
def occurredAt (record : LogRecord Content) (now : Int) : Except String Int :=
  if record.nanos = 0 then .ok now
  else
    let seconds : Int := (record.nanos / 1000000000 : Nat)
    if seconds > now + maxClockSkew then .ok now
    else if seconds < now - dailyRetention then .error "record is older than usage retention"
    else .ok seconds

/-- How the identifier, the attribution and the measures are read from a record. Some
measures are read after the time of the record. -/
structure RecordReader (Content : Type) where
  recordId : LogRecord Content → String
  usage : Content → Except String (Option (Attribution × Except String Measures))

def RecordReader.parseRecord (reader : RecordReader Content) (record : LogRecord Content) (now : Int) :
    Except String (Option UsageRecord) :=
  match reader.usage record.content with
  | .error error => .error error
  | .ok none => .ok none
  | .ok (some (attribution, measures)) =>
    match occurredAt record now with
    | .error error => .error error
    | .ok occurred =>
      match measures with
      | .error error => .error error
      | .ok measures => .ok (some ⟨reader.recordId record, ⟨occurred / hour * hour, attribution⟩, measures⟩)

/-- A record counts from its own second or from when it is received. -/
theorem occurredAt_nonneg {record : LogRecord Content} {now occurred : Int} (hnow : 0 ≤ now)
    (h : occurredAt record now = .ok occurred) : 0 ≤ occurred := by
  simp only [occurredAt] at h
  split at h
  next =>
    cases h
    exact hnow
  next =>
    split at h
    next =>
      cases h
      exact hnow
    next =>
      split at h
      next => cases h
      next =>
        cases h
        exact Int.natCast_nonneg _

/-- A record is counted in the hour in which its request occurred. -/
theorem parseRecord_spec {reader : RecordReader Content} {record : LogRecord Content} {now : Int}
    {usage : UsageRecord} (h : reader.parseRecord record now = .ok (some usage)) :
    usage.id = reader.recordId record ∧
      ∃ occurred, occurredAt record now = .ok occurred ∧ usage.key.bucketStart = occurred / hour * hour := by
  unfold RecordReader.parseRecord at h
  split at h
  next => cases h
  next => cases h
  next =>
    split at h
    next => cases h
    next occurred hoccurred =>
      split at h
      next => cases h
      next =>
        cases h
        exact ⟨rfl, occurred, hoccurred, rfl⟩

end

end AgentDesktop
