import Mathlib.Logic.Basic

namespace AgentDesktop

structure LlmGatewayCredential where
  credential : String
  expiresAtUnixSeconds : Nat
  deriving DecidableEq

/-- A cached credential with its deadlines, on the monotonic clock in nanoseconds and
on the wall clock in seconds. -/
structure CachedCredential where
  credential : String
  deviceId : String
  validUntil : Nat
  validUntilUnix : Nat
  expires : Nat
  expiresUnix : Nat
  deriving DecidableEq

/-- A point in time on both clocks. -/
structure Deadline where
  monotonic : Nat
  unix : Nat
  deriving DecidableEq

/-- A duration in seconds on the monotonic clock. -/
def fromSecs (seconds : Nat) : Nat :=
  seconds * 1000000000

def credentialExpiryMargin : Nat := 30

def credentialCacheTtl : Nat := 60

def Deadline.fromUnix (expiresUnix now nowUnix : Nat) : Deadline :=
  ⟨now + fromSecs (expiresUnix - nowUnix), expiresUnix⟩

/-- The entries, and the keys whose flight lock a fetch holds. -/
structure CredentialCache where
  entries : String → Option CachedCredential := fun _ => none
  flights : String → Bool := fun _ => false

/-- What `insert` makes of a fetched credential; one within its margin is not cached.
The wall clock is read first, then the monotonic clock twice. -/
def cachedCredential (deviceId : String) (fetched : LlmGatewayCredential) (nowUnix now later : Nat) :
    Option CachedCredential :=
  let remaining := fetched.expiresAtUnixSeconds - nowUnix
  let lifetime := min (remaining - credentialExpiryMargin) credentialCacheTtl
  if lifetime > 0 then
    some
      { credential := fetched.credential
        deviceId
        validUntil := now + fromSecs lifetime
        validUntilUnix := nowUnix + lifetime
        expires := later + fromSecs remaining
        expiresUnix := fetched.expiresAtUnixSeconds }
  else none

def CachedCredential.validFor (entry : CachedCredential) (deviceId : String) (now nowUnix : Nat) : Bool :=
  entry.deviceId == deviceId && decide (now < entry.validUntil) && decide (nowUnix < entry.validUntilUnix)

namespace CredentialCache

def setEntry (cache : CredentialCache) (key : String) (entry : Option CachedCredential) : CredentialCache :=
  { cache with entries := fun other => if other = key then entry else cache.entries other }

def setFlight (cache : CredentialCache) (key : String) (held : Bool) : CredentialCache :=
  { cache with flights := fun other => if other = key then held else cache.flights other }

def lookup (cache : CredentialCache) (key deviceId : String) (now nowUnix : Nat) : Option (String × Deadline) :=
  match cache.entries key with
  | none => none
  | some entry =>
    if entry.validFor deviceId now nowUnix then some (entry.credential, ⟨entry.expires, entry.expiresUnix⟩) else none

def insert (cache : CredentialCache) (key deviceId : String) (fetched : LlmGatewayCredential)
    (nowUnix now later : Nat) : CredentialCache :=
  cache.setEntry key (cachedCredential deviceId fetched nowUnix now later)

def invalidateIf (cache : CredentialCache) (key credential : String) : CredentialCache :=
  if (cache.entries key).any fun entry => entry.credential == credential then cache.setEntry key none else cache

theorem invalidateIf_flights (cache : CredentialCache) (key credential : String) :
    (cache.invalidateIf key credential).flights = cache.flights := by
  unfold invalidateIf
  split
  next => rfl
  next => rfl

end CredentialCache

/-- Where a `get_or_fetch` call is. From `looking` on it holds the key's flight lock. -/
inductive FetchPc where
  | waiting
  | looking
  | fetching
  | received (fetched : LlmGatewayCredential)
  | inserting (fetched : LlmGatewayCredential) (nowUnix : Nat)
  | inserted (fetched : LlmGatewayCredential)

structure FetchCall where
  key : String
  deviceId : String
  pc : FetchPc := .waiting

/-- What the next step of a call meets. -/
inductive FetchInput (E : Type) where
  | lock
  | look (now nowUnix : Nat)
  | respond (result : Except E LlmGatewayCredential)
  | clock (nowUnix : Nat)
  | store (now later : Nat)
  | deadline (now nowUnix : Nat)

inductive FetchProgress (E : Type) where
  | running (pc : FetchPc)
  | finished (credential : String) (deadline : Deadline) (cached : Bool)
  | failed (error : E)

variable {E : Type}

/-- `get_or_fetch`, one access of the cache at a time. -/
def getOrFetchStep (cache : CredentialCache) (call : FetchCall) (input : FetchInput E) :
    Option (CredentialCache × FetchProgress E) :=
  match call.pc, input with
  | .waiting, .lock =>
    if cache.flights call.key then none else some (cache.setFlight call.key true, .running .looking)
  | .looking, .look now nowUnix =>
    match cache.lookup call.key call.deviceId now nowUnix with
    | some (credential, deadline) => some (cache.setFlight call.key false, .finished credential deadline true)
    | none => some (cache, .running .fetching)
  | .fetching, .respond (.error error) => some (cache.setFlight call.key false, .failed error)
  | .fetching, .respond (.ok fetched) => some (cache, .running (.received fetched))
  | .received fetched, .clock nowUnix => some (cache, .running (.inserting fetched nowUnix))
  | .inserting fetched nowUnix, .store now later =>
    some (cache.insert call.key call.deviceId fetched nowUnix now later, .running (.inserted fetched))
  | .inserted fetched, .deadline now nowUnix =>
    some (cache.setFlight call.key false,
      .finished fetched.credential (.fromUnix fetched.expiresAtUnixSeconds now nowUnix) false)
  | _, _ => none

end AgentDesktop
