import AgentDesktop.DeviceLogin
import AgentDesktop.SortedMap
import AgentDesktop.UnicodeText

namespace AgentDesktop

def enrollmentLifetime : Nat := fromSecs (10 * 60)

def maxPendingEnrollments : Nat := 1024

def enrollmentScope : String := "openid profile email offline_access"

def defaultDevicePollInterval : Nat := 5

/-- An enrollment that was begun; one by device authorization has no nonce. -/
structure PendingEnrollment where
  hostname : String
  nonce : Option String
  expiresAt : Nat

structure BeginEnrollmentResponse where
  enrollmentId : String := ""
  authorizationUrl : String := ""
  state : String := ""
  redirectUri : String := ""
  tokenEndpoint : String := ""
  clientId : String := ""
  deviceCode : String := ""
  userCode : String := ""
  verificationUri : String := ""
  verificationUriComplete : String := ""
  intervalSeconds : Nat := 0
  expiresInSeconds : Nat := 0

/-- The provider's endpoints, with the authorization endpoint as a function of the query
pairs appended to it, and the texts that are URLs. -/
structure OidcProvider where
  clientId : String
  redirectUri : String
  tokenEndpoint : String
  deviceAuthorizationEndpoint : Option String
  authorizationUrl : List (String × String) → String
  parses : String → Bool

def isCodeChallenge (text : String) : Bool :=
  text.utf8ByteSize = 43 && text.toList.all fun c => c.isAlphanum || c = '-' || c = '_'

/-- The answer to a device grant and its lifetime, which is at most that of an enrollment. -/
def deviceEnrollmentResponse (provider : OidcProvider) (enrollmentId : String) (device : DeviceAuthorizationResponse) :
    Except String (BeginEnrollmentResponse × Nat) :=
  if device.deviceCode.isEmpty || device.userCode.isEmpty then
    .error "OIDC device authorization response has no device or user code"
  else if !provider.parses device.verificationUri then .error "OIDC device verification URI is invalid"
  else
    let lifetime := min (fromSecs device.expiresIn) enrollmentLifetime
    if lifetime = 0 then .error "OIDC device authorization has already expired"
    else
      .ok ({
        enrollmentId
        tokenEndpoint := provider.tokenEndpoint
        clientId := provider.clientId
        deviceCode := device.deviceCode
        userCode := device.userCode
        verificationUri := device.verificationUri
        verificationUriComplete := (device.verificationUriComplete.filter provider.parses).getD ""
        intervalSeconds := (device.interval.filter fun interval => decide (interval > 0)).getD defaultDevicePollInterval
        expiresInSeconds := lifetime / 1000000000 }, lifetime)

/-- A call of `begin_device` from its request to the provider on; one that is dropped ends
without an answer. -/
inductive DevicePhase where
  | calling
  | narrowing (response : BeginEnrollmentResponse) (lifetime : Nat)
  | releasing (message : String)
  | answered (response : BeginEnrollmentResponse)
  | failed (message : String)
  | dropped

structure DeviceEnrollment where
  enrollmentId : String
  startedAt : Nat
  phase : DevicePhase

/-- A call of `complete` up to its pending check. -/
inductive CompletePhase where
  | waiting
  | checking (pending : PendingEnrollment)
  | passed (pending : PendingEnrollment) (time : Nat)
  | failed (message : String)

structure CompleteCall where
  enrollmentId : String
  phase : CompletePhase

/-- The pending enrollments with the clock and the calls on them; `issued` are the ids that
were generated and `learned` those that were in an answer. -/
structure Enrollments where
  now : Nat := 0
  pending : List (String × PendingEnrollment) := []
  devices : List DeviceEnrollment := []
  completes : List CompleteCall := []
  issued : List String := []
  learned : List String := []

inductive EnrollmentAction where
  | tick (later : Nat)
  | begin (hostname codeChallenge enrollmentId state nonce : String)
  | beginDevice (hostname enrollmentId : String)
  | answer (index : Nat) (response : Except String DeviceAuthorizationResponse)
  | settle (index : Nat)
  | drop (index : Nat)
  | complete (enrollmentId : String)
  | take (index : Nat)
  | check (index : Nat)

namespace Enrollments

def unexpired (s : Enrollments) : List (String × PendingEnrollment) :=
  s.pending.filter fun entry => decide (entry.2.expiresAt > s.now)

def insertPending (enrollmentId hostname : String) (nonce : Option String) (lifetime : Nat) (s : Enrollments) :
    Enrollments × Except String Unit :=
  if s.unexpired.length ≥ maxPendingEnrollments then
    ({ s with pending := s.unexpired }, .error "too many pending enrollments")
  else
    ({ s with pending := SortedMap.insert enrollmentId ⟨hostname, nonce, s.now + lifetime⟩ s.unexpired }, .ok ())

def releasePending (enrollmentId : String) (s : Enrollments) : Enrollments :=
  { s with pending := SortedMap.erase enrollmentId s.pending }

def setPendingExpiry (enrollmentId : String) (lifetime : Nat) (s : Enrollments) : Enrollments :=
  { s with pending := s.pending.map fun entry =>
      if entry.1 = enrollmentId then (entry.1, { entry.2 with expiresAt := s.now + lifetime }) else entry }

def begin (provider : OidcProvider) (hostname codeChallenge enrollmentId state nonce : String) (s : Enrollments) :
    Enrollments × Except String BeginEnrollmentResponse :=
  if isBlank hostname then (s, .error "hostname is required")
  else if !isCodeChallenge codeChallenge then (s, .error "invalid PKCE code challenge")
  else
    match s.insertPending enrollmentId hostname (some nonce) enrollmentLifetime with
    | (s, .error message) => (s, .error message)
    | (s, .ok _) =>
      (s, .ok {
        enrollmentId
        authorizationUrl := provider.authorizationUrl
          [("response_type", "code"), ("scope", enrollmentScope), ("client_id", provider.clientId),
            ("redirect_uri", provider.redirectUri), ("state", state), ("nonce", nonce),
            ("code_challenge", codeChallenge), ("code_challenge_method", "S256")]
        state
        redirectUri := provider.redirectUri
        tokenEndpoint := provider.tokenEndpoint
        clientId := provider.clientId })

/-- The part of `begin_device` before the request to the provider. -/
def beginDevice (provider : OidcProvider) (hostname enrollmentId : String) (s : Enrollments) :
    Enrollments × Except String Unit :=
  if isBlank hostname then (s, .error "hostname is required")
  else
    match provider.deviceAuthorizationEndpoint with
    | none => (s, .error "OIDC provider does not support device authorization")
    | some _ => s.insertPending enrollmentId hostname none enrollmentLifetime

def setDevice (index : Nat) (device : DeviceEnrollment) (phase : DevicePhase) (s : Enrollments) : Enrollments :=
  { s with devices := s.devices.set index { device with phase } }

def setComplete (index : Nat) (call : CompleteCall) (phase : CompletePhase) (s : Enrollments) : Enrollments :=
  { s with completes := s.completes.set index { call with phase } }

/-- The request to the provider ends. -/
def answer (provider : OidcProvider) (index : Nat) (response : Except String DeviceAuthorizationResponse)
    (s : Enrollments) : Option Enrollments :=
  match s.devices[index]? with
  | some ⟨enrollmentId, startedAt, .calling⟩ =>
    let device : DeviceEnrollment := ⟨enrollmentId, startedAt, .calling⟩
    match response.bind (deviceEnrollmentResponse provider enrollmentId) with
    | .error message => some (s.setDevice index device (.releasing message))
    | .ok (response, lifetime) => some (s.setDevice index device (.narrowing response lifetime))
  | _ => none

/-- The reservation is narrowed or released, with the lock taken, and the call answers. -/
def settle (index : Nat) (s : Enrollments) : Option Enrollments :=
  match s.devices[index]? with
  | some ⟨enrollmentId, startedAt, .narrowing response lifetime⟩ =>
    let s := s.setPendingExpiry enrollmentId lifetime
    some { s.setDevice index ⟨enrollmentId, startedAt, .narrowing response lifetime⟩ (.answered response) with
      learned := s.learned ++ [enrollmentId] }
  | some ⟨enrollmentId, startedAt, .releasing message⟩ =>
    some ((s.releasePending enrollmentId).setDevice index ⟨enrollmentId, startedAt, .releasing message⟩
      (.failed message))
  | _ => none

def drop (index : Nat) (s : Enrollments) : Option Enrollments :=
  match s.devices[index]? with
  | some ⟨enrollmentId, startedAt, .calling⟩ => some (s.setDevice index ⟨enrollmentId, startedAt, .calling⟩ .dropped)
  | some ⟨enrollmentId, startedAt, .narrowing response lifetime⟩ =>
    some (s.setDevice index ⟨enrollmentId, startedAt, .narrowing response lifetime⟩ .dropped)
  | some ⟨enrollmentId, startedAt, .releasing message⟩ =>
    some (s.setDevice index ⟨enrollmentId, startedAt, .releasing message⟩ .dropped)
  | _ => none

/-- `complete` takes the pending entry out, with the lock taken. -/
def take (index : Nat) (s : Enrollments) : Option Enrollments :=
  match s.completes[index]? with
  | some ⟨enrollmentId, .waiting⟩ =>
    let call : CompleteCall := ⟨enrollmentId, .waiting⟩
    match s.pending.lookup enrollmentId with
    | none => some (s.setComplete index call (.failed "unknown or already completed enrollment"))
    | some pending => some ((s.releasePending enrollmentId).setComplete index call (.checking pending))
  | _ => none

def check (index : Nat) (s : Enrollments) : Option Enrollments :=
  match s.completes[index]? with
  | some ⟨enrollmentId, .checking pending⟩ =>
    let call : CompleteCall := ⟨enrollmentId, .checking pending⟩
    if pending.expiresAt ≤ s.now then some (s.setComplete index call (.failed "enrollment expired"))
    else some (s.setComplete index call (.passed pending s.now))
  | _ => none

def step (provider : OidcProvider) (s : Enrollments) : EnrollmentAction → Option Enrollments
  | .tick later => some { s with now := later }
  | .begin hostname codeChallenge enrollmentId state nonce =>
    let issued := s.issued ++ [enrollmentId]
    match s.begin provider hostname codeChallenge enrollmentId state nonce with
    | (s, .error _) => some { s with issued }
    | (s, .ok response) => some { s with issued, learned := s.learned ++ [response.enrollmentId] }
  | .beginDevice hostname enrollmentId =>
    let issued := s.issued ++ [enrollmentId]
    match s.beginDevice provider hostname enrollmentId with
    | (s, .error _) => some { s with issued }
    | (s, .ok _) => some { s with issued, devices := s.devices ++ [⟨enrollmentId, s.now, .calling⟩] }
  | .answer index response => s.answer provider index response
  | .settle index => s.settle index
  | .drop index => s.drop index
  | .complete enrollmentId => some { s with completes := s.completes ++ [⟨enrollmentId, .waiting⟩] }
  | .take index => s.take index
  | .check index => s.check index

end Enrollments

end AgentDesktop
