import AgentDesktop.ProxyPrepared
import AgentDesktop.CredentialCache
import AgentDesktop.Transitions

namespace AgentDesktop

/-- The credential of an attempt, and where it came from. -/
structure AttemptCredential where
  credential : String
  deadline : Deadline
  fromCache : Bool
  fetchedNow : Bool

/-- An answer of the gateway. -/
structure GatewayResponse where
  status : Nat
  headers : HeaderMap
  body : Octets

/-- What the client gets. A tunnel that is left behind has the deadline of the credential. -/
structure ProxyResponse where
  status : Nat
  headers : HeaderMap
  body : Octets
  tunnel : Option (Option Deadline) := none

/-- How a credential fetch fails: it takes too long, its task ends, or there is no credential. -/
inductive FetchFailure where
  | timedOut
  | task (error : String)
  | credential (status : Nat) (message : String)

inductive GatewayFailure where
  | timedOut
  | unreachable (error : String)

def ProxyError.credential (status : Nat) (message : String) : ProxyError :=
  ⟨status, "agentdesktop_credential", "agentdesktop: no gateway credential for this device: " ++ message⟩

def FetchFailure.error : FetchFailure → ProxyError
  | .timedOut =>
    .credential 504 "the credential fetch (token refresh or controller call) did not finish in time"
  | .task error => .credential 500 ("credential fetch failed: " ++ error)
  | .credential status message => .credential status message

def GatewayFailure.error : GatewayFailure → ProxyError
  | .timedOut => ⟨504, "gateway_timeout", "agentdesktop proxy: the gateway did not answer in time"⟩
  | .unreachable error => .gatewayUnreachable ("agentdesktop proxy: gateway unreachable: " ++ error)

/-- Where `forward` is. -/
inductive ForwardPc where
  | arrived
  | looking (prepared : PreparedRequest) (retried : Bool)
  | fetching (prepared : PreparedRequest) (retried : Bool)
  | sending (prepared : PreparedRequest) (retried : Bool) (used : Option AttemptCredential)
  | done (result : Except ProxyError ProxyResponse)

/-- The request a place of `forward` works on. -/
def ForwardPc.prepared : ForwardPc → Option PreparedRequest
  | .looking prepared _ => some prepared
  | .fetching prepared _ => some prepared
  | .sending prepared _ _ => some prepared
  | _ => none

/-- What the next step of `forward` meets. -/
inductive ForwardInput where
  | prepare (environment : ProxyEnvironment)
  | lookup (found : Option (String × Deadline))
  | fetched (result : Except FetchFailure (String × Deadline × Bool))
  | answer (result : Except GatewayFailure GatewayResponse)

namespace PreparedRequest

/-- The request of an attempt, with the credential in `Authorization`. -/
def withAuthorization (prepared : PreparedRequest) (value : Octets) : UpstreamRequest :=
  { prepared.request with headers := prepared.request.headers.insert authorizationHeader value }

def controllerIssued (prepared : PreparedRequest) : Bool :=
  prepared.authentication.any (·.controllerIssued)

def fetch (prepared : PreparedRequest) (retried : Bool) : ForwardPc × List ProxyEffect :=
  (.fetching prepared retried, [.fetchCredential prepared.clientId prepared.subscription])

/-- The start of an attempt: it looks for a cached credential, or fetches one, or
needs none. -/
def attempt (prepared : PreparedRequest) (retried : Bool) : ForwardPc × List ProxyEffect :=
  if prepared.authentication.isSome then
    if prepared.cacheKey.isSome then (.looking prepared retried, []) else prepared.fetch retried
  else (.sending prepared retried none, [.send prepared.request])

def useCredential (prepared : PreparedRequest) (retried : Bool) (used : AttemptCredential) :
    ForwardPc × List ProxyEffect :=
  match headerValueFromStr (octets "Bearer " ++ octets used.credential) with
  | none => (.done (.error (.gatewayUnreachable "invalid gateway credential header")), [])
  | some value => (.sending prepared retried (some used), [.send (prepared.withAuthorization value)])

/-- Whether an answer makes the request be sent once more. -/
def retries (prepared : PreparedRequest) (retried : Bool) (used : Option AttemptCredential) (status : Nat) : Bool :=
  status == 401 && used.any (·.fromCache) && !prepared.clientTokenSent && !retried

/-- The drop of a rejected credential, if it is one that is cached. -/
def invalidates (prepared : PreparedRequest) (used : Option AttemptCredential) : List ProxyEffect :=
  match prepared.cacheKey, used with
  | some (key, _), some used => [.invalidateIf key used.credential]
  | _, _ => []

/-- The answer as the client gets it. -/
def respond (prepared : PreparedRequest) (used : Option AttemptCredential) (response : GatewayResponse) :
    ProxyResponse :=
  if prepared.websocket && response.status == 101 then
    let headers := (stripHopHeaders response.headers).insert connectionHeader (octets "Upgrade")
    { status := response.status
      headers := match response.headers.get upgradeHeader with
        | some value => headers.insert upgradeHeader value
        | none => headers
      body := []
      tunnel := some (used.map (·.deadline)) }
  else { status := response.status, headers := stripHopHeaders response.headers, body := response.body }

/-- What follows an answer of the gateway. -/
def answered (prepared : PreparedRequest) (retried : Bool) (used : Option AttemptCredential)
    (response : GatewayResponse) : ForwardPc × List ProxyEffect :=
  if prepared.retries retried used response.status then
    ((prepared.attempt true).1, prepared.invalidates used ++ (prepared.attempt true).2)
  else
    (.done (.ok (prepared.respond used response)),
      if response.status == 401 && used.any (·.fetchedNow) then prepared.invalidates used else [])

end PreparedRequest

/-- The attempts of `forward`, from one answer of its surroundings to the next. -/
def resume : ForwardPc → ForwardInput → Option (ForwardPc × List ProxyEffect)
  | .looking prepared retried, .lookup found =>
    match found with
    | some (credential, deadline) => some (prepared.useCredential retried ⟨credential, deadline, true, false⟩)
    | none => some (prepared.fetch retried)
  | .fetching prepared retried, .fetched result =>
    match result with
    | .ok (credential, deadline, cached) =>
      some (prepared.useCredential retried ⟨credential, deadline, cached, !cached⟩)
    | .error .timedOut =>
      if prepared.controllerIssued then some (.done (.error FetchFailure.timedOut.error), []) else none
    | .error failure => some (.done (.error failure.error), [])
  | .sending prepared retried used, .answer result =>
    match result with
    | .ok response => some (prepared.answered retried used response)
    | .error failure => some (.done (.error failure.error), [])
  | _, _ => none

section

variable (parseUri : Octets → Except String Uri) (config : ProxyConfig) (request : ProxyRequest)

/-- `forward` up to its first attempt. -/
def arrive (environment : ProxyEnvironment) : ForwardPc × List ProxyEffect :=
  match gate config request with
  | .error error => (.done (.error error), [])
  | .ok gated =>
    match prepare parseUri config environment request gated with
    | (effects, .error error) => (.done (.error error), .readConfiguration :: effects)
    | (effects, .ok prepared) =>
      ((prepared.attempt false).1, .readConfiguration :: (effects ++ (prepared.attempt false).2))

/-- `forward`, from one answer of its surroundings to the next, with what it does there. -/
def forwardStep : ForwardPc → ForwardInput → Option (ForwardPc × List ProxyEffect)
  | .arrived, .prepare environment => some (arrive parseUri config request environment)
  | pc, input => resume pc input

/-- A request on its way, with what it did so far. -/
structure ForwardState where
  pc : ForwardPc := .arrived
  effects : List ProxyEffect := []

def ForwardState.step (s : ForwardState) (input : ForwardInput) : Option ForwardState :=
  match forwardStep parseUri config request s.pc input with
  | some (pc, effects) => some { pc, effects := s.effects ++ effects }
  | none => none

/-- A whole run of `forward`. -/
def forward (inputs : List ForwardInput) : Option ForwardState :=
  execute (ForwardState.step parseUri config request) (fun _ _ => true) inputs {}

end

end AgentDesktop
