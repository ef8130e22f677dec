import AgentDesktop.ProxyForward
import AgentDesktop.CacheFetch

namespace AgentDesktop

/-- A request that was sent, with its credential and its answer. -/
structure UpstreamAttempt where
  request : UpstreamRequest
  used : Option AttemptCredential
  answer : Option (Except GatewayFailure GatewayResponse) := none

/-- A request in the proxy, with the fetch it waits for. -/
structure ProxyProcess where
  prepared : Option PreparedRequest := none
  pc : ForwardPc := .arrived
  call : Option FetchCall := none
  attempts : List UpstreamAttempt := []
  connected : Bool := true

/-- The status and the message of a failed fetch. -/
abbrev ControllerError := Nat × String

/-- The cache with the requests and the fetches that no request waits for any more.
`fetches` are the keys fetched for, `fetched` the credentials that came back and
`inserts` what was cached, in order. -/
structure ProxyRun where
  cache : CredentialCache := {}
  processes : List ProxyProcess := []
  detached : List FetchCall := []
  fetches : List String := []
  fetched : List String := []
  inserts : List (String × String) := []

inductive ProxyAction where
  | arrive (request : ProxyRequest) (environment : ProxyEnvironment)
  | lookup (index now nowUnix : Nat)
  | advance (index : Nat) (input : FetchInput ControllerError)
  | fetchUncached (index : Nat) (result : Except ControllerError LlmGatewayCredential) (now nowUnix : Nat)
  | timeout (index : Nat)
  | answer (index : Nat) (result : Except GatewayFailure GatewayResponse)
  | disconnect (index : Nat)
  | advanceDetached (index : Nat) (input : FetchInput ControllerError)

def ProxyEffect.request : ProxyEffect → Option UpstreamRequest
  | .send request => some request
  | _ => none

def CredentialCache.drop (cache : CredentialCache) : ProxyEffect → CredentialCache
  | .invalidateIf key credential => cache.invalidateIf key credential
  | _ => cache

/-- The fetch that is spawned where a request begins to wait for one. -/
def ForwardPc.spawned : ForwardPc → Option FetchCall
  | .fetching prepared _ => prepared.cacheKey.map fun (key, deviceId) => { key, deviceId }
  | _ => none

def ForwardPc.used : ForwardPc → Option AttemptCredential
  | .sending _ _ used => used
  | _ => none

namespace ProxyProcess

def goOn (process : ProxyProcess) (next : ForwardPc × List ProxyEffect) : ProxyProcess :=
  { process with
    pc := next.1
    call := next.1.spawned
    attempts := process.attempts ++ (next.2.filterMap (·.request)).map fun request => { request, used := next.1.used } }

def resume (process : ProxyProcess) (input : ForwardInput) : Option ProxyProcess :=
  (AgentDesktop.resume process.pc input).map process.goOn

/-- The answer of the request that was sent last. -/
def noteAnswer (process : ProxyProcess) (result : Except GatewayFailure GatewayResponse) : ProxyProcess :=
  { process with
    attempts := process.attempts.dropLast ++
      (process.attempts.getLast?.map fun attempt => { attempt with answer := some result }).toList }

/-- What a request does when its fetch took a step. -/
def afterCall (process : ProxyProcess) (call : FetchCall) : FetchProgress ControllerError → Option ProxyProcess
  | .running pc => some { process with call := some { call with pc } }
  | .finished credential deadline cached => process.resume (.fetched (.ok (credential, deadline, cached)))
  | .failed (status, message) => process.resume (.fetched (.error (.credential status message)))

end ProxyProcess

/-- The key of a fetch that a step of a call begins. -/
def FetchCall.begins (call : FetchCall) (progress : FetchProgress ControllerError) : List String :=
  match call.pc, progress with
  | .looking, .running _ => [call.key]
  | _, _ => []

/-- The credential that a step of a call gets from its fetch. -/
def FetchCall.receives (call : FetchCall) (input : FetchInput ControllerError) : List String :=
  match call.pc, input with
  | .fetching, .respond (.ok fetched) => [fetched.credential]
  | _, _ => []

/-- What a step of a call caches. -/
def FetchCall.stores (call : FetchCall) (input : FetchInput ControllerError) : List (String × String) :=
  ((call.inserts input).map fun insert => (call.key, insert.fetched.credential)).toList

namespace ProxyRun

def stepCall (call : FetchCall) (input : FetchInput ControllerError) (s : ProxyRun) :
    Option (ProxyRun × FetchProgress ControllerError) :=
  match getOrFetchStep s.cache call input with
  | none => none
  | some (cache, progress) =>
    some
      ({ s with
          cache
          fetches := s.fetches ++ call.begins progress
          fetched := s.fetched ++ call.receives input
          inserts := s.inserts ++ call.stores input }, progress)

/-- A step of a request whose client is still connected. -/
def onProcess (index : Nat) (act : ProxyProcess → Option (ProxyRun × ProxyProcess)) (s : ProxyRun) :
    Option ProxyRun :=
  match s.processes[index]? with
  | none => none
  | some process =>
    if process.connected then
      match act process with
      | none => none
      | some (t, process) => some { t with processes := t.processes.set index process }
    else none

def lookup (now nowUnix : Nat) (process : ProxyProcess) (s : ProxyRun) : Option (ProxyRun × ProxyProcess) :=
  match process.pc.prepared.bind (·.cacheKey) with
  | none => none
  | some (key, deviceId) =>
    (process.resume (.lookup (s.cache.lookup key deviceId now nowUnix))).map fun process => (s, process)

def advance (input : FetchInput ControllerError) (process : ProxyProcess) (s : ProxyRun) :
    Option (ProxyRun × ProxyProcess) :=
  match process.call with
  | none => none
  | some call =>
    match s.stepCall call input with
    | none => none
    | some (t, progress) => (process.afterCall call progress).map fun process => (t, process)

/-- A fetch whose credential is not cached. -/
def fetchUncached (result : Except ControllerError LlmGatewayCredential) (now nowUnix : Nat) (process : ProxyProcess)
    (s : ProxyRun) : Option (ProxyRun × ProxyProcess) :=
  match process.call, result with
  | some _, _ => none
  | none, .error (status, message) =>
    (process.resume (.fetched (.error (.credential status message)))).map fun process => (s, process)
  | none, .ok fetched =>
    let deadline := Deadline.fromUnix fetched.expiresAtUnixSeconds now nowUnix
    (process.resume (.fetched (.ok (fetched.credential, deadline, false)))).map fun process =>
      ({ s with fetched := s.fetched ++ [fetched.credential] }, process)

/-- The fetch goes on without the request. -/
def detach (process : ProxyProcess) (s : ProxyRun) : ProxyRun :=
  { s with detached := s.detached ++ process.call.toList }

def answer (result : Except GatewayFailure GatewayResponse) (process : ProxyProcess) (s : ProxyRun) :
    Option (ProxyRun × ProxyProcess) :=
  match resume process.pc (.answer result) with
  | none => none
  | some next =>
    some ({ s with cache := next.2.foldl CredentialCache.drop s.cache }, (process.noteAnswer result).goOn next)

def advanceDetached (index : Nat) (input : FetchInput ControllerError) (s : ProxyRun) : Option ProxyRun :=
  match s.detached[index]? with
  | none => none
  | some call =>
    match s.stepCall call input with
    | none => none
    | some (t, progress) =>
      some { t with detached := s.detached.take index ++ (progress.remaining call ++ s.detached.drop (index + 1)) }

section

variable (parseUri : Octets → Except String Uri) (config : ProxyConfig)

def arrived (request : ProxyRequest) (environment : ProxyEnvironment) : ProxyProcess :=
  let next := arrive parseUri config request environment
  { ({} : ProxyProcess).goOn next with prepared := next.1.prepared }

def step (s : ProxyRun) : ProxyAction → Option ProxyRun
  | .arrive request environment =>
    some { s with processes := s.processes ++ [arrived parseUri config request environment] }
  | .lookup index now nowUnix => s.onProcess index fun process => s.lookup now nowUnix process
  | .advance index input => s.onProcess index fun process => s.advance input process
  | .fetchUncached index result now nowUnix =>
    s.onProcess index fun process => s.fetchUncached result now nowUnix process
  | .timeout index =>
    s.onProcess index fun process =>
      (process.resume (.fetched (.error .timedOut))).map fun next => (s.detach process, next)
  | .answer index result => s.onProcess index fun process => s.answer result process
  | .disconnect index =>
    s.onProcess index fun process => some (s.detach process, { process with call := none, connected := false })
  | .advanceDetached index input => s.advanceDetached index input

end

end ProxyRun

end AgentDesktop
