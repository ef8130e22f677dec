import AgentDesktop.ProxyGate

namespace AgentDesktop

/-- A parsed URI: its text and its authority. -/
structure Uri where
  text : Octets
  authority : Option Octets

structure UpstreamRequest where
  method : Method
  uri : Uri
  headers : HeaderMap
  body : Octets

inductive GitHubTokenSource where
  | deviceFlow
  | request

structure GitHubOAuthConfig where
  source : GitHubTokenSource
  clientId : Option String

inductive LlmGatewayAuthentication where
  | controllerJwt (audience : String)
  | oidc

structure LlmGatewayConfig where
  url : String
  authentication : Option LlmGatewayAuthentication
  proxyUrl : Option String
  githubOAuth : Option GitHubOAuthConfig

inductive ProgramAuthentication where
  | subscription
  deriving DecidableEq

inductive SubscriptionAuth where
  | credentialHelper
  | clientPassthrough
  deriving DecidableEq

structure ProgramsConfig where
  claudeCode : Option (Option ProgramAuthentication) := none
  claudeDesktop : Option (Option ProgramAuthentication) := none
  codex : Option (Option ProgramAuthentication) := none

/-- How a program with a subscription authenticates. A program is given by its `auth`. -/
def ProgramsConfig.subscriptionAuth (programs : ProgramsConfig) (clientId : String) : Option SubscriptionAuth :=
  let auth :=
    if clientId == "claude-code" then programs.claudeCode
    else if clientId == "claude-desktop" then programs.claudeDesktop
    else if clientId == "codex" then programs.codex
    else none
  if auth == some (some .subscription) then some .credentialHelper else none

structure EffectiveConfig where
  llmGateway : Option LlmGatewayConfig
  programs : ProgramsConfig := {}

/-- What a request finds outside the proxy: the applied configuration, what the GitHub
device flow gives for a client, and the device id in `identity.json`. -/
structure ProxyEnvironment where
  effectiveConfig : Except String EffectiveConfig
  githubOAuth : String → Except String String
  deviceId : Option String

/-- What a request does outside itself. -/
inductive ProxyEffect where
  | readConfiguration
  | githubOAuth (clientId : String)
  | fetchCredential (clientId : String) (subscription : Bool)
  | send (request : UpstreamRequest)
  | invalidateIf (key credential : String)

def upstreamBase (gateway : LlmGatewayConfig) : Upstream → String
  | .url => gateway.url
  | .proxyUrl => gateway.proxyUrl.getD gateway.url

def maxRequestBody : Nat := 32 * 1024 * 1024

namespace ProxyError

def internal (message : String) : ProxyError :=
  ⟨500, "agentdesktop_unavailable", message⟩

def unavailable (message : String) : ProxyError :=
  ⟨503, "agentdesktop_unavailable", message⟩

def gatewayUnreachable (message : String) : ProxyError :=
  ⟨502, "gateway_unreachable", message⟩

def clientCredentialMissing (message : String) : ProxyError :=
  ⟨401, "client_credential_missing", message⟩

end ProxyError

/-- The client id, the credential mode and the URI of a request. -/
structure ForwardTarget where
  clientId : String
  credentialMode : Option RouteCredential
  uri : Uri

section

variable (parseUri : Octets → Except String Uri)

def upstreamUri (base : String) (rest : Octets) (query : Option Octets) : Except ProxyError Uri :=
  let base := trimEndMatches (· == octet '/') (octets base)
  let text :=
    match query with
    | some query => base ++ rest ++ octet '?' :: query
    | none => base ++ rest
  match parseUri text with
  | .ok uri => .ok uri
  | .error error => .error (.gatewayUnreachable error)

/-- Which route, which client id, which credential mode, which upstream. -/
def forwardTarget (config : ProxyConfig) (gateway : LlmGatewayConfig) (path : Octets) (query : Option Octets)
    (gated : GatedRequest) : Except ProxyError ForwardTarget :=
  match gated.matched with
  | some (route, rest) =>
    if route.upstream = .proxyUrl ∧ gateway.proxyUrl = none then
      .error (.unavailable
        "agentdesktop proxy: this route needs llmGateway.proxyUrl, which is not configured")
    else
      (upstreamUri parseUri (upstreamBase gateway route.upstream) (gated.capiRest.getD rest) query).map
        fun uri => ⟨route.clientId, some route.credential, uri⟩
  | none =>
    (upstreamUri parseUri (upstreamBase gateway .proxyUrl) path query).map
      fun uri => ⟨config.defaultClientId, none, uri⟩

end

def readBody (request : ProxyRequest) : Except ProxyError Octets :=
  match request.body with
  | .error error =>
    .error ⟨400, "body_invalid", "agentdesktop proxy: could not read the request body: " ++ error⟩
  | .ok body =>
    if body.length > maxRequestBody then
      .error ⟨413, "body_too_large",
        "agentdesktop proxy: request body exceeds " ++ toString maxRequestBody ++ " bytes"⟩
    else .ok body

/-- The credential of the client itself. The pairing is never one. -/
def clientCredential (pairing : Octets) (headers : HeaderMap) : Option Octets :=
  (bearerOrHeader headers llmTokenHeader).filter fun value => !constantTimeEq value pairing

/-- A health ping of the CAPI route, which needs no credential. -/
def credentialLessPing (gated : GatedRequest) (method : Method) (credential : Option Octets) : Bool :=
  gated.matched.any (·.1.credentialLessPing) && gated.capiRest == some (octets "/_ping") && method == .get &&
    credential.isNone

/-- The token of `x-llm-token`. -/
def upstreamToken (githubOAuth : String → Except String String) (gateway : LlmGatewayConfig)
    (mode : Option RouteCredential) (credential : Option Octets) (ping : Bool) :
    List ProxyEffect × Except ProxyError (Option Octets) :=
  match mode with
  | some .gateway => ([], .ok none)
  | some .passthrough =>
    if ping then ([], .ok none)
    else
      match credential with
      | some token => ([], .ok (some token))
      | none =>
        ([], .error (.clientCredentialMissing
          "agentdesktop proxy: no client credential to pass through; send it in Authorization or x-llm-token"))
  | none =>
    match gateway.githubOAuth with
    | none => ([], .ok none)
    | some ⟨.deviceFlow, none⟩ => ([], .error (.internal "githubOAuth.clientId is required for deviceFlow"))
    | some ⟨.deviceFlow, some clientId⟩ =>
      match githubOAuth clientId with
      | .ok token => ([.githubOAuth clientId], .ok (some (octets token)))
      | .error error => ([.githubOAuth clientId], .error (.gatewayUnreachable ("GitHub OAuth: " ++ error)))
    | some ⟨.request, _⟩ =>
      match credential with
      | some token => ([], .ok (some token))
      | none =>
        ([], .error (.clientCredentialMissing
          "no client credential to forward; send it in Authorization or x-llm-token"))

def droppedHeaders : List Octets :=
  [authorizationHeader, octets "x-api-key", octets "api-key", llmTokenHeader, pairingHeader]

/-- The headers of a request without its hop headers and its credentials. The two hop
headers that carry an upgrade are put back. -/
def clearedHeaders (websocket : Bool) (headers : HeaderMap) : HeaderMap :=
  let stripped := stripHopHeaders headers
  let stripped :=
    if websocket then
      (stripped.insert connectionHeader (octets "Upgrade")).insert upgradeHeader (octets "websocket")
    else stripped
  stripped.removeAll droppedHeaders

/-- The headers that go upstream, but for `Authorization`. -/
def upstreamHeaders (websocket : Bool) (headers : HeaderMap) (token : Option Octets) (host : Octets) : HeaderMap :=
  let cleared := clearedHeaders websocket headers
  let cleared :=
    match token with
    | some token => cleared.insert llmTokenHeader token
    | none => cleared
  cleared.insert hostHeader host

end AgentDesktop
