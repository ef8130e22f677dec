import AgentDesktop.ProxyPrepare

namespace AgentDesktop

theorem clearedHeaders_dropped (websocket : Bool) (headers : HeaderMap) {name : Octets}
    (h : name ∈ droppedHeaders) : (clearedHeaders websocket headers).values name = [] := by
  simp [clearedHeaders, h]

theorem upstreamHeaders_token (websocket : Bool) (headers : HeaderMap) (token : Option Octets) (host : Octets) :
    (upstreamHeaders websocket headers token host).values llmTokenHeader = token.toList := by
  have hhost : llmTokenHeader ≠ hostHeader := by decide
  cases token with
  | none =>
    have hmem : llmTokenHeader ∈ droppedHeaders := by decide
    simp [upstreamHeaders, hhost, clearedHeaders_dropped websocket headers hmem]
  | some token => simp [upstreamHeaders, hhost]

theorem upstreamHeaders_authorization (websocket : Bool) (headers : HeaderMap) (token : Option Octets)
    (host : Octets) : (upstreamHeaders websocket headers token host).values authorizationHeader = [] := by
  have hhost : authorizationHeader ≠ hostHeader := by decide
  have htoken : authorizationHeader ≠ llmTokenHeader := by decide
  have hmem : authorizationHeader ∈ droppedHeaders := by decide
  cases token with
  | none => simp [upstreamHeaders, hhost, clearedHeaders_dropped websocket headers hmem]
  | some token => simp [upstreamHeaders, hhost, htoken, clearedHeaders_dropped websocket headers hmem]

def LlmGatewayAuthentication.controllerIssued : LlmGatewayAuthentication → Bool
  | .controllerJwt _ => true
  | .oidc => false

/-- A request that is ready to be sent but for its `Authorization`. -/
structure PreparedRequest where
  request : UpstreamRequest
  clientId : String
  subscription : Bool
  clientTokenSent : Bool
  authentication : Option LlmGatewayAuthentication
  cacheKey : Option (String × String)
  websocket : Bool
  token : request.headers.containsKey llmTokenHeader = clientTokenSent
  authorization : request.headers.values authorizationHeader = []
  cached : cacheKey.isSome = true → authentication.any (·.controllerIssued) = true

/-- The key and the device under which a credential is cached. Only controller-issued
credentials are. -/
def credentialCacheKey (gateway : LlmGatewayConfig) (clientId : String) (subscription : Bool)
    (deviceId : Option String) : Option (String × String) :=
  match gateway.authentication with
  | some (.controllerJwt audience) =>
    deviceId.map fun deviceId =>
      (clientId ++ "\u0000" ++ gateway.url ++ "\u0000" ++ audience ++
        (if subscription then "\u0000subscription" else ""), deviceId)
  | _ => none

theorem credentialCacheKey_cached {gateway : LlmGatewayConfig} {clientId : String} {subscription : Bool}
    {deviceId : Option String} (h : (credentialCacheKey gateway clientId subscription deviceId).isSome = true) :
    gateway.authentication.any (·.controllerIssued) = true := by
  unfold credentialCacheKey at h
  split at h
  next audience hauthentication =>
    rw [hauthentication]
    rfl
  next => cases h

/-- The request with its headers, once its token is known. -/
def assemble (environment : ProxyEnvironment) (programs : ProgramsConfig) (gateway : LlmGatewayConfig)
    (request : ProxyRequest) (gated : GatedRequest) (target : ForwardTarget) (body : Octets) (token : Option Octets) :
    Except ProxyError PreparedRequest :=
  let host := target.uri.authority.getD []
  let subscription :=
    token.isSome && gated.matched.any (·.1.pathPrefix == codexRoute) &&
      programs.subscriptionAuth target.clientId == some .clientPassthrough
  if token.any fun token => (headerValueFromStr token).isNone then
    .error (.gatewayUnreachable "invalid client credential header")
  else if (headerValueFromStr host).isNone then .error (.gatewayUnreachable "invalid gateway host")
  else
    .ok
      { request :=
          { method := request.method, uri := target.uri, body
            headers := upstreamHeaders gated.websocket request.headers token host }
        clientId := target.clientId
        subscription
        clientTokenSent := token.isSome
        authentication := gateway.authentication
        cacheKey := credentialCacheKey gateway target.clientId subscription environment.deviceId
        websocket := gated.websocket
        token := by cases token <;> simp [HeaderMap.containsKey, upstreamHeaders_token]
        authorization := upstreamHeaders_authorization _ _ _ _
        cached := credentialCacheKey_cached }

section

variable (parseUri : Octets → Except String Uri) (config : ProxyConfig)

/-- What `forward` does between reading the configuration and the first attempt. -/
def prepare (environment : ProxyEnvironment) (request : ProxyRequest) (gated : GatedRequest) :
    List ProxyEffect × Except ProxyError PreparedRequest :=
  match environment.effectiveConfig with
  | .error _ =>
    ([], .error (.internal "agentdesktop: could not read the applied configuration; see the daemon log"))
  | .ok effective =>
    match effective.llmGateway with
    | none => ([], .error (.unavailable "agentdesktop: no LLM gateway configured on this device yet"))
    | some gateway =>
      match forwardTarget parseUri config gateway request.path request.query gated with
      | .error error => ([], .error error)
      | .ok target =>
        match readBody request with
        | .error error => ([], .error error)
        | .ok body =>
          let credential := clientCredential config.pairing request.headers
          let ping := credentialLessPing gated request.method credential
          match upstreamToken environment.githubOAuth gateway target.credentialMode credential ping with
          | (effects, .error error) => (effects, .error error)
          | (effects, .ok token) =>
            (effects, assemble environment effective.programs gateway request gated target body token)

end

end AgentDesktop
