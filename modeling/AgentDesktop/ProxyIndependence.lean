import AgentDesktop.ProxyPaired

namespace AgentDesktop

/-- Two requests that differ only in the headers of the names. -/
structure SameBut (names : List Octets) (first second : ProxyRequest) : Prop where
  method : first.method = second.method
  pathAndQuery : first.pathAndQuery = second.pathAndQuery
  headers : first.headers.AgreeOff names second.headers
  body : first.body = second.body

variable {names : List Octets} {first second : ProxyRequest}

theorem SameBut.path (h : SameBut names first second) :
    first.path = second.path := by
  rw [ProxyRequest.path, h.pathAndQuery, ProxyRequest.path]

theorem SameBut.query (h : SameBut names first second) :
    first.query = second.query := by
  rw [ProxyRequest.query, h.pathAndQuery, ProxyRequest.query]

theorem clearedHeaders_congr {a b : HeaderMap} (websocket : Bool) (h : a.AgreeOff names b)
    (hdropped : ∀ name ∈ names, name ∈ droppedHeaders) : clearedHeaders websocket a = clearedHeaders websocket b := by
  have hconnection : connectionHeader ∉ names := fun hmem => absurd (hdropped _ hmem) (by decide)
  have hstripped := stripHopHeaders_agreeOff h hconnection
  ext1
  funext name
  by_cases hname : name ∈ droppedHeaders
  · rw [clearedHeaders_dropped websocket a hname, clearedHeaders_dropped websocket b hname]
  · have hsame := hstripped name fun hmem => hname (hdropped name hmem)
    cases websocket <;> simp [clearedHeaders, hname, hsame]

theorem hostIsLoopback_congr {a b : HeaderMap} (h : a.AgreeOff names b) (hhost : hostHeader ∉ names) :
    hostIsLoopback a = hostIsLoopback b := by
  rw [hostIsLoopback, get_agreeOff h hhost, hostIsLoopback]

/-- The checks read only the host, the origin, the upgrade and, off the CAPI route, the pairing. -/
theorem gate_congr {config : ProxyConfig} (h : SameBut names first second)
    (hdropped : ∀ name ∈ names, name ∈ droppedHeaders)
    (hpairing : checkPairing config.pairing first.headers (matchRoute first.path) =
      checkPairing config.pairing second.headers (matchRoute first.path)) :
    gate config first = gate config second := by
  have hkept : ∀ name, name ∉ droppedHeaders → name ∉ names := fun name hname hmem => hname (hdropped name hmem)
  have hhost := hostIsLoopback_congr h.headers (hkept hostHeader (by decide))
  have horigin := containsKey_agreeOff h.headers (hkept originHeader (by decide))
  have hwebsocket := isWebsocketUpgrade_agreeOff h.headers (hkept connectionHeader (by decide))
    (hkept upgradeHeader (by decide))
  rw [h.path] at hpairing
  simp only [gate, hhost, horigin, hwebsocket, hpairing, h.method, h.path]

theorem any_map_fst {matched other : Option (ProxyRoute × Octets)} (h : matched.map (·.1) = other.map (·.1))
    (p : ProxyRoute → Bool) : matched.any (fun pair => p pair.1) = other.any (fun pair => p pair.1) := by
  have hmap : ∀ pairs : Option (ProxyRoute × Octets), pairs.any (fun pair => p pair.1) = (pairs.map (·.1)).any p := by
    intro pairs
    cases pairs <;> rfl
  rw [hmap, hmap, h]

section

variable {parseUri : Octets → Except String Uri} {config other : ProxyConfig} {first second : ProxyRequest}

/-- What is prepared depends on the route, the target, the token and the headers that are kept. -/
theorem prepare_congr {environment : ProxyEnvironment} {gated gated' : GatedRequest}
    (hmethod : first.method = second.method) (hbody : first.body = second.body)
    (hwebsocket : gated.websocket = gated'.websocket)
    (hroute : gated.matched.map (·.1) = gated'.matched.map (·.1))
    (htarget : ∀ gateway, forwardTarget parseUri config gateway first.path first.query gated =
      forwardTarget parseUri other gateway second.path second.query gated')
    (htoken : ∀ gateway target, forwardTarget parseUri config gateway first.path first.query gated = .ok target →
      upstreamToken environment.githubOAuth gateway target.credentialMode
        (clientCredential config.pairing first.headers)
        (credentialLessPing gated first.method (clientCredential config.pairing first.headers)) =
      upstreamToken environment.githubOAuth gateway target.credentialMode
        (clientCredential other.pairing second.headers)
        (credentialLessPing gated' second.method (clientCredential other.pairing second.headers)))
    (hheaders : clearedHeaders gated.websocket first.headers = clearedHeaders gated'.websocket second.headers) :
    prepare parseUri config environment first gated = prepare parseUri other environment second gated' := by
  rw [hwebsocket] at hheaders
  have hassemble : ∀ programs gateway target body token,
      assemble environment programs gateway first gated target body token =
        assemble environment programs gateway second gated' target body token := by
    intro programs gateway target body token
    simp only [assemble, upstreamHeaders, hheaders, hmethod, hwebsocket,
      any_map_fst hroute (·.pathPrefix == codexRoute)]
  have hread : readBody first = readBody second := by rw [readBody, hbody, readBody]
  unfold prepare
  cases environment.effectiveConfig with
  | error error => rfl
  | ok effective =>
    dsimp only
    cases effective.llmGateway with
    | none => rfl
    | some gateway =>
      dsimp only
      rw [← htarget gateway, hread]
      cases hfirst : forwardTarget parseUri config gateway first.path first.query gated with
      | error error => rfl
      | ok target => simp only [htoken gateway target hfirst, hassemble]

theorem forward_congr (h : ∀ environment, arrive parseUri config first environment =
    arrive parseUri other second environment) (inputs : List ForwardInput) :
    forward parseUri config first inputs = forward parseUri other second inputs := by
  have hstep : ForwardState.step parseUri config first = ForwardState.step parseUri other second := by
    funext s input
    have hforward : forwardStep parseUri config first s.pc input = forwardStep parseUri other second s.pc input := by
      unfold forwardStep
      split <;> simp [h]
    rw [ForwardState.step, hforward, ForwardState.step]
  rw [forward, hstep, forward]

end

end AgentDesktop
