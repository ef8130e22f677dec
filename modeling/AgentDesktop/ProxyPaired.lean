import AgentDesktop.ProxyUnderway

namespace AgentDesktop

/-- A path of the CAPI route. -/
def ProxyRequest.OnCapi (request : ProxyRequest) : Prop :=
  ∃ tail, request.path = octets capiRoute ++ tail ∧ (tail = [] ∨ tail.head? = some (octet '/'))

theorem matchRoute_capi {tail : Octets} (htail : tail = [] ∨ tail.head? = some (octet '/')) :
    matchRoute (octets capiRoute ++ tail) = some (capiProxyRoute, if tail.isEmpty then [octet '/'] else tail) := by
  have hcodex : stripPrefix (octets codexRoute) (octets capiRoute ++ tail) = none := rfl
  have hpassthrough : stripPrefix (octets "/vscode-copilot-passthrough") (octets capiRoute ++ tail) = none := rfl
  have hcapi : stripPrefix (octets capiProxyRoute.pathPrefix) (octets capiRoute ++ tail) = some tail :=
    stripPrefix_eq_some_iff.mpr rfl
  simp only [matchRoute, routes, List.findSome?_cons, ProxyRoute.matchPath, hcodex, hpassthrough, hcapi]
  rcases htail with rfl | htail
  · rfl
  · cases tail with
    | nil => rfl
    | cons o tail => simp [htail]

theorem onCapi_of_matched {request : ProxyRequest} {route : ProxyRoute} {rest : Octets}
    (h : matchRoute request.path = some (route, rest)) (hroute : route.pathPrefix = capiRoute) : request.OnCapi := by
  obtain ⟨_, tail, hpath, htail, _⟩ := matchRoute_spec h
  exact ⟨tail, hroute ▸ hpath, htail⟩

/-- A request from this host, of a native client, with the pairing where its route has it. -/
structure PairedLocal (config : ProxyConfig) (request : ProxyRequest) : Prop where
  host : ∃ host name, request.headers.get hostHeader = some host ∧ IsHostName (trim host) name ∧ IsLocal name
  origin : request.headers.containsKey originHeader = false
  connect : request.method ≠ .connect
  options : request.method ≠ .options
  segment : request.OnCapi → ∃ rest, request.path = octets capiRoute ++ octet '/' :: (config.pairing ++ rest) ∧
    config.pairing ≠ [] ∧ octet '/' ∉ config.pairing ∧ (rest = [] ∨ rest.head? = some (octet '/'))
  header : ¬ request.OnCapi → request.headers.get pairingHeader = some config.pairing

/-- What holds of a request besides when something is sent upstream for it. -/
structure SentSafely (request : ProxyRequest) (sent : UpstreamRequest) : Prop where
  segments : ∃ decoded, percentDecode request.path = some decoded ∧
    octets ".." ∉ decoded.splitOnP isPathSeparator
  unmatched : matchRoute request.path = none → ∀ slashes first rest, request.path = slashes ++ (first ++ rest) →
    (∀ o ∈ slashes, o = octet '/') → first ≠ [] → octet '/' ∉ first →
    (rest = [] ∨ rest.head? = some (octet '/')) → ∀ route ∈ routes, ¬ route.name <+: toAsciiLowercase first
  websocket : isWebsocketUpgrade sent.headers = true → request.OnCapi

theorem GatePassed.paired {config : ProxyConfig} {request : ProxyRequest} {gated : GatedRequest}
    (h : GatePassed config request gated) : PairedLocal config request := by
  have hpairing := checkPairing_spec h.pairing
  refine ⟨hostIsLoopback_spec h.host, h.origin, h.connect, h.options, fun hcapi => ?_, fun hcapi => ?_⟩
  · obtain ⟨tail, hpath, htail⟩ := hcapi
    rw [h.matched, hpath, matchRoute_capi htail] at hpairing
    rcases hpairing with ⟨_, rest, remainder, hsome, _, hsplit, _⟩ | ⟨hnot, _⟩
    · obtain ⟨rfl, rfl⟩ := Prod.mk.inj (Option.some.inj hsome)
      obtain ⟨hne, hslash, after, hrest, hafter, _⟩ := splitPathPairing_spec hsplit
      refine ⟨after, ?_, hne, hslash, hafter⟩
      rw [hpath]
      congr 1
      cases tail with
      | nil =>
        exfalso
        simp [hne] at hrest
      | cons o tail => exact hrest
    · cases hnot
  · rcases hpairing with ⟨route, rest, _, hsome, hinPath, _, _⟩ | ⟨_, hheader, _⟩
    · have hmatch : matchRoute request.path = some (route, rest) := h.matched.symm.trans hsome
      have hcapiRoute := (capi_of_pairingInPath route (matchRoute_spec hmatch).1).1.mp hinPath
      exact absurd (onCapi_of_matched hmatch hcapiRoute) hcapi
    · exact hheader

theorem clearedHeaders_upgrade {headers : HeaderMap} : (clearedHeaders false headers).values upgradeHeader = [] := by
  have hhop : upgradeHeader ∈ hopHeaders := by decide
  simp [clearedHeaders, stripHopHeaders_values, hhop]

/-- An upgrade goes upstream only if the request asked for one. -/
theorem upstreamHeaders_upgrade {websocket : Bool} {headers : HeaderMap} {token : Option Octets} {host : Octets}
    (h : (upstreamHeaders websocket headers token host).values upgradeHeader ≠ []) : websocket = true := by
  have hhost : upgradeHeader ≠ hostHeader := by decide
  have htoken : upgradeHeader ≠ llmTokenHeader := by decide
  cases websocket with
  | true => rfl
  | false => cases token <;> simp [upstreamHeaders, hhost, htoken, clearedHeaders_upgrade] at h

theorem upgrade_of_isWebsocketUpgrade {headers : HeaderMap} (h : isWebsocketUpgrade headers = true) :
    headers.values upgradeHeader ≠ [] := by
  intro hnone
  simp [isWebsocketUpgrade, listItems, hnone] at h

section

variable {parseUri : Octets → Except String Uri} {config : ProxyConfig} {request : ProxyRequest}
  {P : ProxyEnvironment → Prop}

theorem PreparedFor.sentSafely {prepared : PreparedRequest} (h : PreparedFor parseUri config request P prepared)
    {sent : UpstreamRequest} (hsent : prepared.Sends sent) : SentSafely request sent := by
  obtain ⟨environment, gated, effects, _, hgate, hprepare⟩ := h
  have hpassed := gate_spec hgate
  obtain ⟨gateway, target, body, token, _, _, hrequest⟩ := prepare_spec hprepare
  refine ⟨pathEscapesBase_eq_false_iff.mp hpassed.escapes, ?_, fun hwebsocket => ?_⟩
  · intro hnone slashes first rest hpath hslashes hne hfirst hrest
    have hresembles := hpassed.resembles (hpassed.matched.trans hnone)
    rw [hpath] at hresembles
    exact resemblesRoute_eq_false hresembles hslashes hne hfirst hrest
  · have hvalues : sent.headers.values upgradeHeader = prepared.request.headers.values upgradeHeader := by
      have hauthorization : upgradeHeader ≠ authorizationHeader := by decide
      rcases hsent with rfl | ⟨value, rfl⟩
      · rfl
      · simp [PreparedRequest.withAuthorization, hauthorization]
    have hupgrade := upgrade_of_isWebsocketUpgrade hwebsocket
    rw [hvalues, hrequest] at hupgrade
    have hroute := hpassed.upgrade (upstreamHeaders_upgrade hupgrade)
    cases hmatched : gated.matched with
    | none =>
      rw [hmatched] at hroute
      cases hroute
    | some pair =>
      obtain ⟨route, rest⟩ := pair
      rw [hmatched] at hroute
      have hmatch : matchRoute request.path = some (route, rest) := hpassed.matched.symm.trans hmatched
      exact onCapi_of_matched hmatch ((capi_of_pairingInPath route (matchRoute_spec hmatch).1).2.mp hroute)

end

/-- Only a paired request from this host makes the proxy do anything outside itself, and
what it sends upstream stays under the base of its route. -/
theorem only_paired_requests_forwarded (parseUri : Octets → Except String Uri) (config : ProxyConfig)
    (request : ProxyRequest) (inputs : List ForwardInput) (s : ForwardState)
    (run : forward parseUri config request inputs = some s) :
    (s.effects ≠ [] → PairedLocal config request) ∧
      ∀ sent, .send sent ∈ s.effects → PairedLocal config request ∧ SentSafely request sent := by
  have h : Underway parseUri config request (fun _ => True) s := underway_of_forward (fun _ _ => trivial) run
  have hpaired : s.effects ≠ [] → PairedLocal config request := by
    intro hne
    obtain ⟨gated, hgate⟩ := h.gated hne
    exact (gate_spec hgate).paired
  refine ⟨hpaired, fun sent hsent => ⟨hpaired (List.ne_nil_of_mem hsent), ?_⟩⟩
  obtain ⟨prepared, hfrom, hsends⟩ := h.sends sent hsent
  exact hfrom.sentSafely hsends

/-- The gateway of the examples, which needs no credential. -/
def openGateway : ProxyEnvironment where
  effectiveConfig := .ok { llmGateway := some ⟨"http://gateway", none, some "http://gateway/copilot", none⟩ }
  githubOAuth _ := .error "no device flow"
  deviceId := none

def gatewayUri (text : Octets) : Except String Uri :=
  .ok ⟨text, some (octets "gateway")⟩

def capiPing : ProxyRequest where
  method := .get
  pathAndQuery := some (octets "/vscode-copilot-capi/paired/_ping")
  headers := HeaderMap.insert {} hostHeader (octets "LOCALHOST:1455")
  body := .ok []

theorem only_paired_requests_forwarded_ping :
    ∃ s sent, forward gatewayUri ⟨"default", octets "paired"⟩ capiPing [.prepare openGateway] = some s ∧
      .send sent ∈ s.effects ∧ sent.uri.text = octets "http://gateway/copilot/_ping" ∧
      PairedLocal ⟨"default", octets "paired"⟩ capiPing ∧ SentSafely capiPing sent := by
  refine ⟨_, _, rfl, List.mem_cons_of_mem _ List.mem_cons_self, rfl, ?_⟩
  exact (only_paired_requests_forwarded gatewayUri ⟨"default", octets "paired"⟩ capiPing [.prepare openGateway] _ rfl).2
    _ (List.mem_cons_of_mem _ List.mem_cons_self)

end AgentDesktop
