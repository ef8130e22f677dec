import AgentDesktop.ProxyPairings

namespace AgentDesktop

section

variable {parseUri : Octets → Except String Uri} {clientId : String} {pairing other : Octets}
  {request : ProxyRequest} {gated gated' : GatedRequest}

/-- A request and the same request with another pairing, each accepted under its own,
are forwarded alike. -/
theorem arrive_rePair (hpairing : bearerOrHeader request.headers llmTokenHeader ≠ some pairing)
    (hother : bearerOrHeader request.headers llmTokenHeader ≠ some other)
    (hgate : gate ⟨clientId, pairing⟩ request = .ok gated)
    (hgate' : gate ⟨clientId, other⟩ (request.rePair pairing other) = .ok gated') (environment : ProxyEnvironment) :
    arrive parseUri ⟨clientId, pairing⟩ request environment =
      arrive parseUri ⟨clientId, other⟩ (request.rePair pairing other) environment := by
  rcases rePair_cases request pairing other with ⟨tail, hpath, hrepair⟩ | ⟨hpath, hsame, _⟩
  · rw [hrepair] at hgate' ⊢
    have h := capiPaired_of_gate hpath hgate
    have h' := capiPaired_of_gate rfl hgate'
    have hcredential : clientCredential pairing request.headers = clientCredential other request.headers := by
      rw [clientCredential_eq hpairing, clientCredential_eq hother]
    refine arrive_eq hgate hgate' ?_
    rw [h.gated_eq hgate, h'.gated_eq hgate']
    refine prepare_congr rfl rfl rfl rfl (fun gateway => ?_) (fun gateway target _ => ?_) rfl
    · rw [h.query, h'.query]
      rfl
    · show upstreamToken _ _ _ (clientCredential pairing request.headers) _ = _
      rw [hcredential]
      rfl
  · have hnot := not_onCapi hgate hpath
    have hnot' : ¬ (request.rePair pairing other).OnCapi := by
      rintro ⟨tail, htail⟩
      rw [← hsame.path] at htail
      exact hnot ⟨tail, htail⟩
    have hbearer := bearerOrHeader_congr hsame.headers (by decide) (by decide)
    have hcredential : clientCredential pairing request.headers =
        clientCredential other (request.rePair pairing other).headers := by
      rw [clientCredential_eq hpairing, clientCredential_eq (hbearer ▸ hother), hbearer]
    have hwebsocket := isWebsocketUpgrade_agreeOff hsame.headers (by decide) (by decide)
    refine arrive_eq hgate hgate' ?_
    rw [(gated_of_not_capi hnot hgate).1, (gated_of_not_capi hnot' hgate').1, ← hsame.path, ← hwebsocket]
    refine prepare_congr hsame.method hsame.body rfl rfl (fun gateway => ?_) (fun gateway target _ => ?_)
      (clearedHeaders_congr _ hsame.headers (by decide))
    · rw [← hsame.path, ← hsame.query]
      rfl
    · show upstreamToken _ _ _ (clientCredential pairing request.headers) _ = _
      rw [hcredential, hsame.method]

/-- Under a pairing of the kind that is generated, the request with it is accepted too. -/
theorem accepted_rePair (hne : other ≠ []) (hsafe : ∀ o ∈ other, isUrlSafe o = true)
    (h : Accepted ⟨clientId, pairing⟩ request) : Accepted ⟨clientId, other⟩ (request.rePair pairing other) := by
  obtain ⟨gated, hgate⟩ := h
  rcases rePair_cases request pairing other with ⟨tail, hpath, hrepair⟩ | ⟨hpath, hsame, hvalues⟩
  · rw [hrepair]
    have h := capiPaired_of_gate hpath hgate
    have hpath' : ({ request with pathAndQuery := some (octets capiRoute ++ octet '/' :: (other ++ tail)) } :
        ProxyRequest).pathAndQuery = some (octets capiRoute ++ octet '/' :: (other ++ tail)) := rfl
    have hsplit := capi_split hpath' (not_mem_of_urlSafe hsafe (by decide))
    have h' : CapiPaired other tail { request with
        pathAndQuery := some (octets capiRoute ++ octet '/' :: (other ++ tail)) } :=
      ⟨hsplit.1, hsplit.2, hne, not_mem_of_urlSafe hsafe (by decide), h.rest⟩
    exact h.repaired h' hsafe rfl rfl hgate
  · have hnot := not_onCapi hgate hpath
    have hpassed := gate_spec hgate
    obtain ⟨rfl, hinPath⟩ := gated_of_not_capi hnot hgate
    have hfirst := hpassed.paired.header hnot
    have hget : (request.rePair pairing other).headers.get pairingHeader = some other := by
      rw [HeaderMap.get, List.head?_eq_some_iff] at hfirst
      obtain ⟨rest, hrest⟩ := hfirst
      rw [HeaderMap.get, hvalues, hrest]
      simp
    have hpaired : pairedByHeader other (request.rePair pairing other).headers = true := by
      rw [pairedByHeader, hget, Option.bind_some, toStr_urlSafe hsafe]
      exact constantTimeEq_iff.mpr rfl
    have hrepaired : GatePassed ⟨clientId, other⟩ (request.rePair pairing other)
        ⟨matchRoute request.path, none, isWebsocketUpgrade request.headers⟩ := by
      refine ⟨?_, ?_, ?_, ?_, congrArg matchRoute hsame.path, ?_, ?_, hpassed.upgrade, ?_, ?_⟩
      · rw [← hostIsLoopback_congr hsame.headers (by decide)]
        exact hpassed.host
      · rw [← containsKey_agreeOff hsame.headers (by decide)]
        exact hpassed.origin
      · exact hsame.method ▸ hpassed.connect
      · exact hsame.method ▸ hpassed.options
      · simp [checkPairing, hinPath, hpaired]
      · exact isWebsocketUpgrade_agreeOff hsame.headers (by decide) (by decide)
      · exact hsame.path ▸ hpassed.escapes
      · exact hsame.path ▸ hpassed.resembles
    exact ⟨_, hrepaired.gate⟩

/-- A token that goes upstream is not the pairing, unless the device flow gave it. -/
theorem PreparedFor.token_ne_pairing {config : ProxyConfig} {P : ProxyEnvironment → Prop} {prepared : PreparedRequest}
    (h : PreparedFor parseUri config request P prepared)
    (hflow : ∀ environment, P environment → ∀ client text, environment.githubOAuth client = .ok text →
      octets text ≠ config.pairing)
    {sent : UpstreamRequest} (hsent : prepared.Sends sent) : config.pairing ∉ sent.headers.values llmTokenHeader := by
  obtain ⟨environment, gated, effects, hfound, _, hprepare⟩ := h
  obtain ⟨gateway, target, body, token, _, htoken, hrequest⟩ := prepare_spec hprepare
  have hvalues : sent.headers.values llmTokenHeader = token.toList := by
    have hauthorization : llmTokenHeader ≠ authorizationHeader := by decide
    rcases hsent with rfl | ⟨value, rfl⟩
    · rw [hrequest]
      exact upstreamHeaders_token _ _ _ _
    · simp only [PreparedRequest.withAuthorization, HeaderMap.insert_values, if_neg hauthorization, hrequest]
      exact upstreamHeaders_token _ _ _ _
  rw [hvalues]
  intro hmem
  obtain rfl : token = some config.pairing := Option.mem_toList.mp hmem
  rcases upstreamToken_spec htoken with hcredential | ⟨client, text, htext, heq⟩
  · unfold clientCredential at hcredential
    have hkept := (Option.filter_eq_some_iff.mp hcredential).2
    rw [constantTimeEq_iff.mpr rfl] at hkept
    cases hkept
  · exact hflow environment hfound client text htext heq.symm

end

/-- What goes upstream depends neither on credentials that are dropped nor on the pairing,
and the pairing does not go upstream as a token, unless the device flow gives it. -/
theorem upstream_independent_of_pairing (parseUri : Octets → Except String Uri) (clientId : String)
    (inputs : List ForwardInput) :
    (∀ pairing first second, SameBut credentialHeaders first second →
        (∃ route rest, matchRoute first.path = some (route, rest) ∧ route.credential = .gateway) →
        forward parseUri ⟨clientId, pairing⟩ first inputs = forward parseUri ⟨clientId, pairing⟩ second inputs) ∧
      (∀ pairing other request, bearerOrHeader request.headers llmTokenHeader ≠ some pairing →
        bearerOrHeader request.headers llmTokenHeader ≠ some other → Accepted ⟨clientId, pairing⟩ request →
        Accepted ⟨clientId, other⟩ (request.rePair pairing other) →
        forward parseUri ⟨clientId, pairing⟩ request inputs =
          forward parseUri ⟨clientId, other⟩ (request.rePair pairing other) inputs) ∧
      (∀ pairing other request, other ≠ [] → (∀ o ∈ other, isUrlSafe o = true) →
        Accepted ⟨clientId, pairing⟩ request → Accepted ⟨clientId, other⟩ (request.rePair pairing other)) ∧
      (∀ pairing first second, SameBut [pairingHeader] first second → first.OnCapi →
        forward parseUri ⟨clientId, pairing⟩ first inputs = forward parseUri ⟨clientId, pairing⟩ second inputs) ∧
      ∀ pairing request s, forward parseUri ⟨clientId, pairing⟩ request inputs = some s →
        (∀ environment, .prepare environment ∈ inputs → ∀ client text, environment.githubOAuth client = .ok text →
          octets text ≠ pairing) →
        ∀ sent, .send sent ∈ s.effects → pairing ∉ sent.headers.values llmTokenHeader := by
  refine ⟨?_, ?_, fun pairing other request => accepted_rePair, ?_, ?_⟩
  · rintro pairing first second hsame ⟨route, rest, hmatch, hroute⟩
    exact forward_congr (arrive_gateway_route hsame hmatch hroute) inputs
  · rintro pairing other request hpairing hother ⟨gated, hgate⟩ ⟨gated', hgate'⟩
    exact forward_congr (arrive_rePair hpairing hother hgate hgate') inputs
  · intro pairing first second hsame hcapi
    exact forward_congr (arrive_capi_header hsame hcapi) inputs
  · intro pairing request s hrun hflow sent hsent
    have h : Underway parseUri ⟨clientId, pairing⟩ request (fun environment => .prepare environment ∈ inputs) s :=
      underway_of_forward (fun _ hmem => hmem) hrun
    obtain ⟨prepared, hfrom, hsends⟩ := h.sends sent hsent
    exact hfrom.token_ne_pairing hflow hsends

/-- The pairing a state directory holds, if it is long enough to be kept. -/
def existingPairing (contents : Octets) : Option Octets :=
  if (trim contents).length ≥ 32 then some (trim contents) else none

def plainPairing : Octets := octets "0123456789abcdef0123456789abcdef"

def slashPairing : Octets := octets "0123456789abcdef/0123456789abcdef"

/-- A health ping of VS Code under a pairing. -/
def pairedPing (pairing : Octets) : ProxyRequest :=
  { capiPing with pathAndQuery := some (octets capiRoute ++ octet '/' :: (pairing ++ octets "/_ping")) }

theorem upstream_independent_of_segment :
    ∃ s sent, forward gatewayUri ⟨"default", plainPairing⟩ (pairedPing plainPairing) [.prepare openGateway] = some s ∧
      .send sent ∈ s.effects ∧
      forward gatewayUri ⟨"default", octets "other"⟩ ((pairedPing plainPairing).rePair plainPairing (octets "other"))
        [.prepare openGateway] = some s ∧
      plainPairing ∉ sent.headers.values llmTokenHeader := by
  obtain ⟨_, hrepair, haccepted, _, htoken⟩ :=
    upstream_independent_of_pairing gatewayUri "default" [.prepare openGateway]
  have hpaired : Accepted ⟨"default", plainPairing⟩ (pairedPing plainPairing) := ⟨_, rfl⟩
  refine ⟨_, _, rfl, List.mem_cons_of_mem _ List.mem_cons_self, ?_, ?_⟩
  · rw [← hrepair plainPairing (octets "other") (pairedPing plainPairing) (by decide) (by decide) hpaired
      (haccepted plainPairing (octets "other") (pairedPing plainPairing) (by decide) (by decide +kernel) hpaired)]
    rfl
  · refine htoken plainPairing (pairedPing plainPairing) _ rfl ?_ _ (List.mem_cons_of_mem _ List.mem_cons_self)
    intro environment hmem client text htext
    obtain rfl : environment = openGateway := by simpa using hmem
    cases htext

/-- A gateway with OIDC sign-in whose device flow gives the pairing. -/
def pairingFlow : ProxyEnvironment where
  effectiveConfig :=
    .ok { llmGateway := some ⟨"http://gateway", some .oidc, none, some ⟨.deviceFlow, some "app"⟩⟩ }
  githubOAuth _ := .ok "0123456789abcdef0123456789abcdef"
  deviceId := none

def pairedModels : ProxyRequest where
  method := .get
  pathAndQuery := some (octets "/v1/models")
  headers := (HeaderMap.insert {} hostHeader (octets "127.0.0.1")).insert pairingHeader plainPairing
  body := .ok []

/-- A pairing with a `/` in it never matches a path segment, and a token of the device
flow goes upstream as it is. -/
theorem pairing_can_show_upstream :
    (existingPairing plainPairing = some plainPairing ∧ existingPairing slashPairing = some slashPairing ∧
        ∃ s sent t,
          forward gatewayUri ⟨"default", plainPairing⟩ (pairedPing plainPairing) [.prepare openGateway] = some s ∧
          .send sent ∈ s.effects ∧
          forward gatewayUri ⟨"default", slashPairing⟩ ((pairedPing plainPairing).rePair plainPairing slashPairing)
            [.prepare openGateway] = some t ∧ t.effects = []) ∧
      ∃ s sent, forward gatewayUri ⟨"default", plainPairing⟩ pairedModels
          [.prepare pairingFlow, .fetched (.ok ("signed-in", ⟨60, 60⟩, true))] = some s ∧
        .send sent ∈ s.effects ∧ sent.headers.get llmTokenHeader = some plainPairing := by
  constructor
  · exact ⟨by decide, by decide, _, _, _, rfl, List.mem_cons_of_mem _ List.mem_cons_self, rfl, rfl⟩
  · exact ⟨_, _, rfl, List.mem_of_getElem? (i := 3) rfl, rfl⟩

end AgentDesktop
