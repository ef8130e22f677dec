import AgentDesktop.ProxyIndependence

namespace AgentDesktop

/-- The headers of a client's own credentials. -/
def credentialHeaders : List Octets :=
  [authorizationHeader, octets "x-api-key", octets "api-key", llmTokenHeader]

section

variable {parseUri : Octets → Except String Uri} {pairing : Octets}

theorem clientCredential_eq {headers : HeaderMap} (h : bearerOrHeader headers llmTokenHeader ≠ some pairing) :
    clientCredential pairing headers = bearerOrHeader headers llmTokenHeader := by
  unfold clientCredential
  cases hbearer : bearerOrHeader headers llmTokenHeader with
  | none => rfl
  | some token =>
    have hne : constantTimeEq token pairing = false := by
      rw [Bool.eq_false_iff]
      intro heq
      exact h (hbearer.trans (congrArg some (constantTimeEq_iff.mp heq)))
    simp [Option.filter, hne]

theorem bearerOrHeader_congr {names : List Octets} {a b : HeaderMap} (h : a.AgreeOff names b)
    (htoken : llmTokenHeader ∉ names) (hauthorization : authorizationHeader ∉ names) :
    bearerOrHeader a llmTokenHeader = bearerOrHeader b llmTokenHeader := by
  rw [bearerOrHeader, get_agreeOff h htoken, get_agreeOff h hauthorization, bearerOrHeader]

theorem checkPairing_congr {a b : HeaderMap} (h : a.get pairingHeader = b.get pairingHeader)
    (matched : Option (ProxyRoute × Octets)) : checkPairing pairing a matched = checkPairing pairing b matched := by
  rw [checkPairing, pairedByHeader, h, checkPairing, pairedByHeader]

variable {first second : ProxyRequest}

theorem arrive_eq {config other : ProxyConfig} {gated gated' : GatedRequest} {environment : ProxyEnvironment}
    (hfirst : gate config first = .ok gated) (hsecond : gate other second = .ok gated')
    (hprepare : prepare parseUri config environment first gated = prepare parseUri other environment second gated') :
    arrive parseUri config first environment = arrive parseUri other second environment := by
  simp only [arrive, hfirst, hsecond, hprepare]

/-- Requests that pass the same checks, send the same token and differ only in headers
variable {config : ProxyConfig}

that are dropped are forwarded alike. -/
theorem arrive_congr {names : List Octets} (h : SameBut names first second)
    (hdropped : ∀ name ∈ names, name ∈ droppedHeaders) (hgate : gate config first = gate config second)
    (htoken : ∀ gated, gate config first = .ok gated → ∀ githubOAuth gateway target,
      forwardTarget parseUri config gateway first.path first.query gated = .ok target →
      upstreamToken githubOAuth gateway target.credentialMode (clientCredential config.pairing first.headers)
        (credentialLessPing gated first.method (clientCredential config.pairing first.headers)) =
      upstreamToken githubOAuth gateway target.credentialMode (clientCredential config.pairing second.headers)
        (credentialLessPing gated first.method (clientCredential config.pairing second.headers)))
    (environment : ProxyEnvironment) :
    arrive parseUri config first environment = arrive parseUri config second environment := by
  cases hfirst : gate config first with
  | error error =>
    have hsecond : gate config second = .error error := hgate.symm.trans hfirst
    simp only [arrive, hfirst, hsecond]
  | ok gated =>
    refine arrive_eq hfirst (hgate.symm.trans hfirst) ?_
    refine prepare_congr h.method h.body rfl rfl (fun gateway => ?_) (fun gateway target htarget => ?_)
      (clearedHeaders_congr _ h.headers hdropped)
    · rw [h.path, h.query]
    · rw [← h.method]
      exact htoken gated hfirst _ gateway target htarget

theorem forwardTarget_mode {gateway : LlmGatewayConfig} {path : Octets} {query : Option Octets} {gated : GatedRequest}
    {target : ForwardTarget} (h : forwardTarget parseUri config gateway path query gated = .ok target) :
    target.credentialMode = gated.matched.map (·.1.credential) := by
  unfold forwardTarget at h
  split at h
  next route rest hmatched =>
    split at h
    next => cases h
    next =>
      cases huri : upstreamUri parseUri (upstreamBase gateway route.upstream) (gated.capiRest.getD rest) query with
      | error error =>
        rw [huri] at h
        cases h
      | ok uri =>
        rw [huri] at h
        cases h
        rw [hmatched]
        rfl
  next hmatched =>
    cases huri : upstreamUri parseUri (upstreamBase gateway .proxyUrl) path query with
    | error error =>
      rw [huri] at h
      cases h
    | ok uri =>
      rw [huri] at h
      cases h
      rw [hmatched]
      rfl

/-- On a route that sends only the gateway identity the client's credentials play no part. -/
theorem arrive_gateway_route (h : SameBut credentialHeaders first second) {route : ProxyRoute} {rest : Octets}
    (hmatch : matchRoute first.path = some (route, rest)) (hroute : route.credential = .gateway)
    (environment : ProxyEnvironment) :
    arrive parseUri config first environment = arrive parseUri config second environment := by
  have hdropped : ∀ name ∈ credentialHeaders, name ∈ droppedHeaders := by decide
  have hpairing : pairingHeader ∉ credentialHeaders := by decide
  refine arrive_congr h hdropped (gate_congr h hdropped (checkPairing_congr (get_agreeOff h.headers hpairing) _)) ?_
    environment
  intro gated hgated githubOAuth gateway target htarget
  have hmode : target.credentialMode = some .gateway := by
    rw [forwardTarget_mode htarget, (gate_spec hgated).matched, hmatch]
    exact congrArg some hroute
  rw [hmode]
  rfl

/-- On the CAPI route the pairing header plays no part. -/
theorem arrive_capi_header (h : SameBut [pairingHeader] first second) (hcapi : first.OnCapi)
    (environment : ProxyEnvironment) :
    arrive parseUri config first environment = arrive parseUri config second environment := by
  have hdropped : ∀ name ∈ [pairingHeader], name ∈ droppedHeaders := by decide
  have hchecked : checkPairing config.pairing first.headers (matchRoute first.path) =
      checkPairing config.pairing second.headers (matchRoute first.path) := by
    obtain ⟨tail, hpath, htail⟩ := hcapi
    rw [hpath, matchRoute_capi htail]
    rfl
  have hcredential : clientCredential config.pairing first.headers =
      clientCredential config.pairing second.headers := by
    rw [clientCredential, bearerOrHeader_congr h.headers (by decide) (by decide), clientCredential]
  refine arrive_congr h hdropped (gate_congr h hdropped hchecked) ?_ environment
  intro gated _ githubOAuth gateway target _
  rw [hcredential]

end

end AgentDesktop
