import AgentDesktop.ProxyForward

namespace AgentDesktop

variable {effects : List ProxyEffect}

section

variable {parseUri : Octets → Except String Uri} {config : ProxyConfig} {request : ProxyRequest}
  {environment : ProxyEnvironment} {gated : GatedRequest} {gateway : LlmGatewayConfig}

theorem upstreamToken_effects {githubOAuth : String → Except String String} {mode : Option RouteCredential}
    {credential : Option Octets} {ping : Bool} :
    ∀ effect ∈ (upstreamToken githubOAuth gateway mode credential ping).1,
      ∃ clientId, effect = .githubOAuth clientId := by
  intro effect heffect
  unfold upstreamToken at heffect
  split at heffect
  next => cases heffect
  next =>
    split at heffect
    next => cases heffect
    next =>
      split at heffect
      next => cases heffect
      next => cases heffect
  next =>
    split at heffect
    next => cases heffect
    next => cases heffect
    next clientId _ =>
      split at heffect
      next => exact ⟨clientId, List.mem_singleton.mp heffect⟩
      next => exact ⟨clientId, List.mem_singleton.mp heffect⟩
    next =>
      split at heffect
      next => cases heffect
      next => cases heffect

/-- A token is the credential of the client, or what the device flow gives. -/
theorem upstreamToken_spec {githubOAuth : String → Except String String} {mode : Option RouteCredential}
    {credential : Option Octets} {ping : Bool} {token : Octets}
    (h : upstreamToken githubOAuth gateway mode credential ping = (effects, .ok (some token))) :
    credential = some token ∨ ∃ clientId text, githubOAuth clientId = .ok text ∧ token = octets text := by
  unfold upstreamToken at h
  split at h
  next => cases h
  next =>
    split at h
    next => cases h
    next =>
      split at h
      next =>
        cases h
        exact Or.inl rfl
      next => cases h
  next =>
    split at h
    next => cases h
    next => cases h
    next clientId _ =>
      split at h
      next text htext =>
        cases h
        exact Or.inr ⟨clientId, text, htext, rfl⟩
      next => cases h
    next =>
      split at h
      next =>
        cases h
        exact Or.inl rfl
      next => cases h

theorem assemble_spec {programs : ProgramsConfig} {target : ForwardTarget} {body : Octets} {token : Option Octets}
    {prepared : PreparedRequest}
    (h : assemble environment programs gateway request gated target body token = .ok prepared) :
    prepared.request = ⟨request.method, target.uri,
      upstreamHeaders gated.websocket request.headers token (target.uri.authority.getD []), body⟩ := by
  simp only [assemble] at h
  split at h
  next => cases h
  next =>
    split at h
    next => cases h
    next =>
      cases h
      rfl

theorem prepare_effects : ∀ effect ∈ (prepare parseUri config environment request gated).1,
    ∃ clientId, effect = .githubOAuth clientId := by
  intro effect heffect
  unfold prepare at heffect
  split at heffect
  next => cases heffect
  next =>
    split at heffect
    next => cases heffect
    next =>
      split at heffect
      next => cases heffect
      next =>
        split at heffect
        next => cases heffect
        next =>
          dsimp only at heffect
          split at heffect
          next effects error htoken =>
            have heffects := congrArg Prod.fst htoken
            exact upstreamToken_effects effect (heffects ▸ heffect)
          next effects token htoken =>
            have heffects := congrArg Prod.fst htoken
            exact upstreamToken_effects effect (heffects ▸ heffect)

/-- Where the request that goes upstream comes from. -/
theorem prepare_spec {prepared : PreparedRequest}
    (h : prepare parseUri config environment request gated = (effects, .ok prepared)) :
    ∃ (gateway : LlmGatewayConfig) (target : ForwardTarget) (body : Octets) (token : Option Octets),
      readBody request = .ok body ∧
      upstreamToken environment.githubOAuth gateway target.credentialMode
        (clientCredential config.pairing request.headers)
        (credentialLessPing gated request.method (clientCredential config.pairing request.headers)) =
          (effects, .ok token) ∧
      prepared.request = ⟨request.method, target.uri,
        upstreamHeaders gated.websocket request.headers token (target.uri.authority.getD []), body⟩ := by
  unfold prepare at h
  split at h
  next => cases h
  next effective _ =>
    split at h
    next => cases h
    next gateway _ =>
      split at h
      next => cases h
      next target _ =>
        split at h
        next => cases h
        next body hbody =>
          dsimp only at h
          split at h
          next => cases h
          next token htoken =>
            obtain ⟨rfl, hassemble⟩ := Prod.mk.inj h
            exact ⟨gateway, target, body, token, hbody, htoken, assemble_spec hassemble⟩

end

/-- A request that an attempt sends: the prepared one, with a gateway credential or
without authentication. -/
def PreparedRequest.Sends (prepared : PreparedRequest) (sent : UpstreamRequest) : Prop :=
  sent = prepared.request ∨ ∃ value, sent = prepared.withAuthorization value

namespace PreparedRequest

variable (prepared : PreparedRequest) (retried : Bool)

theorem attempt_spec : ((prepared.attempt retried).1.prepared = some prepared) ∧
    ∀ sent, .send sent ∈ (prepared.attempt retried).2 → prepared.Sends sent := by
  unfold attempt
  split
  next =>
    split
    next => exact ⟨rfl, fun _ => nofun⟩
    next =>
      refine ⟨rfl, fun sent hsent => ?_⟩
      simp [fetch] at hsent
  next =>
    refine ⟨rfl, fun sent hsent => Or.inl ?_⟩
    simpa using hsent

theorem useCredential_spec (used : AttemptCredential) :
    (∀ other ∈ (prepared.useCredential retried used).1.prepared, other = prepared) ∧
      ∀ sent, .send sent ∈ (prepared.useCredential retried used).2 → prepared.Sends sent := by
  unfold useCredential
  split
  next => exact ⟨fun _ => nofun, fun _ => nofun⟩
  next value _ =>
    refine ⟨fun other hother => (Option.some.inj hother).symm, fun sent hsent => Or.inr ⟨value, ?_⟩⟩
    simpa using hsent

theorem invalidates_sends (used : Option AttemptCredential) (sent : UpstreamRequest) :
    .send sent ∉ prepared.invalidates used := by
  unfold invalidates
  split
  next => simp
  next => simp

theorem answered_spec (used : Option AttemptCredential) (response : GatewayResponse) :
    (∀ other ∈ (prepared.answered retried used response).1.prepared, other = prepared) ∧
      ∀ sent, .send sent ∈ (prepared.answered retried used response).2 → prepared.Sends sent := by
  unfold answered
  split
  next =>
    refine ⟨fun other hother => ?_, fun sent hsent => ?_⟩
    · rw [(prepared.attempt_spec true).1] at hother
      exact (Option.some.inj hother).symm
    · rcases List.mem_append.mp hsent with hsent | hsent
      · exact absurd hsent (prepared.invalidates_sends used sent)
      · exact (prepared.attempt_spec true).2 sent hsent
  next =>
    refine ⟨fun _ => nofun, fun sent hsent => ?_⟩
    dsimp only at hsent
    split at hsent
    next => exact absurd hsent (prepared.invalidates_sends used sent)
    next => cases hsent

end PreparedRequest

/-- An attempt goes on with what was prepared and sends nothing else. -/
theorem resume_spec {pc next : ForwardPc} {input : ForwardInput} (h : resume pc input = some (next, effects)) :
    ∃ prepared, pc.prepared = some prepared ∧ (∀ other ∈ next.prepared, other = prepared) ∧
      ∀ sent, .send sent ∈ effects → prepared.Sends sent := by
  unfold resume at h
  split at h
  next prepared retried found =>
    refine ⟨prepared, rfl, ?_⟩
    split at h
    next credential deadline =>
      have hspec := prepared.useCredential_spec retried ⟨credential, deadline, true, false⟩
      rw [Option.some.inj h] at hspec
      exact hspec
    next =>
      cases h
      exact ⟨fun other hother => (Option.some.inj hother).symm, fun sent hsent => by simp at hsent⟩
  next prepared retried result =>
    refine ⟨prepared, rfl, ?_⟩
    split at h
    next credential deadline cached =>
      have hspec := prepared.useCredential_spec retried ⟨credential, deadline, cached, !cached⟩
      rw [Option.some.inj h] at hspec
      exact hspec
    next =>
      split at h
      next =>
        cases h
        exact ⟨fun _ => nofun, fun _ => nofun⟩
      next => cases h
    next =>
      cases h
      exact ⟨fun _ => nofun, fun _ => nofun⟩
  next prepared retried used result =>
    refine ⟨prepared, rfl, ?_⟩
    split at h
    next response =>
      have hspec := prepared.answered_spec retried used response
      rw [Option.some.inj h] at hspec
      exact hspec
    next =>
      cases h
      exact ⟨fun _ => nofun, fun _ => nofun⟩
  next => cases h

/-- A step of `forward` is its arrival or a step of an attempt. -/
theorem forwardStep_spec {parseUri : Octets → Except String Uri} {config : ProxyConfig} {request : ProxyRequest}
    {pc next : ForwardPc} {input : ForwardInput}
    (h : forwardStep parseUri config request pc input = some (next, effects)) :
    (∃ environment, pc = .arrived ∧ input = .prepare environment ∧
        arrive parseUri config request environment = (next, effects)) ∨
      resume pc input = some (next, effects) := by
  unfold forwardStep at h
  split at h
  next environment => exact Or.inl ⟨environment, rfl, rfl, Option.some.inj h⟩
  next => exact Or.inr h

end AgentDesktop
