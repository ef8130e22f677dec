import AgentDesktop.ProxyTokenAnswers

namespace AgentDesktop

variable {prepared : PreparedRequest}

section

variable {parseUri : Octets → Except String Uri} {config : ProxyConfig} {request : ProxyRequest}
  {environment : ProxyEnvironment} {gated : GatedRequest}

theorem assemble_cacheKey {programs : ProgramsConfig} {gateway : LlmGatewayConfig} {target : ForwardTarget}
    {body : Octets} {token : Option Octets}
    (h : assemble environment programs gateway request gated target body token = .ok prepared) :
    prepared.cacheKey =
      credentialCacheKey gateway target.clientId prepared.subscription environment.deviceId := by
  simp only [assemble] at h
  split at h
  next => cases h
  next =>
    split at h
    next => cases h
    next =>
      cases h
      rfl

/-- Under a gateway with controller credentials an enrolled device caches what a request fetches. -/
theorem prepare_cacheKey {effects : List ProxyEffect} {effective : EffectiveConfig} {gateway : LlmGatewayConfig}
    {audience deviceId : String} (h : prepare parseUri config environment request gated = (effects, .ok prepared))
    (heffective : environment.effectiveConfig = .ok effective) (hgateway : effective.llmGateway = some gateway)
    (hissued : gateway.authentication = some (.controllerJwt audience))
    (hdevice : environment.deviceId = some deviceId) : ∃ key, prepared.cacheKey = some (key, deviceId) := by
  unfold prepare at h
  rw [heffective] at h
  dsimp only at h
  rw [hgateway] at h
  dsimp only at h
  split at h
  next => cases h
  next target _ =>
    split at h
    next => cases h
    next =>
      split at h
      next => cases h
      next =>
        obtain ⟨_, hassemble⟩ := Prod.mk.inj h
        rw [assemble_cacheKey hassemble, credentialCacheKey, hissued, hdevice]
        exact ⟨_, rfl⟩

end

namespace ProxyRun

variable {s t : ProxyRun} {index : Nat} {process next : ProxyProcess} {window : CacheWindow} {deviceId key : String}

theorem TokenRun.advance (h : TokenRun window deviceId s) (hget : s.processes[index]? = some process)
    {input : FetchInput ControllerError} {u : ProxyRun} (hact : s.advance input process = some (u, next))
    (hwithin : s.tokenRejected window (.advance index input) = true) :
    TokenRun window deviceId { u with processes := u.processes.set index next } := by
  obtain ⟨hsame, call, progress, hcall, hafter, hmoved⟩ := advance_spec hget hact
  have hprocesses : u.processes.set index next = s.processes.set index next := by rw [hsame]
  have hcallwithin : call.within window input = true := by simpa [tokenRejected, hget, hcall] using hwithin
  refine h.moved hmoved hcallwithin fun other hother => ?_
  have hother : other ∈ s.processes.set index next := hprocesses ▸ hother
  rcases List.mem_or_eq_of_mem_set hother with hother | rfl
  · exact h.processes other hother
  · exact h.afterCall hget hcall hafter hmoved hcallwithin

theorem TokenRun.advanceDetached (h : TokenRun window deviceId s) {input : FetchInput ControllerError}
    (hact : s.advanceDetached index input = some t)
    (hwithin : s.tokenRejected window (.advanceDetached index input) = true) : TokenRun window deviceId t := by
  obtain ⟨hprocesses, call, progress, hget, hmoved⟩ := advanceDetached_spec hact
  have hcallwithin : call.within window input = true := by simpa [tokenRejected, hget] using hwithin
  exact h.moved hmoved hcallwithin (hprocesses ▸ h.processes)

section

variable {parseUri : Octets → Except String Uri} {config : ProxyConfig} {effective : EffectiveConfig}
  {gateway : LlmGatewayConfig} {audience : String}

theorem tokenProcess_arrived {request : ProxyRequest} {environment : ProxyEnvironment}
    (hgateway : effective.llmGateway = some gateway) (hissued : gateway.authentication = some (.controllerJwt audience))
    (heffective : environment.effectiveConfig = .ok effective) (hdevice : environment.deviceId = some deviceId)
    (hprepared : (arrived parseUri config request environment).prepared = some prepared)
    (htoken : prepared.clientTokenSent = true) :
    TokenProcess deviceId (arrived parseUri config request environment) ∧
      (arrived parseUri config request environment).call = none := by
  rcases arrived_spec parseUri config request environment with
    ⟨error, harrived⟩ | ⟨other, gated, effects, hprepare, harrived⟩
  · rw [harrived] at hprepared
    cases hprepared
  · rw [harrived] at hprepared ⊢
    cases hprepared
    obtain ⟨key, hkey⟩ := prepare_cacheKey hprepare heffective hgateway hissued hdevice
    rw [prepared.attempt_cached false (by rw [hkey]; rfl)]
    exact ⟨⟨prepared, key, rfl, htoken, hkey, rfl, rfl, rfl, rfl⟩, rfl⟩

theorem TokenRun.arrive (h : TokenRun window deviceId s) (hprocess : TokenProcess deviceId process)
    (hcall : process.call = none) : TokenRun window deviceId { s with processes := s.processes ++ [process] } := by
  have hcalls : ProxyRun.calls { s with processes := s.processes ++ [process] } = s.calls := by
    simp [ProxyRun.calls, hcall]
  refine ⟨h.entries, by rw [hcalls]; exact h.calls, by rw [hcalls]; exact h.flights, fun other hother => ?_,
    fun key => ?_⟩
  · rcases List.mem_append.mp hother with hother | hother
    · exact h.processes other hother
    · cases List.mem_singleton.mp hother
      exact hprocess
  · exact (h.keys key).congr rfl (by rw [hcalls]) rfl

theorem TokenRun.step (h : TokenRun window deviceId s) {action : ProxyAction}
    (harrive : ∀ request environment, action = .arrive request environment →
      TokenProcess deviceId (arrived parseUri config request environment) ∧
        (arrived parseUri config request environment).call = none)
    (hwithin : s.tokenRejected window action = true) (hkept : s.answersKeep action = true)
    (hstep : s.step parseUri config action = some t) : TokenRun window deviceId t := by
  cases action with
  | arrive request environment =>
    cases hstep
    obtain ⟨hprocess, hcall⟩ := harrive request environment rfl
    exact h.arrive hprocess hcall
  | lookup index now nowUnix =>
    obtain ⟨process, u, next, hget, _, hact, rfl⟩ := onProcess_spec hstep
    exact h.lookup hget hact
  | advance index input =>
    obtain ⟨process, u, next, hget, _, hact, rfl⟩ := onProcess_spec hstep
    exact h.advance hget hact hwithin
  | fetchUncached index result now nowUnix =>
    obtain ⟨process, u, next, hget, hconnected, hact, rfl⟩ := onProcess_spec hstep
    obtain ⟨hcall, _, prepared, retried, hpc, _⟩ := fetchUncached_spec hact
    obtain ⟨_, _, _, _, hfetching, _⟩ := (h.processes process (List.mem_of_getElem? hget)).fetching hpc
    exact absurd hcall (hfetching hconnected)
  | timeout index => cases hwithin
  | answer index result =>
    obtain ⟨process, u, next, hget, _, hact, rfl⟩ := onProcess_spec hstep
    cases result with
    | ok response => exact h.answer hget (beq_iff_eq.mp hwithin) hact hkept
    | error failure => cases hwithin
  | disconnect index =>
    simp only [ProxyRun.step] at hstep
    obtain ⟨process, u, next, hget, _, hact, rfl⟩ := onProcess_spec hstep
    cases hact
    exact h.disconnect hget
  | advanceDetached index input => exact h.advanceDetached hstep hwithin

/-- The guard tells the answers that leave the cache as it is. -/
theorem TokenRun.keepsCache_iff (h : TokenRun window deviceId s) {action : ProxyAction}
    (hwithin : s.tokenRejected window action = true) (hstep : s.step parseUri config action = some t) :
    s.KeepsCache action t ↔ s.answersKeep action = true := by
  cases action with
  | answer index result =>
    obtain ⟨process, u, next, hget, _, hact, rfl⟩ := onProcess_spec hstep
    cases result with
    | ok response =>
      rw [← h.answer_keeps hget (beq_iff_eq.mp hwithin) hact]
      exact ⟨fun hkeeps => hkeeps _ _ rfl, fun hcache _ _ _ => hcache⟩
    | error failure => cases hwithin
  | _ => exact iff_of_true (fun _ _ heq => by cases heq) rfl

end

end ProxyRun

end AgentDesktop
