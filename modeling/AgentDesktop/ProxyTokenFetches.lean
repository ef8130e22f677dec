import AgentDesktop.ProxyRetried
import AgentDesktop.ProxyTokenRuns

namespace AgentDesktop

variable {window : CacheWindow} {deviceId : String}

theorem TokenProcess.length_le {process : ProxyProcess} (h : TokenProcess deviceId process) :
    process.attempts.length ≤ 1 := by
  obtain ⟨_, _, _, _, _, hplace⟩ := h
  cases hpc : process.pc with
  | arrived => simp only [hpc] at hplace
  | looking other retried =>
    simp only [hpc] at hplace
    simp [hplace.2.2.1]
  | fetching other retried =>
    simp only [hpc] at hplace
    simp [hplace.2.2.1]
  | sending other retried used =>
    simp only [hpc] at hplace
    obtain ⟨_, _, _, request, credential, _, hattempts⟩ := hplace
    simp [hattempts]
  | done result =>
    simp only [hpc] at hplace
    obtain ⟨_, request, used, response, hattempts, _⟩ := hplace
    simp [hattempts]

section

variable {parseUri : Octets → Except String Uri} {config : ProxyConfig} {cache : CredentialCache}
  {actions : List ProxyAction} {s : ProxyRun}

theorem ProxyRun.TokenRun.rejectedOnce {start : ProxyRun} (h : ProxyRun.TokenRun window deviceId s)
    (hkept : EachStep (ProxyRun.step parseUri config) ProxyRun.KeepsCache actions start) :
    ProxyRun.RejectedOnce parseUri config start actions s := by
  refine ⟨fun process hprocess => (h.processes process hprocess).length_le, fun process hprocess result hpc => ?_,
    hkept, fun key => (h.keys key).count⟩
  obtain ⟨_, _, _, _, _, hplace⟩ := h.processes process hprocess
  simp only [hpc] at hplace
  obtain ⟨_, request, used, response, hattempts, hstatus, hresult⟩ := hplace
  exact ⟨_, response, hattempts, rfl, hstatus, hresult⟩

theorem ProxyRun.tokenRun_start (hcache : ∀ key entry, cache.entries key = some entry →
      EntryLasts window deviceId key entry) (hidle : ∀ key, cache.flights key = false) :
    ProxyRun.TokenRun window deviceId { cache } := by
  refine ⟨hcache, fun _ => nofun, fun key => ?_, fun _ => nofun,
    fun _ => ⟨Nat.zero_le 1, fun _ => rfl, fun _ => rfl⟩⟩
  rw [hidle key]
  rfl

/-- A rejected client token costs at most one fetch, and no cached credential, in exactly the runs in which
no request that fetched its own credential is answered while the cache holds it. -/
theorem rejected_tokens_cost_one_fetch_iff {effective : EffectiveConfig} {gateway : LlmGatewayConfig}
    {audience : String} (hgateway : effective.llmGateway = some gateway)
    (hissued : gateway.authentication = some (.controllerJwt audience))
    (hcache : ∀ key entry, cache.entries key = some entry → EntryLasts window deviceId key entry)
    (hidle : ∀ key, cache.flights key = false)
    (htokens : ForwardsTokens parseUri config effective deviceId actions)
    (h : execute (ProxyRun.step parseUri config) (ProxyRun.tokenRejected window) actions { cache } = some s) :
    ProxyRun.RejectedOnce parseUri config { cache } actions s ↔ execute (ProxyRun.step parseUri config)
      (fun s action => s.tokenRejected window action && s.answersKeep action) actions { cache } = some s := by
  have hkeeps : ∀ s, ∀ action ∈ actions, ∀ t, ProxyRun.TokenRun window deviceId s →
      s.tokenRejected window action = true → s.answersKeep action = true →
      s.step parseUri config action = some t → ProxyRun.TokenRun window deviceId t := by
    intro s action haction t hs hwithin hkept hstep
    refine hs.step (fun request environment heq => ?_) hwithin hkept hstep
    obtain ⟨heffective, hdevice, prepared, hprepared, htoken⟩ := htokens request environment (heq ▸ haction)
    exact ProxyRun.tokenProcess_arrived hgateway hissued heffective hdevice hprepared htoken
  have hstart := ProxyRun.tokenRun_start hcache hidle
  have hguarded := eachStep_iff_guarded hkeeps (fun _ _ _ hs hwithin hstep => hs.keepsCache_iff hwithin hstep)
    hstart h
  refine ⟨fun hrejected => hguarded.mp hrejected.kept, fun hrun => ?_⟩
  have hfinal : ProxyRun.TokenRun window deviceId s := by
    refine execute_invariant_of_mem (fun s action haction t hs hallowed hstep => ?_) hstart hrun
    obtain ⟨hwithin, hkept⟩ := Bool.and_eq_true_iff.mp hallowed
    exact hkeeps s action haction t hs hwithin hkept hstep
  exact hfinal.rejectedOnce (hguarded.mpr hrun)

end

def pairedProxy : ProxyConfig :=
  ⟨"default", octets "paired"⟩

def tokenGateway : LlmGatewayConfig :=
  ⟨"http://gateway", some (.controllerJwt "llm"), some "http://gateway/copilot", none⟩

def tokenEnvironment : ProxyEnvironment where
  effectiveConfig := .ok { llmGateway := some tokenGateway }
  githubOAuth _ := .error "no device flow"
  deviceId := some "device"

def tokenRequest : ProxyRequest where
  method := .post
  pathAndQuery := some (octets "/vscode-copilot-passthrough/chat")
  headers := ((HeaderMap.insert {} hostHeader (octets "localhost")).insert pairingHeader (octets "paired")).insert
    authorizationHeader (octets "Bearer stale")
  body := .ok []

/-- Two requests find the credential that a third one fetched and are rejected, and the client of the
third leaves. -/
def tokenRejectedTwice : List ProxyAction :=
  .arrive tokenRequest tokenEnvironment :: fetchSteps 0 "first" ++
    [.arrive tokenRequest tokenEnvironment, .lookup 1 1 1, .answer 1 (gatewayReplies 401),
      .arrive tokenRequest tokenEnvironment, .lookup 2 2 2, .disconnect 0, .answer 2 (gatewayReplies 401)]

theorem forwardsTokens_of_arrive {actions : List ProxyAction}
    (h : ∀ request environment, .arrive request environment ∈ actions →
      request = tokenRequest ∧ environment = tokenEnvironment) :
    ForwardsTokens gatewayUri pairedProxy { llmGateway := some tokenGateway } "device" actions := by
  intro request environment hmem
  obtain ⟨rfl, rfl⟩ := h request environment hmem
  exact ⟨rfl, rfl, _, rfl, rfl⟩

def tokenKey : String :=
  "vscode-copilot" ++ "\u0000" ++ "http://gateway" ++ "\u0000" ++ "llm" ++ ""

theorem rejected_tokens_cost_one_fetch_concurrent :
    ForwardsTokens gatewayUri pairedProxy { llmGateway := some tokenGateway } "device" tokenRejectedTwice ∧
      ∃ s, execute (ProxyRun.step gatewayUri pairedProxy) (ProxyRun.tokenRejected ⟨fun _ => 0, fun _ => 0⟩)
          tokenRejectedTwice {} = some s ∧
        s.processes.map (·.attempts.length) = [1, 1, 1] ∧ (s.cache.entries tokenKey).isSome ∧
        ProxyRun.RejectedOnce gatewayUri pairedProxy {} tokenRejectedTwice s := by
  have htokens : ForwardsTokens gatewayUri pairedProxy { llmGateway := some tokenGateway } "device"
      tokenRejectedTwice := forwardsTokens_of_arrive (by simp [tokenRejectedTwice, fetchSteps])
  have hrun : execute (ProxyRun.step gatewayUri pairedProxy) (ProxyRun.tokenRejected ⟨fun _ => 0, fun _ => 0⟩)
      tokenRejectedTwice {} = some _ := rfl
  exact ⟨htokens, _, hrun, rfl, rfl, (rejected_tokens_cost_one_fetch_iff rfl rfl
    (fun _ _ hentry => (by cases hentry)) (fun _ => rfl) htokens hrun).mpr rfl⟩

/-- A second request comes after the first was rejected. -/
def tokenRejectedAgain : List ProxyAction :=
  .arrive tokenRequest tokenEnvironment :: fetchSteps 0 "first" ++
    [.answer 0 (gatewayReplies 401), .arrive tokenRequest tokenEnvironment] ++ fetchSteps 1 "second" ++
    [.answer 1 (gatewayReplies 401)]

/-- Every request with a rejected token fetches a credential of its own, although the
credential that was cached before is still valid. -/
theorem rejected_token_fetches_again :
    ForwardsTokens gatewayUri pairedProxy { llmGateway := some tokenGateway } "device" tokenRejectedAgain ∧
      ∃ s, execute (ProxyRun.step gatewayUri pairedProxy) (ProxyRun.tokenRejected ⟨fun _ => 0, fun _ => 0⟩)
          tokenRejectedAgain {} = some s ∧
        s.fetches.count tokenKey = 2 ∧
        ¬ ProxyRun.RejectedOnce gatewayUri pairedProxy {} tokenRejectedAgain s := by
  have htokens : ForwardsTokens gatewayUri pairedProxy { llmGateway := some tokenGateway } "device"
      tokenRejectedAgain := forwardsTokens_of_arrive (by simp [tokenRejectedAgain, fetchSteps])
  have hrun : execute (ProxyRun.step gatewayUri pairedProxy) (ProxyRun.tokenRejected ⟨fun _ => 0, fun _ => 0⟩)
      tokenRejectedAgain {} = some _ := rfl
  refine ⟨htokens, _, hrun, rfl, fun hrejected => ?_⟩
  have hone := hrejected.fetches tokenKey
  exact absurd hone (by decide)

end AgentDesktop
