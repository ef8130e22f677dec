import AgentDesktop.ProxyPaired
import AgentDesktop.ProxyRetryRuns

namespace AgentDesktop

namespace ProxyRun

variable {s t : ProxyRun} {prepared : PreparedRequest} {retried : Bool}

/-- An answer drops no credential but the one that was sent. -/
theorem afterAnswer_invalidates {used : Option AttemptCredential} {result : Except GatewayFailure GatewayResponse}
    {key credential : String} (h : .invalidateIf key credential ∈ (prepared.afterAnswer retried used result).2) :
    ∃ sent, used = some sent ∧ sent.credential = credential := by
  have hinvalidates : ∀ {key credential}, ProxyEffect.invalidateIf key credential ∈ prepared.invalidates used →
      ∃ sent, used = some sent ∧ sent.credential = credential := by
    intro key credential hmem
    unfold PreparedRequest.invalidates at hmem
    split at hmem
    next sent _ =>
      cases List.mem_singleton.mp hmem
      exact ⟨sent, rfl, rfl⟩
    next => cases hmem
  cases result with
  | error failure => cases h
  | ok response =>
    simp only [PreparedRequest.afterAnswer, PreparedRequest.answered] at h
    split at h
    next =>
      rcases List.mem_append.mp h with h | h
      · exact hinvalidates h
      · unfold PreparedRequest.attempt PreparedRequest.fetch at h
        split at h
        next =>
          split at h
          next => cases h
          next => cases List.mem_singleton.mp h
        next => cases List.mem_singleton.mp h
    next =>
      dsimp only at h
      split at h
      next => exact hinvalidates h
      next => cases h

theorem drops_keep {effects : List ProxyEffect} {cache : CredentialCache} {key : String} {entry : CachedCredential}
    (hother : ∀ key, .invalidateIf key entry.credential ∉ effects) (hentry : cache.entries key = some entry) :
    (effects.foldl CredentialCache.drop cache).entries key = some entry := by
  induction effects generalizing cache with
  | nil => exact hentry
  | cons effect rest ih =>
    refine ih (fun key hmem => hother key (List.mem_cons_of_mem _ hmem)) ?_
    unfold CredentialCache.drop
    split
    next dropped credential =>
      have hne : credential ≠ entry.credential := fun heq => hother dropped (heq ▸ List.mem_cons_self)
      unfold CredentialCache.invalidateIf
      split
      next hsame =>
        have hkey : key ≠ dropped := by
          rintro rfl
          rw [hentry] at hsame
          exact hne (beq_iff_eq.mp hsame).symm
        simp only [CredentialCache.setEntry, if_neg hkey]
        exact hentry
      next => exact hentry
    next => exact hentry

/-- Of two inserts of a credential there is at most one. -/
theorem CredentialsOnce.inserted_later (h : s.CredentialsOnce) {before after : List (String × String)}
    {rejected inserted : String × String} (hinserts : s.inserts = before ++ rejected :: after)
    (hmem : inserted ∈ after) : inserted.2 ≠ rejected.2 := by
  intro heq
  have hcounted := h.counted rejected.2
  have honce := h.once rejected.2
  have hlater : 0 < after.countP (·.2 == rejected.2) := List.countP_pos_iff.mpr ⟨inserted, hmem, beq_iff_eq.mpr heq⟩
  have hfirst : (rejected :: after).countP (·.2 == rejected.2) = after.countP (·.2 == rejected.2) + 1 :=
    List.countP_cons_of_pos (beq_self_eq_true rejected.2)
  rw [hinserts, List.countP_append, hfirst] at hcounted
  omega

end ProxyRun

/-- A request is sent at most twice, the second time only after a 401 for a cached
credential without a client token, and then with another credential. An answer drops
no credential that was cached after the one it is for. -/
theorem retry_uses_another_credential {parseUri : Octets → Except String Uri} {config : ProxyConfig}
    {actions : List ProxyAction} {s : ProxyRun}
    (h : execute (ProxyRun.step parseUri config) ProxyRun.fetchesFresh actions {} = some s) :
    (∀ process ∈ s.processes, RetriedOnce process.attempts) ∧
      ∀ (index : Nat) (result : Except GatewayFailure GatewayResponse) (t : ProxyRun) (process : ProxyProcess)
        (prepared : PreparedRequest) (retried : Bool) (used : AttemptCredential),
        s.processes[index]? = some process → process.pc = .sending prepared retried (some used) →
        s.step parseUri config (.answer index result) = some t →
        ∀ (before after : List (String × String)) (rejected inserted : String × String) (entry : CachedCredential),
          s.inserts = before ++ rejected :: after → rejected.2 = used.credential → inserted ∈ after →
          s.cache.entries inserted.1 = some entry → entry.credential = inserted.2 →
          t.cache.entries inserted.1 = some entry := by
  have hfresh : s.Fresh :=
    execute_invariant (fun s action t hs hallowed hstep => hs.step hallowed hstep) ProxyRun.fresh_start h
  refine ⟨fun process hprocess => (hfresh.tracked process hprocess).retriedOnce, ?_⟩
  intro index result t process prepared retried used hget hpc hstep before after rejected inserted entry hinserts
    hrejected hmem hentry hcredential
  obtain ⟨process', u, next, hget', _, hact, rfl⟩ := ProxyRun.onProcess_spec hstep
  cases Option.some.inj (hget.symm.trans hget')
  obtain ⟨prepared', retried', used', hpc', rfl, _⟩ := ProxyRun.answer_spec hact
  cases hpc.symm.trans hpc'
  refine ProxyRun.drops_keep (fun key hdrop => ?_) hentry
  obtain ⟨sent, hsent, hsame⟩ := ProxyRun.afterAnswer_invalidates hdrop
  cases hsent
  have hne := hfresh.credentials.inserted_later hinserts hmem
  exact hne (hcredential.symm.trans (hsame.symm.trans hrejected.symm))

def jwtGateway : ProxyEnvironment where
  effectiveConfig := .ok { llmGateway := some ⟨"http://gateway", some (.controllerJwt "llm"), none, none⟩ }
  githubOAuth _ := .error "no device flow"
  deviceId := some "device"

def cliRequest : ProxyRequest where
  method := .post
  pathAndQuery := some (octets "/copilot-cli/v1/messages")
  headers := (HeaderMap.insert {} hostHeader (octets "localhost")).insert pairingHeader (octets "paired")
  body := .ok (octets "hello")

def gatewayReplies (status : Nat) : Except GatewayFailure GatewayResponse :=
  .ok ⟨status, {}, []⟩

/-- The steps of a fetch from its lock to its deadline. -/
def fetchSteps (index : Nat) (credential : String) : List ProxyAction :=
  [.lookup index 0 0, .advance index .lock, .advance index (.look 0 0),
    .advance index (.respond (.ok ⟨credential, 1000⟩)), .advance index (.clock 0), .advance index (.store 0 0),
    .advance index (.deadline 0 0)]

/-- A request fetches a credential, two find it, and one of the two finds it rejected and gets another. -/
def rejectedOnce : List ProxyAction :=
  .arrive cliRequest jwtGateway :: fetchSteps 0 "first" ++
    [.answer 0 (gatewayReplies 200), .arrive cliRequest jwtGateway, .lookup 1 1 1, .arrive cliRequest jwtGateway,
      .lookup 2 1 1, .answer 1 (gatewayReplies 401)] ++
    fetchSteps 1 "second" ++ [.answer 1 (gatewayReplies 200)]

def cliKey : String :=
  "copilot-cli" ++ "\u0000" ++ "http://gateway" ++ "\u0000" ++ "llm" ++ ""

/-- The rejection of the third request leaves the credential that the second one got. -/
theorem retry_uses_another_credential_second : ∃ s t entry,
    execute (ProxyRun.step gatewayUri ⟨"default", octets "paired"⟩) ProxyRun.fetchesFresh rejectedOnce {} = some s ∧
      s.processes.map (·.attempts.length) = [1, 2, 1] ∧ (∀ process ∈ s.processes, RetriedOnce process.attempts) ∧
      s.step gatewayUri ⟨"default", octets "paired"⟩ (.answer 2 (gatewayReplies 401)) = some t ∧
      t.cache.entries cliKey = some entry ∧ entry.credential = "second" := by
  have hrun : execute (ProxyRun.step gatewayUri ⟨"default", octets "paired"⟩) ProxyRun.fetchesFresh rejectedOnce {} =
      some _ := rfl
  obtain ⟨hretried, hkept⟩ := retry_uses_another_credential hrun
  have hentry := hkept 2 (gatewayReplies 401) _ _ _ _ _ rfl rfl rfl [] [(cliKey, "second")] (cliKey, "first")
    (cliKey, "second") _ rfl rfl (List.mem_singleton_self _) rfl rfl
  exact ⟨_, _, _, hrun, rfl, hretried, rfl, hentry, rfl⟩

end AgentDesktop
