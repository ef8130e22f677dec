import AgentDesktop.ProxyTokenSteps

namespace AgentDesktop

variable {process : ProxyProcess} {deviceId key : String} {prepared : PreparedRequest}

theorem TokenProcess.sending {retried : Bool} {used : Option AttemptCredential} (h : TokenProcess deviceId process)
    (hpc : process.pc = .sending prepared retried used) :
    process.prepared = some prepared ∧ prepared.clientTokenSent = true ∧ retried = false ∧ process.call = none ∧
      (∃ key, prepared.cacheKey = some (key, deviceId)) ∧
      ∃ request credential, used = some credential ∧ process.attempts = [⟨request, some credential, none⟩] := by
  obtain ⟨_, key, hprepared, htoken, hkey, hplace⟩ := h
  simp only [hpc] at hplace
  obtain ⟨rfl, hretried, hcall, hattempts⟩ := hplace
  exact ⟨hprepared, htoken, hretried, hcall, ⟨key, hkey⟩, hattempts⟩

/-- A rejection with a client token goes back to the client. Only a credential that was
fetched for the request is dropped. -/
theorem afterAnswer_token {used : AttemptCredential} {response : GatewayResponse}
    (htoken : prepared.clientTokenSent = true) (hkey : prepared.cacheKey = some (key, deviceId))
    (hstatus : response.status = 401) :
    prepared.afterAnswer false (some used) (.ok response) =
      (.done (.ok { status := 401, headers := stripHopHeaders response.headers, body := response.body }),
        if used.fetchedNow then [.invalidateIf key used.credential] else []) := by
  have hretries : ¬ prepared.retries false (some used) response.status = true := by
    simp [PreparedRequest.retries, htoken]
  have hrespond : prepared.respond (some used) response =
      { status := 401, headers := stripHopHeaders response.headers, body := response.body } := by
    simp [PreparedRequest.respond, hstatus]
  have hinvalidates : prepared.invalidates (some used) = [.invalidateIf key used.credential] := by
    simp [PreparedRequest.invalidates, hkey]
  rw [PreparedRequest.afterAnswer, PreparedRequest.answered, if_neg hretries, hrespond, hstatus, hinvalidates]
  simp

/-- A token request that was answered. -/
def ProxyProcess.rejected (process : ProxyProcess) (request : UpstreamRequest) (used : AttemptCredential)
    (response : GatewayResponse) : ProxyProcess :=
  { process with
    pc := .done (.ok { status := 401, headers := stripHopHeaders response.headers, body := response.body })
    call := none
    attempts := [⟨request, some used, some (.ok response)⟩] }

theorem TokenProcess.reject (hprepared : process.prepared = some prepared) (htoken : prepared.clientTokenSent = true)
    (hkey : prepared.cacheKey = some (key, deviceId)) (request : UpstreamRequest) (used : AttemptCredential)
    {response : GatewayResponse} (hstatus : response.status = 401) :
    TokenProcess deviceId (process.rejected request used response) :=
  ⟨prepared, key, hprepared, htoken, hkey, rfl, request, used, response, rfl, hstatus, rfl⟩

namespace ProxyRun

variable {s t : ProxyRun} {index : Nat} {next : ProxyProcess} {window : CacheWindow} {response : GatewayResponse}

/-- What an answer makes of a request and of the cache. -/
theorem TokenRun.answer_spec (h : TokenRun window deviceId s) (hmem : process ∈ s.processes)
    (hstatus : response.status = 401) (hact : s.answer (.ok response) process = some (t, next)) :
    ∃ prepared key request used, process.prepared = some prepared ∧ prepared.clientTokenSent = true ∧
      prepared.cacheKey = some (key, deviceId) ∧ process.pc = .sending prepared false (some used) ∧
      process.call = none ∧ process.attempts = [⟨request, some used, none⟩] ∧
      t = { s with cache := if used.fetchedNow then s.cache.invalidateIf key used.credential else s.cache } ∧
      next = process.rejected request used response := by
  obtain ⟨prepared, retried, used, hpc, rfl, rfl⟩ := ProxyRun.answer_spec hact
  obtain ⟨hprepared, htoken, rfl, hcall, ⟨key, hkey⟩, request, credential, rfl, hattempts⟩ :=
    (h.processes process hmem).sending hpc
  refine ⟨prepared, key, request, credential, hprepared, htoken, hkey, hpc, hcall, hattempts, ?_, ?_⟩
  · rw [afterAnswer_token htoken hkey hstatus]
    split
    next => rfl
    next => rfl
  · rw [afterAnswer_token htoken hkey hstatus]
    split
    next => simp [ProxyProcess.goOn, ProxyProcess.noteAnswer, ProxyProcess.rejected, hattempts, ProxyEffect.request,
        ForwardPc.spawned]
    next => simp [ProxyProcess.goOn, ProxyProcess.noteAnswer, ProxyProcess.rejected, hattempts, ForwardPc.spawned]

theorem invalidateIf_eq_self {cache : CredentialCache} {credential : String} :
    cache.invalidateIf key credential = cache ↔
      ((cache.entries key).any fun entry => entry.credential == credential) = false := by
  unfold CredentialCache.invalidateIf
  split
  next hsame =>
    refine iff_of_false (fun heq => ?_) (by simp [hsame])
    have hnone := congrArg (CredentialCache.entries · key) heq
    simp only [CredentialCache.setEntry, if_true] at hnone
    rw [← hnone] at hsame
    cases hsame
  next hother => exact iff_of_true rfl (by simpa using hother)

/-- An answer drops the credential of a request just if the request fetched it and it is still cached. -/
theorem TokenRun.answer_keeps (h : TokenRun window deviceId s) (hget : s.processes[index]? = some process)
    (hstatus : response.status = 401) (hact : s.answer (.ok response) process = some (t, next)) :
    t.cache = s.cache ↔ s.answersKeep (.answer index (.ok response)) = true := by
  obtain ⟨prepared, key, request, used, hprepared, _, hkey, hpc, _, _, rfl, _⟩ :=
    h.answer_spec (List.mem_of_getElem? hget) hstatus hact
  have hkeyof : process.key = some key := by simp [ProxyProcess.key, hprepared, hkey]
  simp only [answersKeep, hget, Option.all_some, hkeyof, hpc]
  cases used.fetchedNow with
  | false => exact iff_of_true rfl rfl
  | true =>
    rw [if_pos rfl, invalidateIf_eq_self, Bool.true_and]
    simp

theorem TokenRun.answer (h : TokenRun window deviceId s) (hget : s.processes[index]? = some process)
    (hstatus : response.status = 401) {u : ProxyRun} (hact : s.answer (.ok response) process = some (u, next))
    (hkept : s.answersKeep (.answer index (.ok response)) = true) :
    TokenRun window deviceId { u with processes := u.processes.set index next } := by
  have hcache := (h.answer_keeps hget hstatus hact).mpr hkept
  obtain ⟨prepared, key, request, used, hprepared, htoken, hkey, hpc, hcall, hattempts, rfl, rfl⟩ :=
    h.answer_spec (List.mem_of_getElem? hget) hstatus hact
  exact h.replace hget rfl (List.append_nil _).symm hcache rfl (.none hcall rfl)
    (.reject hprepared htoken hkey request used hstatus)

end ProxyRun

end AgentDesktop
