import AgentDesktop.ListAt
import AgentDesktop.ProxyRequests

namespace AgentDesktop

/-- A call that has the credential from its fetch and has not cached it yet. -/
def FetchCall.pends (credential : String) (call : FetchCall) : Bool :=
  match call.pc with
  | .received fetched => fetched.credential == credential
  | .inserting fetched _ => fetched.credential == credential
  | _ => false

/-- A call that has the credential from its fetch. -/
def FetchCall.carries (credential : String) (call : FetchCall) : Bool :=
  match call.pc with
  | .received fetched => fetched.credential == credential
  | .inserting fetched _ => fetched.credential == credential
  | .inserted fetched => fetched.credential == credential
  | _ => false

/-- What a step of a call does with credentials. -/
structure FetchCredentials (cache : CredentialCache) (call : FetchCall) (input : FetchInput ControllerError)
    (next : CredentialCache) (progress : FetchProgress ControllerError) : Prop where
  counted : ∀ credential, (progress.remaining call).countP (FetchCall.pends credential) +
    (call.stores input).countP (·.2 == credential) =
      [call].countP (FetchCall.pends credential) + (call.receives input).count credential
  entries : ∀ key entry, next.entries key = some entry → cache.entries key = some entry ∨
    call.pends entry.credential = true ∧ (key, entry.credential) ∈ call.stores input
  cached : ∀ credential deadline, progress = .finished credential deadline true →
    ∃ entry, cache.entries call.key = some entry ∧ entry.credential = credential
  finished : ∀ credential deadline, progress = .finished credential deadline false → call.carries credential = true
  running : ∀ pc credential, progress = .running pc → FetchCall.carries credential { call with pc } = true →
    call.carries credential = true ∨ credential ∈ call.receives input

theorem insert_entry {cache : CredentialCache} {key deviceId other : String} {fetched : LlmGatewayCredential}
    {nowUnix now later : Nat} {entry : CachedCredential}
    (h : (cache.insert key deviceId fetched nowUnix now later).entries other = some entry) :
    cache.entries other = some entry ∨ other = key ∧ entry.credential = fetched.credential := by
  simp only [CredentialCache.insert, CredentialCache.setEntry] at h
  split at h
  next hkey =>
    have hinsert : (⟨deviceId, fetched, nowUnix, now, later⟩ : CacheInsert).entry = some entry := h
    exact Or.inr ⟨hkey, (CacheInsert.entry_spec hinsert).1⟩
  next => exact Or.inl h

section

variable {cache next : CredentialCache} {call : FetchCall} {input : FetchInput ControllerError}
  {progress : FetchProgress ControllerError}

/-- A credential that a call got is with the call until it is cached. -/
theorem getOrFetchStep_counted (hfetch : getOrFetchStep cache call input = some (next, progress))
    (credential : String) :
    (progress.remaining call).countP (FetchCall.pends credential) + (call.stores input).countP (·.2 == credential) =
      [call].countP (FetchCall.pends credential) + (call.receives input).count credential := by
  -- where the call is decides what it holds, receives and stores
  cases getOrFetchStep_move hfetch <;>
    simp [*, FetchProgress.remaining, FetchCall.pends, FetchCall.stores, FetchCall.inserts, FetchCall.receives,
      List.count_singleton]

theorem getOrFetchStep_credentials (hfetch : getOrFetchStep cache call input = some (next, progress)) :
    FetchCredentials cache call input next progress := by
  have hcounted := getOrFetchStep_counted hfetch
  cases getOrFetchStep_move hfetch with
  | lock hpc _ =>
    refine ⟨hcounted, fun _ _ => Or.inl, (by rintro _ _ ⟨⟩), (by rintro _ _ ⟨⟩), ?_⟩
    rintro pc credential ⟨⟩ ⟨⟩
  | hit now nowUnix credential deadline hpc hlookup =>
    refine ⟨hcounted, fun _ _ => Or.inl, ?_, (by rintro _ _ ⟨⟩), (by rintro _ _ ⟨⟩)⟩
    rintro _ _ ⟨⟩
    obtain ⟨entry, hentry, _, _, _, hcredential, _⟩ := CredentialCache.lookup_spec hlookup
    exact ⟨entry, hentry, hcredential.symm⟩
  | miss now nowUnix hpc _ =>
    refine ⟨hcounted, fun _ _ => Or.inl, (by rintro _ _ ⟨⟩), (by rintro _ _ ⟨⟩), ?_⟩
    rintro pc credential ⟨⟩ ⟨⟩
  | fail error hpc =>
    exact ⟨hcounted, fun _ _ => Or.inl, (by rintro _ _ ⟨⟩), (by rintro _ _ ⟨⟩), (by rintro _ _ ⟨⟩)⟩
  | receive fetched hpc =>
    refine ⟨hcounted, fun _ _ => Or.inl, (by rintro _ _ ⟨⟩), (by rintro _ _ ⟨⟩), ?_⟩
    rintro pc credential ⟨⟩ hcarries
    have hsame : fetched.credential = credential := by simpa [FetchCall.carries] using hcarries
    exact Or.inr (by simp [FetchCall.receives, hpc, hsame])
  | clock fetched nowUnix hpc =>
    refine ⟨hcounted, fun _ _ => Or.inl, (by rintro _ _ ⟨⟩), (by rintro _ _ ⟨⟩), ?_⟩
    rintro pc credential ⟨⟩ hcarries
    exact Or.inl (by simpa [FetchCall.carries, hpc] using hcarries)
  | store fetched nowUnix now later hpc =>
    refine ⟨hcounted, fun key entry hentry => ?_, (by rintro _ _ ⟨⟩), (by rintro _ _ ⟨⟩), ?_⟩
    · rcases insert_entry hentry with hentry | ⟨rfl, hcredential⟩
      · exact Or.inl hentry
      · refine Or.inr ⟨?_, ?_⟩
        · simp [FetchCall.pends, hpc, hcredential]
        · simp [FetchCall.stores, FetchCall.inserts, hpc, hcredential]
    · rintro pc credential ⟨⟩ hcarries
      exact Or.inl (by simpa [FetchCall.carries, hpc] using hcarries)
  | finish fetched now nowUnix hpc =>
    refine ⟨hcounted, fun _ _ => Or.inl, (by rintro _ _ ⟨⟩), ?_, (by rintro _ _ ⟨⟩)⟩
    rintro _ _ ⟨⟩
    simp [FetchCall.carries, hpc]

end

namespace ProxyRun

/-- The fetches under way. -/
def calls (s : ProxyRun) : List FetchCall :=
  s.processes.flatMap (·.call.toList) ++ s.detached

variable {s t : ProxyRun} {call : FetchCall} {input : FetchInput ControllerError}
  {progress : FetchProgress ControllerError}

theorem stepCall_spec (h : s.stepCall call input = some (t, progress)) :
    getOrFetchStep s.cache call input = some (t.cache, progress) ∧
      t = { s with
        cache := t.cache
        fetches := s.fetches ++ call.begins progress
        fetched := s.fetched ++ call.receives input
        inserts := s.inserts ++ call.stores input } := by
  unfold stepCall at h
  split at h
  next => cases h
  next cache progress' hfetch =>
    cases h
    exact ⟨hfetch, rfl⟩

theorem onProcess_spec {index : Nat} {act : ProxyProcess → Option (ProxyRun × ProxyProcess)}
    (h : s.onProcess index act = some t) :
    ∃ process t' next, s.processes[index]? = some process ∧ process.connected = true ∧
      act process = some (t', next) ∧ t = { t' with processes := t'.processes.set index next } := by
  unfold onProcess at h
  split at h
  next => cases h
  next process hget =>
    split at h
    next hconnected =>
      split at h
      next => cases h
      next t' next hact => exact ⟨process, t', next, hget, hconnected, hact, (Option.some.inj h).symm⟩
    next => cases h

end ProxyRun

end AgentDesktop
