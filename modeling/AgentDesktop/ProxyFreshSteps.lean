import AgentDesktop.CacheInserts
import AgentDesktop.ProxyFreshness

namespace AgentDesktop

namespace ProxyRun

variable {s t : ProxyRun} {index : Nat} {process next : ProxyProcess} {prepared : PreparedRequest} {retried : Bool}

/-- Credentials are fetched once, and every request keeps to its attempts. -/
structure Fresh (s : ProxyRun) : Prop where
  credentials : s.CredentialsOnce
  tracked : ∀ process ∈ s.processes, s.Tracked process

/-- A step of one request that caches nothing: what it got from a fetch, and the
fetches it leaves behind. -/
structure Replaces (s t : ProxyRun) (index : Nat) (next : ProxyProcess) (got : List String)
    (left : List FetchCall) : Prop where
  processes : t.processes = s.processes.set index next
  detached : t.detached = s.detached ++ left
  inserts : t.inserts = s.inserts
  fetched : t.fetched = s.fetched ++ got
  entries : ∀ key entry, t.cache.entries key = some entry → s.cache.entries key = some entry

theorem Replaces.extends {got : List String} {left : List FetchCall} (h : s.Replaces t index next got left) :
    s.Extends t := by
  have hknown : ∀ key credential, s.Known key credential → t.Known key credential := by
    intro key credential hknown
    rw [Known, h.inserts]
    exact hknown
  refine ⟨hknown, fun key credential hgone => ⟨hknown _ _ hgone.known, fun entry hentry => ?_⟩⟩
  exact hgone.absent entry (h.entries key entry hentry)

theorem Fresh.tracked_set (h : s.Fresh) (hextends : s.Extends t) (hprocesses : t.processes = s.processes.set index next)
    (hnext : t.Tracked next) : ∀ process ∈ t.processes, t.Tracked process := by
  intro process hmem
  rw [hprocesses] at hmem
  rcases List.mem_or_eq_of_mem_set hmem with hmem | rfl
  · exact hextends.tracked (h.tracked process hmem)
  · exact hnext

theorem Fresh.replace (h : s.Fresh) (hget : s.processes[index]? = some process) {got : List String}
    {left : List FetchCall} (hreplace : s.Replaces t index next got left) (hlength : got.length ≤ 1)
    (hnew : ∀ credential ∈ got, credential ∉ s.fetched)
    (hcalls : ∀ credential, next.call.toList.countP (FetchCall.pends credential) +
      left.countP (FetchCall.pends credential) ≤ process.call.toList.countP (FetchCall.pends credential))
    (hnext : s.Extends t → t.Tracked next) : t.Fresh := by
  refine ⟨h.credentials.gotten hlength hnew hreplace.fetched (fun credential => ?_) fun key entry hentry => ?_,
    h.tracked_set hreplace.extends hreplace.processes (hnext hreplace.extends)⟩
  · have hset := calls_set hget hreplace.processes hreplace.detached (FetchCall.pends credential)
    have hcall := hcalls credential
    rw [hreplace.inserts]
    omega
  · exact hreplace.extends.known _ _ (h.credentials.entries key entry (hreplace.entries key entry hentry))

/-- A cached credential is none of those gone. -/
theorem Fresh.cached (h : s.Fresh) {key deviceId : String} {attempts : List UpstreamAttempt}
    (hbefore : s.Before prepared retried attempts) (hkey : prepared.cacheKey = some (key, deviceId))
    {entry : CachedCredential} (hentry : s.cache.entries key = some entry) :
    Unused attempts entry.credential ∧ s.Known key entry.credential := by
  refine ⟨hbefore.unused fun other _ rejected hother hgone => ?_, h.credentials.entries key entry hentry⟩
  rw [hkey] at hother
  cases hother
  exact hgone.absent entry hentry

theorem Fresh.lookup (h : s.Fresh) (hget : s.processes[index]? = some process) {now nowUnix : Nat} {u : ProxyRun}
    (hact : s.lookup now nowUnix process = some (u, next)) :
    { u with processes := u.processes.set index next }.Fresh := by
  obtain ⟨rfl, prepared, retried, key, deviceId, hpc, hkey, rfl⟩ := lookup_spec hact
  have htracked := h.tracked process (List.mem_of_getElem? hget)
  have hbefore : u.Before prepared retried process.attempts := by
    simp only [Tracked, hpc] at htracked
    exact htracked
  refine h.replace hget ⟨rfl, (List.append_nil _).symm, rfl, (List.append_nil _).symm, fun _ _ => id⟩ (Nat.zero_le 1)
    (fun _ => nofun) (fun credential => ?_) fun hextends => hextends.tracked ?_
  · rw [goOn_pends]
    exact Nat.zero_le _
  · cases hlookup : u.cache.lookup key deviceId now nowUnix with
    | none => exact hbefore.fetch
    | some found =>
      obtain ⟨credential, deadline⟩ := found
      obtain ⟨entry, hentry, _, _, _, rfl, _⟩ := CredentialCache.lookup_spec hlookup
      obtain ⟨hunused, hknown⟩ := h.cached hbefore hkey hentry
      exact hbefore.useCredential hunused fun _ => ⟨key, deviceId, hkey, hknown⟩

theorem Before.afterFetch (h : s.Before prepared retried process.attempts)
    {result : Except FetchFailure (String × Deadline × Bool)}
    (hok : ∀ credential deadline cached, result = .ok (credential, deadline, cached) →
      Unused process.attempts credential ∧ (cached = true →
        ∃ key deviceId, prepared.cacheKey = some (key, deviceId) ∧ s.Known key credential)) :
    s.Tracked (process.goOn (prepared.afterFetch retried result)) := by
  cases result with
  | ok fetched =>
    obtain ⟨credential, deadline, cached⟩ := fetched
    obtain ⟨hunused, hknown⟩ := hok credential deadline cached rfl
    exact h.useCredential hunused hknown
  | error failure => exact h.fail _

theorem Tracked.fetching (h : s.Tracked process) (hpc : process.pc = .fetching prepared retried) :
    s.Before prepared retried process.attempts ∧
      (process.connected = true → process.call = none → prepared.cacheKey = none) ∧
      ∀ call ∈ process.call, prepared.cacheKey = some (call.key, call.deviceId) ∧
        ∀ credential, call.carries credential = true → Unused process.attempts credential := by
  simp only [Tracked, hpc] at h
  exact h

theorem Fresh.fetchUncached (h : s.Fresh) (hget : s.processes[index]? = some process)
    (hconnected : process.connected = true) {result : Except ControllerError LlmGatewayCredential}
    {now nowUnix : Nat} {u : ProxyRun} (hnew : ∀ credential ∈ gotten result, credential ∉ s.fetched)
    (hact : s.fetchUncached result now nowUnix process = some (u, next)) :
    { u with processes := u.processes.set index next }.Fresh := by
  obtain ⟨hcall, rfl, prepared, retried, hpc, rfl⟩ := fetchUncached_spec hact
  obtain ⟨hbefore, huncached, _⟩ := (h.tracked process (List.mem_of_getElem? hget)).fetching hpc
  have hkey := huncached hconnected hcall
  have hlength := (ProxyAction.fetchUncached index result now nowUnix).gets_length
  refine h.replace hget ⟨rfl, (List.append_nil _).symm, rfl, rfl, fun _ _ => id⟩ hlength hnew (fun credential => ?_)
    fun hextends => hextends.tracked ?_
  · rw [goOn_pends]
    exact Nat.zero_le _
  · refine hbefore.afterFetch fun credential deadline cached hresult => ⟨?_, fun hcached => ?_⟩
    · refine hbefore.unused fun key deviceId _ hother => ?_
      rw [hkey] at hother
      cases hother
    · subst hcached
      cases result with
      | ok fetched => cases hresult
      | error error => cases hresult

theorem Fresh.timeout (h : s.Fresh) (hget : s.processes[index]? = some process)
    (hresume : process.resume (.fetched (.error .timedOut)) = some next) :
    { s.detach process with processes := (s.detach process).processes.set index next }.Fresh := by
  obtain ⟨after, hafter, rfl⟩ := ProxyProcess.resume_eq hresume
  obtain ⟨prepared, retried, hpc, rfl⟩ := resume_fetched hafter
  obtain ⟨hbefore, _⟩ := (h.tracked process (List.mem_of_getElem? hget)).fetching hpc
  refine h.replace hget ⟨rfl, rfl, rfl, (List.append_nil _).symm, fun _ _ => id⟩ (Nat.zero_le 1) (fun _ => nofun)
    (fun credential => ?_) fun hextends => hextends.tracked (hbefore.fail _)
  refine Nat.le_of_eq ?_
  rw [goOn_pends, Nat.zero_add]

theorem Tracked.disconnect (h : s.Tracked process) : s.Tracked { process with call := none, connected := false } := by
  unfold Tracked at h ⊢
  split at h
  next hpc => simpa only [hpc] using h
  next hpc => simpa only [hpc] using h
  next hpc =>
    simp only [hpc]
    exact ⟨h.1, nofun, fun _ => nofun⟩
  next hpc => simpa only [hpc] using h
  next hpc => simpa only [hpc] using h

theorem Fresh.disconnect (h : s.Fresh) (hget : s.processes[index]? = some process) :
    { s.detach process with
      processes := (s.detach process).processes.set index
        { process with call := none, connected := false } }.Fresh := by
  refine h.replace hget ⟨rfl, rfl, rfl, (List.append_nil _).symm, fun _ _ => id⟩ (Nat.zero_le 1) (fun _ => nofun)
    (fun credential => ?_) fun hextends => hextends.tracked (h.tracked process (List.mem_of_getElem? hget)).disconnect
  simp

theorem invalidateIf_absent {cache : CredentialCache} {key credential : String} {entry : CachedCredential}
    (h : (cache.invalidateIf key credential).entries key = some entry) : entry.credential ≠ credential := by
  intro heq
  have hdrop : (cache.drop (.invalidateIf key credential)).entries key = some entry := h
  have hold := CredentialCache.drop_entries hdrop
  have hsame : ((cache.entries key).any fun entry => entry.credential == credential) = true := by simp [hold, heq]
  rw [CredentialCache.invalidateIf, if_pos hsame] at h
  simp [CredentialCache.setEntry] at h

/-- A retry looks in the cache again, and the credential that was rejected is no
longer there. -/
theorem Tracked.retry {used : AttemptCredential} {response : GatewayResponse}
    (h : s.Tracked process) (hpc : process.pc = .sending prepared false (some used)) (hextends : s.Extends t)
    (hcache : t.cache = (prepared.answered false (some used) response).2.foldl CredentialCache.drop s.cache)
    (hstatus : response.status = 401) (hfrom : used.fromCache = true) (htoken : prepared.clientTokenSent = false) :
    t.Tracked ((process.noteAnswer (.ok response)).goOn (prepared.answered false (some used) response)) := by
  simp only [Tracked, hpc] at h
  obtain ⟨earlier, attempt, hattempts, hbefore, hattempted, hused, hcredential⟩ := h
  obtain ⟨_, hknown⟩ := hcredential used rfl
  obtain ⟨key, deviceId, hkey, hknown⟩ := hknown hfrom
  have hearlier : earlier = [] := by simpa [Before] using hbefore
  have hretries : prepared.retries false (some used) response.status = true := by
    simp [PreparedRequest.retries, hstatus, hfrom, htoken]
  have hanswered : prepared.answered false (some used) response =
      (.looking prepared true, [.invalidateIf key used.credential]) := by
    rw [PreparedRequest.answered, if_pos hretries, prepared.attempt_cached true (by rw [hkey]; rfl)]
    simp [PreparedRequest.invalidates, hkey]
  rw [hanswered] at hcache ⊢
  refine ⟨{ attempt with answer := some (.ok response) }, ?_, hattempted, ⟨used, key, deviceId, hused, hfrom, hkey, ?_⟩,
    ⟨response, rfl, hstatus⟩, htoken⟩
  · simp [ProxyProcess.goOn, ProxyProcess.noteAnswer, ProxyEffect.request, hattempts, hearlier]
  · refine ⟨hextends.known _ _ hknown, fun entry hentry => ?_⟩
    rw [hcache] at hentry
    exact invalidateIf_absent hentry

variable {used : Option AttemptCredential}

theorem retries_spec {status : Nat} (h : prepared.retries retried used status = true) :
    status = 401 ∧ retried = false ∧ prepared.clientTokenSent = false ∧
      ∃ credential, used = some credential ∧ credential.fromCache = true := by
  cases used with
  | none => simp [PreparedRequest.retries] at h
  | some credential =>
    simp only [PreparedRequest.retries, Option.any_some, Bool.and_eq_true, beq_iff_eq, Bool.not_eq_true'] at h
    obtain ⟨⟨⟨hstatus, hfrom⟩, htoken⟩, hretried⟩ := h
    exact ⟨hstatus, hretried, htoken, credential, rfl, hfrom⟩

/-- A request that is answered and not retried. -/
theorem Tracked.finish (h : s.Tracked process) (hpc : process.pc = .sending prepared retried used)
    (answer : Except GatewayFailure GatewayResponse) (result : Except ProxyError ProxyResponse)
    {effects : List ProxyEffect} (heffects : ∀ sent, .send sent ∉ effects) :
    t.Tracked ((process.noteAnswer answer).goOn (.done result, effects)) := by
  simp only [Tracked, hpc] at h
  obtain ⟨earlier, attempt, hattempts, hbefore, hattempted, rfl, hcredential⟩ := h
  have hunsent : effects.filterMap (·.request) = [] := by
    refine List.filterMap_eq_nil_iff.mpr fun effect heffect => ?_
    cases effect with
    | send sent => exact absurd heffect (heffects sent)
    | _ => rfl
  have hdone : ((process.noteAnswer answer).goOn (.done result, effects)).attempts =
      earlier ++ [{ attempt with answer := some answer }] := by
    simp [ProxyProcess.goOn, ProxyProcess.noteAnswer, hattempts, hunsent]
  have hsame : prepared.Attempted { attempt with answer := some answer } := hattempted
  have honce := hbefore.append hsame fun used hused => (hcredential used hused).1
  rw [← hdone] at honce
  exact honce

theorem Tracked.answer {result : Except GatewayFailure GatewayResponse} (h : s.Tracked process)
    (hpc : process.pc = .sending prepared retried used) (hextends : s.Extends t)
    (hcache : t.cache = (prepared.afterAnswer retried used result).2.foldl CredentialCache.drop s.cache) :
    t.Tracked ((process.noteAnswer result).goOn (prepared.afterAnswer retried used result)) := by
  cases result with
  | error failure => exact h.finish hpc _ _ fun _ => nofun
  | ok response =>
    by_cases hretries : prepared.retries retried used response.status = true
    · obtain ⟨hstatus, rfl, htoken, credential, rfl, hfrom⟩ := retries_spec hretries
      exact h.retry hpc hextends hcache hstatus hfrom htoken
    · rw [PreparedRequest.afterAnswer, PreparedRequest.answered, if_neg hretries]
      refine h.finish hpc _ _ fun sent => ?_
      split
      next => exact prepared.invalidates_sends used sent
      next => exact List.not_mem_nil

theorem Fresh.answer (h : s.Fresh) (hget : s.processes[index]? = some process)
    {result : Except GatewayFailure GatewayResponse} {u : ProxyRun}
    (hact : s.answer result process = some (u, next)) :
    { u with processes := u.processes.set index next }.Fresh := by
  obtain ⟨prepared, retried, used, hpc, rfl, rfl⟩ := answer_spec hact
  refine h.replace hget ⟨rfl, (List.append_nil _).symm, rfl, (List.append_nil _).symm,
    fun _ _ => CredentialCache.drops_entries⟩ (Nat.zero_le 1) (fun _ => nofun) (fun credential => ?_)
    fun hextends => (h.tracked process (List.mem_of_getElem? hget)).answer hpc hextends rfl
  rw [goOn_pends]
  exact Nat.zero_le _

end ProxyRun

end AgentDesktop
