import AgentDesktop.ProxyTokenCalls

namespace AgentDesktop

variable {process : ProxyProcess} {deviceId key : String}

theorem useCredential_sendable (prepared : PreparedRequest) (retried : Bool) {used : AttemptCredential}
    (h : sendable used.credential = true) :
    ∃ request, prepared.useCredential retried used = (.sending prepared retried (some used), [.send request]) := by
  obtain ⟨value, hvalue⟩ := Option.isSome_iff_exists.mp h
  refine ⟨prepared.withAuthorization value, ?_⟩
  simp [PreparedRequest.useCredential, hvalue]

/-- A request that has its credential and sends it. -/
theorem goOn_useCredential (prepared : PreparedRequest) (used : AttemptCredential)
    (hattempts : process.attempts = []) (hsendable : sendable used.credential = true) :
    ∃ request, process.goOn (prepared.useCredential false used) =
      { process with
        pc := .sending prepared false (some used), call := none, attempts := [⟨request, some used, none⟩] } := by
  obtain ⟨request, heq⟩ := useCredential_sendable prepared false hsendable
  refine ⟨request, ?_⟩
  rw [heq]
  simp [ProxyProcess.goOn, ProxyEffect.request, ForwardPc.spawned, ForwardPc.used, hattempts]

variable {prepared : PreparedRequest}

/-- A token request that begins to wait for its answer. -/
theorem TokenProcess.send (hprepared : process.prepared = some prepared) (htoken : prepared.clientTokenSent = true)
    (hkey : prepared.cacheKey = some (key, deviceId)) (request : UpstreamRequest) (used : AttemptCredential) :
    TokenProcess deviceId { process with
      pc := .sending prepared false (some used), call := none, attempts := [⟨request, some used, none⟩] } :=
  ⟨prepared, key, hprepared, htoken, hkey, rfl, rfl, rfl, request, used, rfl, rfl⟩

theorem TokenProcess.looking {retried : Bool} (h : TokenProcess deviceId process)
    (hpc : process.pc = .looking prepared retried) :
    process.prepared = some prepared ∧ prepared.clientTokenSent = true ∧ retried = false ∧ process.attempts = [] ∧
      process.call = none ∧ ∃ key, prepared.cacheKey = some (key, deviceId) := by
  obtain ⟨_, key, hprepared, htoken, hkey, hplace⟩ := h
  simp only [hpc] at hplace
  obtain ⟨rfl, hretried, hattempts, hcall⟩ := hplace
  exact ⟨hprepared, htoken, hretried, hattempts, hcall, key, hkey⟩

theorem TokenProcess.fetching {retried : Bool} (h : TokenProcess deviceId process)
    (hpc : process.pc = .fetching prepared retried) :
    process.prepared = some prepared ∧ prepared.clientTokenSent = true ∧ retried = false ∧ process.attempts = [] ∧
      (process.connected = true → process.call ≠ none) ∧ ∃ key, prepared.cacheKey = some (key, deviceId) ∧
        ∀ call ∈ process.call, call.key = key ∧ call.deviceId = deviceId := by
  obtain ⟨_, key, hprepared, htoken, hkey, hplace⟩ := h
  simp only [hpc] at hplace
  obtain ⟨rfl, hretried, hattempts, hconnected, hcall⟩ := hplace
  exact ⟨hprepared, htoken, hretried, hattempts, hconnected, key, hkey, hcall⟩

theorem TokenProcess.running {call : FetchCall} (h : TokenProcess deviceId process) (hcall : process.call = some call)
    (pc : FetchPc) : TokenProcess deviceId { process with call := some { call with pc } } := by
  obtain ⟨prepared, key, hprepared, htoken, hkey, hplace⟩ := h
  refine ⟨prepared, key, hprepared, htoken, hkey, ?_⟩
  cases hpc : process.pc with
  | arrived => simp only [hpc] at hplace
  | looking other retried => simp [hpc, hcall] at hplace
  | fetching other retried =>
    simp only [hpc] at hplace
    obtain ⟨hother, hretried, hattempts, _, hcalls⟩ := hplace
    refine ⟨hother, hretried, hattempts, fun _ => nofun, ?_⟩
    rintro _ ⟨⟩
    exact hcalls call hcall
  | sending other retried used => simp [hpc, hcall] at hplace
  | done result => simp [hpc, hcall] at hplace

theorem TokenProcess.disconnect (h : TokenProcess deviceId process) :
    TokenProcess deviceId { process with call := none, connected := false } := by
  obtain ⟨prepared, key, hprepared, htoken, hkey, hplace⟩ := h
  refine ⟨prepared, key, hprepared, htoken, hkey, ?_⟩
  cases hpc : process.pc with
  | arrived => simp only [hpc] at hplace
  | looking other retried =>
    simp only [hpc] at hplace
    exact ⟨hplace.1, hplace.2.1, hplace.2.2.1, rfl⟩
  | fetching other retried =>
    simp only [hpc] at hplace
    exact ⟨hplace.1, hplace.2.1, hplace.2.2.1, nofun, fun _ => nofun⟩
  | sending other retried used =>
    simp only [hpc] at hplace
    exact ⟨hplace.1, hplace.2.1, rfl, hplace.2.2.2⟩
  | done result =>
    simp only [hpc] at hplace
    exact ⟨rfl, hplace.2⟩

namespace ProxyRun

variable {s t : ProxyRun} {index : Nat} {next : ProxyProcess} {window : CacheWindow}

theorem mem_calls_set {left : List FetchCall} (hprocesses : t.processes = s.processes.set index next)
    (hdetached : t.detached = s.detached ++ left) {call : FetchCall} (h : call ∈ t.calls) :
    call ∈ s.calls ∨ call ∈ next.call.toList ++ left := by
  rcases List.mem_append.mp h with h | h
  · obtain ⟨other, hother, hcall⟩ := List.mem_flatMap.mp h
    rw [hprocesses] at hother
    rcases List.mem_or_eq_of_mem_set hother with hother | rfl
    · exact Or.inl (List.mem_append_left _ (List.mem_flatMap.mpr ⟨other, hother, hcall⟩))
    · exact Or.inr (List.mem_append_left _ hcall)
  · rw [hdetached] at h
    rcases List.mem_append.mp h with h | h
    · exact Or.inl (List.mem_append_right _ h)
    · exact Or.inr (List.mem_append_right _ h)

/-- What the fetches become when a request is replaced: those it had, and one that it
spawns. -/
structure CallsKept (deviceId : String) (process next : ProxyProcess) (left : List FetchCall) : Prop where
  counts : ∀ p : FetchCall → Bool, (∀ call, call.pc = .waiting → p call = false) →
    next.call.toList.countP p + left.countP p = process.call.toList.countP p
  mem : ∀ call ∈ next.call.toList ++ left,
    call ∈ process.call ∨ call.pc = .waiting ∧ call.deviceId = deviceId

theorem CallsKept.none (hprocess : process.call = none) (hnext : next.call = none) :
    CallsKept deviceId process next [] := by
  refine ⟨fun p _ => by rw [hprocess, hnext]; rfl, fun call hcall => ?_⟩
  rw [hnext] at hcall
  cases hcall

/-- A step of a request that leaves the cache as it is. -/
theorem TokenRun.replace (h : TokenRun window deviceId s) (hget : s.processes[index]? = some process)
    {left : List FetchCall} (hprocesses : t.processes = s.processes.set index next)
    (hdetached : t.detached = s.detached ++ left) (hcache : t.cache = s.cache) (hfetches : t.fetches = s.fetches)
    (hcalls : CallsKept deviceId process next left) (hnext : TokenProcess deviceId next) :
    TokenRun window deviceId t := by
  have hmem : ∀ call ∈ t.calls, call ∈ s.calls ∨ call.pc = .waiting ∧ call.deviceId = deviceId := by
    intro call hcall
    rcases mem_calls_set hprocesses hdetached hcall with hold | hnew
    · exact Or.inl hold
    · rcases hcalls.mem call hnew with hold | hwaiting
      · exact Or.inl (mem_calls hget hold)
      · exact Or.inr hwaiting
  have hcounts : ∀ p : FetchCall → Bool, (∀ call, call.pc = .waiting → p call = false) →
      t.calls.countP p = s.calls.countP p := by
    intro p hp
    have hset := calls_set hget hprocesses hdetached p
    have hkept := hcalls.counts p hp
    omega
  refine ⟨by rw [hcache]; exact h.entries, fun call hcall => ?_, fun key => ?_, fun other hother => ?_, fun key => ?_⟩
  · rcases hmem call hcall with hold | ⟨hpc, hdevice⟩
    · exact h.calls call hold
    · exact ⟨hdevice, by simp [hpc]⟩
  · rw [hcounts _ fun call hpc => by simp [FetchCall.holdsFlight, hpc], hcache]
    exact h.flights key
  · rw [hprocesses] at hother
    rcases List.mem_or_eq_of_mem_set hother with hother | rfl
    · exact h.processes other hother
    · exact hnext
  · exact (h.keys key).congr (by rw [hfetches]) (hcounts _ fun call hpc => by simp [FetchCall.busy, hpc])
      (by rw [hcache])

theorem TokenRun.disconnect (h : TokenRun window deviceId s) (hget : s.processes[index]? = some process) :
    TokenRun window deviceId { s.detach process with
      processes := (s.detach process).processes.set index { process with call := none, connected := false } } := by
  refine h.replace hget rfl rfl rfl rfl ⟨fun p _ => ?_, fun call hcall => Or.inl ?_⟩
    (h.processes process (List.mem_of_getElem? hget)).disconnect
  · simp
  · simpa using hcall

theorem TokenRun.lookup (h : TokenRun window deviceId s) (hget : s.processes[index]? = some process)
    {now nowUnix : Nat} {u : ProxyRun} (hact : s.lookup now nowUnix process = some (u, next)) :
    TokenRun window deviceId { u with processes := u.processes.set index next } := by
  obtain ⟨rfl, prepared, retried, key, device, hpc, hkey, rfl⟩ := lookup_spec hact
  obtain ⟨hprepared, htoken, rfl, hattempts, hcall, key', hkey'⟩ :=
    (h.processes process (List.mem_of_getElem? hget)).looking hpc
  cases hkey.symm.trans hkey'
  cases hlookup : u.cache.lookup key deviceId now nowUnix with
  | some found =>
    obtain ⟨credential, deadline⟩ := found
    obtain ⟨entry, hentry, _, _, _, rfl, _⟩ := CredentialCache.lookup_spec hlookup
    have hsendable := (h.entries key entry hentry).credential
    obtain ⟨request, hgo⟩ := goOn_useCredential prepared ⟨entry.credential, deadline, true, false⟩ hattempts hsendable
    rw [PreparedRequest.afterLookup, hgo]
    exact h.replace hget rfl (List.append_nil _).symm rfl rfl (.none hcall rfl)
      (.send hprepared htoken hkey request _)
  | none =>
    have hgo : process.goOn (prepared.afterLookup false none) =
        { process with pc := .fetching prepared false, call := some { key, deviceId } } := by
      simp [PreparedRequest.afterLookup, PreparedRequest.fetch, ProxyProcess.goOn, ForwardPc.spawned,
        ProxyEffect.request, hkey]
    rw [hgo]
    refine h.replace hget rfl (List.append_nil _).symm rfl rfl ⟨fun p hp => ?_, fun call hnew => Or.inr ?_⟩
      ⟨prepared, key, hprepared, htoken, hkey, rfl, rfl, hattempts, (by rintro _ ⟨⟩), ?_⟩
    · simp [hcall, hp]
    · cases List.mem_singleton.mp hnew
      exact ⟨rfl, rfl⟩
    · rintro call ⟨⟩
      exact ⟨rfl, rfl⟩

/-- A fetch that ends gives a credential that can be sent. -/
theorem TokenRun.finished (h : TokenRun window deviceId s) {call : FetchCall} {input : FetchInput ControllerError}
    {progress : FetchProgress ControllerError} (hmoved : s.CallMoved t call input progress)
    (hwithin : call.within window input = true) {result : Except FetchFailure (String × Deadline × Bool)}
    (hresult : ProxyProcess.fetchResult progress = some result) :
    ∃ credential deadline cached, progress = .finished credential deadline cached ∧
      result = .ok (credential, deadline, cached) ∧ sendable credential = true := by
  have hlasts := h.calls call hmoved.member
  have hmove := getOrFetchStep_move hmoved.stepped
  generalize t.cache = cache at hmove
  cases hmove with
  | hit now nowUnix credential deadline hpc hlookup =>
    obtain ⟨entry, hentry, _, _, _, rfl, _⟩ := CredentialCache.lookup_spec hlookup
    cases Option.some.inj hresult
    exact ⟨_, _, _, rfl, rfl, (h.entries call.key entry hentry).credential⟩
  | finish fetched now nowUnix hpc =>
    obtain ⟨_, hsendable⟩ := hlasts
    simp only [hpc] at hsendable
    cases Option.some.inj hresult
    exact ⟨_, _, _, rfl, rfl, hsendable⟩
  | fail error hpc => cases hwithin
  | lock hpc hfree => cases hresult
  | miss now nowUnix hpc hlookup => cases hresult
  | receive fetched hpc => cases hresult
  | clock fetched nowUnix hpc => cases hresult
  | store fetched nowUnix now later hpc => cases hresult

/-- A request whose fetch took a step. -/
theorem TokenRun.afterCall (h : TokenRun window deviceId s) (hget : s.processes[index]? = some process)
    {call : FetchCall} {input : FetchInput ControllerError} {progress : FetchProgress ControllerError}
    (hcall : process.call = some call) (hafter : process.afterCall call progress = some next)
    (hmoved : s.CallMoved t call input progress) (hwithin : call.within window input = true) :
    TokenProcess deviceId next := by
  have htoken := h.processes process (List.mem_of_getElem? hget)
  rcases ProxyProcess.afterCall_spec hafter with ⟨pc, rfl, rfl⟩ | ⟨prepared, retried, result, hpc, hresult, rfl⟩
  · exact htoken.running hcall pc
  · obtain ⟨hprepared, htoken, rfl, hattempts, _, key, hkey, _⟩ := htoken.fetching hpc
    obtain ⟨credential, deadline, cached, rfl, rfl, hsendable⟩ := h.finished hmoved hwithin hresult
    obtain ⟨request, hgo⟩ := goOn_useCredential prepared ⟨credential, deadline, cached, !cached⟩ hattempts hsendable
    rw [PreparedRequest.afterFetch, hgo]
    exact .send hprepared htoken hkey request _

end ProxyRun

end AgentDesktop
