import AgentDesktop.ProxyCalls
import AgentDesktop.ProxyForwardSpec

namespace AgentDesktop

namespace PreparedRequest

variable (prepared : PreparedRequest) (retried : Bool)

/-- How an attempt goes on from a look in the cache. -/
def afterLookup : Option (String × Deadline) → ForwardPc × List ProxyEffect
  | some (credential, deadline) => prepared.useCredential retried ⟨credential, deadline, true, false⟩
  | none => prepared.fetch retried

def afterFetch : Except FetchFailure (String × Deadline × Bool) → ForwardPc × List ProxyEffect
  | .ok (credential, deadline, cached) => prepared.useCredential retried ⟨credential, deadline, cached, !cached⟩
  | .error failure => (.done (.error failure.error), [])

def afterAnswer (used : Option AttemptCredential) :
    Except GatewayFailure GatewayResponse → ForwardPc × List ProxyEffect
  | .ok response => prepared.answered retried used response
  | .error failure => (.done (.error failure.error), [])

/-- A request whose credential can be cached looks for it first. -/
theorem attempt_cached (h : prepared.cacheKey.isSome = true) :
    prepared.attempt retried = (.looking prepared retried, []) := by
  have hissued : prepared.authentication.isSome = true := by
    have hcached := prepared.cached h
    cases hauthentication : prepared.authentication with
    | none =>
      rw [hauthentication] at hcached
      cases hcached
    | some authentication => rfl
  rw [attempt, if_pos hissued, if_pos h]

/-- A request that has its credential spawns no fetch. -/
theorem useCredential_spawned (used : AttemptCredential) :
    (prepared.useCredential retried used).1.spawned = none := by
  unfold useCredential
  split
  next => rfl
  next => rfl

theorem afterFetch_spawned (result : Except FetchFailure (String × Deadline × Bool)) :
    (prepared.afterFetch retried result).1.spawned = none := by
  unfold afterFetch
  split
  next => exact prepared.useCredential_spawned retried _
  next => rfl

end PreparedRequest

section

variable {pc : ForwardPc} {next : ForwardPc × List ProxyEffect}

theorem resume_lookup {found : Option (String × Deadline)} (h : resume pc (.lookup found) = some next) :
    ∃ prepared retried, pc = .looking prepared retried ∧ next = prepared.afterLookup retried found := by
  cases pc with
  | looking prepared retried =>
    refine ⟨prepared, retried, rfl, ?_⟩
    cases found with
    | none => exact (Option.some.inj h).symm
    | some found => exact (Option.some.inj h).symm
  | _ => cases h

theorem resume_fetched {result : Except FetchFailure (String × Deadline × Bool)}
    (h : resume pc (.fetched result) = some next) :
    ∃ prepared retried, pc = .fetching prepared retried ∧ next = prepared.afterFetch retried result := by
  cases pc with
  | fetching prepared retried =>
    refine ⟨prepared, retried, rfl, ?_⟩
    cases result with
    | ok fetched => exact (Option.some.inj h).symm
    | error failure =>
      cases failure with
      | timedOut =>
        simp only [resume] at h
        split at h
        next => exact (Option.some.inj h).symm
        next => cases h
      | task error => exact (Option.some.inj h).symm
      | credential status message => exact (Option.some.inj h).symm
  | _ => cases h

theorem resume_answer {result : Except GatewayFailure GatewayResponse} (h : resume pc (.answer result) = some next) :
    ∃ prepared retried used, pc = .sending prepared retried used ∧
      next = prepared.afterAnswer retried used result := by
  cases pc with
  | sending prepared retried used =>
    refine ⟨prepared, retried, used, rfl, ?_⟩
    cases result with
    | ok response => exact (Option.some.inj h).symm
    | error failure => exact (Option.some.inj h).symm
  | _ => cases h

end

theorem CredentialCache.drop_entries {cache : CredentialCache} {effect : ProxyEffect} {key : String}
    {entry : CachedCredential} (h : (cache.drop effect).entries key = some entry) :
    cache.entries key = some entry := by
  unfold CredentialCache.drop at h
  split at h
  next =>
    unfold CredentialCache.invalidateIf at h
    split at h
    next =>
      simp only [CredentialCache.setEntry] at h
      split at h
      next => cases h
      next => exact h
    next => exact h
  next => exact h

/-- Drops only take entries away. -/
theorem CredentialCache.drops_entries {effects : List ProxyEffect} {cache : CredentialCache} {key : String}
    {entry : CachedCredential} (h : (effects.foldl CredentialCache.drop cache).entries key = some entry) :
    cache.entries key = some entry := by
  induction effects generalizing cache with
  | nil => exact h
  | cons effect rest ih => exact CredentialCache.drop_entries (ih h)

namespace ProxyProcess

variable {process next : ProxyProcess}

theorem goOn_unsent (process : ProxyProcess) {effects : List ProxyEffect}
    (h : effects.filterMap (·.request) = []) (pc : ForwardPc)
    (rest : List ProxyEffect) : process.goOn (pc, effects ++ rest) = process.goOn (pc, rest) := by
  simp only [goOn, List.filterMap_append, h, List.nil_append]

theorem resume_eq {input : ForwardInput} (h : process.resume input = some next) :
    ∃ after, AgentDesktop.resume process.pc input = some after ∧ next = process.goOn after := by
  obtain ⟨after, hafter, rfl⟩ := Option.map_eq_some_iff.mp h
  exact ⟨after, hafter, rfl⟩

/-- What a fetch that ended gives the request. -/
def fetchResult : FetchProgress ControllerError → Option (Except FetchFailure (String × Deadline × Bool))
  | .running _ => none
  | .finished credential deadline cached => some (.ok (credential, deadline, cached))
  | .failed (status, message) => some (.error (.credential status message))

/-- A fetch that took a step still runs, or it ended and the request went on. -/
theorem afterCall_spec {call : FetchCall} {progress : FetchProgress ControllerError}
    (h : process.afterCall call progress = some next) :
    (∃ pc, progress = .running pc ∧ next = { process with call := some { call with pc } }) ∨
      ∃ prepared retried result, process.pc = .fetching prepared retried ∧ fetchResult progress = some result ∧
        next = process.goOn (prepared.afterFetch retried result) := by
  cases progress with
  | running pc => exact Or.inl ⟨pc, rfl, (Option.some.inj h).symm⟩
  | finished credential deadline cached =>
    obtain ⟨after, hafter, rfl⟩ := resume_eq h
    obtain ⟨prepared, retried, hpc, rfl⟩ := resume_fetched hafter
    exact Or.inr ⟨prepared, retried, _, hpc, rfl, rfl⟩
  | failed error =>
    obtain ⟨after, hafter, rfl⟩ := resume_eq h
    obtain ⟨prepared, retried, hpc, rfl⟩ := resume_fetched hafter
    exact Or.inr ⟨prepared, retried, _, hpc, rfl, rfl⟩

theorem afterCall_remaining {call : FetchCall} {progress : FetchProgress ControllerError}
    (h : process.afterCall call progress = some next) : next.call.toList = progress.remaining call := by
  rcases afterCall_spec h with ⟨pc, rfl, rfl⟩ | ⟨prepared, retried, result, _, hresult, rfl⟩
  · rfl
  · have hcall : (process.goOn (prepared.afterFetch retried result)).call = none :=
      prepared.afterFetch_spawned retried result
    rw [hcall]
    cases progress with
    | running pc => cases hresult
    | finished credential deadline cached => rfl
    | failed error => rfl

end ProxyProcess

namespace ProxyRun

variable {s t : ProxyRun} {index : Nat} {process next : ProxyProcess} {call : FetchCall}

/-- A step of one of the fetches under way. -/
structure CallMoved (s t : ProxyRun) (call : FetchCall) (input : FetchInput ControllerError)
    (progress : FetchProgress ControllerError) : Prop where
  stepped : getOrFetchStep s.cache call input = some (t.cache, progress)
  member : call ∈ s.calls
  counts : ∀ p, t.calls.countP p + [call].countP p = s.calls.countP p + (progress.remaining call).countP p
  fetches : t.fetches = s.fetches ++ call.begins progress
  fetched : t.fetched = s.fetched ++ call.receives input
  inserts : t.inserts = s.inserts ++ call.stores input

/-- What a request that is replaced does to the fetches under way. -/
theorem calls_set (hget : s.processes[index]? = some process) {detached : List FetchCall}
    (hprocesses : t.processes = s.processes.set index next) (hdetached : t.detached = s.detached ++ detached)
    (p : FetchCall → Bool) :
    t.calls.countP p + process.call.toList.countP p =
      s.calls.countP p + next.call.toList.countP p + detached.countP p := by
  have hset := countP_flatMap_set hget next (·.call.toList) p
  simp only [calls, hprocesses, hdetached, List.countP_append]
  omega

theorem mem_calls (hget : s.processes[index]? = some process) (hcall : process.call = some call) : call ∈ s.calls := by
  refine List.mem_append_left _ (List.mem_flatMap.mpr ⟨process, List.mem_of_getElem? hget, ?_⟩)
  simp [hcall]

theorem lookup_spec {now nowUnix : Nat} (h : s.lookup now nowUnix process = some (t, next)) :
    t = s ∧ ∃ prepared retried key deviceId, process.pc = .looking prepared retried ∧
      prepared.cacheKey = some (key, deviceId) ∧
      next = process.goOn (prepared.afterLookup retried (s.cache.lookup key deviceId now nowUnix)) := by
  unfold lookup at h
  split at h
  next => cases h
  next key deviceId hkey =>
    obtain ⟨next', hresume, heq⟩ := Option.map_eq_some_iff.mp h
    cases heq
    obtain ⟨after, hafter, rfl⟩ := ProxyProcess.resume_eq hresume
    obtain ⟨prepared, retried, hpc, rfl⟩ := resume_lookup hafter
    rw [hpc] at hkey
    exact ⟨rfl, prepared, retried, key, deviceId, hpc, hkey, rfl⟩

theorem advance_spec {input : FetchInput ControllerError} (hget : s.processes[index]? = some process)
    (h : s.advance input process = some (t, next)) :
    t.processes = s.processes ∧ ∃ call progress, process.call = some call ∧
      process.afterCall call progress = some next ∧
      s.CallMoved { t with processes := t.processes.set index next } call input progress := by
  unfold advance at h
  split at h
  next => cases h
  next call hcall =>
    split at h
    next => cases h
    next t' progress hstep =>
      obtain ⟨next', hafter, heq⟩ := Option.map_eq_some_iff.mp h
      cases heq
      obtain ⟨hfetch, ht⟩ := stepCall_spec hstep
      have hprocesses : t.processes = s.processes := by rw [ht]
      have hdetached : t.detached = s.detached ++ [] := by rw [ht, List.append_nil]
      refine ⟨hprocesses, call, progress, hcall, hafter, hfetch, mem_calls hget hcall, fun p => ?_, by rw [ht],
        by rw [ht], by rw [ht]⟩
      have hset := calls_set (t := { t with processes := t.processes.set index next }) hget (by rw [hprocesses])
        hdetached p
      rw [hcall, ProxyProcess.afterCall_remaining hafter] at hset
      exact hset

/-- The credential that a fetch got. -/
def gotten (result : Except ControllerError LlmGatewayCredential) : List String :=
  match result with
  | .ok fetched => [fetched.credential]
  | .error _ => []

def uncachedResult (result : Except ControllerError LlmGatewayCredential) (now nowUnix : Nat) :
    Except FetchFailure (String × Deadline × Bool) :=
  match result with
  | .ok fetched => .ok (fetched.credential, .fromUnix fetched.expiresAtUnixSeconds now nowUnix, false)
  | .error (status, message) => .error (.credential status message)

theorem fetchUncached_spec {result : Except ControllerError LlmGatewayCredential} {now nowUnix : Nat}
    (h : s.fetchUncached result now nowUnix process = some (t, next)) :
    process.call = none ∧ t = { s with fetched := s.fetched ++ gotten result } ∧
      ∃ prepared retried, process.pc = .fetching prepared retried ∧
        next = process.goOn (prepared.afterFetch retried (uncachedResult result now nowUnix)) := by
  unfold fetchUncached at h
  split at h
  next => cases h
  next status message hcall =>
    obtain ⟨next', hresume, heq⟩ := Option.map_eq_some_iff.mp h
    cases heq
    obtain ⟨after, hafter, rfl⟩ := ProxyProcess.resume_eq hresume
    obtain ⟨prepared, retried, hpc, rfl⟩ := resume_fetched hafter
    exact ⟨hcall, by simp [gotten], prepared, retried, hpc, rfl⟩
  next fetched hcall =>
    obtain ⟨next', hresume, heq⟩ := Option.map_eq_some_iff.mp h
    cases heq
    obtain ⟨after, hafter, rfl⟩ := ProxyProcess.resume_eq hresume
    obtain ⟨prepared, retried, hpc, rfl⟩ := resume_fetched hafter
    exact ⟨hcall, rfl, prepared, retried, hpc, rfl⟩

theorem answer_spec {result : Except GatewayFailure GatewayResponse} (h : s.answer result process = some (t, next)) :
    ∃ prepared retried used, process.pc = .sending prepared retried used ∧
      t = { s with cache := (prepared.afterAnswer retried used result).2.foldl CredentialCache.drop s.cache } ∧
      next = (process.noteAnswer result).goOn (prepared.afterAnswer retried used result) := by
  unfold answer at h
  split at h
  next => cases h
  next after hafter =>
    cases h
    obtain ⟨prepared, retried, used, hpc, rfl⟩ := resume_answer hafter
    exact ⟨prepared, retried, used, hpc, rfl, rfl⟩

theorem advanceDetached_spec {input : FetchInput ControllerError} (h : s.advanceDetached index input = some t) :
    t.processes = s.processes ∧ ∃ call progress, s.detached[index]? = some call ∧
      s.CallMoved t call input progress := by
  unfold advanceDetached at h
  split at h
  next => cases h
  next call hcall =>
    split at h
    next => cases h
    next t' progress hstep =>
      cases h
      obtain ⟨hfetch, ht⟩ := stepCall_spec hstep
      have hprocesses : t'.processes = s.processes := by rw [ht]
      have hmem : call ∈ s.calls := List.mem_append_right _ (List.mem_of_getElem? hcall)
      refine ⟨hprocesses, call, progress, hcall, hfetch, hmem, fun p => ?_, by rw [ht], by rw [ht], by rw [ht]⟩
      have hsplit : s.detached.countP p = (s.detached.take index).countP p +
          ([call].countP p + (s.detached.drop (index + 1)).countP p) := by
        rw [← List.countP_append, ← List.countP_append, List.singleton_append, ← split_at hcall]
      simp only [calls, hprocesses, List.countP_append, hsplit]
      omega

/-- A request that arrives is refused, or its first attempt begins. -/
theorem arrived_spec (parseUri : Octets → Except String Uri) (config : ProxyConfig) (request : ProxyRequest)
    (environment : ProxyEnvironment) :
    (∃ error, arrived parseUri config request environment = ({} : ProxyProcess).goOn (.done (.error error), [])) ∨
      ∃ prepared gated effects, prepare parseUri config environment request gated = (effects, .ok prepared) ∧
        arrived parseUri config request environment =
          { ({} : ProxyProcess).goOn (prepared.attempt false) with prepared := some prepared } := by
  have hoauth : ∀ gated,
      (.readConfiguration :: (prepare parseUri config environment request gated).1).filterMap (·.request) = [] := by
    intro gated
    refine List.filterMap_eq_nil_iff.mpr fun effect heffect => ?_
    rcases List.mem_cons.mp heffect with rfl | heffect
    · rfl
    · obtain ⟨clientId, rfl⟩ := prepare_effects effect heffect
      rfl
  unfold arrived arrive
  split
  next error _ => exact Or.inl ⟨error, rfl⟩
  next gated _ =>
    have hunsent := hoauth gated
    split
    next effects error hprepare =>
      rw [hprepare] at hunsent
      have hgo := ProxyProcess.goOn_unsent {} hunsent (.done (.error error)) []
      rw [List.append_nil] at hgo
      exact Or.inl ⟨error, by dsimp only; rw [hgo]; rfl⟩
    next effects prepared hprepare =>
      rw [hprepare] at hunsent
      have hgo := ProxyProcess.goOn_unsent {} hunsent (prepared.attempt false).1 (prepared.attempt false).2
      rw [List.cons_append] at hgo
      refine Or.inr ⟨prepared, gated, effects, hprepare, ?_⟩
      dsimp only
      rw [hgo, (prepared.attempt_spec false).1]

end ProxyRun

end AgentDesktop
