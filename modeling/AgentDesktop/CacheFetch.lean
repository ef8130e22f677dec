import AgentDesktop.CacheInserts

namespace AgentDesktop

variable {E : Type}

/-- A call that holds the flight lock of the key. -/
def FetchCall.holdsFlight (key : String) (call : FetchCall) : Bool :=
  match call.pc with
  | .waiting => false
  | _ => call.key == key

/-- A call whose fetch for the key is in progress. -/
def FetchCall.fetches (key : String) (call : FetchCall) : Bool :=
  match call.pc with
  | .fetching => call.key == key
  | _ => false

/-- The insert a step of a call makes. -/
def FetchCall.inserts (call : FetchCall) (input : FetchInput E) : Option CacheInsert :=
  match call.pc, input with
  | .inserting fetched nowUnix, .store now later => some ⟨call.deviceId, fetched, nowUnix, now, later⟩
  | _, _ => none

/-- What is left of a call after a step. -/
def FetchProgress.remaining (progress : FetchProgress E) (call : FetchCall) : List FetchCall :=
  match progress with
  | .running pc => [{ call with pc }]
  | _ => []

/-- What a step of a call can be. -/
inductive FetchMove (cache : CredentialCache) (call : FetchCall) :
    FetchInput E → CredentialCache → FetchProgress E → Prop where
  | lock (hpc : call.pc = .waiting) (hfree : cache.flights call.key = false) :
    FetchMove cache call .lock (cache.setFlight call.key true) (.running .looking)
  | hit (now nowUnix : Nat) (credential : String) (deadline : Deadline) (hpc : call.pc = .looking)
    (hlookup : cache.lookup call.key call.deviceId now nowUnix = some (credential, deadline)) :
    FetchMove cache call (.look now nowUnix) (cache.setFlight call.key false) (.finished credential deadline true)
  | miss (now nowUnix : Nat) (hpc : call.pc = .looking)
    (hlookup : cache.lookup call.key call.deviceId now nowUnix = none) :
    FetchMove cache call (.look now nowUnix) cache (.running .fetching)
  | fail (error : E) (hpc : call.pc = .fetching) :
    FetchMove cache call (.respond (.error error)) (cache.setFlight call.key false) (.failed error)
  | receive (fetched : LlmGatewayCredential) (hpc : call.pc = .fetching) :
    FetchMove cache call (.respond (.ok fetched)) cache (.running (.received fetched))
  | clock (fetched : LlmGatewayCredential) (nowUnix : Nat) (hpc : call.pc = .received fetched) :
    FetchMove cache call (.clock nowUnix) cache (.running (.inserting fetched nowUnix))
  | store (fetched : LlmGatewayCredential) (nowUnix now later : Nat) (hpc : call.pc = .inserting fetched nowUnix) :
    FetchMove cache call (.store now later) (cache.insert call.key call.deviceId fetched nowUnix now later)
      (.running (.inserted fetched))
  | finish (fetched : LlmGatewayCredential) (now nowUnix : Nat) (hpc : call.pc = .inserted fetched) :
    FetchMove cache call (.deadline now nowUnix) (cache.setFlight call.key false)
      (.finished fetched.credential (.fromUnix fetched.expiresAtUnixSeconds now nowUnix) false)

variable {call : FetchCall} {cache next : CredentialCache}

theorem getOrFetchStep_move {input : FetchInput E} {progress : FetchProgress E}
    (h : getOrFetchStep cache call input = some (next, progress)) :
    FetchMove cache call input next progress := by
  unfold getOrFetchStep at h
  split at h
  next hpc =>
    split at h
    next => cases h
    next hfree =>
      cases h
      exact .lock hpc (Bool.eq_false_iff.mpr hfree)
  next now nowUnix hpc =>
    split at h
    next credential deadline hlookup =>
      cases h
      exact .hit now nowUnix credential deadline hpc hlookup
    next hlookup =>
      cases h
      exact .miss now nowUnix hpc hlookup
  next error hpc =>
    cases h
    exact .fail error hpc
  next fetched hpc =>
    cases h
    exact .receive fetched hpc
  next fetched nowUnix hpc =>
    cases h
    exact .clock fetched nowUnix hpc
  next fetched nowUnix now later hpc =>
    cases h
    exact .store fetched nowUnix now later hpc
  next fetched now nowUnix hpc =>
    cases h
    exact .finish fetched now nowUnix hpc
  next => cases h

/-- What one step of a call does to the flight locks and to the entries. -/
structure FetchStep (cache : CredentialCache) (call : FetchCall) (input : FetchInput E) (next : CredentialCache)
    (progress : FetchProgress E) : Prop where
  flights : ∀ key, (call.holdsFlight key = true → cache.flights key = true) →
    (progress.remaining call).countP (FetchCall.holdsFlight key) + (cache.flights key).toNat =
      [call].countP (FetchCall.holdsFlight key) + (next.flights key).toNat
  entries : match call.inserts input with
    | none => next.entries = cache.entries
    | some insert => next.entries =
        (cache.insert call.key insert.deviceId insert.fetched insert.nowUnix insert.now insert.later).entries
  cached : ∀ credential deadline, progress = .finished credential deadline true →
    ∃ now nowUnix, input = .look now nowUnix ∧
      cache.lookup call.key call.deviceId now nowUnix = some (credential, deadline)

theorem FetchCall.holdsFlight_eq (h : call.pc ≠ .waiting) (key : String) :
    call.holdsFlight key = (call.key == key) := by
  unfold FetchCall.holdsFlight
  split
  next hwaiting => exact absurd hwaiting h
  next => rfl

/-- A call that goes on keeps its flight lock. -/
theorem flights_kept (pc : FetchPc) (h : next.flights = cache.flights) (hpc : call.pc ≠ .waiting)
    (hnext : pc ≠ .waiting) (key : String) :
    [{ call with pc }].countP (FetchCall.holdsFlight key) + (cache.flights key).toNat =
      [call].countP (FetchCall.holdsFlight key) + (next.flights key).toNat := by
  have hsame : FetchCall.holdsFlight key { call with pc } = call.holdsFlight key := by
    rw [FetchCall.holdsFlight_eq hpc, FetchCall.holdsFlight_eq hnext]
  rw [h, List.countP_singleton, List.countP_singleton, hsame]

/-- A call that ends gives its flight lock back. -/
theorem flights_released {cache : CredentialCache} (hpc : call.pc ≠ .waiting) (key : String)
    (held : call.holdsFlight key = true → cache.flights key = true) :
    0 + (cache.flights key).toNat =
      [call].countP (FetchCall.holdsFlight key) + ((cache.setFlight call.key false).flights key).toNat := by
  rw [List.countP_singleton]
  by_cases hkey : key = call.key
  · subst hkey
    have hself : call.holdsFlight call.key = true := by rw [FetchCall.holdsFlight_eq hpc, beq_self_eq_true]
    rw [held hself, if_pos hself]
    simp [CredentialCache.setFlight]
  · have hother : call.holdsFlight key = false := by
      rw [FetchCall.holdsFlight_eq hpc]
      exact beq_eq_false_iff_ne.mpr (Ne.symm hkey)
    rw [hother]
    simp [CredentialCache.setFlight, hkey]

theorem getOrFetchStep_spec {input : FetchInput E} {progress : FetchProgress E}
    (h : getOrFetchStep cache call input = some (next, progress)) :
    FetchStep cache call input next progress := by
  cases getOrFetchStep_move h with
  | lock hpc hfree =>
    refine ⟨fun key _ => ?_, by simp [FetchCall.inserts, hpc, CredentialCache.setFlight], fun _ _ => nofun⟩
    simp only [FetchProgress.remaining, List.countP_singleton, FetchCall.holdsFlight, hpc]
    by_cases hkey : key = call.key
    · subst hkey
      simp [CredentialCache.setFlight, hfree]
    · simp [CredentialCache.setFlight, hkey, Ne.symm hkey]
  | hit now nowUnix credential deadline hpc hlookup =>
    have hheld : call.pc ≠ .waiting := by simp [hpc]
    refine ⟨flights_released hheld, by simp [FetchCall.inserts, hpc, CredentialCache.setFlight], ?_⟩
    rintro _ _ ⟨⟩
    exact ⟨now, nowUnix, rfl, hlookup⟩
  | miss now nowUnix hpc hlookup =>
    have hheld : call.pc ≠ .waiting := by simp [hpc]
    exact ⟨fun key _ => flights_kept .fetching rfl hheld nofun key, by simp [FetchCall.inserts, hpc],
      fun _ _ => nofun⟩
  | fail error hpc =>
    have hheld : call.pc ≠ .waiting := by simp [hpc]
    exact ⟨flights_released hheld, by simp [FetchCall.inserts, hpc, CredentialCache.setFlight], fun _ _ => nofun⟩
  | receive fetched hpc =>
    have hheld : call.pc ≠ .waiting := by simp [hpc]
    exact ⟨fun key _ => flights_kept (.received fetched) rfl hheld nofun key, by simp [FetchCall.inserts, hpc],
      fun _ _ => nofun⟩
  | clock fetched nowUnix hpc =>
    have hheld : call.pc ≠ .waiting := by simp [hpc]
    exact ⟨fun key _ => flights_kept (.inserting fetched nowUnix) rfl hheld nofun key, by simp [FetchCall.inserts, hpc],
      fun _ _ => nofun⟩
  | store fetched nowUnix now later hpc =>
    have hheld : call.pc ≠ .waiting := by simp [hpc]
    exact ⟨fun key _ => flights_kept (.inserted fetched) rfl hheld nofun key, by simp [FetchCall.inserts, hpc],
      fun _ _ => nofun⟩
  | finish fetched now nowUnix hpc =>
    have hheld : call.pc ≠ .waiting := by simp [hpc]
    exact ⟨flights_released hheld, by simp [FetchCall.inserts, hpc, CredentialCache.setFlight], fun _ _ => nofun⟩

end AgentDesktop
