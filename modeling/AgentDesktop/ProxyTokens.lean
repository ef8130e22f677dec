import AgentDesktop.ProxySteps

namespace AgentDesktop

/-- A credential that can stand in a header. -/
def sendable (credential : String) : Bool :=
  (headerValueFromStr (octets "Bearer " ++ octets credential)).isSome

/-- Where the cache lifetime of each key begins, on both clocks. -/
structure CacheWindow where
  start : String → Nat
  startUnix : String → Nat

def CacheWindow.covers (window : CacheWindow) (key : String) (now nowUnix : Nat) : Bool :=
  decide (now < window.start key + fromSecs credentialCacheTtl) &&
    decide (nowUnix < window.startUnix key + credentialCacheTtl)

/-- A fetch succeeds, its credential is valid for more than 90 seconds, and its call
reads the clocks within the lifetime. -/
def FetchCall.within (window : CacheWindow) (call : FetchCall) : FetchInput ControllerError → Bool
  | .look now nowUnix => window.covers call.key now nowUnix
  | .respond (.ok fetched) => sendable fetched.credential
  | .respond (.error _) => false
  | .clock nowUnix =>
    decide (window.startUnix call.key ≤ nowUnix) &&
      match call.pc with
      | .received fetched => decide (nowUnix + 90 < fetched.expiresAtUnixSeconds)
      | _ => true
  | .store now _ => decide (window.start call.key ≤ now)
  | _ => true

/-- The key under which the credential of a request is cached. -/
def ProxyProcess.key (process : ProxyProcess) : Option String :=
  (process.prepared.bind (·.cacheKey)).map (·.1)

namespace ProxyRun

/-- The gateway rejects every request, and every fetch succeeds within the lifetime. -/
def tokenRejected (window : CacheWindow) (s : ProxyRun) : ProxyAction → Bool
  | .lookup index now nowUnix =>
    (s.processes[index]?.bind (·.key)).all fun key => window.covers key now nowUnix
  | .advance index input => (s.processes[index]?.bind (·.call)).all fun call => call.within window input
  | .advanceDetached index input => s.detached[index]?.all fun call => call.within window input
  | .timeout _ => false
  | .answer _ (.ok response) => response.status == 401
  | .answer _ (.error _) => false
  | _ => true

/-- A request that fetched its own credential is not answered while the cache holds it. -/
def answersKeep (s : ProxyRun) : ProxyAction → Bool
  | .answer index _ => s.processes[index]?.all fun process =>
    match process.key, process.pc with
    | some key, .sending _ _ (some used) =>
      !(used.fetchedNow && (s.cache.entries key).any fun entry => entry.credential == used.credential)
    | _, _ => true
  | _ => true

/-- An answer leaves the cache as it is. -/
def KeepsCache (s : ProxyRun) (action : ProxyAction) (t : ProxyRun) : Prop :=
  ∀ index result, action = .answer index result → t.cache = s.cache

/-- Every request is sent once and its rejection goes back, no rejection
drops a credential from the cache, and there is one fetch for a key. -/
structure RejectedOnce (parseUri : Octets → Except String Uri) (config : ProxyConfig) (start : ProxyRun)
    (actions : List ProxyAction) (s : ProxyRun) : Prop where
  sent : ∀ process ∈ s.processes, process.attempts.length ≤ 1
  returned : ∀ process ∈ s.processes, ∀ result, process.pc = .done result →
    ∃ attempt response, process.attempts = [attempt] ∧ attempt.answer = some (.ok response) ∧
      response.status = 401 ∧
      result = .ok { status := 401, headers := stripHopHeaders response.headers, body := response.body }
  kept : EachStep (ProxyRun.step parseUri config) KeepsCache actions start
  fetches : ∀ key, s.fetches.count key ≤ 1

end ProxyRun

section

variable (parseUri : Octets → Except String Uri) (config : ProxyConfig) (effective : EffectiveConfig)
  (deviceId : String)

/-- Every request forwards a client token, under one configuration and one identity. -/
def ForwardsTokens (actions : List ProxyAction) : Prop :=
  ∀ request environment, .arrive request environment ∈ actions →
    environment.effectiveConfig = .ok effective ∧ environment.deviceId = some deviceId ∧
      ∃ prepared, (ProxyRun.arrived parseUri config request environment).prepared = some prepared ∧
        prepared.clientTokenSent = true

end

/-- A request with a client token, by where it is. -/
def TokenProcess (deviceId : String) (process : ProxyProcess) : Prop :=
  ∃ prepared key, process.prepared = some prepared ∧ prepared.clientTokenSent = true ∧
    prepared.cacheKey = some (key, deviceId) ∧
    match process.pc with
    | .arrived => False
    | .looking other retried => other = prepared ∧ retried = false ∧ process.attempts = [] ∧ process.call = none
    | .fetching other retried =>
      other = prepared ∧ retried = false ∧ process.attempts = [] ∧
        (process.connected = true → process.call ≠ none) ∧
        ∀ call ∈ process.call, call.key = key ∧ call.deviceId = deviceId
    | .sending other retried used =>
      other = prepared ∧ retried = false ∧ process.call = none ∧
        ∃ request credential, used = some credential ∧ process.attempts = [⟨request, some credential, none⟩]
    | .done result =>
      process.call = none ∧ ∃ request used response, process.attempts = [⟨request, some used, some (.ok response)⟩] ∧
        response.status = 401 ∧
        result = .ok { status := 401, headers := stripHopHeaders response.headers, body := response.body }

/-- An entry that the lifetime of its key does not outlast. -/
structure EntryLasts (window : CacheWindow) (deviceId key : String) (entry : CachedCredential) : Prop where
  device : entry.deviceId = deviceId
  credential : sendable entry.credential = true
  validUntil : window.start key + fromSecs credentialCacheTtl ≤ entry.validUntil
  validUntilUnix : window.startUnix key + credentialCacheTtl ≤ entry.validUntilUnix

/-- A fetch with what it has got so far. -/
def CallLasts (window : CacheWindow) (deviceId : String) (call : FetchCall) : Prop :=
  call.deviceId = deviceId ∧
    match call.pc with
    | .received fetched => sendable fetched.credential = true
    | .inserting fetched nowUnix =>
      sendable fetched.credential = true ∧ nowUnix + 90 < fetched.expiresAtUnixSeconds ∧
        window.startUnix call.key ≤ nowUnix
    | .inserted fetched => sendable fetched.credential = true
    | _ => True

variable {window : CacheWindow} {deviceId key : String}

theorem EntryLasts.lookup {entry : CachedCredential} (h : EntryLasts window deviceId key entry)
    {cache : CredentialCache} (hentry : cache.entries key = some entry) {now nowUnix : Nat}
    (hcovers : window.covers key now nowUnix = true) :
    cache.lookup key deviceId now nowUnix = some (entry.credential, ⟨entry.expires, entry.expiresUnix⟩) := by
  obtain ⟨hnow, hnowUnix⟩ := Bool.and_eq_true_iff.mp hcovers
  have hvalid : now < entry.validUntil := Nat.lt_of_lt_of_le (of_decide_eq_true hnow) h.validUntil
  have hvalidUnix : nowUnix < entry.validUntilUnix := Nat.lt_of_lt_of_le (of_decide_eq_true hnowUnix) h.validUntilUnix
  simp [CredentialCache.lookup, hentry, CachedCredential.validFor, h.device, hvalid, hvalidUnix]

/-- What a call caches lasts for the whole lifetime. -/
theorem CallLasts.stored {call : FetchCall} {fetched : LlmGatewayCredential} {nowUnix : Nat}
    (h : CallLasts window deviceId call) (now later : Nat) (hpc : call.pc = .inserting fetched nowUnix)
    (hnow : window.start call.key ≤ now) :
    ∃ entry, cachedCredential call.deviceId fetched nowUnix now later = some entry ∧
      EntryLasts window deviceId call.key entry := by
  obtain ⟨hdevice, hcall⟩ := h
  simp only [hpc] at hcall
  obtain ⟨hsendable, hexpires, hstart⟩ := hcall
  have hlifetime : min (fetched.expiresAtUnixSeconds - nowUnix - credentialExpiryMargin) credentialCacheTtl =
      credentialCacheTtl := by
    simp only [credentialExpiryMargin, credentialCacheTtl]
    omega
  have hpositive : credentialCacheTtl > 0 := by decide
  simp only [cachedCredential, hlifetime, if_pos hpositive]
  refine ⟨_, rfl, hdevice, hsendable, ?_, ?_⟩
  · exact Nat.add_le_add_right hnow _
  · exact Nat.add_le_add_right hstart _

end AgentDesktop
