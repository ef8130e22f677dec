import AgentDesktop.ProxyCalls
import AgentDesktop.ProxyForwardSpec

namespace AgentDesktop

/-- An attempt with a gateway credential, which is all that its `Authorization` has. -/
structure UpstreamAttempt.Carries (attempt : UpstreamAttempt) (credential : String) : Prop where
  used : attempt.used.map (·.credential) = some credential
  authorization : attempt.request.headers.values authorizationHeader = [octets "Bearer " ++ octets credential]

/-- A request and the same request sent once more, with another credential. -/
structure Retried (first second : UpstreamAttempt) : Prop where
  answer : ∃ response, first.answer = some (.ok response) ∧ response.status = 401
  cached : ∃ used, first.used = some used ∧ used.fromCache = true
  token : first.request.headers.containsKey llmTokenHeader = false
  method : second.request.method = first.request.method
  uri : second.request.uri = first.request.uri
  body : second.request.body = first.request.body
  headers : second.request.headers.AgreeOff [authorizationHeader] first.request.headers
  credentials : ∃ rejected other, first.Carries rejected ∧ second.Carries other ∧ other ≠ rejected

/-- At most two sends, and the second is a retry of the first. -/
structure RetriedOnce (attempts : List UpstreamAttempt) : Prop where
  length : attempts.length ≤ 2
  retried : ∀ first second, attempts = [first, second] → Retried first second

/-- An attempt sends what was prepared, with its credential in `Authorization` if the gateway asks for one. -/
def PreparedRequest.Attempted (prepared : PreparedRequest) (attempt : UpstreamAttempt) : Prop :=
  match attempt.used with
  | none => attempt.request = prepared.request ∧ prepared.authentication = none
  | some used => attempt.request = prepared.withAuthorization (octets "Bearer " ++ octets used.credential)

/-- No earlier attempt had the credential. -/
def Unused (attempts : List UpstreamAttempt) (credential : String) : Prop :=
  ∀ attempt ∈ attempts, ∀ used ∈ attempt.used, credential ≠ used.credential

theorem headerValueFromStr_eq {text value : Octets} (h : headerValueFromStr text = some value) : value = text := by
  unfold headerValueFromStr at h
  split at h
  next => exact (Option.some.inj h).symm
  next => cases h

namespace ProxyRun

/-- The credential was cached under the key. -/
def Known (s : ProxyRun) (key credential : String) : Prop :=
  (key, credential) ∈ s.inserts

/-- The credential was cached under the key and is there no longer. -/
structure Gone (s : ProxyRun) (key credential : String) : Prop where
  known : s.Known key credential
  absent : ∀ entry, s.cache.entries key = some entry → entry.credential ≠ credential

/-- A later state: what was cached was cached, and what is gone stays gone. -/
structure Extends (s t : ProxyRun) : Prop where
  known : ∀ key credential, s.Known key credential → t.Known key credential
  gone : ∀ key credential, s.Gone key credential → t.Gone key credential

/-- A first attempt with a cached credential that the gateway rejected. -/
structure Rejected (s : ProxyRun) (prepared : PreparedRequest) (first : UpstreamAttempt) : Prop where
  attempted : prepared.Attempted first
  cached : ∃ used key deviceId, first.used = some used ∧ used.fromCache = true ∧
    prepared.cacheKey = some (key, deviceId) ∧ s.Gone key used.credential
  answer : ∃ response, first.answer = some (.ok response) ∧ response.status = 401
  token : prepared.clientTokenSent = false

/-- What was sent before an attempt. -/
def Before (s : ProxyRun) (prepared : PreparedRequest) (retried : Bool) (attempts : List UpstreamAttempt) : Prop :=
  if retried then ∃ first, attempts = [first] ∧ s.Rejected prepared first else attempts = []

/-- What a request sent, by where it is. -/
def Tracked (s : ProxyRun) (process : ProxyProcess) : Prop :=
  match process.pc with
  | .arrived => process.attempts = []
  | .looking prepared retried => s.Before prepared retried process.attempts
  | .fetching prepared retried =>
    s.Before prepared retried process.attempts ∧
      (process.connected = true → process.call = none → prepared.cacheKey = none) ∧
      ∀ call ∈ process.call, prepared.cacheKey = some (call.key, call.deviceId) ∧
        ∀ credential, call.carries credential = true → Unused process.attempts credential
  | .sending prepared retried used =>
    ∃ earlier attempt, process.attempts = earlier ++ [attempt] ∧ s.Before prepared retried earlier ∧
      prepared.Attempted attempt ∧ attempt.used = used ∧
      ∀ credential ∈ used, Unused earlier credential.credential ∧
        (credential.fromCache = true →
          ∃ key deviceId, prepared.cacheKey = some (key, deviceId) ∧ s.Known key credential.credential)
  | .done _ => RetriedOnce process.attempts

variable {s t : ProxyRun} {prepared : PreparedRequest} {retried : Bool}

theorem Extends.rejected (h : s.Extends t) {first : UpstreamAttempt} (hfirst : s.Rejected prepared first) :
    t.Rejected prepared first := by
  obtain ⟨used, key, deviceId, hused, hcached, hkey, hgone⟩ := hfirst.cached
  exact ⟨hfirst.attempted, ⟨used, key, deviceId, hused, hcached, hkey, h.gone _ _ hgone⟩, hfirst.answer, hfirst.token⟩

theorem Extends.before (h : s.Extends t) {attempts : List UpstreamAttempt}
    (hbefore : s.Before prepared retried attempts) : t.Before prepared retried attempts := by
  unfold Before at hbefore ⊢
  split
  next hretried =>
    rw [if_pos hretried] at hbefore
    obtain ⟨first, hattempts, hfirst⟩ := hbefore
    exact ⟨first, hattempts, h.rejected hfirst⟩
  next hretried =>
    rw [if_neg hretried] at hbefore
    exact hbefore

theorem Extends.tracked (h : s.Extends t) {process : ProxyProcess} (hprocess : s.Tracked process) :
    t.Tracked process := by
  unfold Tracked at hprocess ⊢
  split at hprocess
  next hpc => exact hprocess
  next hpc => exact h.before hprocess
  next hpc => exact ⟨h.before hprocess.1, hprocess.2⟩
  next hpc =>
    obtain ⟨earlier, attempt, hattempts, hbefore, hattempted, hused, hcredential⟩ := hprocess
    refine ⟨earlier, attempt, hattempts, h.before hbefore, hattempted, hused, fun credential hmem => ?_⟩
    obtain ⟨hunused, hknown⟩ := hcredential credential hmem
    refine ⟨hunused, fun hcached => ?_⟩
    obtain ⟨key, deviceId, hkey, hknown⟩ := hknown hcached
    exact ⟨key, deviceId, hkey, h.known _ _ hknown⟩
  next hpc => exact hprocess

theorem withAuthorization_values (prepared : PreparedRequest) (value : Octets) :
    (prepared.withAuthorization value).headers.values authorizationHeader = [value] := by
  simp [PreparedRequest.withAuthorization]

theorem attempted_headers {attempt : UpstreamAttempt} (h : prepared.Attempted attempt) :
    attempt.request.method = prepared.request.method ∧ attempt.request.uri = prepared.request.uri ∧
      attempt.request.body = prepared.request.body ∧
      attempt.request.headers.AgreeOff [authorizationHeader] prepared.request.headers := by
  unfold PreparedRequest.Attempted at h
  split at h
  next =>
    rw [h.1]
    exact ⟨rfl, rfl, rfl, fun _ _ => rfl⟩
  next =>
    rw [h]
    refine ⟨rfl, rfl, rfl, fun name hname => ?_⟩
    have hne : name ≠ authorizationHeader := by simpa using hname
    simp [PreparedRequest.withAuthorization, hne]

theorem attempted_carries {attempt : UpstreamAttempt} {used : AttemptCredential} (h : prepared.Attempted attempt)
    (hused : attempt.used = some used) : attempt.Carries used.credential := by
  simp only [PreparedRequest.Attempted, hused] at h
  refine ⟨by rw [hused]; rfl, ?_⟩
  rw [h, withAuthorization_values]

/-- An attempt after a rejected one is a retry of it. -/
theorem Rejected.retry {first second : UpstreamAttempt} (h : s.Rejected prepared first)
    (hsecond : prepared.Attempted second) (hunused : ∀ used ∈ second.used, Unused [first] used.credential) :
    Retried first second := by
  obtain ⟨used, key, deviceId, hused, hcached, hkey, _⟩ := h.cached
  obtain ⟨hmethod, huri, hbody, hheaders⟩ := attempted_headers h.attempted
  obtain ⟨hmethod', huri', hbody', hheaders'⟩ := attempted_headers hsecond
  refine ⟨h.answer, ⟨used, hused, hcached⟩, ?_, hmethod'.trans hmethod.symm, huri'.trans huri.symm,
    hbody'.trans hbody.symm, fun name hname => (hheaders' name hname).trans (hheaders name hname).symm, ?_⟩
  · have htoken : llmTokenHeader ∉ [authorizationHeader] := by decide
    rw [containsKey_agreeOff hheaders htoken, prepared.token, h.token]
  · cases hother : second.used with
    | none =>
      -- what is cached is there for a gateway that asks for a credential
      have hissued := prepared.cached (by rw [hkey]; rfl)
      simp only [PreparedRequest.Attempted, hother] at hsecond
      rw [hsecond.2] at hissued
      cases hissued
    | some other =>
      exact ⟨used.credential, other.credential, attempted_carries h.attempted hused, attempted_carries hsecond hother,
        hunused other hother first List.mem_cons_self used hused⟩

end ProxyRun

end AgentDesktop
