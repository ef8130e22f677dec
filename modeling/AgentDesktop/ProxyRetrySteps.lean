import AgentDesktop.ProxyRetry
import AgentDesktop.ProxySteps

namespace AgentDesktop

namespace ProxyRun

variable {s : ProxyRun} {prepared : PreparedRequest} {retried : Bool} {process : ProxyProcess}
  {attempts : List UpstreamAttempt}

theorem Before.retriedOnce (h : s.Before prepared retried attempts) : RetriedOnce attempts := by
  unfold Before at h
  split at h
  next =>
    obtain ⟨first, rfl, _⟩ := h
    exact ⟨by simp, fun _ _ => nofun⟩
  next =>
    subst h
    exact ⟨by simp, fun _ _ => nofun⟩

theorem Before.length (h : s.Before prepared retried attempts) : attempts.length ≤ 1 := by
  unfold Before at h
  split at h
  next =>
    obtain ⟨first, rfl, _⟩ := h
    exact Nat.le_refl 1
  next =>
    subst h
    exact Nat.zero_le 1

/-- A credential that is none of those gone was not used before. -/
theorem Before.unused (h : s.Before prepared retried attempts) {credential : String}
    (hnew : ∀ key deviceId rejected, prepared.cacheKey = some (key, deviceId) → s.Gone key rejected →
      credential ≠ rejected) : Unused attempts credential := by
  unfold Before at h
  split at h
  next =>
    obtain ⟨first, rfl, hfirst⟩ := h
    obtain ⟨used, key, deviceId, hused, _, hkey, hgone⟩ := hfirst.cached
    intro attempt hattempt other hother
    cases List.mem_singleton.mp hattempt
    rw [hused] at hother
    cases hother
    exact hnew key deviceId used.credential hkey hgone
  next =>
    subst h
    exact fun _ => nofun

/-- An attempt after what was sent before it. -/
theorem Before.append (h : s.Before prepared retried attempts) {attempt : UpstreamAttempt}
    (hattempted : prepared.Attempted attempt) (hunused : ∀ used ∈ attempt.used, Unused attempts used.credential) :
    RetriedOnce (attempts ++ [attempt]) := by
  have hlength := h.length
  refine ⟨by simpa using hlength, fun first second hpair => ?_⟩
  obtain ⟨rfl, hsecond⟩ := List.append_inj' (hpair.trans (List.singleton_append (l := [second])).symm) rfl
  cases hsecond
  unfold Before at h
  split at h
  next =>
    obtain ⟨other, hother, hfirst⟩ := h
    cases hother
    exact hfirst.retry hattempted hunused
  next => cases h

theorem Tracked.retriedOnce (h : s.Tracked process) : RetriedOnce process.attempts := by
  unfold Tracked at h
  split at h
  next =>
    rw [h]
    exact ⟨by simp, fun _ _ => nofun⟩
  next => exact h.retriedOnce
  next => exact h.1.retriedOnce
  next =>
    obtain ⟨earlier, attempt, hattempts, hbefore, hattempted, rfl, hcredential⟩ := h
    rw [hattempts]
    exact hbefore.append hattempted fun used hused => (hcredential used hused).1
  next => exact h

/-- An attempt goes out with its credential. -/
theorem Before.useCredential (h : s.Before prepared retried process.attempts) {used : AttemptCredential}
    (hunused : Unused process.attempts used.credential)
    (hknown : used.fromCache = true →
      ∃ key deviceId, prepared.cacheKey = some (key, deviceId) ∧ s.Known key used.credential) :
    s.Tracked (process.goOn (prepared.useCredential retried used)) := by
  unfold PreparedRequest.useCredential
  split
  next =>
    have hdone : RetriedOnce (process.attempts ++ []) := by
      rw [List.append_nil]
      exact h.retriedOnce
    exact hdone
  next value hvalue =>
    refine ⟨process.attempts, ⟨prepared.withAuthorization value, some used, none⟩, rfl, h, ?_, rfl,
      fun other hother => ?_⟩
    · rw [headerValueFromStr_eq hvalue]
      rfl
    · cases hother
      exact ⟨hunused, hknown⟩

theorem Before.fail (h : s.Before prepared retried process.attempts) (error : ProxyError) :
    s.Tracked (process.goOn (.done (.error error), [])) := by
  have hdone : RetriedOnce (process.attempts ++ []) := by
    rw [List.append_nil]
    exact h.retriedOnce
  exact hdone

/-- A request begins to wait for a fetch. -/
theorem Before.fetch (h : s.Before prepared retried process.attempts) :
    s.Tracked (process.goOn (prepared.fetch retried)) := by
  have hattempts : (process.goOn (prepared.fetch retried)).attempts = process.attempts := by
    simp [ProxyProcess.goOn, PreparedRequest.fetch, ProxyEffect.request]
  refine ⟨hattempts.symm ▸ h, fun _ hcall => ?_, fun call hcall => ?_⟩
  · exact Option.map_eq_none_iff.mp hcall
  · obtain ⟨⟨key, deviceId⟩, hkey, rfl⟩ := Option.map_eq_some_iff.mp hcall
    exact ⟨hkey, fun credential => (by rintro ⟨⟩)⟩

theorem tracked_attempt (hattempts : process.attempts = []) :
    s.Tracked (process.goOn (prepared.attempt false)) := by
  have hbefore : s.Before prepared false process.attempts := by simpa [Before] using hattempts
  unfold PreparedRequest.attempt
  split
  next =>
    split
    next =>
      have hlooking : s.Before prepared false (process.attempts ++ []) := by
        rw [List.append_nil]
        exact hbefore
      exact hlooking
    next => exact hbefore.fetch
  next hnone =>
    have hopen : prepared.authentication = none := by simpa using hnone
    exact ⟨process.attempts, ⟨prepared.request, none, none⟩, rfl, hbefore, ⟨rfl, hopen⟩, rfl, fun _ => nofun⟩

theorem tracked_arrived (parseUri : Octets → Except String Uri) (config : ProxyConfig) (request : ProxyRequest)
    (environment : ProxyEnvironment) : s.Tracked (arrived parseUri config request environment) := by
  rcases arrived_spec parseUri config request environment with ⟨error, harrived⟩ | ⟨prepared, _, _, _, harrived⟩
  · rw [harrived]
    exact ⟨by simp [ProxyProcess.goOn], fun _ _ => nofun⟩
  · have hattempt : s.Tracked (({} : ProxyProcess).goOn (prepared.attempt false)) := tracked_attempt rfl
    rw [harrived]
    exact hattempt

end ProxyRun

end AgentDesktop
