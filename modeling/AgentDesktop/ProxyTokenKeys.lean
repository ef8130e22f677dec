import AgentDesktop.ProxyTokens

namespace AgentDesktop

/-- A call between the begin of its fetch and its insert. -/
def FetchCall.busy (key : String) (call : FetchCall) : Bool :=
  match call.pc with
  | .fetching => call.key == key
  | .received _ => call.key == key
  | .inserting _ _ => call.key == key
  | _ => false

theorem FetchCall.busy_holdsFlight (key : String) (call : FetchCall) (h : call.busy key = true) :
    call.holdsFlight key = true := by
  unfold FetchCall.busy at h
  split at h
  next hpc => rwa [FetchCall.holdsFlight_eq (by simp [hpc])]
  next hpc => rwa [FetchCall.holdsFlight_eq (by simp [hpc])]
  next hpc => rwa [FetchCall.holdsFlight_eq (by simp [hpc])]
  next => cases h

theorem FetchCall.busy_other {key : String} {call : FetchCall} (h : key ≠ call.key) : call.busy key = false := by
  have hother : (call.key == key) = false := beq_eq_false_iff_ne.mpr (Ne.symm h)
  unfold FetchCall.busy
  split
  next => exact hother
  next => exact hother
  next => exact hother
  next => rfl

namespace ProxyRun

variable {s t : ProxyRun} {key : String} {call : FetchCall} {input : FetchInput ControllerError}
  {progress : FetchProgress ControllerError} {window : CacheWindow} {deviceId : String}

/-- A key is fetched at most once. Until it is cached its fetch is under way. -/
structure KeyState (s : ProxyRun) (key : String) : Prop where
  count : s.fetches.count key ≤ 1
  fetching : s.cache.entries key = none → s.fetches.count key = s.calls.countP (FetchCall.busy key)
  cached : s.cache.entries key ≠ none → s.calls.countP (FetchCall.busy key) = 0

theorem KeyState.congr (h : s.KeyState key) (hcount : t.fetches.count key = s.fetches.count key)
    (hbusy : t.calls.countP (FetchCall.busy key) = s.calls.countP (FetchCall.busy key))
    (hentries : t.cache.entries key = s.cache.entries key) : t.KeyState key := by
  refine ⟨hcount ▸ h.count, ?_, ?_⟩
  · rw [hentries, hcount, hbusy]
    exact h.fetching
  · rw [hentries, hbusy]
    exact h.cached

theorem CallMoved.mem (hmoved : s.CallMoved t call input progress) {other : FetchCall} (hother : other ∈ t.calls) :
    other ∈ s.calls ∨ other ∈ progress.remaining call := by
  classical
  by_contra hnone
  rw [not_or] at hnone
  have hcounts := hmoved.counts fun call => decide (call = other)
  have hs : s.calls.countP (fun call => decide (call = other)) = 0 := by
    refine List.countP_eq_zero.mpr fun call hcall heq => hnone.1 ?_
    exact of_decide_eq_true heq ▸ hcall
  have hremaining : (progress.remaining call).countP (fun call => decide (call = other)) = 0 := by
    refine List.countP_eq_zero.mpr fun call hcall heq => hnone.2 ?_
    exact of_decide_eq_true heq ▸ hcall
  have ht : 0 < t.calls.countP fun call => decide (call = other) :=
    List.countP_pos_iff.mpr ⟨other, hother, decide_eq_true rfl⟩
  omega

/-- A step of a call is none for the other keys. -/
theorem KeyState.other (h : s.KeyState key) (hmoved : s.CallMoved t call input progress) (hkey : key ≠ call.key) :
    t.KeyState key := by
  have hremaining : ∀ other ∈ progress.remaining call, other.key = call.key := by
    intro other hother
    unfold FetchProgress.remaining at hother
    split at hother
    next =>
      cases List.mem_singleton.mp hother
      rfl
    next => cases hother
  refine h.congr ?_ ?_ ?_
  · rw [hmoved.fetches, List.count_append]
    have hbegins : (call.begins progress).count key = 0 := by
      unfold FetchCall.begins
      split
      next => exact List.count_eq_zero.mpr (by simpa using hkey)
      next => rfl
    omega
  · have hcounts := hmoved.counts (FetchCall.busy key)
    have hcall : [call].countP (FetchCall.busy key) = 0 := by simp [FetchCall.busy_other hkey]
    have hnone : (progress.remaining call).countP (FetchCall.busy key) = 0 := by
      refine List.countP_eq_zero.mpr fun other hother => ?_
      rw [FetchCall.busy_other (hremaining other hother ▸ hkey)]
      exact Bool.false_ne_true
    omega
  · have hentries := (getOrFetchStep_spec hmoved.stepped).entries
    split at hentries
    next => rw [hentries]
    next =>
      rw [hentries]
      simp [CredentialCache.insert, CredentialCache.setEntry, hkey]

/-- A step of a call that neither begins a fetch nor ends one. -/
theorem KeyState.kept (h : s.KeyState call.key) (hmoved : s.CallMoved t call input progress)
    (hbegins : call.begins progress = []) (hentries : t.cache.entries = s.cache.entries)
    (hbusy : (progress.remaining call).countP (FetchCall.busy call.key) = [call].countP (FetchCall.busy call.key)) :
    t.KeyState call.key := by
  refine h.congr ?_ ?_ (by rw [hentries])
  · rw [hmoved.fetches, hbegins, List.append_nil]
  · have hcounts := hmoved.counts (FetchCall.busy call.key)
    omega

/-- A fetch begins only for a key without one. -/
theorem KeyState.miss (h : s.KeyState call.key) (hpc : call.pc = .looking)
    (hmoved : s.CallMoved t call input (.running .fetching)) (hcache : t.cache = s.cache)
    (hflights : s.calls.countP (FetchCall.holdsFlight call.key) ≤ 1)
    (hnone : s.cache.entries call.key = none) : t.KeyState call.key := by
  have hbusy : s.calls.countP (FetchCall.busy call.key) < s.calls.countP (FetchCall.holdsFlight call.key) := by
    refine countP_lt_of_mem (FetchCall.busy_holdsFlight call.key) hmoved.member ?_ ?_
    · simp [FetchCall.busy, hpc]
    · rw [FetchCall.holdsFlight_eq (by simp [hpc]), beq_self_eq_true]
  have hbefore := h.fetching hnone
  have hcount : t.fetches.count call.key = s.fetches.count call.key + 1 := by
    have hbegins : call.begins (.running .fetching) = [call.key] := by simp [FetchCall.begins, hpc]
    rw [hmoved.fetches, hbegins, List.count_append, List.count_singleton_self]
  have hcounts := hmoved.counts (FetchCall.busy call.key)
  have hcall : [call].countP (FetchCall.busy call.key) = 0 := by simp [FetchCall.busy, hpc]
  have hnext : ((FetchProgress.running (E := ControllerError) .fetching).remaining call).countP
      (FetchCall.busy call.key) = 1 := by simp [FetchProgress.remaining, FetchCall.busy]
  exact ⟨by omega, fun _ => by omega, fun hfound => absurd (hcache ▸ hnone) hfound⟩

/-- The credential of a fetch is cached. -/
theorem KeyState.store (h : s.KeyState call.key) {fetched : LlmGatewayCredential} {nowUnix : Nat}
    (hpc : call.pc = .inserting fetched nowUnix) (hmoved : s.CallMoved t call input (.running (.inserted fetched)))
    (hentry : t.cache.entries call.key ≠ none) : t.KeyState call.key := by
  have hbusy : 0 < s.calls.countP (FetchCall.busy call.key) :=
    List.countP_pos_iff.mpr ⟨call, hmoved.member, by simp [FetchCall.busy, hpc]⟩
  have hnone : s.cache.entries call.key = none := by
    by_contra hfound
    have hidle := h.cached hfound
    omega
  have hbefore := h.fetching hnone
  have hcount : t.fetches.count call.key = s.fetches.count call.key := by
    have hbegins : call.begins (.running (.inserted fetched)) = [] := by simp [FetchCall.begins, hpc]
    rw [hmoved.fetches, hbegins, List.append_nil]
  have hcounts := hmoved.counts (FetchCall.busy call.key)
  have hcall : [call].countP (FetchCall.busy call.key) = 1 := by simp [FetchCall.busy, hpc]
  have hnext : ((FetchProgress.running (E := ControllerError) (.inserted fetched)).remaining call).countP
      (FetchCall.busy call.key) = 0 := by simp [FetchProgress.remaining, FetchCall.busy]
  have hone := h.count
  exact ⟨by omega, fun hempty => absurd hempty hentry, fun _ => by omega⟩

end ProxyRun

end AgentDesktop
