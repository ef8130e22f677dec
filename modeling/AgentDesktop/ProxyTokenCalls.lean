import AgentDesktop.ProxyTokenKeys

namespace AgentDesktop

namespace ProxyRun

variable {s t : ProxyRun} {key : String} {call : FetchCall} {input : FetchInput ControllerError}
  {progress : FetchProgress ControllerError} {window : CacheWindow} {deviceId : String}

/-- What holds while every request forwards a token that the gateway rejects. -/
structure TokenRun (window : CacheWindow) (deviceId : String) (s : ProxyRun) : Prop where
  entries : ∀ key entry, s.cache.entries key = some entry → EntryLasts window deviceId key entry
  calls : ∀ call ∈ s.calls, CallLasts window deviceId call
  flights : ∀ key, s.calls.countP (FetchCall.holdsFlight key) = (s.cache.flights key).toNat
  processes : ∀ process ∈ s.processes, TokenProcess deviceId process
  keys : ∀ key, s.KeyState key

namespace TokenRun

theorem flights_le (h : TokenRun window deviceId s) (key : String) :
    s.calls.countP (FetchCall.holdsFlight key) ≤ 1 := by
  rw [h.flights key]
  cases s.cache.flights key <;> decide

theorem flights_moved (h : TokenRun window deviceId s) (hmoved : s.CallMoved t call input progress) (key : String) :
    t.calls.countP (FetchCall.holdsFlight key) = (t.cache.flights key).toNat := by
  have hheld : call.holdsFlight key = true → s.cache.flights key = true := by
    intro hholds
    have hcount : 0 < s.calls.countP (FetchCall.holdsFlight key) :=
      List.countP_pos_iff.mpr ⟨call, hmoved.member, hholds⟩
    have hflights := h.flights key
    cases hflight : s.cache.flights key with
    | true => rfl
    | false =>
      rw [hflight] at hflights
      simp only [Bool.toNat_false] at hflights
      omega
  have hstep := (getOrFetchStep_spec hmoved.stepped).flights key hheld
  have hcounts := hmoved.counts (FetchCall.holdsFlight key)
  have hflights := h.flights key
  omega

theorem calls_moved (h : TokenRun window deviceId s) (hmoved : s.CallMoved t call input progress)
    (hwithin : call.within window input = true) : ∀ other ∈ t.calls, CallLasts window deviceId other := by
  intro other hother
  rcases hmoved.mem hother with hmem | hmem
  · exact h.calls other hmem
  · obtain ⟨hdevice, hcall⟩ := h.calls call hmoved.member
    have hmove := getOrFetchStep_move hmoved.stepped
    generalize t.cache = cache at hmove
    cases hmove with
    | lock hpc hfree =>
      cases List.mem_singleton.mp hmem
      exact ⟨hdevice, trivial⟩
    | hit now nowUnix credential deadline hpc hlookup => cases hmem
    | miss now nowUnix hpc hlookup =>
      cases List.mem_singleton.mp hmem
      exact ⟨hdevice, trivial⟩
    | fail error hpc => cases hmem
    | receive fetched hpc =>
      cases List.mem_singleton.mp hmem
      exact ⟨hdevice, hwithin⟩
    | clock fetched nowUnix hpc =>
      cases List.mem_singleton.mp hmem
      simp only [hpc] at hcall
      simp only [FetchCall.within, hpc, Bool.and_eq_true, decide_eq_true_eq] at hwithin
      exact ⟨hdevice, hcall, hwithin.2, hwithin.1⟩
    | store fetched nowUnix now later hpc =>
      cases List.mem_singleton.mp hmem
      simp only [hpc] at hcall
      exact ⟨hdevice, hcall.1⟩
    | finish fetched now nowUnix hpc => cases hmem

theorem entries_moved (h : TokenRun window deviceId s) (hmoved : s.CallMoved t call input progress)
    (hwithin : call.within window input = true) :
    ∀ key entry, t.cache.entries key = some entry → EntryLasts window deviceId key entry := by
  intro key entry hentry
  have hlasts := h.calls call hmoved.member
  have hmove := getOrFetchStep_move hmoved.stepped
  generalize t.cache = cache at hmove hentry
  cases hmove with
  | store fetched nowUnix now later hpc =>
    obtain ⟨stored, hstored, hentrylasts⟩ := hlasts.stored now later hpc (of_decide_eq_true hwithin)
    simp only [CredentialCache.insert, CredentialCache.setEntry] at hentry
    split at hentry
    next hkey =>
      cases hstored.symm.trans hentry
      exact hkey ▸ hentrylasts
    next => exact h.entries key entry hentry
  | lock hpc hfree => exact h.entries key entry hentry
  | hit now nowUnix credential deadline hpc hlookup => exact h.entries key entry hentry
  | miss now nowUnix hpc hlookup => exact h.entries key entry hentry
  | fail error hpc => exact h.entries key entry hentry
  | receive fetched hpc => exact h.entries key entry hentry
  | clock fetched nowUnix hpc => exact h.entries key entry hentry
  | finish fetched now nowUnix hpc => exact h.entries key entry hentry

theorem keys_moved (h : TokenRun window deviceId s) (hmoved : s.CallMoved t call input progress)
    (hwithin : call.within window input = true) (key : String) : t.KeyState key := by
  by_cases hkey : key = call.key
  case neg => exact (h.keys key).other hmoved hkey
  subst hkey
  have hstate := h.keys call.key
  have hmove := getOrFetchStep_move hmoved.stepped
  generalize hcache : t.cache = cache at hmove
  cases hmove with
  | lock hpc hfree =>
    exact hstate.kept hmoved (by simp [FetchCall.begins, hpc]) (by rw [hcache]; rfl)
      (by simp [FetchProgress.remaining, FetchCall.busy, hpc])
  | hit now nowUnix credential deadline hpc hlookup =>
    exact hstate.kept hmoved (by simp [FetchCall.begins, hpc]) (by rw [hcache]; rfl)
      (by simp [FetchProgress.remaining, FetchCall.busy, hpc])
  | miss now nowUnix hpc hlookup =>
    refine hstate.miss hpc hmoved hcache (h.flights_le _) ?_
    refine Option.eq_none_iff_forall_ne_some.mpr fun entry hentry => ?_
    have hlasts := h.entries call.key entry hentry
    rw [(h.calls call hmoved.member).1, hlasts.lookup hentry hwithin] at hlookup
    cases hlookup
  | fail error hpc => cases hwithin
  | receive fetched hpc =>
    exact hstate.kept hmoved (by simp [FetchCall.begins, hpc]) (by rw [hcache])
      (by simp [FetchProgress.remaining, FetchCall.busy, hpc])
  | clock fetched nowUnix hpc =>
    exact hstate.kept hmoved (by simp [FetchCall.begins, hpc]) (by rw [hcache])
      (by simp [FetchProgress.remaining, FetchCall.busy, hpc])
  | store fetched nowUnix now later hpc =>
    obtain ⟨entry, hentry, _⟩ := (h.calls call hmoved.member).stored now later hpc (of_decide_eq_true hwithin)
    refine hstate.store hpc hmoved ?_
    rw [hcache]
    simp [CredentialCache.insert, CredentialCache.setEntry, hentry]
  | finish fetched now nowUnix hpc =>
    exact hstate.kept hmoved (by simp [FetchCall.begins, hpc]) (by rw [hcache]; rfl)
      (by simp [FetchProgress.remaining, FetchCall.busy, hpc])

theorem moved (h : TokenRun window deviceId s) (hmoved : s.CallMoved t call input progress)
    (hwithin : call.within window input = true)
    (hprocesses : ∀ process ∈ t.processes, TokenProcess deviceId process) : TokenRun window deviceId t :=
  ⟨h.entries_moved hmoved hwithin, h.calls_moved hmoved hwithin, h.flights_moved hmoved, hprocesses,
    h.keys_moved hmoved hwithin⟩

end TokenRun

end ProxyRun

end AgentDesktop
