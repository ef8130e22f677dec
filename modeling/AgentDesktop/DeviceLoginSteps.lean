import AgentDesktop.DeviceLoginState

namespace AgentDesktop

variable {Account : Type} [DecidableEq Account]

/-- What a step does to the start locks, the pending sign-ins, the calls and the grants. -/
inductive LoginStep (s : DeviceLogins Account) (action : LoginAction Account) : DeviceLogins Account → Prop where
  | joined (account : Account) (check : TokenCheck) (free : check ≠ .deviceLogin true) :
    LoginStep s action { s with calls := s.calls ++ [⟨account, .checking check .waiting⟩] }
  | moved {index : Nat} {call : LoginCall Account} (hcall : s.calls[index]? = some call) (phase : LoginPhase)
    (running : call.phase.isEnded = false) (asks : call.phase.isRequesting = false) (idle : phase.isRequesting = false)
    (holds : phase.holdsStart = call.phase.holdsStart) (login : Bool) :
    LoginStep s action ({ s with login }.setPhase index call phase)
  | asked {index : Nat} {account : Account}
    (hcall : s.calls[index]? = some ⟨account, .checking (.deviceLogin true) .looking⟩)
    (absent : s.pending account = none) :
    LoginStep s action ({ s with login := false, requested := s.requested ++ [index] }.setPhase index
      ⟨account, .checking (.deviceLogin true) .looking⟩ .requesting)
  | entered {index : Nat} {account : Account} (hcall : s.calls[index]? = some ⟨account, .queued⟩)
    (free : s.starting account = false) :
    LoginStep s action ({ s with starting := Function.update s.starting account true }.setPhase index ⟨account, .queued⟩
      (.checking (.deviceLogin true) .waiting))
  | finished {index : Nat} {call : LoginCall Account} (hcall : s.calls[index]? = some call)
    (running : call.phase.isEnded = false) (tokens : Account → Option StoredTokens)
    (answer : Option (Except LoginError LoginAnswer)) :
    LoginStep s action ({ s with tokens }.finish index call answer)
  | granted {index : Nat} {account : Account} (hcall : s.calls[index]? = some ⟨account, .requesting⟩)
    (tokenEndpoint : String) (device : DeviceAuthorizationResponse)
    (answer : Option (Except LoginError LoginAnswer)) :
    LoginStep s action ((s.start account tokenEndpoint device).finish index ⟨account, .requesting⟩ answer)
  | polled {index : Nat} {grant : DeviceGrant Account} (hgrant : s.grants[index]? = some grant) (phase : GrantPhase)
    (live : grant.phase.isLive = true) (stays : phase.isLive = true) (tokens : Account → Option StoredTokens) :
    LoginStep s action { s with tokens, grants := s.grants.set index { grant with phase } }
  | removed {index : Nat} {grant : DeviceGrant Account} (hgrant : s.grants[index]? = some grant)
    (live : grant.phase.isLive = true) (removes : action = .remove index) :
    LoginStep s action { s with
      pending := Function.update s.pending grant.account none
      grants := s.grants.set index { grant with phase := .ended } }
  | forgot (tokens : Account → Option StoredTokens) : LoginStep s action { s with tokens }

/-- A check has the start lock or not, wherever it is. -/
theorem holdsStart_checking (check : TokenCheck) (phase other : CheckPhase) :
    (LoginPhase.checking check phase).holdsStart = (LoginPhase.checking check other).holdsStart := by
  cases check with
  | credential => rfl
  | deviceLogin starting => cases starting <;> rfl

namespace DeviceLogins

variable {s t : DeviceLogins Account} {action : LoginAction Account} {parses : String → Bool} {index now : Nat}

theorem load_spec {opened : Except String Unit} (h : s.load index now opened = some t) :
    LoginStep s action t := by
  unfold load at h
  split at h
  next account check hcall =>
    split at h
    next => cases h
    next =>
      split at h
      next =>
        cases h
        exact .finished hcall rfl s.tokens _
      next =>
        split at h
        next =>
          cases h
          exact .finished hcall rfl s.tokens _
        next tokens _ =>
          cases h
          exact .moved hcall (.checking check (.refreshing tokens)) rfl rfl rfl (holdsStart_checking _ _ _) true
        next =>
          cases h
          exact .moved hcall (.checking check .looking) rfl rfl rfl (holdsStart_checking _ _ _) true
  next => cases h

theorem refresh_spec {response : Except String TokenResponse} {saved : Except String Unit}
    (h : s.refresh index now response saved = some t) : LoginStep s action t := by
  unfold refresh at h
  split at h
  next account check tokens hcall =>
    split at h
    next =>
      cases h
      exact .moved hcall (.checking check .looking) rfl rfl rfl (holdsStart_checking _ _ _) s.login
    next =>
      split at h
      next =>
        cases h
        exact .finished hcall rfl s.tokens _
      next =>
        cases h
        exact .finished hcall rfl _ _
  next => cases h

variable {index : Nat}

theorem look_spec (h : s.look index = some t) : LoginStep s action t := by
  unfold look at h
  split at h
  next account check hcall =>
    split at h
    next =>
      cases h
      exact .finished hcall rfl s.tokens _
    next =>
      cases h
      exact .moved hcall .browsing rfl rfl rfl rfl s.login
    next starting =>
      split at h
      next =>
        cases h
        exact .finished hcall rfl s.tokens _
      next habsent =>
        split at h
        next hstarting =>
          cases h
          subst hstarting
          exact .asked hcall habsent
        next hfirst =>
          cases h
          have hstarting : starting = false := Bool.eq_false_iff.mpr hfirst
          subst hstarting
          exact .moved hcall .queued rfl rfl rfl rfl false
  next => cases h

theorem browse_spec {response : Except String (String × TokenResponse)} {saved github : Except String Unit}
    (h : s.browse index now response saved github = some t) :
    LoginStep s action t := by
  unfold browse at h
  split at h
  next account hcall =>
    split at h
    next =>
      cases h
      exact .finished hcall rfl s.tokens _
    next =>
      split at h
      next =>
        cases h
        exact .finished hcall rfl s.tokens _
      next =>
        split at h
        next =>
          cases h
          exact .finished hcall rfl _ _
        next =>
          cases h
          exact .finished hcall rfl _ _
  next => cases h

theorem lockStart_spec (h : s.lockStart index = some t) : LoginStep s action t := by
  unfold lockStart at h
  split at h
  next account hcall =>
    split at h
    next => cases h
    next hfree =>
      cases h
      exact .entered hcall (Bool.eq_false_iff.mpr hfree)
  next => cases h

theorem request_spec {response : Except String (String × DeviceAuthorizationResponse)}
    (h : s.request parses index response = some t) : LoginStep s action t := by
  unfold request at h
  split at h
  next account hcall =>
    split at h
    next =>
      cases h
      exact .finished hcall rfl s.tokens _
    next tokenEndpoint _ =>
      split at h
      next =>
        cases h
        exact .finished hcall rfl s.tokens _
      next device _ =>
        cases h
        exact .granted hcall tokenEndpoint device _
  next => cases h

theorem awaits_running {phase : LoginPhase} (h : phase.awaits = true) : phase.isEnded = false := by
  cases phase with
  | ended => cases h
  | checking => rfl
  | browsing => rfl
  | queued => rfl
  | requesting => rfl

theorem cancel_spec (h : s.cancel index = some t) : LoginStep s action t := by
  unfold cancel at h
  split at h
  next call hcall =>
    split at h
    next hawaits =>
      cases h
      exact .finished hcall (awaits_running hawaits) s.tokens none
    next => cases h
  next => cases h

theorem poll_spec {response : Except String TokenResponse} (h : s.poll index response = some t) :
    LoginStep s action t := by
  unfold poll at h
  split at h
  next hgrant =>
    split at h
    next =>
      cases h
      exact .polled hgrant .finishing rfl rfl s.tokens
    next tokens =>
      cases h
      exact .polled hgrant (.approved tokens) rfl rfl s.tokens
  next => cases h

theorem save_spec {saved : Except String Unit} (h : s.save index now saved = some t) :
    LoginStep s action t := by
  unfold save at h
  split at h
  next hgrant =>
    split at h
    next => cases h
    next =>
      split at h
      next =>
        cases h
        exact .polled hgrant .finishing rfl rfl s.tokens
      next =>
        cases h
        exact .polled hgrant .finishing rfl rfl _
  next => cases h

theorem remove_spec (h : s.remove index = some t) : LoginStep s (.remove index) t := by
  unfold remove at h
  split at h
  next hgrant =>
    cases h
    exact .removed hgrant rfl rfl
  next => cases h

theorem step_spec (h : s.step parses action = some t) : LoginStep s action t := by
  cases action with
  | deviceLogin account =>
    cases h
    exact .joined account (.deviceLogin false) (by simp)
  | credential account deviceAuthorization =>
    cases h
    exact .joined account (.credential deviceAuthorization) (by simp)
  | load => exact load_spec h
  | refresh => exact refresh_spec h
  | look => exact look_spec h
  | browse => exact browse_spec h
  | lockStart => exact lockStart_spec h
  | request => exact request_spec h
  | cancel => exact cancel_spec h
  | poll => exact poll_spec h
  | save => exact save_spec h
  | remove => exact remove_spec h
  | forget =>
    cases h
    exact .forgot _

end DeviceLogins

end AgentDesktop
