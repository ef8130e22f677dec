import AgentDesktop.TokenRotationSteps

namespace AgentDesktop

theorem TokensKept.step {run : RefreshRun} (h : TokensKept run) {action : SessionsAction}
    (allowed : run.settledRefresh action = true) {next : RefreshRun} (hstep : run.step action = some next) :
    TokensKept next := by
  obtain ⟨t, ht, rfl⟩ := Option.map_eq_some_iff.mp hstep
  cases action with
  | session input =>
    cases input with
    | refresh input deleted =>
      cases hsession : run.sessions.session with
      | refreshing pc identity =>
        simp only [Sessions.refreshing, hsession]
        exact h.sessionRefresh hsession allowed ht
      | _ => simp [Sessions.step, Sessions.sessionStep, hsession] at ht
    | _ => exact h.sessionStep (by rintro _ _ ⟨⟩) allowed ht
  | logout fault deleted => cases allowed
  | begin fault => exact h.begin ht
  | request index input =>
    obtain ⟨request, hget, hkept⟩ := h.requestStep allowed ht
    simp only [Sessions.refreshing, hget]
    exact hkept
  | cancel index => exact h.cancel ht

theorem TokensKept.started (store : Option Identity) : TokensKept (RefreshRun.started store) :=
  ⟨rfl, rfl, nofun, nofun, fun _ => ⟨rfl, rfl, rfl⟩, nofun⟩

/-- An identity whose access token and certificate expire at a time. -/
def refreshableIdentity (expiresAt : Nat) : Identity :=
  ⟨"device", "certificate", expiresAt, ⟨"access", "refresh", expiresAt⟩⟩

/-- In every run in which the session skips its refresh only while its credentials
are the stored ones, and no request saves a refresh between that check and the
session's save, refreshes are saved in the order of their answers and the
credentials of the last saved one are stored. -/
theorem rotated_token_never_lost (store : Option Identity) (actions : List SessionsAction) (run : RefreshRun)
    (h : execute RefreshRun.step RefreshRun.settledRefresh actions (RefreshRun.started store) = some run) :
    run.completed <+: run.refreshes ∧
      ∀ latest ∈ run.completed.getLast?, run.sessions.cell.store.map Identity.oauth = some latest := by
  have hkept : TokensKept run :=
    execute_invariant (fun _ _ _ hkept allowed hstep => hkept.step allowed hstep) (TokensKept.started store) h
  exact ⟨⟨_, hkept.pending.symm⟩, hkept.stored⟩

/-- The session connects, a request then refreshes the token, and the session takes
the refreshed credentials over when it connects again. -/
def refreshWhileConnected : List SessionsAction :=
  [.session (.load none true), .session (.refresh (.clock 0) true), .session (.certificate 0), .session (.renew none),
    .session (.save true), .begin none, .request 0 (.clock 900), .request 0 .lock, .request 0 (.load none 900),
    .request 0 (.respond (.ok ⟨"access", some "rotated", 3600⟩) 900), .request 0 (.save true),
    .session (.disconnected false true), .session .retry, .session (.refresh (.clock 900) true),
    .session (.refresh .lock true), .session (.refresh (.load none 900) true), .session (.certificate 900),
    .session (.renew none), .session (.save true)]

theorem rotated_token_kept_by_reconnect :
    ∃ run, execute RefreshRun.step RefreshRun.settledRefresh refreshWhileConnected
        (RefreshRun.started (some (refreshableIdentity 1000))) = some run ∧
      run.completed.map OAuthCredentials.refreshToken = ["rotated"] ∧ run.completed <+: run.refreshes ∧
      ∀ latest ∈ run.completed.getLast?, run.sessions.cell.store.map Identity.oauth = some latest :=
  ⟨_, rfl, rfl, rotated_token_never_lost (some (refreshableIdentity 1000)) refreshWhileConnected _ rfl⟩

/-- A request refreshes the token while the session renews its certificate: the
session then stores the credentials it had before. -/
theorem renewal_restores_rotated_token :
    ∃ run, execute RefreshRun.step (fun _ action => action.undisturbed)
        [.session (.load none true), .session (.refresh (.clock 879) true), .session (.certificate 879), .begin none,
          .request 0 (.clock 880), .request 0 .lock, .request 0 (.load none 880),
          .request 0 (.respond (.ok ⟨"access", some "rotated", 3600⟩) 880), .request 0 (.save true),
          .session (.renew (some ("renewed", 1000000))), .session (.save true)]
        (RefreshRun.started (some (refreshableIdentity 1000))) = some run ∧
      run.completed.map OAuthCredentials.refreshToken = ["rotated"] ∧
      run.sessions.cell.store.map (·.oauth.refreshToken) = some "refresh" :=
  ⟨_, rfl, rfl, rfl⟩

end AgentDesktop
