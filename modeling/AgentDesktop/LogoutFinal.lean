import AgentDesktop.SessionLoop

namespace AgentDesktop

def SessionPc.identity : SessionPc → Option Identity
  | .starting => none
  | .enrolling => none
  | .enrolled identity => some identity
  | .refreshing _ identity => some identity
  | .refreshed identity => some identity
  | .renewing identity => some identity
  | .renewed identity => some identity
  | .storing identity => some identity
  | .connected identity => some identity
  | .waiting identity => some identity
  | .failed => none

namespace Sessions

/-- The device whose identity a logout deletes. -/
def loggingOut (s : Sessions) : Option String :=
  match s.session with
  | .failed => s.cell.store.map Identity.deviceId
  | session => session.identity.map Identity.deviceId

variable {fault : Option LoadFault}

/-- A logout does nothing to the identity, or it is the logout of one device. -/
theorem logout_spec {s t : Sessions} {deleted : Bool} (h : s.logout fault deleted = some t) :
    t = s ∨ t = { s with session := .starting } ∨
      ∃ identity cell otherwise, s.loggingOut = some identity.deviceId ∧ cell.store = s.cell.store ∧
        (∀ other ∈ otherwise.identity, s.session.identity = some other) ∧
        t = { s with cell }.completeLogout identity deleted otherwise := by
  have held : ∀ {identity : Identity} {cell : IdentityCell}, s.session.identity = some identity →
      s.loggingOut = some identity.deviceId → cell.store = s.cell.store →
      some ({ s with cell }.completeLogout identity deleted (.refreshing .checking identity)) = some t →
      t = s ∨ t = { s with session := .starting } ∨
        ∃ identity cell otherwise, s.loggingOut = some identity.deviceId ∧ cell.store = s.cell.store ∧
          (∀ other ∈ otherwise.identity, s.session.identity = some other) ∧
          t = { s with cell }.completeLogout identity deleted otherwise := by
    intro identity cell hidentity hdevice hstore ht
    exact Or.inr (Or.inr ⟨identity, cell, .refreshing .checking identity, hdevice, hstore,
      fun other ho => hidentity.trans ho, (Option.some.inj ht).symm⟩)
  unfold logout at h
  split at h
  next => exact Or.inl (Option.some.inj h).symm
  next identity hsession => exact held (by rw [hsession]; rfl) (by rw [loggingOut, hsession]; rfl) rfl h
  next identity hsession => exact held (by rw [hsession]; rfl) (by rw [loggingOut, hsession]; rfl) rfl h
  next identity hsession =>
    have hstore : s.cell.unlock.store = s.cell.store := rfl
    exact held (by rw [hsession]; rfl) (by rw [loggingOut, hsession]; rfl) hstore h
  next identity hsession => exact held (by rw [hsession]; rfl) (by rw [loggingOut, hsession]; rfl) rfl h
  next identity hsession => exact held (by rw [hsession]; rfl) (by rw [loggingOut, hsession]; rfl) rfl h
  next hsession =>
    split at h
    next => exact Or.inr (Or.inl (Option.some.inj h).symm)
    next => exact Or.inr (Or.inl (Option.some.inj h).symm)
    next identity _ hstore =>
      exact Or.inr (Or.inr ⟨identity, s.cell, .starting, by simp [loggingOut, hsession, hstore], rfl, fun _ => nofun,
        (Option.some.inj h).symm⟩)
  next => cases h

/-- A logout deletes the identity only when no request that loaded an identity of
the device is still to end its refresh, and an enrollment gives a device id that
was not logged out. -/
def settledLogout (s : Sessions) : SessionsAction → Bool
  | .logout _ deleted => !deleted || s.requests.all fun request =>
    decide (s.loggingOut ≠ some request.identity.deviceId)
  | .session (.enroll (some identity)) => decide (identity.deviceId ∉ s.loggedOut)
  | _ => true

/-- No identity anywhere is one of a device that was logged out. -/
structure NoneRetired (s : Sessions) : Prop where
  store : ∀ identity ∈ s.cell.store, identity.deviceId ∉ s.loggedOut
  session : ∀ identity ∈ s.session.identity, identity.deviceId ∉ s.loggedOut
  requests : ∀ request ∈ s.requests, request.identity.deviceId ∉ s.loggedOut

variable {s t : Sessions}

namespace NoneRetired

variable {next : SessionPc}

theorem deleteIdentity (h : NoneRetired s) (deleted : Bool) (hnext : next.identity = none) :
    NoneRetired (s.deleteIdentity deleted next) := by
  unfold Sessions.deleteIdentity
  split
  next =>
    refine ⟨fun _ => nofun, fun identity hi => ?_, h.requests⟩
    exact absurd (hnext.symm.trans hi) (by simp)
  next => exact ⟨h.store, fun _ => nofun, h.requests⟩

variable {identity : Identity}

theorem saveIdentity (h : NoneRetired s) (hidentity : s.session.identity = some identity) (ok : Bool)
    (hnext : next.identity = some identity) :
    NoneRetired (s.saveIdentity identity ok next) := by
  have held : identity.deviceId ∉ s.loggedOut := h.session identity hidentity
  unfold Sessions.saveIdentity
  split
  next =>
    refine ⟨fun other ho => ?_, fun other ho => ?_, h.requests⟩
    · cases ho
      exact held
    · cases Option.some.inj (hnext.symm.trans ho)
      exact held
  next => exact ⟨h.store, fun _ => nofun, h.requests⟩

theorem moved (h : NoneRetired s) (hnext : ∀ identity ∈ next.identity, identity.deviceId ∉ s.loggedOut) :
    NoneRetired { s with session := next } :=
  ⟨h.store, hnext, h.requests⟩

/-- The session goes on with an identity of a device that was not logged out. -/
theorem movedWith (h : NoneRetired s) (held : identity.deviceId ∉ s.loggedOut) (hnext : next.identity = some identity) :
    NoneRetired { s with session := next } := by
  refine h.moved fun other ho => ?_
  cases Option.some.inj (hnext.symm.trans ho)
  exact held

theorem refreshed (h : NoneRetired s) (held : identity.deviceId ∉ s.loggedOut) {pc : RefreshPc} {input : RefreshInput}
    {cell : IdentityCell} {progress : RefreshProgress}
    (hrefresh : refreshStep s.cell identity pc input = some (cell, progress)) :
    (∀ other ∈ cell.store, other.deviceId ∉ s.loggedOut) ∧
      ∀ other ∈ progress.identity, other.deviceId ∉ s.loggedOut :=
  refreshStep_devices hrefresh (P := fun device => device ∉ s.loggedOut) held h.store

theorem afterRefresh (h : NoneRetired s) (held : identity.deviceId ∉ s.loggedOut) (deleted : Bool)
    {progress : RefreshProgress} (hprogress : ∀ other ∈ progress.identity, other.deviceId ∉ s.loggedOut) :
    NoneRetired (s.afterRefresh identity deleted progress) := by
  unfold Sessions.afterRefresh
  split
  next => exact h.moved hprogress
  next => exact h.moved hprogress
  next => exact h.deleteIdentity deleted rfl
  next => exact h.movedWith held rfl
  next => exact h.moved fun _ => nofun

theorem sessionStep {input : SessionInput} (h : NoneRetired s) (allowed : s.settledLogout (.session input) = true)
    (hstep : s.sessionStep input = some t) : NoneRetired t := by
  unfold Sessions.sessionStep at hstep
  split at hstep
  next fault discarded hsession =>
    split at hstep
    next =>
      cases hstep
      exact h.deleteIdentity discarded rfl
    next =>
      cases hstep
      exact h.moved fun _ => nofun
    next =>
      split at hstep
      next identity hstore =>
        cases hstep
        exact h.movedWith (h.store identity hstore) rfl
      next =>
        cases hstep
        exact h.moved fun _ => nofun
  next =>
    cases hstep
    exact h
  next identity hsession =>
    cases hstep
    exact h.movedWith (by simpa [settledLogout] using allowed) rfl
  next identity ok hsession =>
    cases hstep
    exact h.saveIdentity (by rw [hsession]; rfl) ok rfl
  next pc identity input deleted hsession =>
    have held : identity.deviceId ∉ s.loggedOut := h.session identity (by rw [hsession]; rfl)
    split at hstep
    next => cases hstep
    next cell progress hrefresh =>
      cases hstep
      obtain ⟨hstore, hprogress⟩ := h.refreshed held hrefresh
      have hcell : NoneRetired { s with cell } := ⟨hstore, h.session, h.requests⟩
      exact hcell.afterRefresh held deleted hprogress
  next identity now hsession =>
    have held : identity.deviceId ∉ s.loggedOut := h.session identity (by rw [hsession]; rfl)
    cases hstep
    refine h.moved fun other ho => ?_
    split at ho <;> (cases ho; exact held)
  next identity hsession =>
    cases hstep
    exact h.movedWith (h.session identity (by rw [hsession]; rfl)) rfl
  next identity pem expiresAt hsession =>
    have held : identity.deviceId ∉ s.loggedOut := h.session identity (by rw [hsession]; rfl)
    cases hstep
    refine h.moved fun other ho => ?_
    cases ho
    exact held
  next identity ok hsession =>
    cases hstep
    exact h.saveIdentity (by rw [hsession]; rfl) ok rfl
  next identity ok hsession =>
    cases hstep
    exact h.saveIdentity (by rw [hsession]; rfl) ok rfl
  next identity unauthenticated deleted hsession =>
    split at hstep
    next =>
      cases hstep
      exact h.deleteIdentity deleted rfl
    next =>
      cases hstep
      exact h.movedWith (h.session identity (by rw [hsession]; rfl)) rfl
  next identity hsession =>
    cases hstep
    exact h.movedWith (h.session identity (by rw [hsession]; rfl)) rfl
  next =>
    cases hstep
    exact h.moved fun _ => nofun
  next => cases hstep

/-- A logout that deletes the identity while no request holds one of the device. -/
theorem completeLogout (h : NoneRetired s) {deleted : Bool}
    (gone : deleted = true → ∀ request ∈ s.requests, request.identity.deviceId ≠ identity.deviceId)
    {otherwise : SessionPc} (hother : ∀ other ∈ otherwise.identity, other.deviceId ∉ s.loggedOut) :
    NoneRetired (s.completeLogout identity deleted otherwise) := by
  unfold Sessions.completeLogout
  split
  next hdeleted =>
    refine ⟨fun _ => nofun, fun _ => nofun, fun request hr => ?_⟩
    simp only [List.mem_append, List.mem_singleton, not_or]
    exact ⟨h.requests request hr, gone hdeleted request hr⟩
  next => exact h.moved hother

theorem logout {deleted : Bool} (h : NoneRetired s) (allowed : s.settledLogout (.logout fault deleted) = true)
    (hstep : s.logout fault deleted = some t) :
    NoneRetired t := by
  rcases logout_spec hstep with rfl | rfl | ⟨identity, cell, otherwise, hdevice, hstore, hother, rfl⟩
  · exact h
  · exact h.moved fun _ => nofun
  · have hcell : NoneRetired { s with cell } := ⟨hstore ▸ h.store, h.session, h.requests⟩
    refine hcell.completeLogout ?_ fun other ho => h.session other (hother other ho)
    intro hdeleted request hr heq
    simp only [settledLogout, hdeleted, Bool.not_true, Bool.false_or, List.all_eq_true] at allowed
    have hne := of_decide_eq_true (allowed request hr)
    exact hne (hdevice.trans (congrArg some heq.symm))

theorem begin (h : NoneRetired s) (hstep : s.begin fault = some t) : NoneRetired t := by
  unfold Sessions.begin at hstep
  split at hstep
  next identity hstore =>
    cases hstep
    refine ⟨h.store, h.session, fun request hr => ?_⟩
    rcases List.mem_append.mp hr with hr | hr
    · exact h.requests request hr
    · rw [List.mem_singleton.mp hr]
      exact h.store identity hstore
  next => cases hstep

theorem fewer (h : NoneRetired s) {cell : IdentityCell} (index : Nat)
    (hstore : ∀ identity ∈ cell.store, identity.deviceId ∉ s.loggedOut) :
    NoneRetired { s with cell, requests := s.requests.eraseIdx index } :=
  ⟨hstore, h.session, fun request hr => h.requests request (List.mem_of_mem_eraseIdx hr)⟩

theorem requestStep {index : Nat} {input : RefreshInput} (h : NoneRetired s)
    (hstep : s.requestStep index input = some t) : NoneRetired t := by
  unfold Sessions.requestStep at hstep
  split at hstep
  next => cases hstep
  next request hget =>
    have held : request.identity.deviceId ∉ s.loggedOut := h.requests request (List.mem_of_getElem? hget)
    split at hstep
    next => cases hstep
    next cell pc identity hrefresh =>
      cases hstep
      obtain ⟨hstore, hprogress⟩ := h.refreshed held hrefresh
      refine ⟨hstore, h.session, fun other ho => ?_⟩
      rcases List.mem_or_eq_of_mem_set ho with ho | rfl
      · exact h.requests other ho
      · exact hprogress identity rfl
    next cell identity hrefresh =>
      cases hstep
      exact h.fewer index (h.refreshed held hrefresh).1
    next cell failure hrefresh =>
      cases hstep
      exact h.fewer index (h.refreshed held hrefresh).1

theorem cancel {index : Nat} (h : NoneRetired s) (hstep : s.cancel index = some t) : NoneRetired t := by
  unfold Sessions.cancel at hstep
  split at hstep
  next =>
    cases hstep
    exact h.fewer index h.store
  next =>
    cases hstep
    exact h.fewer index h.store
  next =>
    cases hstep
    exact h.fewer index h.store
  next => cases hstep

theorem step {action : SessionsAction} (h : NoneRetired s) (allowed : s.settledLogout action = true)
    (hstep : s.step action = some t) : NoneRetired t := by
  cases action with
  | session input => exact h.sessionStep allowed hstep
  | logout fault deleted => exact h.logout allowed hstep
  | begin fault => exact h.begin hstep
  | request index input => exact h.requestStep hstep
  | cancel index => exact h.cancel hstep

end NoneRetired

/-- The daemon at its start, with what an earlier run stored. -/
def started (store : Option Identity) : Sessions :=
  { cell := { store } }

end Sessions

/-- A logout is final in every run in which no request that loaded an identity of
the device is in its refresh when the logout deletes the identity: the identity
stored later is never one of that device. -/
theorem logout_is_final (store : Option Identity) (actions : List SessionsAction) (s : Sessions)
    (run : execute Sessions.step Sessions.settledLogout actions (Sessions.started store) = some s) :
    ∀ device ∈ s.loggedOut, ∀ identity, s.cell.store = some identity → identity.deviceId ≠ device := by
  have hstart : (Sessions.started store).NoneRetired :=
    ⟨fun _ _ => List.not_mem_nil, fun _ => nofun, fun _ => nofun⟩
  have h : s.NoneRetired := execute_invariant (fun _ _ _ h allowed hstep => h.step allowed hstep) hstart run
  intro device hdevice identity hstore heq
  exact h.store identity hstore (heq ▸ hdevice)

/-- An identity whose access token is about to expire. -/
def expiringIdentity (deviceId : String) : Identity := ⟨deviceId, "certificate", 1000000, ⟨"access", "refresh", 100⟩⟩

theorem logout_is_final_after_request :
    ∃ s, execute Sessions.step Sessions.settledLogout
        [.session (.load none true), .begin none, .request 0 (.clock 0), .request 0 .lock, .request 0 (.load none 0),
          .request 0 (.respond (.ok ⟨"access", some "rotated", 3600⟩) 0), .request 0 (.save true), .logout none true]
        (Sessions.started (some (expiringIdentity "d"))) = some s ∧
      s.loggedOut = ["d"] ∧ ∀ identity, s.cell.store = some identity → identity.deviceId ≠ "d" :=
  ⟨_, rfl, rfl, logout_is_final (some (expiringIdentity "d"))
    [.session (.load none true), .begin none, .request 0 (.clock 0), .request 0 .lock, .request 0 (.load none 0),
      .request 0 (.respond (.ok ⟨"access", some "rotated", 3600⟩) 0), .request 0 (.save true), .logout none true] _ rfl
    "d" (by decide)⟩

/-- A request that is refreshing the token when the device logs out: after the
enrollment as another device, its save brings the old identity back. -/
theorem request_restores_logged_out_identity :
    ∃ s t, execute Sessions.step (fun _ _ => true)
        [.session (.load none true), .begin none, .request 0 (.clock 0), .request 0 .lock, .request 0 (.load none 0),
          .logout none true, .session (.load none true), .session (.enroll (some (expiringIdentity "e"))),
          .session (.save true)] (Sessions.started (some (expiringIdentity "d"))) = some s ∧
      s.loggedOut = ["d"] ∧ s.cell.store.map Identity.deviceId = some "e" ∧
      execute Sessions.step (fun _ _ => true)
        [.request 0 (.respond (.ok ⟨"access", some "rotated", 3600⟩) 0), .request 0 (.save true)] s = some t ∧
      t.loggedOut = ["d"] ∧ t.cell.store.map Identity.deviceId = some "d" :=
  ⟨_, _, rfl, rfl, rfl, rfl, rfl, rfl⟩

end AgentDesktop
