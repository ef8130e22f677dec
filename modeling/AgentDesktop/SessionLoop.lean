import AgentDesktop.DeviceIdentity
import AgentDesktop.Transitions

namespace AgentDesktop

/-- Where the session loop is, with the identity it holds in memory. -/
inductive SessionPc where
  | starting
  | enrolling
  | enrolled (identity : Identity)
  | refreshing (pc : RefreshPc) (identity : Identity)
  | refreshed (identity : Identity)
  | renewing (identity : Identity)
  | renewed (identity : Identity)
  | storing (identity : Identity)
  | connected (identity : Identity)
  | waiting (identity : Identity)
  | failed

/-- A credential or usage request that has loaded the identity. -/
structure IdentityRequest where
  pc : RefreshPc
  identity : Identity

/-- The session loop and the requests around the stored identity. `loggedOut` are
the devices whose logout deleted the identity and was answered with success. -/
structure Sessions where
  cell : IdentityCell
  session : SessionPc := .starting
  requests : List IdentityRequest := []
  loggedOut : List String := []

/-- What the next step of the session loop meets. `deleted` and `discarded` say
whether a removal of the stored identity succeeds. -/
inductive SessionInput where
  | load (fault : Option LoadFault) (discarded : Bool)
  | enroll (identity : Option Identity)
  | refresh (input : RefreshInput) (deleted : Bool)
  | certificate (now : Nat)
  | renew (certificate : Option (String × Nat))
  | save (ok : Bool)
  | disconnected (unauthenticated deleted : Bool)
  | retry

inductive SessionsAction where
  | session (input : SessionInput)
  | logout (fault : Option LoadFault) (deleted : Bool)
  | begin (fault : Option LoadFault)
  | request (index : Nat) (input : RefreshInput)
  | cancel (index : Nat)

namespace Sessions

/-- The session removes the stored identity and starts over; a removal that fails
ends it. -/
def deleteIdentity (deleted : Bool) (next : SessionPc) (s : Sessions) : Sessions :=
  if deleted then { s with cell := { s.cell with store := none }, session := next } else { s with session := .failed }

/-- The session saves its identity; a save that fails ends it. -/
def saveIdentity (identity : Identity) (ok : Bool) (next : SessionPc) (s : Sessions) : Sessions :=
  if ok then { s with cell := { s.cell with store := some identity }, session := next }
  else { s with session := .failed }

/-- What the session does with the result of a step of its refresh. -/
def afterRefresh (identity : Identity) (deleted : Bool) (progress : RefreshProgress) (s : Sessions) : Sessions :=
  match progress with
  | .running pc identity => { s with session := .refreshing pc identity }
  | .finished identity => { s with session := .refreshed identity }
  | .failed .rejected => s.deleteIdentity deleted .starting
  | .failed .transient => { s with session := .waiting identity }
  | .failed .other => { s with session := .failed }

/-- `run_session`, one access of the store at a time. -/
def sessionStep (s : Sessions) (input : SessionInput) : Option Sessions :=
  match s.session, input with
  | .starting, .load fault discarded =>
    match fault with
    | some .unreadable => some (s.deleteIdentity discarded .enrolling)
    | some .failed => some { s with session := .failed }
    | none =>
      match s.cell.store with
      | some identity => some { s with session := .refreshing .checking identity }
      | none => some { s with session := .enrolling }
  | .enrolling, .enroll none => some s
  | .enrolling, .enroll (some identity) => some { s with session := .enrolled identity }
  | .enrolled identity, .save ok => some (s.saveIdentity identity ok (.refreshing .checking identity))
  | .refreshing pc identity, .refresh input deleted =>
    match refreshStep s.cell identity pc input with
    | none => none
    | some (cell, progress) => some ({ s with cell }.afterRefresh identity deleted progress)
  | .refreshed identity, .certificate now =>
    some { s with session := if identity.certificateNeedsRenewal now then .renewing identity else .storing identity }
  | .renewing identity, .renew none => some { s with session := .storing identity }
  | .renewing identity, .renew (some (pem, expiresAt)) =>
    some { s with session := .renewed (identity.withCertificate pem expiresAt) }
  | .renewed identity, .save ok => some (s.saveIdentity identity ok (.storing identity))
  | .storing identity, .save ok => some (s.saveIdentity identity ok (.connected identity))
  | .connected identity, .disconnected unauthenticated deleted =>
    if unauthenticated then some (s.deleteIdentity deleted .starting) else some { s with session := .waiting identity }
  | .waiting identity, .retry => some { s with session := .refreshing .checking identity }
  | .failed, .retry => some { s with session := .starting }
  | _, _ => none

/-- `complete_logout`; a logout that cannot delete the identity leaves it. -/
def completeLogout (identity : Identity) (deleted : Bool) (otherwise : SessionPc) (s : Sessions) : Sessions :=
  if deleted then
    { s with
      cell := { s.cell with store := none }
      session := .starting
      loggedOut := s.loggedOut ++ [identity.deviceId] }
  else { s with session := otherwise }

/-- A logout request. The session drops its refresh, but not between an access of
the store and what it decides from it; between sessions the stored identity is
the one logged out. -/
def logout (fault : Option LoadFault) (deleted : Bool) (s : Sessions) : Option Sessions :=
  match s.session with
  | .enrolling => some s
  | .refreshing .checking identity => some (s.completeLogout identity deleted (.refreshing .checking identity))
  | .refreshing .waiting identity => some (s.completeLogout identity deleted (.refreshing .checking identity))
  | .refreshing .calling identity =>
    some ({ s with cell := s.cell.unlock }.completeLogout identity deleted (.refreshing .checking identity))
  | .connected identity => some (s.completeLogout identity deleted (.refreshing .checking identity))
  | .waiting identity => some (s.completeLogout identity deleted (.refreshing .checking identity))
  | .failed =>
    match fault, s.cell.store with
    | some .failed, _ => some { s with session := .starting }
    | _, none => some { s with session := .starting }
    | _, some identity => some (s.completeLogout identity deleted .starting)
  | _ => none

/-- A request loads the stored identity; without one it ends. -/
def begin (fault : Option LoadFault) (s : Sessions) : Option Sessions :=
  match fault, s.cell.store with
  | none, some identity => some { s with requests := s.requests ++ [⟨.checking, identity⟩] }
  | _, _ => none

/-- One step of the refresh of a request. A request whose refresh ended no longer
accesses the store. -/
def requestStep (index : Nat) (input : RefreshInput) (s : Sessions) : Option Sessions :=
  match s.requests[index]? with
  | none => none
  | some request =>
    match refreshStep s.cell request.identity request.pc input with
    | none => none
    | some (cell, .running pc identity) => some { s with cell, requests := s.requests.set index ⟨pc, identity⟩ }
    | some (cell, .finished _) => some { s with cell, requests := s.requests.eraseIdx index }
    | some (cell, .failed _) => some { s with cell, requests := s.requests.eraseIdx index }

/-- A request that is dropped where it waits. -/
def cancel (index : Nat) (s : Sessions) : Option Sessions :=
  match s.requests[index]? with
  | some ⟨.checking, _⟩ => some { s with requests := s.requests.eraseIdx index }
  | some ⟨.waiting, _⟩ => some { s with requests := s.requests.eraseIdx index }
  | some ⟨.calling, _⟩ => some { s with cell := s.cell.unlock, requests := s.requests.eraseIdx index }
  | _ => none

def step (s : Sessions) : SessionsAction → Option Sessions
  | .session input => s.sessionStep input
  | .logout fault deleted => s.logout fault deleted
  | .begin fault => s.begin fault
  | .request index input => s.requestStep index input
  | .cancel index => s.cancel index

end Sessions

end AgentDesktop
