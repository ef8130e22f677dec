import Mathlib.Logic.Function.Basic
import AgentDesktop.DeviceLogin

namespace AgentDesktop

/-- The locks, the token store and the pending sign-ins with the calls and background tasks
on them; `requested` are the calls that asked for a grant and `inserted` is the grant whose
pending entry was inserted last. -/
structure DeviceLogins (Account : Type) where
  tokens : Account → Option StoredTokens
  login : Bool := false
  starting : Account → Bool := fun _ => false
  pending : Account → Option PendingDeviceLogin := fun _ => none
  calls : List (LoginCall Account) := []
  grants : List (DeviceGrant Account) := []
  requested : List Nat := []
  inserted : Account → Option Nat := fun _ => none

/-- What happens next; a request for a grant that times out ends with an error. -/
inductive LoginAction (Account : Type) where
  | deviceLogin (account : Account)
  | credential (account : Account) (deviceAuthorization : Bool)
  | load (index now : Nat) (opened : Except String Unit)
  | refresh (index now : Nat) (response : Except String TokenResponse) (saved : Except String Unit)
  | look (index : Nat)
  | browse (index now : Nat) (response : Except String (String × TokenResponse)) (saved github : Except String Unit)
  | lockStart (index : Nat)
  | request (index : Nat) (response : Except String (String × DeviceAuthorizationResponse))
  | cancel (index : Nat)
  | poll (grant : Nat) (response : Except String TokenResponse)
  | save (grant now : Nat) (saved : Except String Unit)
  | remove (grant : Nat)
  | forget (account : Account)

namespace DeviceLogins

variable {Account : Type} [DecidableEq Account]

def saveTokens (account : Account) (tokens : StoredTokens) (s : DeviceLogins Account) : DeviceLogins Account :=
  { s with tokens := Function.update s.tokens account (some tokens) }

def setPhase (index : Nat) (call : LoginCall Account) (phase : LoginPhase) (s : DeviceLogins Account) :
    DeviceLogins Account :=
  { s with calls := s.calls.set index { call with phase } }

/-- The call ends and lets go of its locks. -/
def finish (index : Nat) (call : LoginCall Account) (answer : Option (Except LoginError LoginAnswer))
    (s : DeviceLogins Account) : DeviceLogins Account :=
  { s.setPhase index call (.ended answer) with
    login := s.login && !call.phase.holdsLogin
    starting := if call.phase.holdsStart then Function.update s.starting call.account false else s.starting }

def fail (index : Nat) (call : LoginCall Account) (message : String) (s : DeviceLogins Account) :
    DeviceLogins Account :=
  s.finish index call (some (.error (.failed message)))

/-- The first part of `stored_credential`, with the global lock taken. -/
def load (index now : Nat) (opened : Except String Unit) (s : DeviceLogins Account) : Option (DeviceLogins Account) :=
  match s.calls[index]? with
  | some ⟨account, .checking check .waiting⟩ =>
    let call : LoginCall Account := ⟨account, .checking check .waiting⟩
    if s.login then none
    else
      match opened with
      | .error message => some (s.fail index call message)
      | .ok _ =>
        match storedToken (s.tokens account) now with
        | .usable credential => some (s.finish index call (some (.ok (check.found credential))))
        | .stale tokens => some ({ s with login := true }.setPhase index call (.checking check (.refreshing tokens)))
        | .missing => some ({ s with login := true }.setPhase index call (.checking check .looking))
  | _ => none

/-- The token endpoint answers a refresh. -/
def refresh (index now : Nat) (response : Except String TokenResponse) (saved : Except String Unit)
    (s : DeviceLogins Account) : Option (DeviceLogins Account) :=
  match s.calls[index]? with
  | some ⟨account, .checking check (.refreshing tokens)⟩ =>
    let call : LoginCall Account := ⟨account, .checking check (.refreshing tokens)⟩
    match response with
    | .error _ => some (s.setPhase index call (.checking check .looking))
    | .ok response =>
      match saved with
      | .error message => some (s.fail index call message)
      | .ok _ =>
        let tokens := tokens.refreshed response now
        some ((s.saveTokens account tokens).finish index call (some (.ok (check.found tokens.asCredential))))
  | _ => none

/-- No stored token can be used: the pending sign-ins are looked up. -/
def look (index : Nat) (s : DeviceLogins Account) : Option (DeviceLogins Account) :=
  match s.calls[index]? with
  | some ⟨account, .checking check .looking⟩ =>
    let call : LoginCall Account := ⟨account, .checking check .looking⟩
    match check with
    | .credential true => some (s.finish index call (some (.error (.signInRequired (s.pending account)))))
    | .credential false => some (s.setPhase index call .browsing)
    | .deviceLogin starting =>
      match s.pending account with
      | some entry => some (s.finish index call (some (.ok (.status (awaiting entry)))))
      | none =>
        if starting then
          some ({ s with login := false, requested := s.requested ++ [index] }.setPhase index call .requesting)
        else some ({ s with login := false }.setPhase index call .queued)
  | _ => none

/-- The browser sign-in of `credential` ends. -/
def browse (index now : Nat) (response : Except String (String × TokenResponse)) (saved github : Except String Unit)
    (s : DeviceLogins Account) : Option (DeviceLogins Account) :=
  match s.calls[index]? with
  | some ⟨account, .browsing⟩ =>
    let call : LoginCall Account := ⟨account, .browsing⟩
    match response with
    | .error message => some (s.fail index call message)
    | .ok (tokenEndpoint, response) =>
      match saved with
      | .error message => some (s.fail index call message)
      | .ok _ =>
        let tokens := response.stored tokenEndpoint now
        match github with
        | .error message => some ((s.saveTokens account tokens).fail index call message)
        | .ok _ =>
          some ((s.saveTokens account tokens).finish index call (some (.ok (.credential tokens.asCredential true))))
  | _ => none

def lockStart (index : Nat) (s : DeviceLogins Account) : Option (DeviceLogins Account) :=
  match s.calls[index]? with
  | some ⟨account, .queued⟩ =>
    if s.starting account then none
    else
      some ({ s with starting := Function.update s.starting account true }.setPhase index ⟨account, .queued⟩
        (.checking (.deviceLogin true) .waiting))
  | _ => none

/-- The pending entry is inserted and the background task spawned. -/
def start (account : Account) (tokenEndpoint : String) (device : DeviceAuthorizationResponse)
    (s : DeviceLogins Account) : DeviceLogins Account :=
  { s with
    pending := Function.update s.pending account (some (pendingFrom device))
    grants := s.grants ++ [⟨account, device, tokenEndpoint, .polling⟩]
    inserted := Function.update s.inserted account (some s.grants.length) }

/-- The request for a grant ends; a valid one is made pending and polled. -/
def request (parses : String → Bool) (index : Nat) (response : Except String (String × DeviceAuthorizationResponse))
    (s : DeviceLogins Account) : Option (DeviceLogins Account) :=
  match s.calls[index]? with
  | some ⟨account, .requesting⟩ =>
    let call : LoginCall Account := ⟨account, .requesting⟩
    match response with
    | .error message => some (s.fail index call message)
    | .ok (tokenEndpoint, device) =>
      match validateDevice parses device with
      | .error message => some (s.fail index call message)
      | .ok device =>
        some ((s.start account tokenEndpoint device).finish index call
          (some (.ok (.status (awaiting (pendingFrom device))))))
  | _ => none

def cancel (index : Nat) (s : DeviceLogins Account) : Option (DeviceLogins Account) :=
  match s.calls[index]? with
  | some call => if call.phase.awaits then some (s.finish index call none) else none
  | none => none

def poll (index : Nat) (response : Except String TokenResponse) (s : DeviceLogins Account) :
    Option (DeviceLogins Account) :=
  match s.grants[index]? with
  | some ⟨account, device, tokenEndpoint, .polling⟩ =>
    match response with
    | .error _ => some { s with grants := s.grants.set index ⟨account, device, tokenEndpoint, .finishing⟩ }
    | .ok tokens => some { s with grants := s.grants.set index ⟨account, device, tokenEndpoint, .approved tokens⟩ }
  | _ => none

/-- The background task saves the tokens, with the global lock taken. -/
def save (index now : Nat) (saved : Except String Unit) (s : DeviceLogins Account) : Option (DeviceLogins Account) :=
  match s.grants[index]? with
  | some ⟨account, device, tokenEndpoint, .approved tokens⟩ =>
    if s.login then none
    else
      let s := { s with grants := s.grants.set index ⟨account, device, tokenEndpoint, .finishing⟩ }
      match saved with
      | .error _ => some s
      | .ok _ => some (s.saveTokens account (tokens.stored tokenEndpoint now))
  | _ => none

/-- The background task removes the pending entry of its account and ends. -/
def remove (index : Nat) (s : DeviceLogins Account) : Option (DeviceLogins Account) :=
  match s.grants[index]? with
  | some ⟨account, device, tokenEndpoint, .finishing⟩ =>
    some { s with
      pending := Function.update s.pending account none
      grants := s.grants.set index ⟨account, device, tokenEndpoint, .ended⟩ }
  | _ => none

def step (parses : String → Bool) (s : DeviceLogins Account) : LoginAction Account → Option (DeviceLogins Account)
  | .deviceLogin account =>
    some { s with calls := s.calls ++ [⟨account, .checking (.deviceLogin false) .waiting⟩] }
  | .credential account deviceAuthorization =>
    some { s with calls := s.calls ++ [⟨account, .checking (.credential deviceAuthorization) .waiting⟩] }
  | .load index now opened => s.load index now opened
  | .refresh index now response saved => s.refresh index now response saved
  | .look index => s.look index
  | .browse index now response saved github => s.browse index now response saved github
  | .lockStart index => s.lockStart index
  | .request index response => s.request parses index response
  | .cancel index => s.cancel index
  | .poll index response => s.poll index response
  | .save index now saved => s.save index now saved
  | .remove index => s.remove index
  | .forget account => some { s with tokens := Function.update s.tokens account none }

end DeviceLogins

end AgentDesktop
