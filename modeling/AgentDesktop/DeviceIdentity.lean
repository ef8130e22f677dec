import Mathlib.Logic.Basic

namespace AgentDesktop

structure OAuthCredentials where
  accessToken : String
  refreshToken : String
  expiresAt : Nat

/-- The identity of an enrolled device, with what its refresh and renewal change. -/
structure Identity where
  deviceId : String
  clientCertificatePem : String
  clientCertificateExpiresAt : Nat
  oauth : OAuthCredentials

structure TokenResponse where
  accessToken : String
  refreshToken : Option String
  expiresIn : Nat

/-- Addition of seconds as `u64` values. -/
def saturatingAdd (a b : Nat) : Nat :=
  min (a + b) (UInt64.size - 1)

def Identity.needsRefresh (identity : Identity) (now : Nat) : Bool :=
  decide (identity.oauth.expiresAt ≤ saturatingAdd now 120)

def Identity.certificateNeedsRenewal (identity : Identity) (now : Nat) : Bool :=
  decide (identity.clientCertificateExpiresAt ≤ saturatingAdd now (24 * 60 * 60))

def Identity.applyRefreshedTokens (identity : Identity) (response : TokenResponse) (now : Nat) : Identity :=
  { identity with oauth :=
    { accessToken := response.accessToken
      refreshToken := response.refreshToken.getD identity.oauth.refreshToken
      expiresAt := saturatingAdd now response.expiresIn } }

/-- The identity with a renewed certificate. -/
def Identity.withCertificate (identity : Identity) (pem : String) (expiresAt : Nat) : Identity :=
  { identity with clientCertificatePem := pem, clientCertificateExpiresAt := expiresAt }

/-- How a load of the stored identity fails. -/
inductive LoadFault where
  | unreadable
  | failed

/-- How a refresh fails: the token endpoint rejects the refresh token, it cannot
be reached, or something local goes wrong. -/
inductive RefreshFailure where
  | rejected
  | transient
  | other

/-- The stored identity and the refresh mutex. -/
structure IdentityCell where
  store : Option Identity
  locked : Bool := false

/-- Where a refresh of the access token is. From `loading` on it holds the mutex. -/
inductive RefreshPc where
  | checking
  | waiting
  | loading
  | calling
  | saving

/-- What the next step of a refresh meets. -/
inductive RefreshInput where
  | clock (now : Nat)
  | lock
  | load (fault : Option LoadFault) (now : Nat)
  | respond (response : Except RefreshFailure TokenResponse) (now : Nat)
  | save (ok : Bool)

inductive RefreshProgress where
  | running (pc : RefreshPc) (identity : Identity)
  | finished (identity : Identity)
  | failed (failure : RefreshFailure)

def IdentityCell.unlock (cell : IdentityCell) : IdentityCell :=
  { cell with locked := false }

/-- `refresh_oauth_if_needed`, one access of the store at a time. -/
def refreshStep (cell : IdentityCell) (identity : Identity) :
    RefreshPc → RefreshInput → Option (IdentityCell × RefreshProgress)
  | .checking, .clock now =>
    if identity.needsRefresh now then some (cell, .running .waiting identity) else some (cell, .finished identity)
  | .waiting, .lock =>
    if cell.locked then none else some ({ cell with locked := true }, .running .loading identity)
  | .loading, .load fault now =>
    match fault with
    | some .unreadable => some (cell, .running .calling identity)
    | some .failed => some (cell.unlock, .failed .other)
    | none =>
      match cell.store with
      | some stored =>
        if stored.needsRefresh now then some (cell, .running .calling identity)
        else some (cell.unlock, .finished stored)
      | none => some (cell, .running .calling identity)
  | .calling, .respond response now =>
    match response with
    | .error failure => some (cell.unlock, .failed failure)
    | .ok response => some (cell, .running .saving (identity.applyRefreshedTokens response now))
  | .saving, .save ok =>
    if ok then some ({ store := some identity }, .finished identity) else some (cell.unlock, .failed .other)
  | _, _ => none

/-- The identity a refresh goes on with. -/
def RefreshProgress.identity : RefreshProgress → Option Identity
  | .running _ identity => some identity
  | .finished identity => some identity
  | .failed _ => none

/-- A refresh works on the identity it was given or on the stored one, and stores no other. -/
theorem refreshStep_devices {cell next : IdentityCell} {identity : Identity} {pc : RefreshPc} {input : RefreshInput}
    {progress : RefreshProgress} (h : refreshStep cell identity pc input = some (next, progress)) {P : String → Prop}
    (held : P identity.deviceId) (stored : ∀ other ∈ cell.store, P other.deviceId) :
    (∀ other ∈ next.store, P other.deviceId) ∧ ∀ other ∈ progress.identity, P other.deviceId := by
  have hsame : ∀ {pc : RefreshPc}, ∀ other ∈ (RefreshProgress.running pc identity).identity, P other.deviceId := by
    intro _ other ho
    cases ho
    exact held
  cases pc <;> cases input <;> try cases h
  case checking.clock now =>
    simp only [refreshStep] at h
    split at h
    next =>
      cases h
      exact ⟨stored, hsame⟩
    next =>
      cases h
      exact ⟨stored, fun other ho => by cases ho; exact held⟩
  case waiting.lock =>
    simp only [refreshStep] at h
    split at h
    next => cases h
    next =>
      cases h
      exact ⟨stored, hsame⟩
  case loading.load fault now =>
    simp only [refreshStep] at h
    split at h
    next =>
      cases h
      exact ⟨stored, hsame⟩
    next =>
      cases h
      exact ⟨stored, fun _ => nofun⟩
    next =>
      split at h
      next found hfound =>
        split at h
        next =>
          cases h
          exact ⟨stored, hsame⟩
        next =>
          cases h
          exact ⟨stored, fun other ho => by cases ho; exact stored _ hfound⟩
      next =>
        cases h
        exact ⟨stored, hsame⟩
  case calling.respond response now =>
    simp only [refreshStep] at h
    split at h
    next =>
      cases h
      exact ⟨stored, fun _ => nofun⟩
    next =>
      cases h
      exact ⟨stored, fun other ho => by cases ho; exact held⟩
  case saving.save ok =>
    simp only [refreshStep] at h
    split at h
    next =>
      cases h
      exact ⟨fun other ho => by cases ho; exact held, fun other ho => by cases ho; exact held⟩
    next =>
      cases h
      exact ⟨stored, fun _ => nofun⟩

end AgentDesktop
