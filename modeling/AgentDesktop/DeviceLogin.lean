import AgentDesktop.CredentialCache
import AgentDesktop.DeviceIdentity

namespace AgentDesktop

structure LlmGatewayLoginStatus where
  status : String
  verificationUrl : Option String
  userCode : Option String
  deriving DecidableEq

/-- A device sign-in that waits for approval. -/
structure PendingDeviceLogin where
  verificationUrl : String
  userCode : String
  deriving DecidableEq

structure DeviceAuthorizationResponse where
  deviceCode : String
  userCode : String
  verificationUri : String
  verificationUriComplete : Option String
  expiresIn : Nat
  interval : Option Nat

structure StoredTokens where
  accessToken : String
  refreshToken : Option String
  expiresAtUnixSeconds : Nat
  tokenEndpoint : String

def expirySkewSeconds : Nat := 60

def maxDeviceLifetime : Nat := 30 * 60

def signedIn : LlmGatewayLoginStatus := ⟨"signedIn", none, none⟩

def awaiting (pending : PendingDeviceLogin) : LlmGatewayLoginStatus :=
  ⟨"awaitingAuthentication", some pending.verificationUrl, some pending.userCode⟩

def StoredTokens.asCredential (tokens : StoredTokens) : LlmGatewayCredential :=
  ⟨tokens.accessToken, tokens.expiresAtUnixSeconds⟩

/-- Rejects a response that cannot be acted on and caps its lifetime; `parses` says which
texts are URLs. -/
def validateDevice (parses : String → Bool) (device : DeviceAuthorizationResponse) :
    Except String DeviceAuthorizationResponse :=
  if device.deviceCode.isEmpty || device.userCode.isEmpty then
    .error "OIDC device authorization response has no device or user code"
  else if !parses device.verificationUri then .error "OIDC device verification URI is invalid"
  else
    let device := { device with
      verificationUriComplete := device.verificationUriComplete.filter parses
      expiresIn := min device.expiresIn maxDeviceLifetime }
    if device.expiresIn = 0 then .error "OIDC device authorization has already expired" else .ok device

/-- The complete verification URL is preferred. -/
def pendingFrom (device : DeviceAuthorizationResponse) : PendingDeviceLogin :=
  ⟨(device.verificationUriComplete.filter fun url => !url.isEmpty).getD device.verificationUri, device.userCode⟩

/-- What `stored_credential` finds before it asks for a refresh. -/
inductive StoredToken where
  | usable (credential : LlmGatewayCredential)
  | stale (tokens : StoredTokens)
  | missing

def storedToken (tokens : Option StoredTokens) (now : Nat) : StoredToken :=
  match tokens with
  | none => .missing
  | some tokens =>
    if tokens.expiresAtUnixSeconds > saturatingAdd now expirySkewSeconds then .usable tokens.asCredential
    else
      match tokens.refreshToken with
      | none => .missing
      | some _ => .stale tokens

def StoredTokens.refreshed (tokens : StoredTokens) (response : TokenResponse) (now : Nat) : StoredTokens :=
  { tokens with
    accessToken := response.accessToken
    refreshToken := response.refreshToken.or tokens.refreshToken
    expiresAtUnixSeconds := saturatingAdd now response.expiresIn }

def TokenResponse.stored (response : TokenResponse) (tokenEndpoint : String) (now : Nat) : StoredTokens :=
  ⟨response.accessToken, response.refreshToken, saturatingAdd now response.expiresIn, tokenEndpoint⟩

/-- Who checks the stored token: `credential`, or `device_login` before or after it has the
start lock. -/
inductive TokenCheck where
  | credential (deviceAuthorization : Bool)
  | deviceLogin (starting : Bool)

inductive CheckPhase where
  | waiting
  | refreshing (tokens : StoredTokens)
  | looking

inductive LoginAnswer where
  | status (status : LlmGatewayLoginStatus)
  | credential (credential : LlmGatewayCredential) (interactive : Bool)

inductive LoginError where
  | signInRequired (pending : Option PendingDeviceLogin)
  | failed (message : String)

/-- Where a call is; one that is dropped ends without an answer. -/
inductive LoginPhase where
  | checking (check : TokenCheck) (phase : CheckPhase)
  | browsing
  | queued
  | requesting
  | ended (answer : Option (Except LoginError LoginAnswer))

structure LoginCall (Account : Type) where
  account : Account
  phase : LoginPhase

inductive GrantPhase where
  | polling
  | approved (tokens : TokenResponse)
  | finishing
  | ended

/-- A device grant with its background task. -/
structure DeviceGrant (Account : Type) where
  account : Account
  device : DeviceAuthorizationResponse
  tokenEndpoint : String
  phase : GrantPhase

def TokenCheck.found (check : TokenCheck) (credential : LlmGatewayCredential) : LoginAnswer :=
  match check with
  | .credential _ => .credential credential false
  | .deviceLogin _ => .status signedIn

/-- The global lock is held from the load of the token to the end of the check, and for the
whole browser sign-in. -/
def LoginPhase.holdsLogin : LoginPhase → Bool
  | .checking _ .waiting => false
  | .checking _ _ => true
  | .browsing => true
  | _ => false

def LoginPhase.holdsStart : LoginPhase → Bool
  | .checking (.deviceLogin true) _ => true
  | .requesting => true
  | _ => false

def LoginPhase.isRequesting : LoginPhase → Bool
  | .requesting => true
  | _ => false

def LoginPhase.isEnded : LoginPhase → Bool
  | .ended _ => true
  | _ => false

/-- A call of `device_login` can be dropped where it waits; `credential` runs in a task of
its own. -/
def LoginPhase.awaits : LoginPhase → Bool
  | .checking (.deviceLogin _) .waiting => true
  | .checking (.deviceLogin _) (.refreshing _) => true
  | .queued => true
  | .requesting => true
  | _ => false

def GrantPhase.isPolling : GrantPhase → Bool
  | .polling => true
  | _ => false

def GrantPhase.isLive : GrantPhase → Bool
  | .ended => false
  | _ => true

end AgentDesktop
