import AgentDesktop.IpAddress
import AgentDesktop.ProxyHeaders

namespace AgentDesktop

/-- How a route obtains the credential that goes upstream in `x-llm-token`. -/
inductive RouteCredential where
  | gateway
  | passthrough
  deriving DecidableEq

/-- Which base URL of the gateway a route forwards to. -/
inductive Upstream where
  | url
  | proxyUrl
  deriving DecidableEq

/-- A path prefix the proxy serves for one managed program. -/
structure ProxyRoute where
  pathPrefix : String
  clientId : String
  credential : RouteCredential
  upstream : Upstream
  pairingInPath : Bool := false
  tunnelsUpgrades : Bool := false
  credentialLessPing : Bool := false
  deriving DecidableEq

def capiRoute : String := "/vscode-copilot-capi"

def codexRoute : String := "/codex"

def capiProxyRoute : ProxyRoute :=
  { pathPrefix := capiRoute, clientId := "vscode-copilot", credential := .passthrough, upstream := .proxyUrl,
    pairingInPath := true, tunnelsUpgrades := true, credentialLessPing := true }

def routes : List ProxyRoute :=
  [{ pathPrefix := codexRoute, clientId := "codex", credential := .passthrough, upstream := .proxyUrl },
    { pathPrefix := "/vscode-copilot-passthrough", clientId := "vscode-copilot", credential := .passthrough,
      upstream := .proxyUrl },
    capiProxyRoute,
    { pathPrefix := "/vscode-copilot", clientId := "vscode-copilot", credential := .gateway, upstream := .url },
    { pathPrefix := "/copilot-cli", clientId := "copilot-cli", credential := .gateway, upstream := .url }]

/-- The first path segment and what follows it. -/
def splitPathPairing (rest : Octets) : Option (Octets × Octets) :=
  match stripPrefix [octet '/'] rest with
  | none => none
  | some withoutSlash =>
    match splitOnce (octet '/') withoutSlash with
    | some (segment, after) => if segment.isEmpty then none else some (segment, octet '/' :: after)
    | none => if withoutSlash.isEmpty then none else some (withoutSlash, [octet '/'])

/-- The host of a `Host` value, without its brackets and its port. -/
def hostName (host : Octets) : Option Octets :=
  match stripPrefix [octet '['] host with
  | some rest =>
    match splitOnce (octet ']') rest with
    | some (name, port) => if port.isEmpty || port.head? == some (octet ':') then some name else none
    | none => none
  | none =>
    if host.count (octet ':') > 1 then some host
    else
      match rsplitOnce (octet ':') host with
      | some (name, _) => some name
      | none => some host

def hostIsLoopback (headers : HeaderMap) : Bool :=
  match (headers.get hostHeader).bind toStr with
  | none => false
  | some host =>
    match hostName (trim host) with
    | none => false
    | some name =>
      match parseIpAddr name with
      | some ip => ip.isLoopback
      | none => eqIgnoreAsciiCase (trimEndMatches (· == octet '.') name) (octets "localhost")

/-- The octets a path stands for; a malformed escape makes it undefined. -/
def percentDecode : Octets → Option Octets
  | [] => some []
  | o :: rest =>
    if o = octet '%' then
      match rest with
      | high :: low :: rest =>
        match toDigit 16 high, toDigit 16 low with
        | some high, some low => (percentDecode rest).map (UInt8.ofNat (high * 16 + low) :: ·)
        | _, _ => none
      | _ => none
    else (percentDecode rest).map (o :: ·)

theorem percentDecode_cons_of_ne {o : UInt8} (h : o ≠ octet '%') (rest : Octets) :
    percentDecode (o :: rest) = (percentDecode rest).map (o :: ·) := by
  match rest with
  | [] => simp [percentDecode, h]
  | [_] => simp [percentDecode, h]
  | _ :: _ :: _ => simp [percentDecode, h]

def isPathSeparator (o : UInt8) : Bool :=
  o == octet '/' || o == octet '\\'

def pathEscapesBase (path : Octets) : Bool :=
  match percentDecode path with
  | none => true
  | some decoded => (decoded.splitOnP isPathSeparator).any (· == octets "..")

/-- The first segment of a path after its leading slashes. -/
def firstSegment (path : Octets) : Octets :=
  (trimStartMatches (· == octet '/') path).takeWhile (· != octet '/')

def ProxyRoute.name (route : ProxyRoute) : Octets :=
  (octets route.pathPrefix).drop 1

def resemblesRoute (path : Octets) : Bool :=
  let first := toAsciiLowercase (firstSegment path)
  !first.isEmpty &&
    routes.any fun route =>
      first == route.name || route.name.isPrefixOf first || first.isPrefixOf route.name && decide (first.length ≥ 8)

def constantTimeEq (a b : Octets) : Bool :=
  if a.length = b.length then (a.zip b).foldl (fun acc pair => acc ||| (pair.1 ^^^ pair.2)) 0 == 0 else false

/-- The path after the prefix of a route, if the prefix ends at a `/` or the end. -/
def ProxyRoute.matchPath (route : ProxyRoute) (path : Octets) : Option (ProxyRoute × Octets) :=
  match stripPrefix (octets route.pathPrefix) path with
  | none => none
  | some rest =>
    if rest.isEmpty then some (route, [octet '/'])
    else if rest.head? == some (octet '/') then some (route, rest)
    else none

def matchRoute (path : Octets) : Option (ProxyRoute × Octets) :=
  routes.findSome? fun route => route.matchPath path

example : (matchRoute (octets "/vscode-copilot-passthrough/v1")).map (·.2) = some (octets "/v1") := by decide

example : resemblesRoute (octets "//Codex/v1") = true := by decide

example : pathEscapesBase (octets "/a/%2e%2E%5cb") = true := by decide

end AgentDesktop
