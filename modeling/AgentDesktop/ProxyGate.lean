import AgentDesktop.ProxyRouteSpecs

namespace AgentDesktop

inductive Method where
  | get
  | head
  | post
  | put
  | patch
  | delete
  | trace
  | options
  | connect
  | extension (name : String)
  deriving DecidableEq

/-- A request as it arrives. Its body is what reading it gives. -/
structure ProxyRequest where
  method : Method
  pathAndQuery : Option Octets
  headers : HeaderMap
  body : Except String Octets

/-- A refused or failed request. -/
structure ProxyError where
  status : Nat
  code : String
  message : String
  deriving DecidableEq

structure ProxyConfig where
  defaultClientId : String
  pairing : Octets

namespace ProxyError

def pairingInvalid : ProxyError :=
  ⟨403, "pairing_invalid",
    "agentdesktop proxy: pairing value missing or wrong; re-apply the managed configuration"⟩

def hostNotAllowed : ProxyError :=
  ⟨403, "host_not_allowed", "agentdesktop proxy: Host must be a loopback address"⟩

def browserNotAllowed : ProxyError :=
  ⟨403, "browser_not_allowed", "agentdesktop proxy: browser requests and CONNECT are not supported"⟩

def methodNotAllowed : ProxyError :=
  ⟨405, "method_not_allowed", "agentdesktop proxy: OPTIONS is not supported"⟩

def upgradeNotSupported : ProxyError :=
  ⟨400, "upgrade_not_supported",
    "agentdesktop proxy: WebSocket upgrades are supported on the /vscode-copilot-capi route only"⟩

def pathInvalid : ProxyError :=
  ⟨400, "path_invalid", "agentdesktop proxy: path must not contain '..' segments"⟩

def routeUnknown : ProxyError :=
  ⟨404, "route_unknown",
    "agentdesktop proxy: unknown route; the managed prefixes are /copilot-cli, /vscode-copilot, " ++
      "/vscode-copilot-passthrough and /vscode-copilot-capi"⟩

end ProxyError

/-- The path and the query of a path with its query. -/
def splitQuery (pathAndQuery : Octets) : Octets × Option Octets :=
  match splitOnce (octet '?') pathAndQuery with
  | some (path, query) => (path, some query)
  | none => (pathAndQuery, none)

def ProxyRequest.path (request : ProxyRequest) : Octets :=
  (splitQuery (request.pathAndQuery.getD [octet '/'])).1

def ProxyRequest.query (request : ProxyRequest) : Option Octets :=
  (splitQuery (request.pathAndQuery.getD [octet '/'])).2

theorem splitQuery_append {start : Octets} (h : octet '?' ∉ start) (text : Octets) :
    splitQuery (start ++ text) = (start ++ (splitQuery text).1, (splitQuery text).2) := by
  unfold splitQuery
  rw [splitOnce_append h]
  cases splitOnce (octet '?') text <;> rfl

theorem splitQuery_path (text : Octets) : octet '?' ∉ (splitQuery text).1 := by
  unfold splitQuery
  split
  next path query hsplit => exact (splitOnce_eq_some_iff.mp hsplit).2
  next hsplit => exact splitOnce_eq_none_iff.mp hsplit

/-- Whether the pairing header carries the pairing. -/
def pairedByHeader (pairing : Octets) (headers : HeaderMap) : Bool :=
  match (headers.get pairingHeader).bind toStr with
  | some offered => constantTimeEq offered pairing
  | none => false

/-- Checks the pairing where the route has it. On the CAPI route the result is the
path after it. -/
def checkPairing (pairing : Octets) (headers : HeaderMap) (matched : Option (ProxyRoute × Octets)) :
    Except ProxyError (Option Octets) :=
  if matched.any (·.1.pairingInPath) then
    match (matched.map (·.2)).bind splitPathPairing with
    | some (segment, remainder) =>
      if constantTimeEq segment pairing then .ok (some remainder) else .error .pairingInvalid
    | none => .error .pairingInvalid
  else if pairedByHeader pairing headers then .ok none
  else .error .pairingInvalid

/-- What a request is once it passed the checks that read no configuration. -/
structure GatedRequest where
  matched : Option (ProxyRoute × Octets)
  capiRest : Option Octets
  websocket : Bool

/-- The checks of `forward` that come before the configuration is read. -/
def gate (config : ProxyConfig) (request : ProxyRequest) : Except ProxyError GatedRequest :=
  if !hostIsLoopback request.headers then .error .hostNotAllowed
  else if request.headers.containsKey originHeader || request.method == .connect then .error .browserNotAllowed
  else if request.method == .options then .error .methodNotAllowed
  else
    let matched := matchRoute request.path
    match checkPairing config.pairing request.headers matched with
    | .error error => .error error
    | .ok capiRest =>
      let websocket := isWebsocketUpgrade request.headers
      if websocket && !matched.any (·.1.tunnelsUpgrades) then .error .upgradeNotSupported
      else if pathEscapesBase request.path then .error .pathInvalid
      else if matched.isNone && resemblesRoute request.path then .error .routeUnknown
      else .ok { matched, capiRest, websocket }

/-- What the checks of a request that passed them say. -/
structure GatePassed (config : ProxyConfig) (request : ProxyRequest) (gated : GatedRequest) : Prop where
  host : hostIsLoopback request.headers = true
  origin : request.headers.containsKey originHeader = false
  connect : request.method ≠ .connect
  options : request.method ≠ .options
  matched : gated.matched = matchRoute request.path
  pairing : checkPairing config.pairing request.headers gated.matched = .ok gated.capiRest
  websocket : gated.websocket = isWebsocketUpgrade request.headers
  upgrade : gated.websocket = true → gated.matched.any (·.1.tunnelsUpgrades) = true
  escapes : pathEscapesBase request.path = false
  resembles : gated.matched = none → resemblesRoute request.path = false

theorem gate_spec {config : ProxyConfig} {request : ProxyRequest} {gated : GatedRequest}
    (h : gate config request = .ok gated) : GatePassed config request gated := by
  unfold gate at h
  split at h
  next => cases h
  next hhost =>
    split at h
    next => cases h
    next horigin =>
      split at h
      next => cases h
      next hoptions =>
        simp only [Bool.or_eq_true, beq_iff_eq, not_or, Bool.not_eq_true] at horigin
        dsimp only at h
        split at h
        next => cases h
        next capiRest hpairing =>
          split at h
          next => cases h
          next hupgrade =>
            split at h
            next => cases h
            next hescapes =>
              split at h
              next => cases h
              next hresembles =>
                cases h
                refine ⟨by simpa using hhost, horigin.1, horigin.2, by simpa using hoptions, rfl, hpairing, rfl, ?_,
                  Bool.eq_false_iff.mpr hescapes, ?_⟩
                · intro hwebsocket
                  have hwebsocket : isWebsocketUpgrade request.headers = true := hwebsocket
                  simpa [hwebsocket] using hupgrade
                · intro hnone
                  have hnone : matchRoute request.path = none := hnone
                  simpa [hnone] using hresembles

theorem GatePassed.gate {config : ProxyConfig} {request : ProxyRequest} {gated : GatedRequest}
    (h : GatePassed config request gated) : gate config request = .ok gated := by
  obtain ⟨matched, capiRest, websocket⟩ := gated
  obtain ⟨hhost, horigin, hconnect, hoptions, rfl, hpairing, rfl, hupgrade, hescapes, hresembles⟩ := h
  dsimp only at hpairing hupgrade hresembles
  unfold AgentDesktop.gate
  simp only [hhost, horigin, hpairing, hescapes, beq_eq_false_iff_ne.mpr hconnect, beq_eq_false_iff_ne.mpr hoptions,
    Bool.not_true, Bool.or_self, Bool.false_eq_true, if_false]
  rw [if_neg, if_neg]
  · intro h
    rw [Bool.and_eq_true, Option.isNone_iff_eq_none] at h
    rw [hresembles h.1] at h
    exact Bool.false_ne_true h.2
  · intro h
    rw [Bool.and_eq_true] at h
    rw [hupgrade h.1] at h
    exact Bool.false_ne_true h.2

theorem pairedByHeader_spec {pairing : Octets} {headers : HeaderMap} (h : pairedByHeader pairing headers = true) :
    headers.get pairingHeader = some pairing := by
  unfold pairedByHeader at h
  split at h
  next offered hoffered =>
    obtain ⟨value, hvalue, hstr⟩ := Option.bind_eq_some_iff.mp hoffered
    rw [constantTimeEq_iff] at h
    subst h
    unfold toStr at hstr
    split at hstr
    next =>
      cases hstr
      exact hvalue
    next => cases hstr
  next => cases h

theorem checkPairing_spec {pairing : Octets} {headers : HeaderMap} {matched : Option (ProxyRoute × Octets)}
    {capiRest : Option Octets} (h : checkPairing pairing headers matched = .ok capiRest) :
    (∃ route rest remainder, matched = some (route, rest) ∧ route.pairingInPath = true ∧
        splitPathPairing rest = some (pairing, remainder) ∧ capiRest = some remainder) ∨
      matched.any (·.1.pairingInPath) = false ∧ headers.get pairingHeader = some pairing ∧ capiRest = none := by
  unfold checkPairing at h
  split at h
  next hpath =>
    cases matched with
    | none => cases hpath
    | some pair =>
      obtain ⟨route, rest⟩ := pair
      simp only [Option.map_some, Option.bind_some] at h
      split at h
      next segment remainder hsplit =>
        split at h
        next heq =>
          cases h
          rw [constantTimeEq_iff] at heq
          subst heq
          exact Or.inl ⟨route, rest, remainder, rfl, hpath, hsplit, rfl⟩
        next => cases h
      next => cases h
  next hpath =>
    split at h
    next hheader =>
      cases h
      exact Or.inr ⟨Bool.eq_false_iff.mpr hpath, pairedByHeader_spec hheader, rfl⟩
    next => cases h

end AgentDesktop
