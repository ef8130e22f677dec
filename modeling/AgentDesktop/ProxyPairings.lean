import AgentDesktop.ProxyRepaired
import AgentDesktop.ProxySecrets

namespace AgentDesktop

/-- The request with a pairing replaced by another, in its CAPI path or in its pairing header. -/
def ProxyRequest.rePair (pairing other : Octets) (request : ProxyRequest) : ProxyRequest :=
  match request.pathAndQuery.bind (stripPrefix (octets capiRoute ++ octet '/' :: pairing)) with
  | some tail => { request with pathAndQuery := some (octets capiRoute ++ octet '/' :: (other ++ tail)) }
  | none =>
    { request with
      headers.values := fun name =>
        if name = pairingHeader then
          (request.headers.values name).map fun value => if value = pairing then other else value
        else request.headers.values name }

def Accepted (config : ProxyConfig) (request : ProxyRequest) : Prop :=
  ∃ gated, gate config request = .ok gated

/-- A request on the CAPI route with the pairing as its first segment. -/
structure CapiPaired (pairing tail : Octets) (request : ProxyRequest) : Prop where
  path : request.path = octets capiRoute ++ octet '/' :: (pairing ++ (splitQuery tail).1)
  query : request.query = (splitQuery tail).2
  segment : pairing ≠ []
  slash : octet '/' ∉ pairing
  rest : (splitQuery tail).1 = [] ∨ (splitQuery tail).1.head? = some (octet '/')

section

variable {parseUri : Octets → Except String Uri} {clientId : String} {pairing other tail : Octets}
  {request : ProxyRequest} {gated : GatedRequest}

theorem capi_split (hpath : request.pathAndQuery = some (octets capiRoute ++ octet '/' :: (pairing ++ tail)))
    (hquery : octet '?' ∉ pairing) :
    request.path = octets capiRoute ++ octet '/' :: (pairing ++ (splitQuery tail).1) ∧
      request.query = (splitQuery tail).2 := by
  have hstart : octet '?' ∉ octets capiRoute ++ octet '/' :: pairing := by
    rw [List.mem_append, List.mem_cons]
    rintro (hmem | hmem | hmem)
    · exact absurd hmem (by decide)
    · exact absurd hmem (by decide)
    · exact hquery hmem
  have hsplit := splitQuery_append hstart tail
  simp only [List.append_assoc, List.cons_append] at hsplit
  simp [ProxyRequest.path, ProxyRequest.query, hpath, hsplit]

theorem capiPaired_of_gate (hpath : request.pathAndQuery = some (octets capiRoute ++ octet '/' :: (pairing ++ tail)))
    (hgate : gate ⟨clientId, pairing⟩ request = .ok gated) : CapiPaired pairing tail request := by
  have hstart : octet '?' ∉ octets capiRoute ++ [octet '/'] := by decide
  have hwhole : request.path = octets capiRoute ++ octet '/' :: (splitQuery (pairing ++ tail)).1 := by
    have hsplit := splitQuery_append hstart (pairing ++ tail)
    simp only [List.append_assoc, List.cons_append, List.nil_append] at hsplit
    simp [ProxyRequest.path, hpath, hsplit]
  obtain ⟨rest, hrest, hne, hslash, hhead⟩ := (gate_spec hgate).paired.segment ⟨_, hwhole, Or.inr rfl⟩
  have hsame : (splitQuery (pairing ++ tail)).1 = pairing ++ rest := by
    have heq := hwhole.symm.trans hrest
    simpa using heq
  have hquery : octet '?' ∉ pairing := by
    intro hmem
    have hnot := splitQuery_path (pairing ++ tail)
    rw [hsame] at hnot
    exact hnot (List.mem_append_left _ hmem)
  obtain ⟨hsplit, hquery'⟩ := capi_split hpath hquery
  have htail : rest = (splitQuery tail).1 := by
    have heq := hrest.symm.trans hsplit
    simpa using heq
  exact ⟨hsplit, hquery', hne, hslash, htail ▸ hhead⟩

namespace CapiPaired

theorem matched (h : CapiPaired pairing tail request) :
    matchRoute request.path = some (capiProxyRoute, octet '/' :: (pairing ++ (splitQuery tail).1)) := by
  rw [h.path, matchRoute_capi (Or.inr rfl)]
  rfl

theorem checked (h : CapiPaired pairing tail request) (headers : HeaderMap) :
    checkPairing pairing headers (matchRoute request.path) =
      .ok (some (if (splitQuery tail).1.isEmpty then [octet '/'] else (splitQuery tail).1)) := by
  have hsplit := splitPathPairing_eq h.segment h.slash h.rest
  have hequal : constantTimeEq pairing pairing = true := constantTimeEq_iff.mpr rfl
  rw [h.matched]
  simp [checkPairing, hsplit, hequal, capiProxyRoute]

theorem gated_eq (h : CapiPaired pairing tail request) (hgate : gate ⟨clientId, pairing⟩ request = .ok gated) :
    gated = ⟨some (capiProxyRoute, octet '/' :: (pairing ++ (splitQuery tail).1)),
      some (if (splitQuery tail).1.isEmpty then [octet '/'] else (splitQuery tail).1),
      isWebsocketUpgrade request.headers⟩ := by
  obtain ⟨matched, capiRest, websocket⟩ := gated
  have hpassed := gate_spec hgate
  have hmatched : matched = _ := hpassed.matched.trans h.matched
  have hwebsocket : websocket = _ := hpassed.websocket
  have hchecked : checkPairing pairing request.headers (matchRoute request.path) = .ok capiRest :=
    hpassed.matched ▸ hpassed.pairing
  rw [h.checked] at hchecked
  cases hchecked
  rw [hmatched, hwebsocket]

/-- The same request with another segment is accepted under that pairing. -/
theorem repaired {second : ProxyRequest} (h : CapiPaired pairing tail request) (h' : CapiPaired other tail second)
    (hsafe : ∀ o ∈ other, isUrlSafe o = true) (hmethod : second.method = request.method)
    (hheaders : second.headers = request.headers) (hgate : gate ⟨clientId, pairing⟩ request = .ok gated) :
    Accepted ⟨clientId, other⟩ second := by
  have hpassed := gate_spec hgate
  have hrepaired : GatePassed ⟨clientId, other⟩ second
      ⟨some (capiProxyRoute, octet '/' :: (other ++ (splitQuery tail).1)),
        some (if (splitQuery tail).1.isEmpty then [octet '/'] else (splitQuery tail).1),
        isWebsocketUpgrade second.headers⟩ := by
    refine ⟨?_, ?_, ?_, ?_, h'.matched.symm, ?_, rfl, fun _ => rfl, ?_, nofun⟩
    · exact hheaders ▸ hpassed.host
    · exact hheaders ▸ hpassed.origin
    · exact hmethod ▸ hpassed.connect
    · exact hmethod ▸ hpassed.options
    · rw [← h'.matched]
      exact h'.checked second.headers
    · have hescapes := hpassed.escapes
      rw [h.path] at hescapes
      rw [h'.path]
      exact pathEscapesBase_replace hsafe h.rest hescapes
  exact ⟨_, hrepaired.gate⟩

end CapiPaired

/-- The two places where a pairing is replaced. -/
theorem rePair_cases (request : ProxyRequest) (pairing other : Octets) :
    (∃ tail, request.pathAndQuery = some (octets capiRoute ++ octet '/' :: (pairing ++ tail)) ∧
        request.rePair pairing other =
          { request with pathAndQuery := some (octets capiRoute ++ octet '/' :: (other ++ tail)) }) ∨
      (∀ tail, request.pathAndQuery ≠ some (octets capiRoute ++ octet '/' :: (pairing ++ tail))) ∧
        SameBut [pairingHeader] request (request.rePair pairing other) ∧
        (request.rePair pairing other).headers.values pairingHeader =
          (request.headers.values pairingHeader).map fun value => if value = pairing then other else value := by
  unfold ProxyRequest.rePair
  split
  next tail htail =>
    obtain ⟨whole, hwhole, hstrip⟩ := Option.bind_eq_some_iff.mp htail
    rw [stripPrefix_eq_some_iff] at hstrip
    refine Or.inl ⟨tail, ?_, rfl⟩
    rw [hwhole, hstrip]
    simp
  next hnone =>
    refine Or.inr ⟨fun tail hpath => ?_, ⟨rfl, rfl, fun name hname => ?_, rfl⟩, by simp⟩
    · have hstrip : stripPrefix (octets capiRoute ++ octet '/' :: pairing)
          (octets capiRoute ++ octet '/' :: (pairing ++ tail)) = some tail :=
        stripPrefix_eq_some_iff.mpr (by simp)
      rw [hpath, Option.bind_some, hstrip] at hnone
      cases hnone
    · have hother : name ≠ pairingHeader := by simpa using hname
      simp [hother]

theorem splitQuery_start (text : Octets) : ∃ rest, text = (splitQuery text).1 ++ rest := by
  unfold splitQuery
  split
  next path query hsplit => exact ⟨_, (splitOnce_eq_some_iff.mp hsplit).1⟩
  next => exact ⟨[], by simp⟩

/-- A request paired by its header is not on the CAPI route. -/
theorem not_onCapi (hgate : gate ⟨clientId, pairing⟩ request = .ok gated)
    (hpath : ∀ tail, request.pathAndQuery ≠ some (octets capiRoute ++ octet '/' :: (pairing ++ tail))) :
    ¬ request.OnCapi := by
  intro hcapi
  obtain ⟨rest, hrest, _⟩ := (gate_spec hgate).paired.segment hcapi
  unfold ProxyRequest.path at hrest
  cases hwhole : request.pathAndQuery with
  | none =>
    rw [hwhole] at hrest
    have hlength := congrArg List.length hrest
    have hroot : (splitQuery [octet '/']).1 = [octet '/'] := by decide
    have hlong : 1 < (octets capiRoute).length := by decide
    rw [Option.getD_none, hroot, List.length_append] at hlength
    simp only [List.length_cons, List.length_nil] at hlength
    omega
  | some whole =>
    obtain ⟨query, hquery⟩ := splitQuery_start whole
    rw [hwhole, Option.getD_some] at hrest
    rw [hrest] at hquery
    refine hpath (rest ++ query) ?_
    rw [hwhole, hquery]
    simp

theorem gated_of_not_capi (hnot : ¬ request.OnCapi) (hgate : gate ⟨clientId, pairing⟩ request = .ok gated) :
    gated = ⟨matchRoute request.path, none, isWebsocketUpgrade request.headers⟩ ∧
      (matchRoute request.path).any (·.1.pairingInPath) = false := by
  obtain ⟨matched, capiRest, websocket⟩ := gated
  have hpassed := gate_spec hgate
  obtain rfl : matched = matchRoute request.path := hpassed.matched
  obtain rfl : websocket = isWebsocketUpgrade request.headers := hpassed.websocket
  rcases checkPairing_spec hpassed.pairing with ⟨route, rest, _, hmatch, hinPath, _⟩ | ⟨hinPath, _, hnone⟩
  · have hcapiRoute := (capi_of_pairingInPath route (matchRoute_spec hmatch).1).1.mp hinPath
    exact absurd (onCapi_of_matched hmatch hcapiRoute) hnot
  · obtain rfl : capiRest = none := hnone
    exact ⟨rfl, hinPath⟩

end

end AgentDesktop
