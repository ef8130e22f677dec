import AgentDesktop.PathSegments
import AgentDesktop.ProxyPaired

namespace AgentDesktop

/-- The URL of a gateway: scheme and host, and a path without a query and without dot
segments. -/
structure GatewayBase (base : String) (origin path : Octets) : Prop where
  text : octets base = origin ++ path
  host : ∀ o ∈ origin.getLast?, o ≠ octet '/'
  query : octet '?' ∉ path
  dotFree : ∀ segment ∈ segments path, segment ≠ octets "." ∧ segment ≠ octets ".."

def trimSlashes (path : Octets) : Octets :=
  trimEndMatches (· == octet '/') path

/-- The base of a request: that of its route, or the proxy's own. -/
def ProxyRequest.upstream (request : ProxyRequest) : Upstream :=
  match matchRoute request.path with
  | some (route, _) => route.upstream
  | none => .proxyUrl

/-- What of the path goes upstream. -/
def GatedRequest.rest (gated : GatedRequest) (path : Octets) : Octets :=
  match gated.matched with
  | some (_, rest) => gated.capiRest.getD rest
  | none => path

def queryText : Option Octets → Octets
  | some query => octet '?' :: query
  | none => []

/-- A path that is empty or starts with a slash, as every path but `*` does. -/
def Rooted (path : Octets) : Prop :=
  path = [] ∨ path.head? = some (octet '/')

/-- The forwarded path is the base and a suffix of the path, and it stays under the base. -/
structure UnderBase (basePath path forwarded : Octets) : Prop where
  suffix : ∃ rest, forwarded = trimSlashes basePath ++ rest ∧ (rest = [octet '/'] ∨ rest <:+ path ∧ Rooted rest)
  under : segments (trimSlashes basePath) <+: resolveSegments (segments forwarded)

section

variable {parseUri : Octets → Except String Uri} {config : ProxyConfig} {request : ProxyRequest}
  {environment : ProxyEnvironment} {gated : GatedRequest} {gateway : LlmGatewayConfig}

theorem upstreamUri_spec {base : String} {rest : Octets} {query : Option Octets} {uri : Uri}
    (h : upstreamUri parseUri base rest query = .ok uri) :
    parseUri (trimSlashes (octets base) ++ (rest ++ queryText query)) = .ok uri := by
  unfold upstreamUri at h
  dsimp only at h
  split at h
  next found hfound =>
    cases h
    cases query with
    | none => simpa [queryText, trimSlashes] using hfound
    | some query => simpa [queryText, trimSlashes] using hfound
  next => cases h

theorem GatedRequest.rest_of_matched {route : ProxyRoute} {rest : Octets} (h : gated.matched = some (route, rest))
    (path : Octets) : gated.rest path = gated.capiRest.getD rest := by
  rw [GatedRequest.rest, h]

theorem GatedRequest.rest_of_unmatched (h : gated.matched = none) (path : Octets) : gated.rest path = path := by
  rw [GatedRequest.rest, h]

theorem forwardTarget_spec {target : ForwardTarget} (hmatched : gated.matched = matchRoute request.path)
    (h : forwardTarget parseUri config gateway request.path request.query gated = .ok target) :
    parseUri (trimSlashes (octets (upstreamBase gateway request.upstream)) ++
      (gated.rest request.path ++ queryText request.query)) = .ok target.uri := by
  unfold forwardTarget at h
  unfold ProxyRequest.upstream
  rw [← hmatched]
  cases hroute : gated.matched with
  | some found =>
    obtain ⟨route, rest⟩ := found
    rw [hroute] at h
    rw [gated.rest_of_matched hroute]
    dsimp only at h ⊢
    split at h
    next => cases h
    next =>
      cases huri : upstreamUri parseUri (upstreamBase gateway route.upstream) (gated.capiRest.getD rest)
        request.query with
      | error error =>
        rw [huri] at h
        cases h
      | ok uri =>
        rw [huri] at h
        cases h
        exact upstreamUri_spec huri
  | none =>
    rw [hroute] at h
    rw [gated.rest_of_unmatched hroute]
    cases huri : upstreamUri parseUri (upstreamBase gateway .proxyUrl) request.path request.query with
    | error error =>
      rw [huri] at h
      cases h
    | ok uri =>
      rw [huri] at h
      cases h
      exact upstreamUri_spec huri

/-- The URI of a request that goes upstream. -/
theorem prepare_uri {effects : List ProxyEffect} {prepared : PreparedRequest}
    (hmatched : gated.matched = matchRoute request.path)
    (h : prepare parseUri config environment request gated = (effects, .ok prepared)) :
    ∃ effective gateway, environment.effectiveConfig = .ok effective ∧ effective.llmGateway = some gateway ∧
      parseUri (trimSlashes (octets (upstreamBase gateway request.upstream)) ++
        (gated.rest request.path ++ queryText request.query)) = .ok prepared.request.uri := by
  unfold prepare at h
  split at h
  next => cases h
  next effective heffective =>
    split at h
    next => cases h
    next gateway hgateway =>
      split at h
      next => cases h
      next target htarget =>
        split at h
        next => cases h
        next body _ =>
          dsimp only at h
          split at h
          next => cases h
          next token _ =>
            obtain ⟨_, hassemble⟩ := Prod.mk.inj h
            refine ⟨effective, gateway, heffective, hgateway, ?_⟩
            rw [assemble_spec hassemble]
            exact forwardTarget_spec hmatched htarget

end

theorem trimEndMatches_append {α : Type} {p : α → Bool} {start : List α}
    (h : ∀ x ∈ start.getLast?, p x = false) (text : List α) :
    trimEndMatches p (start ++ text) = start ++ trimEndMatches p text := by
  have hstart : start.reverse.dropWhile p = start.reverse := by
    cases hreverse : start.reverse with
    | nil => rfl
    | cons x rest =>
      have hlast : start.getLast? = some x := by
        rw [← List.head?_reverse, hreverse]
        rfl
      exact List.dropWhile_cons_of_neg (by simp [h x hlast])
  unfold trimEndMatches
  rw [List.reverse_append, List.dropWhile_append, hstart]
  split
  next hempty =>
    rw [List.isEmpty_iff.mp hempty]
    simp
  next => simp

/-- Trailing slashes hide no segments of a base. -/
theorem GatewayBase.segments_trimSlashes {base : String} {origin path : Octets} (h : GatewayBase base origin path) :
    ∀ segment ∈ segments (trimSlashes path), segment ≠ octets "." ∧ segment ≠ octets ".." := by
  intro segment hsegment
  obtain ⟨dropped, hpath, hslashes⟩ := trimEndMatches_spec (· == octet '/') path
  have hmem : segment ∈ segments path := by
    cases dropped with
    | nil =>
      rw [List.append_nil] at hpath
      exact hpath ▸ hsegment
    | cons o dropped =>
      obtain rfl : o = octet '/' := by simpa using hslashes o List.mem_cons_self
      rw [hpath, segments_append_slash]
      exact List.mem_append_left _ hsegment
  exact h.dotFree segment hmem

section

variable {config : ProxyConfig} {request : ProxyRequest} {gated : GatedRequest}

/-- What goes upstream of a rooted path: a slash alone, or what follows the prefix and the
pairing. -/
theorem GatePassed.rest_suffix (h : GatePassed config request gated) (hpath : Rooted request.path) :
    gated.rest request.path = [octet '/'] ∨
      gated.rest request.path <:+ request.path ∧ Rooted (gated.rest request.path) := by
  have hsuffix {start tail : Octets} (hstart : request.path = start ++ tail) (htail : Rooted tail) :
      (if tail.isEmpty then [octet '/'] else tail) = [octet '/'] ∨
        (if tail.isEmpty then [octet '/'] else tail) <:+ request.path ∧
          Rooted (if tail.isEmpty then [octet '/'] else tail) := by
    cases tail with
    | nil => exact Or.inl rfl
    | cons o tail => exact Or.inr ⟨⟨start, hstart.symm⟩, htail⟩
  cases hmatched : gated.matched with
  | none =>
    rw [gated.rest_of_unmatched hmatched]
    exact Or.inr ⟨List.suffix_rfl, hpath⟩
  | some pair =>
    obtain ⟨route, rest⟩ := pair
    obtain ⟨_, tail, htext, htail, hrest⟩ := matchRoute_spec (h.matched.symm.trans hmatched)
    have hpairing := checkPairing_spec h.pairing
    rw [hmatched] at hpairing
    rcases hpairing with ⟨route, _, remainder, hsome, _, hsplit, hcapi⟩ | ⟨_, _, hcapi⟩
    · obtain ⟨rfl, rfl⟩ := Prod.mk.inj (Option.some.inj hsome)
      obtain ⟨_, _, after, hslash, hafter, hremainder⟩ := splitPathPairing_spec hsplit
      rw [gated.rest_of_matched hmatched, hcapi, Option.getD_some, hremainder]
      cases tail with
      | nil =>
        simp only [List.isEmpty_nil, if_true] at hrest
        rw [hrest] at hslash
        obtain ⟨-, hnil⟩ := List.cons.inj hslash
        obtain ⟨-, rfl⟩ := List.append_eq_nil_iff.mp hnil.symm
        exact Or.inl rfl
      | cons o tail =>
        rw [List.isEmpty_cons, if_neg Bool.false_ne_true] at hrest
        rw [← hrest, hslash, ← List.singleton_append, ← List.append_assoc, ← List.append_assoc] at htext
        exact hsuffix htext hafter
    · rw [gated.rest_of_matched hmatched, hcapi, Option.getD_none, hrest]
      exact hsuffix htext htail

theorem GatePassed.rest_of_not_rooted (h : GatePassed config request gated) (hpath : ¬ Rooted request.path) :
    gated.rest request.path = request.path := by
  cases hmatched : gated.matched with
  | none => exact gated.rest_of_unmatched hmatched _
  | some pair =>
    obtain ⟨route, rest⟩ := pair
    obtain ⟨hroute, tail, htext, _, _⟩ := matchRoute_spec (h.matched.symm.trans hmatched)
    have hslash : ∀ route ∈ routes, (octets route.pathPrefix).head? = some (octet '/') := by decide
    have hhead : request.path.head? = some (octet '/') := by
      rw [htext, List.head?_append, hslash route hroute]
      rfl
    exact absurd (Or.inr hhead) hpath

/-- A request that passed the checks stays under its base just if its path is rooted. -/
theorem GatePassed.underBase_iff (h : GatePassed config request gated) {base : String} {origin basePath : Octets}
    (hbase : GatewayBase base origin basePath) :
    UnderBase basePath request.path (trimSlashes basePath ++ gated.rest request.path) ↔ Rooted request.path := by
  constructor
  · intro hunder
    by_contra hpath
    obtain ⟨rest, hforwarded, hrest⟩ := hunder.suffix
    have hsame : request.path = rest := by
      rw [h.rest_of_not_rooted hpath] at hforwarded
      exact List.append_cancel_left hforwarded
    rcases hrest with hslash | ⟨_, hrooted⟩
    · exact hpath (Or.inr (by rw [hsame, hslash]; rfl))
    · exact hpath (hsame ▸ hrooted)
  · intro hpath
    have hsuffix := h.rest_suffix hpath
    refine ⟨⟨_, rfl, hsuffix⟩, ?_⟩
    have hplain := resolveSegments_of_plain hbase.segments_trimSlashes
    cases hrest : gated.rest request.path with
    | nil =>
      have hsame : resolveSegments (segments (trimSlashes basePath ++ [])) = segments (trimSlashes basePath) := by
        rw [List.append_nil, hplain]
      exact ⟨[], (List.append_nil _).trans hsame.symm⟩
    | cons o text =>
      have hslash : o = octet '/' := by
        rw [hrest] at hsuffix
        rcases hsuffix with heq | ⟨_, hrooted⟩
        · exact (List.cons.inj heq).1
        · rcases hrooted with hnil | hhead
          · cases hnil
          · exact Option.some.inj hhead
      subst hslash
      have hnone : octets ".." ∉ segments text := by
        rw [hrest] at hsuffix
        rcases hsuffix with heq | ⟨⟨start, hstart⟩, _⟩
        · rw [(List.cons.inj heq).2]
          decide
        · exact segments_suffix h.escapes hstart.symm
      have hunder : resolveSegments (segments (trimSlashes basePath)) <+: _ := resolveSegments_append hnone
      rw [hplain] at hunder
      rw [segments_append_slash]
      exact hunder

theorem GatePassed.query_not_mem (h : GatePassed config request gated) {base : String} {origin basePath : Octets}
    (hbase : GatewayBase base origin basePath) :
    octet '?' ∉ trimSlashes basePath ++ gated.rest request.path := by
  intro hmem
  rcases List.mem_append.mp hmem with hmem | hmem
  · obtain ⟨dropped, hpath, _⟩ := trimEndMatches_spec (· == octet '/') basePath
    exact hbase.query (hpath ▸ List.mem_append_left _ hmem)
  · have hquery : octet '?' ∉ request.path := splitQuery_path _
    by_cases hpath : Rooted request.path
    · rcases h.rest_suffix hpath with hslash | ⟨hsuffix, _⟩
      · rw [hslash] at hmem
        revert hmem
        decide
      · exact hquery (hsuffix.subset hmem)
    · rw [h.rest_of_not_rooted hpath] at hmem
      exact hquery hmem

end

/-- The forwarded path of a request that is sent upstream is under the base of its route just
if the path of the request is rooted. A path with a malformed escape is refused. -/
theorem routes_confined_iff (parseUri : Octets → Except String Uri) (config : ProxyConfig) (request : ProxyRequest) :
    (∀ inputs s sent, forward parseUri config request inputs = some s → .send sent ∈ s.effects →
      ∃ environment effective gateway, .prepare environment ∈ inputs ∧
        environment.effectiveConfig = .ok effective ∧ effective.llmGateway = some gateway ∧
        ∀ origin basePath, GatewayBase (upstreamBase gateway request.upstream) origin basePath →
          ∃ forwarded, parseUri (origin ++ (forwarded ++ queryText request.query)) = .ok sent.uri ∧
            octet '?' ∉ forwarded ∧ (UnderBase basePath request.path forwarded ↔ Rooted request.path)) ∧
    (MalformedEscape request.path → ∃ error, gate config request = .error error) := by
  constructor
  · intro inputs s sent hrun hsent
    have h : Underway parseUri config request (fun environment => .prepare environment ∈ inputs) s :=
      underway_of_forward (fun _ hmem => hmem) hrun
    obtain ⟨prepared, ⟨environment, gated, effects, hinput, hgate, hprepare⟩, hsends⟩ := h.sends sent hsent
    have hpassed := gate_spec hgate
    obtain ⟨effective, gateway, heffective, hgateway, huri⟩ := prepare_uri hpassed.matched hprepare
    have hsame : sent.uri = prepared.request.uri := by
      rcases hsends with rfl | ⟨value, rfl⟩ <;> rfl
    refine ⟨environment, effective, gateway, hinput, heffective, hgateway, fun origin basePath hbase => ?_⟩
    refine ⟨trimSlashes basePath ++ gated.rest request.path, ?_, hpassed.query_not_mem hbase,
      hpassed.underBase_iff hbase⟩
    have htrim : trimSlashes (octets (upstreamBase gateway request.upstream)) = origin ++ trimSlashes basePath := by
      rw [hbase.text]
      exact trimEndMatches_append (fun o ho => by simpa using hbase.host o ho) basePath
    rw [hsame, ← huri, htrim, List.append_assoc, List.append_assoc]
  · intro hmalformed
    cases hgate : gate config request with
    | error error => exact ⟨error, rfl⟩
    | ok gated =>
      obtain ⟨decoded, hdecoded, _⟩ := pathEscapesBase_eq_false_iff.mp (gate_spec hgate).escapes
      rw [percentDecode_malformed hmalformed] at hdecoded
      cases hdecoded

/-- A request for `*`, which no route prefix matches. -/
def starRequest : ProxyRequest where
  method := .get
  pathAndQuery := some (octets "*")
  headers := (HeaderMap.insert {} hostHeader (octets "127.0.0.1:1455")).insert pairingHeader (octets "paired")
  body := .ok []

theorem copilotGateway_base :
    GatewayBase "http://gateway/copilot" (octets "http://gateway") (octets "/copilot") :=
  ⟨by decide +kernel, by decide +kernel, by decide +kernel, by decide +kernel⟩

theorem routes_confined_ping :
    ∃ forwarded, gatewayUri (octets "http://gateway" ++ (forwarded ++ queryText none)) =
        .ok ⟨octets "http://gateway/copilot/_ping", some (octets "gateway")⟩ ∧
      UnderBase (octets "/copilot") capiPing.path forwarded := by
  obtain ⟨environment, effective, gateway, hinput, heffective, hgateway, h⟩ :=
    (routes_confined_iff gatewayUri ⟨"default", octets "paired"⟩ capiPing).1 [.prepare openGateway] _ _ rfl
      (List.mem_cons_of_mem _ List.mem_cons_self)
  obtain rfl : environment = openGateway := by simpa using hinput
  cases heffective
  cases hgateway
  obtain ⟨forwarded, huri, _, hunder⟩ := h (octets "http://gateway") (octets "/copilot") copilotGateway_base
  exact ⟨forwarded, huri, hunder.mpr (Or.inr (by decide))⟩

theorem star_leaves_base :
    ∃ s sent, forward gatewayUri ⟨"default", octets "paired"⟩ starRequest [.prepare openGateway] = some s ∧
      .send sent ∈ s.effects ∧ sent.uri.text = octets "http://gateway" ++ octets "/copilot*" ∧
      GatewayBase "http://gateway/copilot" (octets "http://gateway") (octets "/copilot") ∧
      ¬ UnderBase (octets "/copilot") starRequest.path (octets "/copilot*") ∧
      ¬ segments (octets "/copilot") <+: resolveSegments (segments (octets "/copilot*")) := by
  have hout : ¬ segments (octets "/copilot") <+: resolveSegments (segments (octets "/copilot*")) := by decide
  refine ⟨_, _, rfl, List.mem_cons_of_mem _ List.mem_cons_self, by decide, copilotGateway_base, ?_, hout⟩
  exact fun hunder => hout hunder.under

end AgentDesktop
