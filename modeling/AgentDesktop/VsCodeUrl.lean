import AgentDesktop.ProxyPaired
import AgentDesktop.SocketAddress
import AgentDesktop.VsCodeSettings

namespace AgentDesktop

/-- A text that parses as a socket address of this machine. -/
def isLoopbackSocket (authority : String) : Bool :=
  (parseSocketAddr (octets authority)).any (·.ip.isLoopback)

def overrideUrl (listen : SocketAddr) (pairing : String) : String :=
  "http://" ++ listen.display ++ capiRoute ++ "/" ++ pairing

/-- The path of an `http` URL, without its query and its fragment. -/
def urlPath (url : String) : String :=
  String.ofList (((url.toList.drop "http://".length).dropWhile (· ≠ '/')).takeWhile fun c => c ≠ '?' ∧ c ≠ '#')

theorem slash_notMem_toDigits (n : Nat) : '/' ∉ Nat.toDigits 10 n := by
  intro hmem
  have hdigit := Nat.isDigit_of_mem_toDigits (by omega) (by omega) hmem
  exact absurd hdigit (by decide)

theorem notMem_joinWith {c : Char} {separator : String} (hseparator : c ∉ separator.toList) {texts : List String}
    (htexts : ∀ text ∈ texts, c ∉ text.toList) : c ∉ (joinWith separator texts).toList := by
  fun_induction joinWith separator texts with
  | case1 => simp
  | case2 text => exact htexts text (by simp)
  | case3 text rest _ ih =>
    have hrest := ih fun text h => htexts text (by simp [h])
    have htext := htexts text (by simp)
    simp [hseparator, hrest, htext]

theorem slash_notMem_display {address : SocketAddr} (hloopback : address.ip.isLoopback = true) :
    '/' ∉ address.display.toList := by
  obtain ⟨ip, scopeId, port⟩ := address
  have hport := slash_notMem_toDigits port
  cases ip with
  | v4 octets =>
    have hip : '/' ∉ (displayIpv4 octets).toList := by
      refine notMem_joinWith (by decide) fun text htext => ?_
      obtain ⟨n, -, rfl⟩ := List.mem_map.mp htext
      simpa using slash_notMem_toDigits n
    simp [SocketAddr.display, hip, hport]
  | v6 groups =>
    obtain rfl : groups = [0, 0, 0, 0, 0, 0, 0, 1] := by simpa [IpAddr.isLoopback] using hloopback
    have hshown : displayIpv6 [0, 0, 0, 0, 0, 0, 0, 1] = "::1" := by decide
    have hscope := slash_notMem_toDigits scopeId
    by_cases hzero : scopeId = 0
    · simp [SocketAddr.display, hshown, hzero, hport]
    · simp [SocketAddr.display, hshown, hzero, hscope, hport]

theorem isLoopbackSocket_display {listen : SocketAddr} (hvalid : listen.valid = true)
    (hloopback : listen.ip.isLoopback = true) : isLoopbackSocket listen.display = true := by
  rw [isLoopbackSocket, parseSocketAddr_display hvalid hloopback]
  exact hloopback

theorem overrideUrl_toList (listen : SocketAddr) (pairing : String) : (overrideUrl listen pairing).toList =
    "http://".toList ++ (listen.display.toList ++ (capiRoute.toList ++ '/' :: pairing.toList)) := by
  simp [overrideUrl]

theorem capiRoute_toList (rest : List Char) :
    capiRoute.toList ++ rest = '/' :: ("vscode-copilot-capi".toList ++ rest) := by
  simp [capiRoute]

theorem takeWhile_authority {authority : List Char} (h : '/' ∉ authority) (rest : List Char) :
    (authority ++ '/' :: rest).takeWhile (· ≠ '/') = authority ∧
      (authority ++ '/' :: rest).dropWhile (· ≠ '/') = '/' :: rest := by
  have hall : ∀ c ∈ authority, (decide (c ≠ '/')) = true := by
    intro c hc
    exact decide_eq_true (ne_of_mem_of_not_mem hc h)
  rw [List.takeWhile_append_of_pos hall, List.dropWhile_append_of_pos hall]
  simp

theorem isDaemonCapiUrl_overrideUrl {listen : SocketAddr} (hvalid : listen.valid = true)
    (hloopback : listen.ip.isLoopback = true) {pairing : String} (hne : pairing ≠ "") :
    isDaemonCapiUrl isLoopbackSocket (overrideUrl listen pairing) = true := by
  have hsplit := takeWhile_authority (slash_notMem_display hloopback)
    ("vscode-copilot-capi".toList ++ '/' :: pairing.toList)
  obtain ⟨c, cs, hpairing⟩ := List.exists_cons_of_ne_nil (mt String.toList_eq_nil_iff.mp hne)
  have htail : ('/' :: ("vscode-copilot-capi".toList ++ '/' :: pairing.toList)).dropPrefix?
      "/vscode-copilot-capi".toList = some ('/' :: c :: cs) := by
    rw [hpairing, ← capiRoute_toList]
    exact List.dropPrefix?_append_of_beq ('/' :: c :: cs) (beq_self_eq_true capiRoute.toList)
  have hstart : (overrideUrl listen pairing).toList.dropPrefix? "http://".toList =
      some (listen.display.toList ++ '/' :: ("vscode-copilot-capi".toList ++ '/' :: pairing.toList)) := by
    rw [overrideUrl_toList, capiRoute_toList]
    exact List.dropPrefix?_append_of_beq _ (beq_self_eq_true "http://".toList)
  simp only [isDaemonCapiUrl, hstart, hsplit, htail, String.ofList_toList,
    isLoopbackSocket_display hvalid hloopback, Bool.true_or, Bool.and_self]

/-- The pairing is one segment, and ends neither the path nor the segment. -/
def isPairingSegment (pairing : String) : Prop :=
  pairing ≠ "" ∧ ∀ c ∈ pairing.toList, c ≠ '/' ∧ c ≠ '?' ∧ c ≠ '#'

theorem urlPath_overrideUrl {listen : SocketAddr} (hloopback : listen.ip.isLoopback = true) {pairing : String}
    (hpairing : isPairingSegment pairing) :
    urlPath (overrideUrl listen pairing) = capiRoute ++ "/" ++ pairing := by
  have hsplit := takeWhile_authority (slash_notMem_display hloopback)
    ("vscode-copilot-capi".toList ++ '/' :: pairing.toList)
  have hkept : (capiRoute.toList ++ '/' :: pairing.toList).takeWhile (fun c => decide (c ≠ '?' ∧ c ≠ '#')) =
      capiRoute.toList ++ '/' :: pairing.toList := by
    have hall : ∀ c ∈ capiRoute.toList ++ '/' :: pairing.toList, decide (c ≠ '?' ∧ c ≠ '#') = true := by
      intro c hc
      rw [List.mem_append, List.mem_cons] at hc
      rcases hc with hc | rfl | hc
      · have hroute : capiRoute.toList.all (fun c => decide (c ≠ '?' ∧ c ≠ '#')) = true := by decide
        exact List.all_eq_true.mp hroute c hc
      · rfl
      · exact decide_eq_true (hpairing.2 c hc).2
    have hself := @List.takeWhile_append_of_pos _ _ _ [] hall
    rwa [List.takeWhile_nil, List.append_nil] at hself
  have hdropped : (overrideUrl listen pairing).toList.drop "http://".length =
      listen.display.toList ++ (capiRoute.toList ++ '/' :: pairing.toList) := by
    rw [overrideUrl_toList]
    exact List.drop_left' rfl
  rw [urlPath, hdropped, capiRoute_toList, hsplit.2, ← capiRoute_toList, hkept]
  apply String.toList_injective
  simp

theorem matchPath_capi {rest : Octets} :
    capiProxyRoute.matchPath (octets capiRoute ++ octet '/' :: rest) = some (capiProxyRoute, octet '/' :: rest) := by
  have hstrip : stripPrefix (octets capiProxyRoute.pathPrefix) (octets capiRoute ++ octet '/' :: rest) =
      some (octet '/' :: rest) := stripPrefix_eq_some_iff.mpr rfl
  simp [ProxyRoute.matchPath, hstrip]

theorem matchPath_others (rest : Octets) : ∀ route ∈ routes, route ≠ capiProxyRoute →
    route.matchPath (octets capiRoute ++ octet '/' :: rest) = none := by
  intro route hroute hother
  simp only [routes, List.mem_cons, List.not_mem_nil, or_false] at hroute
  rcases hroute with rfl | rfl | rfl | rfl | rfl
  · rfl
  · rfl
  · exact absurd rfl hother
  · rfl
  · rfl

theorem findSome_unique {α β : Type} {f : α → Option β} {table : List α} {chosen : α} {found : β}
    (hmem : chosen ∈ table) (hchosen : f chosen = some found)
    (hothers : ∀ entry ∈ table, entry ≠ chosen → f entry = none) : table.findSome? f = some found := by
  cases hfind : table.findSome? f with
  | none =>
    have hnone := List.findSome?_eq_none_iff.mp hfind chosen hmem
    rw [hnone] at hchosen
    cases hchosen
  | some other =>
    obtain ⟨entry, hentry, hother⟩ := List.exists_of_findSome?_eq_some hfind
    by_cases hsame : entry = chosen
    · rw [hsame, hchosen] at hother
      exact hother.symm
    · rw [hothers entry hentry hsame] at hother
      cases hother

/-- A path goes to the CAPI route, whatever the order of the routes, and its pairing is found. -/
structure RoutedToCapi (pairing tail path : Octets) : Prop where
  matched : matchRoute path = some (capiProxyRoute, octet '/' :: (pairing ++ tail))
  anyOrder : ∀ table : List ProxyRoute, table.Perm routes →
    table.findSome? (·.matchPath path) = some (capiProxyRoute, octet '/' :: (pairing ++ tail))
  noOther : ∀ route ∈ routes, route ≠ capiProxyRoute → route.matchPath path = none
  paired : splitPathPairing (octet '/' :: (pairing ++ tail)) =
    some (pairing, if tail.isEmpty then [octet '/'] else tail)

theorem routedToCapi {pairing tail : Octets} (hne : pairing ≠ []) (hsegment : octet '/' ∉ pairing)
    (htail : tail = [] ∨ tail.head? = some (octet '/')) :
    RoutedToCapi pairing tail (octets capiRoute ++ octet '/' :: (pairing ++ tail)) where
  matched := findSome_unique (by simp [routes]) matchPath_capi (matchPath_others _)
  anyOrder table htable :=
    findSome_unique (htable.mem_iff.mpr (by simp [routes])) matchPath_capi
      fun route hroute => matchPath_others _ route (htable.mem_iff.mp hroute)
  noOther := matchPath_others _
  paired := splitPathPairing_eq hne hsegment htail

theorem host_before_colon {authority host : List Char} {c : Char}
    (h : authority.reverse.dropWhile (· ≠ ':') = c :: host) :
    ∃ port, authority = host.reverse ++ ':' :: port ∧ ':' ∉ port := by
  have hsplit := List.takeWhile_append_dropWhile (p := fun c : Char => decide (c ≠ ':')) (l := authority.reverse)
  have hne : authority.reverse.dropWhile (· ≠ ':') ≠ [] := h ▸ List.cons_ne_nil c host
  have hcolon := List.head_dropWhile_not (fun c : Char => decide (c ≠ ':')) hne
  have hport : ∀ d ∈ authority.reverse.takeWhile (· ≠ ':'), d ≠ ':' := by
    intro d hd
    exact of_decide_eq_true (List.all_eq_true.mp List.all_takeWhile d hd)
  simp only [h, List.head_cons] at hcolon
  obtain rfl : c = ':' := by simpa using hcolon
  refine ⟨(authority.reverse.takeWhile (· ≠ ':')).reverse, ?_, ?_⟩
  · rw [h] at hsplit
    have hreversed := congrArg List.reverse hsplit
    rw [List.reverse_append, List.reverse_cons, List.append_assoc, List.reverse_reverse] at hreversed
    exact hreversed.symm
  · intro hmem
    exact hport ':' (List.mem_reverse.mp hmem) rfl

/-- The values that pass for a URL of the daemon. -/
theorem isDaemonCapiUrl_spec {value : String} (h : isDaemonCapiUrl isLoopbackSocket value = true) :
    ∃ authority remainder, value = "http://" ++ authority ++ capiRoute ++ "/" ++ remainder ∧
      '/' ∉ authority.toList ∧ remainder ≠ "" ∧
      (isLoopbackSocket authority = true ∨
        ∃ host port, authority = host ++ ":" ++ port ∧ sameName host "localhost" = true ∧ ':' ∉ port.toList) := by
  unfold isDaemonCapiUrl at h
  split at h
  next => cases h
  next rest hrest =>
    obtain ⟨start, hvalue, hstart⟩ := List.dropPrefix?_eq_some_iff.mp hrest
    obtain rfl := eq_of_beq hstart
    have hslash : '/' ∉ rest.takeWhile (· ≠ '/') := by
      intro hmem
      have hkept := List.all_eq_true.mp List.all_takeWhile '/' hmem
      cases hkept
    have hsplit := List.takeWhile_append_dropWhile (p := fun c : Char => decide (c ≠ '/')) (l := rest)
    generalize rest.takeWhile (· ≠ '/') = authority at *
    simp only [Bool.and_eq_true, Bool.or_eq_true] at h
    obtain ⟨hhost, hpath⟩ := h
    split at hpath
    next c cs hdrop =>
      obtain ⟨route, hroute, hcapi⟩ := List.dropPrefix?_eq_some_iff.mp hdrop
      obtain rfl := eq_of_beq hcapi
      refine ⟨String.ofList authority, String.ofList (c :: cs), ?_, by simpa using hslash, by simp, ?_⟩
      · apply String.toList_injective
        rw [hvalue, ← hsplit, hroute]
        simp [capiRoute]
      · refine hhost.imp_right fun hlocal => ?_
        split at hlocal
        next => cases hlocal
        next d host hcolon =>
          obtain ⟨port, rfl, hport⟩ := host_before_colon hcolon
          refine ⟨String.ofList host.reverse, String.ofList port, ?_, hlocal, by simpa using hport⟩
          apply String.toList_injective
          simp
    next => cases hpath

/-- The URL that goes into the settings of VS Code is taken for the daemon's own, and its
requests come back to the CAPI route with their pairing. Only such URLs are taken for it. -/
theorem override_url_read_back :
    (∀ (listen : SocketAddr) (pairing : String), listen.valid = true → listen.ip.isLoopback = true →
      isPairingSegment pairing →
        isDaemonCapiUrl isLoopbackSocket (overrideUrl listen pairing) = true ∧
        ∀ tail : Octets, tail = [] ∨ tail.head? = some (octet '/') →
          RoutedToCapi (octets pairing) tail (octets (urlPath (overrideUrl listen pairing)) ++ tail)) ∧
    ∀ value : String, isDaemonCapiUrl isLoopbackSocket value = true →
      ∃ authority remainder, value = "http://" ++ authority ++ capiRoute ++ "/" ++ remainder ∧
        '/' ∉ authority.toList ∧ remainder ≠ "" ∧
        (isLoopbackSocket authority = true ∨
          ∃ host port, authority = host ++ ":" ++ port ∧ sameName host "localhost" = true ∧ ':' ∉ port.toList) := by
  refine ⟨fun listen pairing hvalid hloopback hpairing => ⟨?_, fun tail htail => ?_⟩, fun value => isDaemonCapiUrl_spec⟩
  · exact isDaemonCapiUrl_overrideUrl hvalid hloopback hpairing.1
  · have hne : octets pairing ≠ [] := fun hempty => hpairing.1 (octets_injective (hempty.trans (by decide)))
    have hsegment : octet '/' ∉ octets pairing := by
      intro hmem
      exact (hpairing.2 '/' (mem_of_octet_mem_octets (by decide) hmem)).1 rfl
    have hslash : octets "/" = [octet '/'] := by decide
    have hpath : octets (urlPath (overrideUrl listen pairing)) ++ tail =
        octets capiRoute ++ octet '/' :: (octets pairing ++ tail) := by
      rw [urlPath_overrideUrl hloopback hpairing, octets_append, octets_append, hslash]
      simp
    rw [hpath]
    exact routedToCapi hne hsegment htail

/-- The URL of a scoped address, its path with a request, and what is taken from it. -/
theorem override_url_read_back_scoped :
    let url := overrideUrl ⟨.v6 [0, 0, 0, 0, 0, 0, 0, 1], 3, 4100⟩ "x-y"
    isDaemonCapiUrl isLoopbackSocket url = true ∧
      RoutedToCapi (octets "x-y") (octets "/_ping") (octets (urlPath url) ++ octets "/_ping") ∧
      ∃ authority remainder, url = "http://" ++ authority ++ capiRoute ++ "/" ++ remainder ∧
        '/' ∉ authority.toList ∧ remainder ≠ "" ∧
        (isLoopbackSocket authority = true ∨
          ∃ host port, authority = host ++ ":" ++ port ∧ sameName host "localhost" = true ∧ ':' ∉ port.toList) := by
  have hsegment : "x-y".toList.all (fun c => decide (c ≠ '/' ∧ c ≠ '?' ∧ c ≠ '#')) = true := by decide
  obtain ⟨hurl, hrouted⟩ := override_url_read_back.1 ⟨.v6 [0, 0, 0, 0, 0, 0, 0, 1], 3, 4100⟩ "x-y" (by decide)
    (by decide) ⟨by decide, fun c hc => of_decide_eq_true (List.all_eq_true.mp hsegment c hc)⟩
  exact ⟨hurl, hrouted (octets "/_ping") (.inr (by decide)), override_url_read_back.2 _ hurl⟩

end AgentDesktop
