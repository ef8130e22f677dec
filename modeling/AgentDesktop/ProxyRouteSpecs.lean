import AgentDesktop.ProxyRoutes

namespace AgentDesktop

theorem trimEndMatches_spec {α : Type} (p : α → Bool) (text : List α) :
    ∃ dropped, text = trimEndMatches p text ++ dropped ∧ ∀ x ∈ dropped, p x = true := by
  refine ⟨(text.reverse.takeWhile p).reverse, ?_, ?_⟩
  · rw [trimEndMatches, ← List.reverse_append, List.takeWhile_append_dropWhile, List.reverse_reverse]
  · intro x hx
    exact List.all_eq_true.mp List.all_takeWhile x (List.mem_reverse.mp hx)

theorem foldl_xor_eq_zero (pairs : List (UInt8 × UInt8)) (acc : UInt8) :
    pairs.foldl (fun acc pair => acc ||| (pair.1 ^^^ pair.2)) acc = 0 ↔
      acc = 0 ∧ ∀ pair ∈ pairs, pair.1 = pair.2 := by
  induction pairs generalizing acc with
  | nil => simp
  | cons pair pairs ih =>
    rw [List.foldl_cons, ih, UInt8.or_eq_zero_iff, UInt8.xor_eq_zero_iff]
    simp [and_assoc]

/-- The comparison in constant time is equality. -/
theorem constantTimeEq_iff {a b : Octets} : constantTimeEq a b = true ↔ a = b := by
  unfold constantTimeEq
  split
  next hlength =>
    rw [beq_iff_eq, foldl_xor_eq_zero]
    constructor
    · rintro ⟨_, hpairs⟩
      refine List.ext_getElem hlength fun i hi hj => ?_
      have hmem : (a[i], b[i]) ∈ a.zip b := by
        have hi' : i < (a.zip b).length := by
          rw [List.length_zip]
          exact Nat.lt_min.mpr ⟨hi, hj⟩
        rw [← List.getElem_zip (h := hi')]
        exact List.getElem_mem hi'
      exact hpairs _ hmem
    · rintro rfl
      refine ⟨rfl, fun pair hpair => ?_⟩
      rw [List.zip_eq_zipWith, List.zipWith_self, List.mem_map] at hpair
      obtain ⟨x, _, rfl⟩ := hpair
      rfl
  next hlength =>
    constructor
    · nofun
    · rintro rfl
      exact absurd rfl hlength

/-- A name a `Host` value can stand for: what is in its brackets, what is before its
only `:`, or the whole of it. -/
def IsHostName (host name : Octets) : Prop :=
  (∃ port, host = octet '[' :: (name ++ octet ']' :: port) ∧ (port = [] ∨ port.head? = some (octet ':'))) ∨
    (∃ port, host = name ++ octet ':' :: port ∧ octet ':' ∉ name ∧ octet ':' ∉ port) ∨
    host = name

/-- A loopback address, or `localhost` in any case and with any dots after it. -/
def IsLocal (name : Octets) : Prop :=
  (∃ ip, parseIpAddr name = some ip ∧ ip.isLoopback = true) ∨
    ∃ host dots, name = host ++ dots ∧ (∀ o ∈ dots, o = octet '.') ∧ toAsciiLowercase host = octets "localhost"

theorem hostName_spec {host name : Octets} (h : hostName host = some name) : IsHostName host name := by
  unfold hostName at h
  split at h
  next rest hbracket =>
    have hhost : host = octet '[' :: rest := stripPrefix_eq_some_iff.mp hbracket
    split at h
    next found port hsplit =>
      split at h
      next hport =>
        cases h
        obtain ⟨rfl, _⟩ := splitOnce_eq_some_iff.mp hsplit
        refine Or.inl ⟨port, hhost, ?_⟩
        simpa using hport
      next => cases h
    next => cases h
  next =>
    split at h
    next =>
      cases h
      exact Or.inr (Or.inr rfl)
    next hcount =>
      split at h
      next found port hsplit =>
        cases h
        obtain ⟨rfl, hport⟩ := rsplitOnce_eq_some_iff.mp hsplit
        refine Or.inr (Or.inl ⟨port, rfl, ?_, hport⟩)
        rw [List.count_append, List.count_cons_self] at hcount
        exact List.count_eq_zero.mp (by omega)
      next =>
        cases h
        exact Or.inr (Or.inr rfl)

theorem hostIsLoopback_spec {headers : HeaderMap} (h : hostIsLoopback headers = true) :
    ∃ host name, headers.get hostHeader = some host ∧ IsHostName (trim host) name ∧ IsLocal name := by
  unfold hostIsLoopback at h
  split at h
  next => cases h
  next text htext =>
    obtain ⟨host, hhost, hstr⟩ := Option.bind_eq_some_iff.mp htext
    have hsame : text = host := by
      unfold toStr at hstr
      split at hstr
      next => exact (Option.some.inj hstr).symm
      next => cases hstr
    subst hsame
    split at h
    next => cases h
    next name hname =>
      refine ⟨text, name, hhost, hostName_spec hname, ?_⟩
      split at h
      next ip hip => exact Or.inl ⟨ip, hip, h⟩
      next =>
        obtain ⟨dots, hdots, hdot⟩ := trimEndMatches_spec (· == octet '.') name
        have hname : toAsciiLowercase (trimEndMatches (· == octet '.') name) = octets "localhost" :=
          (beq_iff_eq.mp h).trans (by decide)
        exact Or.inr ⟨_, dots, hdots, fun o ho => by simpa using hdot o ho, hname⟩

/-- A path that does not escape has no `..` between its separators once decoded. -/
theorem pathEscapesBase_eq_false_iff {path : Octets} :
    pathEscapesBase path = false ↔
      ∃ decoded, percentDecode path = some decoded ∧ octets ".." ∉ decoded.splitOnP isPathSeparator := by
  unfold pathEscapesBase
  cases percentDecode path with
  | none => simp
  | some decoded =>
    rw [List.any_eq_false]
    constructor
    · intro h
      exact ⟨decoded, rfl, fun hmem => by simpa using h _ hmem⟩
    · rintro ⟨_, ⟨⟩, hnot⟩ segment hmem heq
      exact hnot (eq_of_beq heq ▸ hmem)

theorem firstSegment_eq {slashes first rest : Octets} (hslashes : ∀ o ∈ slashes, o = octet '/')
    (hne : first ≠ []) (hfirst : octet '/' ∉ first) (hrest : rest = [] ∨ rest.head? = some (octet '/')) :
    firstSegment (slashes ++ (first ++ rest)) = first := by
  have hinside : ∀ o ∈ first, (o != octet '/') = true := by
    intro o ho
    simp only [bne_iff_ne]
    rintro rfl
    exact hfirst ho
  have htrim : trimStartMatches (· == octet '/') (slashes ++ (first ++ rest)) = first ++ rest := by
    rw [trimStartMatches, List.dropWhile_append_of_pos (fun o ho => by simp [hslashes o ho])]
    cases first with
    | nil => exact absurd rfl hne
    | cons o first =>
      have ho : (o == octet '/') = false := by simpa using hinside o List.mem_cons_self
      simp [ho]
  rw [firstSegment, htrim, List.takeWhile_append_of_pos hinside]
  rcases hrest with rfl | hrest
  · simp
  · cases rest with
    | nil => simp
    | cons o rest =>
      cases hrest
      simp

/-- The first segment of a path that resembles no route does not start with the name of one. -/
theorem resemblesRoute_eq_false {slashes first rest : Octets}
    (h : resemblesRoute (slashes ++ (first ++ rest)) = false) (hslashes : ∀ o ∈ slashes, o = octet '/')
    (hne : first ≠ []) (hfirst : octet '/' ∉ first) (hrest : rest = [] ∨ rest.head? = some (octet '/')) :
    ∀ route ∈ routes, ¬ route.name <+: toAsciiLowercase first := by
  intro route hroute hpath
  have hlower : (toAsciiLowercase first).isEmpty = false := by
    cases first with
    | nil => exact absurd rfl hne
    | cons o first => rfl
  simp only [resemblesRoute, firstSegment_eq hslashes hne hfirst hrest, hlower, Bool.not_false, Bool.true_and] at h
  have hany := List.any_eq_false.mp h route hroute
  simp [hpath] at hany

theorem splitPathPairing_spec {rest segment remainder : Octets}
    (h : splitPathPairing rest = some (segment, remainder)) :
    segment ≠ [] ∧ octet '/' ∉ segment ∧
      ∃ tail, rest = octet '/' :: (segment ++ tail) ∧ (tail = [] ∨ tail.head? = some (octet '/')) ∧
        remainder = if tail.isEmpty then [octet '/'] else tail := by
  unfold splitPathPairing at h
  split at h
  next => cases h
  next withoutSlash hstrip =>
    have hrest : rest = octet '/' :: withoutSlash := stripPrefix_eq_some_iff.mp hstrip
    split at h
    next found after hsplit =>
      obtain ⟨rfl, hnot⟩ := splitOnce_eq_some_iff.mp hsplit
      split at h
      next => cases h
      next hempty =>
        cases h
        exact ⟨by simpa using hempty, hnot, _, hrest, Or.inr rfl, rfl⟩
    next hsplit =>
      split at h
      next => cases h
      next hempty =>
        cases h
        exact ⟨by simpa using hempty, splitOnce_eq_none_iff.mp hsplit, [], by simpa using hrest, Or.inl rfl, rfl⟩

theorem splitPathPairing_eq {segment tail : Octets} (hne : segment ≠ []) (hsegment : octet '/' ∉ segment)
    (htail : tail = [] ∨ tail.head? = some (octet '/')) :
    splitPathPairing (octet '/' :: (segment ++ tail)) =
      some (segment, if tail.isEmpty then [octet '/'] else tail) := by
  have hempty : segment.isEmpty = false := by simpa using hne
  have hstrip : stripPrefix [octet '/'] (octet '/' :: (segment ++ tail)) = some (segment ++ tail) :=
    stripPrefix_eq_some_iff.mpr rfl
  unfold splitPathPairing
  rw [hstrip]
  cases tail with
  | nil =>
    have hnone : splitOnce (octet '/') (segment ++ []) = none := splitOnce_eq_none_iff.mpr (by simpa using hsegment)
    rw [List.append_nil] at hnone ⊢
    simp [hnone, hne]
  | cons o tail =>
    obtain rfl : o = octet '/' := by simpa using htail
    have hsome : splitOnce (octet '/') (segment ++ octet '/' :: tail) = some (segment, tail) :=
      splitOnce_eq_some_iff.mpr ⟨rfl, hsegment⟩
    simp [hsome, hempty]

theorem matchRoute_spec {path rest : Octets} {route : ProxyRoute} (h : matchRoute path = some (route, rest)) :
    route ∈ routes ∧ ∃ tail, path = octets route.pathPrefix ++ tail ∧
      (tail = [] ∨ tail.head? = some (octet '/')) ∧ rest = if tail.isEmpty then [octet '/'] else tail := by
  obtain ⟨found, hfound, hmatch⟩ := List.exists_of_findSome?_eq_some h
  unfold ProxyRoute.matchPath at hmatch
  split at hmatch
  next => cases hmatch
  next tail hstrip =>
    have hpath := stripPrefix_eq_some_iff.mp hstrip
    split at hmatch
    next hempty =>
      cases hmatch
      exact ⟨hfound, tail, hpath, Or.inl (by simpa using hempty), by simp [hempty]⟩
    next hempty =>
      split at hmatch
      next hslash =>
        cases hmatch
        exact ⟨hfound, rest, hpath, Or.inr (by simpa using hslash), by simp [hempty]⟩
      next => cases hmatch

/-- Only the CAPI route has the pairing in its path and tunnels upgrades. -/
theorem capi_of_pairingInPath : ∀ route ∈ routes, (route.pairingInPath = true ↔ route.pathPrefix = capiRoute) ∧
    (route.tunnelsUpgrades = true ↔ route.pathPrefix = capiRoute) := by
  decide

end AgentDesktop
