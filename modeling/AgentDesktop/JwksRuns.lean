import AgentDesktop.JwksCache

namespace AgentDesktop

section

variable {Material : Type}

/-- A call that has not missed its key. -/
def KeyPhase.unfailed : KeyPhase Material → Bool
  | .looking => true
  | .returned (.ok _) => true
  | .dropped => true
  | _ => false

variable (cooldown : Nat)

/-- One call is behind the gate, and the fetches are apart. -/
structure Gated (s : JwksCache Material) : Prop where
  gate : s.calls.countP (fun call => call.phase.holdsGate) = s.gate.toNat
  apart : s.fetches.Pairwise fun first second => first.2 + cooldown ≤ second.2
  last : ∀ fetch ∈ s.fetches, ∃ lastAttempt, s.lastAttempt = some lastAttempt ∧ fetch.2 ≤ lastAttempt
  past : ∀ lastAttempt, s.lastAttempt = some lastAttempt → lastAttempt ≤ s.now
  begun : ∀ fetch ∈ s.fetches, fetch.1 < s.calls.length

/-- The refreshes are single and rate limited, the key set is what the last successful one
fetched, and a call returns a key of the set; a call that has its key there throughout neither
fetches nor fails. -/
structure SingleFlight (s : JwksCache Material) : Prop where
  single : s.calls.countP (fun call => call.phase.isFetching) ≤ 1
  apart : s.fetches.Pairwise fun first second => first.2 + cooldown ≤ second.2
  keys : ∀ action t, s.allowed action = true → s.step cooldown action = some t →
    t.keys = s.keys ∨ ∃ index keys, action = .fetched index (.ok keys)
  refreshed : ∀ index keys t, s.step cooldown (.fetched index (.ok keys)) = some t → t.keys = keys
  answers : ∀ action t, s.allowed action = true → s.step cooldown action = some t → ∀ (index : Nat) kid key,
    t.calls[index]? = some ⟨kid, .returned (.ok key)⟩ →
    s.calls[index]? = some ⟨kid, .returned (.ok key)⟩ ∨ key.keyId = some kid ∧ key ∈ t.keys
  present : ∀ kid begun rest last, s.step cooldown (.call kid) = some begun →
    execute (JwksCache.step cooldown)
      (fun state action => state.allowed action && (state.cachedKey kid).isSome) rest begun = some last →
    (∃ phase, last.calls[s.calls.length]? = some ⟨kid, phase⟩ ∧ phase.unfailed = true) ∧
      ∀ fetch ∈ last.fetches, fetch.1 ≠ s.calls.length

variable {cooldown} {s t : JwksCache Material} {action : KeyAction Material}

theorem holdsGate_of_isFetching {phase : KeyPhase Material} (h : phase.isFetching = true) : phase.holdsGate = true := by
  cases phase with
  | looking => cases h
  | waiting => cases h
  | checking => rfl
  | fetching => rfl
  | returned => cases h
  | dropped => cases h

theorem findKey_spec {keys : List (Jwk Material)} {kid : String} {key : Jwk Material}
    (h : findKey keys kid = some key) : key.keyId = some kid ∧ key ∈ keys := by
  unfold findKey at h
  have hkid := List.find?_some h
  exact ⟨eq_of_beq hkid, List.mem_of_find?_eq_some h⟩

namespace Gated

/-- The calls behind the gate when one moves on. -/
theorem gate_set (h : Gated cooldown s) {index : Nat} {call : KeyCall Material} (hcall : s.calls[index]? = some call)
    (phase : KeyPhase Material) {gate : Bool}
    (hgate : s.gate.toNat + phase.holdsGate.toNat = gate.toNat + call.phase.holdsGate.toNat) :
    (s.calls.set index { call with phase }).countP (fun call => call.phase.holdsGate) = gate.toNat := by
  have hcount := countP_set_at hcall { call with phase } fun call => call.phase.holdsGate
  have hbefore := h.gate
  simp only at hcount
  omega

theorem begun_set (h : Gated cooldown s) (index : Nat) (next : KeyCall Material) :
    ∀ fetch ∈ s.fetches, fetch.1 < (s.calls.set index next).length := by
  intro fetch hfetch
  rw [List.length_set]
  exact h.begun fetch hfetch

theorem finish (h : Gated cooldown s) {index : Nat} {call : KeyCall Material} (hcall : s.calls[index]? = some call)
    {phase : KeyPhase Material} (hfree : phase.holdsGate = false) (keys : List (Jwk Material)) :
    Gated cooldown ({ s with keys }.finish index call phase) := by
  refine { h with gate := h.gate_set hcall phase ?_, begun := h.begun_set index _ }
  simp only [JwksCache.finish, hfree]
  cases hholds : call.phase.holdsGate with
  | false => rw [Bool.not_false, Bool.and_true]
  | true =>
    have hheld : 0 < s.gate.toNat := by
      rw [← h.gate]
      exact List.countP_pos_iff.mpr ⟨call, List.mem_of_getElem? hcall, hholds⟩
    have hbound : s.gate.toNat ≤ 1 := Bool.toNat_le _
    simp only [Bool.not_true, Bool.and_false, Bool.toNat_true, Bool.toNat_false]
    omega

theorem step (h : Gated cooldown s) (hstep : KeyStep cooldown s action t) : Gated cooldown t := by
  cases hstep with
  | ticked later forward =>
    exact { h with past := fun lastAttempt hlast => Nat.le_trans (h.past lastAttempt hlast) forward }
  | called kid =>
    refine { h with gate := ?_, begun := fun fetch hfetch => ?_ }
    · rw [List.countP_append, List.countP_singleton]
      exact h.gate
    · have hbegun := h.begun fetch hfetch
      simp only [List.length_append, List.length_singleton]
      omega
  | queued hcall => exact { h with gate := h.gate_set hcall .waiting rfl, begun := h.begun_set _ _ }
  | locked hcall free =>
    refine { h with gate := h.gate_set hcall .checking ?_, begun := h.begun_set _ _ }
    rw [free]
    rfl
  | @started index kid hcall cool =>
    have hindex := (List.getElem?_eq_some_iff.mp hcall).1
    refine ⟨?_, ?_, fun fetch hfetch => ⟨s.now, rfl, ?_⟩, fun _ hlast => ?_, fun fetch hfetch => ?_⟩
    · exact h.gate_set hcall .fetching rfl
    · refine List.pairwise_append.mpr ⟨h.apart, List.pairwise_singleton _ _, fun fetch hfetch next hnext => ?_⟩
      obtain ⟨lastAttempt, hlast, hbefore⟩ := h.last fetch hfetch
      have hpast := h.past lastAttempt hlast
      simp only [JwksCache.coolingDown, hlast, Option.any_some, decide_eq_false_iff_not] at cool
      rw [List.mem_singleton.mp hnext]
      simp only
      omega
    · rcases List.mem_append.mp hfetch with hold | hnew
      · obtain ⟨lastAttempt, hlast, hbefore⟩ := h.last fetch hold
        exact Nat.le_trans hbefore (h.past lastAttempt hlast)
      · cases List.mem_singleton.mp hnew
        exact Nat.le_refl s.now
    · cases hlast
      exact Nat.le_refl _
    · rcases List.mem_append.mp hfetch with hold | hnew
      · exact h.begun_set _ _ fetch hold
      · rw [List.mem_singleton.mp hnew]
        simpa only [JwksCache.setPhase, List.length_set] using hindex
  | answered hcall keys => exact h.finish hcall rfl keys
  | failed hcall _ keys => exact h.finish hcall rfl keys
  | cancelled hcall => exact h.finish hcall rfl s.keys

end Gated

theorem KeyStep.keys (hstep : KeyStep cooldown s action t) :
    t.keys = s.keys ∨ ∃ index keys, action = .fetched index (.ok keys) := by
  have hrefreshes : ∀ {index : Nat} {keys : List (Jwk Material)}, keys = s.keys ∨ action = .fetched index (.ok keys) →
      keys = s.keys ∨ ∃ index keys, action = .fetched index (.ok keys) := by
    intro index keys hkeys
    exact hkeys.imp_right fun haction => ⟨index, keys, haction⟩
  cases hstep with
  | ticked => exact Or.inl rfl
  | called => exact Or.inl rfl
  | queued => exact Or.inl rfl
  | locked => exact Or.inl rfl
  | started => exact Or.inl rfl
  | answered _ _ _ refreshes => exact hrefreshes refreshes
  | failed _ _ _ _ refreshes => exact hrefreshes refreshes
  | cancelled => exact Or.inl rfl

theorem fetched_keys {index : Nat} {keys : List (Jwk Material)} (h : s.fetched index (.ok keys) = some t) :
    t.keys = keys := by
  unfold JwksCache.fetched at h
  split at h
  next =>
    dsimp only at h
    split at h
    next =>
      cases h
      rfl
    next =>
      cases h
      rfl
  next => cases h

/-- A call gets a key only where it is found in the key set. -/
theorem KeyStep.answers (hstep : KeyStep cooldown s action t) {position : Nat} {kid : String} {key : Jwk Material}
    (h : t.calls[position]? = some ⟨kid, .returned (.ok key)⟩) :
    s.calls[position]? = some ⟨kid, .returned (.ok key)⟩ ∨ key.keyId = some kid ∧ key ∈ t.keys := by
  have hset : ∀ {index : Nat} {next : KeyCall Material}, (∀ key, next.phase ≠ .returned (.ok key)) →
      (s.calls.set index next)[position]? = some ⟨kid, .returned (.ok key)⟩ →
      s.calls[position]? = some ⟨kid, .returned (.ok key)⟩ := by
    intro index next hother hposition
    by_cases hsame : index = position
    · rw [hsame] at hposition
      obtain ⟨hbound, _⟩ := List.getElem?_eq_some_iff.mp hposition
      rw [List.length_set] at hbound
      rw [List.getElem?_set_self hbound] at hposition
      cases hposition
      exact absurd rfl (hother key)
    · rw [List.getElem?_set_ne hsame] at hposition
      exact hposition
  cases hstep with
  | ticked => exact Or.inl h
  | called other =>
    by_cases hposition : position < s.calls.length
    · rw [List.getElem?_append_left hposition] at h
      exact Or.inl h
    · have hlast : position - s.calls.length = 0 := by
        obtain ⟨hbound, _⟩ := List.getElem?_eq_some_iff.mp h
        rw [List.length_append, List.length_singleton] at hbound
        omega
      rw [List.getElem?_append_right (by omega), hlast] at h
      cases h
  | queued => exact Or.inl (hset (by simp) h)
  | locked => exact Or.inl (hset (by simp) h)
  | started => exact Or.inl (hset (by simp) h)
  | @answered index call hcall other keys found =>
    by_cases hsame : index = position
    · have hbound := (List.getElem?_eq_some_iff.mp hcall).1
      rw [← hsame] at h
      simp only [JwksCache.finish, JwksCache.setPhase, List.getElem?_set_self hbound] at h
      cases h
      exact Or.inr (findKey_spec found)
    · simp only [JwksCache.finish, JwksCache.setPhase, List.getElem?_set_ne hsame] at h
      exact Or.inl h
  | failed => exact Or.inl (hset (by simp) h)
  | cancelled => exact Or.inl (hset (by simp) h)

/-- A call whose key is in the set is not sent to the gate. -/
theorem KeyStep.present (hstep : KeyStep cooldown s action t) {position : Nat} {kid : String}
    (hkey : (s.cachedKey kid).isSome = true)
    (h : (∃ phase, s.calls[position]? = some ⟨kid, phase⟩ ∧ phase.unfailed = true) ∧
      ∀ fetch ∈ s.fetches, fetch.1 ≠ position) :
    (∃ phase, t.calls[position]? = some ⟨kid, phase⟩ ∧ phase.unfailed = true) ∧
      ∀ fetch ∈ t.fetches, fetch.1 ≠ position := by
  obtain ⟨⟨phase, hphase, hunfailed⟩, hnever⟩ := h
  have hother : ∀ {index : Nat} {call next : KeyCall Material}, s.calls[index]? = some call →
      call.phase.unfailed = false → index ≠ position ∧ ∃ phase,
        (s.calls.set index next)[position]? = some ⟨kid, phase⟩ ∧ phase.unfailed = true := by
    intro index call next hcall hfailed
    have hne : index ≠ position := by
      intro hsame
      rw [hsame, hphase] at hcall
      cases hcall
      cases hunfailed.symm.trans hfailed
    exact ⟨hne, phase, (List.getElem?_set_ne hne).trans hphase, hunfailed⟩
  have hends : ∀ {index : Nat} {call : KeyCall Material} {next : KeyPhase Material}, s.calls[index]? = some call →
      next.unfailed = true → ∃ phase,
        (s.calls.set index { call with phase := next })[position]? = some ⟨kid, phase⟩ ∧ phase.unfailed = true := by
    intro index call next hcall hnext
    by_cases hsame : index = position
    · rw [hsame, hphase] at hcall
      cases hcall
      have hbound := (List.getElem?_eq_some_iff.mp hphase).1
      exact ⟨next, by rw [hsame, List.getElem?_set_self hbound], hnext⟩
    · exact ⟨phase, (List.getElem?_set_ne hsame).trans hphase, hunfailed⟩
  cases hstep with
  | ticked => exact ⟨⟨phase, hphase, hunfailed⟩, hnever⟩
  | called =>
    have hbound := (List.getElem?_eq_some_iff.mp hphase).1
    exact ⟨⟨phase, (List.getElem?_append_left hbound).trans hphase, hunfailed⟩, hnever⟩
  | @queued index other hcall missing =>
    refine ⟨⟨phase, ?_, hunfailed⟩, hnever⟩
    have hne : index ≠ position := by
      intro hsame
      rw [hsame, hphase] at hcall
      cases hcall
      rw [missing] at hkey
      cases hkey
    exact (List.getElem?_set_ne hne).trans hphase
  | locked hcall => exact ⟨(hother hcall rfl).2, hnever⟩
  | started hcall =>
    obtain ⟨hne, hkept⟩ := hother hcall rfl
    refine ⟨hkept, fun fetch hfetch => ?_⟩
    rcases List.mem_append.mp hfetch with hold | hnew
    · exact hnever fetch hold
    · rw [List.mem_singleton.mp hnew]
      exact hne
  | answered hcall => exact ⟨hends hcall rfl, hnever⟩
  | @failed index call hcall gated =>
    have hfailed : call.phase.unfailed = false := by
      cases hcalled : call.phase with
      | looking => rw [hcalled] at gated; cases gated
      | waiting => rfl
      | checking => rfl
      | fetching => rfl
      | returned => rw [hcalled] at gated; cases gated
      | dropped => rw [hcalled] at gated; cases gated
    exact ⟨(hother hcall hfailed).2, hnever⟩
  | cancelled hcall => exact ⟨hends hcall rfl, hnever⟩

theorem Gated.single_flight (h : Gated cooldown s) : SingleFlight cooldown s := by
  refine ⟨?_, h.apart, fun action t hallowed hstep => (JwksCache.step_spec hallowed hstep).keys,
    fun index keys t hstep => fetched_keys hstep,
    fun action t hallowed hstep index kid key hreturned =>
      (JwksCache.step_spec hallowed hstep).answers hreturned, fun kid begun rest last hbegun hrest => ?_⟩
  · have hcount : s.calls.countP (fun call => call.phase.isFetching) ≤
        s.calls.countP fun call => call.phase.holdsGate :=
      List.countP_mono_left fun _ _ hfetching => holdsGate_of_isFetching hfetching
    have hgate := h.gate
    have hbound : s.gate.toNat ≤ 1 := Bool.toNat_le _
    omega
  · cases hbegun
    have hstart : (∃ phase, (s.calls ++ [⟨kid, .looking⟩])[s.calls.length]? = some ⟨kid, phase⟩ ∧
        phase.unfailed = true) ∧ ∀ fetch ∈ s.fetches, fetch.1 ≠ s.calls.length :=
      ⟨⟨.looking, List.getElem?_concat_length, rfl⟩, fun fetch hfetch => Nat.ne_of_lt (h.begun fetch hfetch)⟩
    have hkept := execute_invariant (fun (state : JwksCache Material) action next
        (hkept : (∃ phase, state.calls[s.calls.length]? = some ⟨kid, phase⟩ ∧ phase.unfailed = true) ∧
          ∀ fetch ∈ state.fetches, fetch.1 ≠ s.calls.length) hallowed hstep => by
      obtain ⟨hclock, hkey⟩ := Bool.and_eq_true_iff.mp hallowed
      exact (JwksCache.step_spec hclock hstep).present hkey hkept) hstart hrest
    exact hkept

/-- Whatever order the calls take their steps in, the refreshes of the key set are single
and rate limited. -/
theorem jwks_refreshes_single_flight (cooldown start : Nat) (keys : List (Jwk Material))
    (actions : List (KeyAction Material)) (final : JwksCache Material)
    (hrun : execute (JwksCache.step cooldown) JwksCache.allowed actions { keys, now := start } = some final) :
    SingleFlight cooldown final := by
  have hstart : Gated cooldown { keys, now := start } := by
    refine ⟨rfl, List.Pairwise.nil, fun _ hfetch => ?_, fun _ hlast => ?_, fun _ hfetch => ?_⟩
    · cases hfetch
    · cases hlast
    · cases hfetch
  have hfinal : Gated cooldown final :=
    execute_invariant (fun (s : JwksCache Material) action next (hkept : Gated cooldown s) hallowed hstep =>
      hkept.step (JwksCache.step_spec hallowed hstep)) hstart hrun
  exact hfinal.single_flight

end

section

/-- Two calls miss a rotated key; the first fetches and is dropped, and the second is refused
until the cooldown is over. -/
theorem jwks_refreshes_single_flight_cancelled : ∃ final,
    execute (JwksCache.step 30) JwksCache.allowed
        [.call "rotated", .call "rotated", .look 0, .look 1, .lock 0, .check 0, .cancel 0, .tick 5, .lock 1, .check 1,
          .tick 30, .call "rotated", .look 2, .lock 2, .check 2, .fetched 2 (.ok [⟨some "rotated", ()⟩])]
        { keys := [⟨some "known", ()⟩], now := 0 } = some final ∧
      final.fetches = [(0, 0), (2, 30)] ∧ SingleFlight 30 final := by
  have hrun : execute (JwksCache.step 30) JwksCache.allowed
      [.call "rotated", .call "rotated", .look 0, .look 1, .lock 0, .check 0, .cancel 0, .tick 5, .lock 1, .check 1,
        .tick 30, .call "rotated", .look 2, .lock 2, .check 2, .fetched 2 (.ok [⟨some "rotated", ()⟩])]
      { keys := [⟨some "known", ()⟩], now := 0 } = some _ := rfl
  exact ⟨_, hrun, rfl, jwks_refreshes_single_flight _ _ _ _ _ hrun⟩

end

end AgentDesktop
