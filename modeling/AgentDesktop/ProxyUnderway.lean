import AgentDesktop.ProxyForwardSpec

namespace AgentDesktop

section

variable {parseUri : Octets → Except String Uri} {config : ProxyConfig} {request : ProxyRequest}
  {P : ProxyEnvironment → Prop}

variable (parseUri config request P) in
/-- What one of the surroundings makes of a request that passed the checks. -/
def PreparedFor (prepared : PreparedRequest) : Prop :=
  ∃ environment gated effects, P environment ∧ gate config request = .ok gated ∧
    prepare parseUri config environment request gated = (effects, .ok prepared)

theorem arrive_spec {environment : ProxyEnvironment} {next : ForwardPc} {effects : List ProxyEffect}
    (hfound : P environment) (h : arrive parseUri config request environment = (next, effects)) :
    (effects ≠ [] → ∃ gated, gate config request = .ok gated) ∧
      (∀ prepared ∈ next.prepared, PreparedFor parseUri config request P prepared) ∧
      ∀ sent, .send sent ∈ effects →
        ∃ prepared, PreparedFor parseUri config request P prepared ∧ prepared.Sends sent := by
  unfold arrive at h
  split at h
  next =>
    cases h
    exact ⟨fun hne => absurd rfl hne, fun _ => nofun, fun _ => nofun⟩
  next gated hgate =>
    have hoauth : ∀ effect ∈ (prepare parseUri config environment request gated).1, ∀ sent, effect ≠ .send sent := by
      intro effect heffect sent
      obtain ⟨clientId, rfl⟩ := prepare_effects effect heffect
      nofun
    refine ⟨fun _ => ⟨gated, hgate⟩, ?_⟩
    split at h
    next more error hprepare =>
      cases h
      rw [hprepare] at hoauth
      refine ⟨fun _ => nofun, fun sent hsent => ?_⟩
      rcases List.mem_cons.mp hsent with hsent | hsent
      · cases hsent
      · exact absurd rfl (hoauth _ hsent sent)
    next more prepared hprepare =>
      cases h
      rw [hprepare] at hoauth
      have hfrom : PreparedFor parseUri config request P prepared :=
        ⟨environment, gated, more, hfound, hgate, hprepare⟩
      refine ⟨fun other hother => ?_, fun sent hsent => ?_⟩
      · rw [(prepared.attempt_spec false).1] at hother
        exact Option.some.inj hother ▸ hfrom
      · rcases List.mem_cons.mp hsent with hsent | hsent
        · cases hsent
        · rcases List.mem_append.mp hsent with hsent | hsent
          · exact absurd rfl (hoauth _ hsent sent)
          · exact ⟨prepared, hfrom, (prepared.attempt_spec false).2 sent hsent⟩

variable (parseUri config request P) in
/-- What a request did, it did after its checks. -/
structure Underway (s : ForwardState) : Prop where
  gated : s.effects ≠ [] → ∃ gated, gate config request = .ok gated
  prepared : ∀ prepared ∈ s.pc.prepared, PreparedFor parseUri config request P prepared
  sends : ∀ sent, .send sent ∈ s.effects →
    ∃ prepared, PreparedFor parseUri config request P prepared ∧ prepared.Sends sent

theorem Underway.step {s t : ForwardState} {input : ForwardInput} (h : Underway parseUri config request P s)
    (hfound : ∀ environment, input = .prepare environment → P environment)
    (hstep : s.step parseUri config request input = some t) : Underway parseUri config request P t := by
  unfold ForwardState.step at hstep
  split at hstep
  next next effects hforward =>
    cases hstep
    rcases forwardStep_spec hforward with ⟨environment, _, hinput, harrive⟩ | hresume
    · obtain ⟨hgated, hprepared, hsends⟩ := arrive_spec (hfound environment hinput) harrive
      refine ⟨fun hne => ?_, hprepared, fun sent hsent => ?_⟩
      · by_cases heffects : effects = []
        · subst heffects
          exact h.gated (by simpa using hne)
        · exact hgated heffects
      · rcases List.mem_append.mp hsent with hsent | hsent
        · exact h.sends sent hsent
        · exact hsends sent hsent
    · obtain ⟨prepared, hpc, hsame, hsends⟩ := resume_spec hresume
      have hfrom := h.prepared prepared hpc
      have ⟨_, gated, _, _, hgate, _⟩ := hfrom
      refine ⟨fun _ => ⟨gated, hgate⟩, fun other hother => hsame other hother ▸ hfrom, fun sent hsent => ?_⟩
      rcases List.mem_append.mp hsent with hsent | hsent
      · exact h.sends sent hsent
      · exact ⟨prepared, hfrom, hsends sent hsent⟩
  next => cases hstep

theorem underway_of_forward {inputs : List ForwardInput} {s : ForwardState}
    (hfound : ∀ environment, .prepare environment ∈ inputs → P environment)
    (h : forward parseUri config request inputs = some s) : Underway parseUri config request P s := by
  have hstart : Underway parseUri config request P {} := ⟨fun hne => absurd rfl hne, fun _ => nofun, fun _ => nofun⟩
  refine execute_invariant_of_mem
    (fun s input hinput t hs _ hstep => hs.step (fun environment heq => ?_) hstep) hstart h
  exact hfound environment (heq ▸ hinput)

end

end AgentDesktop
