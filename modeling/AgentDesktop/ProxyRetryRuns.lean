import AgentDesktop.ProxyFreshSteps

namespace AgentDesktop

namespace ProxyRun

variable {s t u : ProxyRun} {index : Nat} {process next : ProxyProcess} {prepared : PreparedRequest} {retried : Bool}
  {call : FetchCall} {input : FetchInput ControllerError} {progress : FetchProgress ControllerError}

theorem Extends.of_same (hcache : t.cache = s.cache) (hinserts : t.inserts = s.inserts) : s.Extends t := by
  have hknown : ∀ key credential, s.Known key credential → t.Known key credential := by
    intro key credential hknown
    rw [Known, hinserts]
    exact hknown
  refine ⟨hknown, fun key credential hgone => ⟨hknown _ _ hgone.known, ?_⟩⟩
  rw [hcache]
  exact hgone.absent

theorem Tracked.running (h : s.Tracked process) (hcall : process.call = some call) (pc : FetchPc)
    (hcarries : ∀ prepared retried, s.Before prepared retried process.attempts →
      (∀ credential, call.carries credential = true → Unused process.attempts credential) →
      ∀ credential, FetchCall.carries credential { call with pc } = true → Unused process.attempts credential) :
    s.Tracked { process with call := some { call with pc } } := by
  unfold Tracked at h ⊢
  split at h
  next hpc => simpa only [hpc] using h
  next hpc => simpa only [hpc] using h
  next prepared retried hpc =>
    obtain ⟨hbefore, _, hcalls⟩ := h
    obtain ⟨hkey, hold⟩ := hcalls call hcall
    simp only [hpc]
    refine ⟨hbefore, fun _ => nofun, fun other hother => ?_⟩
    cases hother
    exact ⟨hkey, hcarries prepared retried hbefore hold⟩
  next hpc => simpa only [hpc] using h
  next hpc => simpa only [hpc] using h

/-- A request whose fetch took a step. -/
theorem Fresh.afterCall (h : s.Fresh) (hget : s.processes[index]? = some process) (hcall : process.call = some call)
    (hnew : ∀ credential ∈ input.gets, credential ∉ s.fetched) {cache : CredentialCache}
    (hfetch : getOrFetchStep s.cache call input = some (cache, progress))
    (hafter : process.afterCall call progress = some next) : s.Tracked next := by
  have hcredentials := getOrFetchStep_credentials hfetch
  have htracked := h.tracked process (List.mem_of_getElem? hget)
  rcases ProxyProcess.afterCall_spec hafter with ⟨pc, rfl, rfl⟩ | ⟨prepared, retried, result, hpc, hresult, rfl⟩
  · refine htracked.running hcall pc fun prepared retried hbefore hold credential hcarries => ?_
    rcases hcredentials.running pc credential rfl hcarries with hcarried | hreceived
    · exact hold credential hcarried
    · have hfresh := hnew credential ((call.receives_sublist input).subset hreceived)
      refine hbefore.unused fun key _ rejected _ hgone heq => hfresh ?_
      exact heq ▸ h.credentials.fetched hgone.known
  · obtain ⟨hbefore, _, hcalls⟩ := htracked.fetching hpc
    obtain ⟨hkey, hcarried⟩ := hcalls call hcall
    refine hbefore.afterFetch fun credential deadline cached hok => ?_
    cases progress with
    | running pc => cases hresult
    | failed error =>
      cases Option.some.inj hresult
      cases hok
    | finished credential' deadline' cached' =>
      cases Option.some.inj hresult
      cases hok
      cases cached with
      | true =>
        obtain ⟨entry, hentry, rfl⟩ := hcredentials.cached credential deadline rfl
        obtain ⟨hunused, hknown⟩ := h.cached hbefore hkey hentry
        exact ⟨hunused, fun _ => ⟨call.key, call.deviceId, hkey, hknown⟩⟩
      | false => exact ⟨hcarried credential (hcredentials.finished credential deadline rfl), nofun⟩

theorem Fresh.advance (h : s.Fresh) (hget : s.processes[index]? = some process)
    (hnew : ∀ credential ∈ input.gets, credential ∉ s.fetched) (hact : s.advance input process = some (u, next)) :
    { u with processes := u.processes.set index next }.Fresh := by
  obtain ⟨hprocesses, call, progress, hcall, hafter, hmoved⟩ := advance_spec hget hact
  have hextends := h.credentials.extends_moved hmoved
  have hnext := h.afterCall hget hcall hnew hmoved.stepped hafter
  exact ⟨h.credentials.moved hmoved hnew, h.tracked_set hextends (by rw [← hprocesses]) (hextends.tracked hnext)⟩

theorem Fresh.advanceDetached (h : s.Fresh) (hnew : ∀ credential ∈ input.gets, credential ∉ s.fetched)
    (hact : s.advanceDetached index input = some t) : t.Fresh := by
  obtain ⟨hprocesses, call, progress, _, hmoved⟩ := advanceDetached_spec hact
  refine ⟨h.credentials.moved hmoved hnew, fun process hprocess => ?_⟩
  rw [hprocesses] at hprocess
  exact (h.credentials.extends_moved hmoved).tracked (h.tracked process hprocess)

section

variable {parseUri : Octets → Except String Uri} {config : ProxyConfig}

theorem Fresh.arrive (h : s.Fresh) (request : ProxyRequest) (environment : ProxyEnvironment) :
    { s with processes := s.processes ++ [arrived parseUri config request environment] }.Fresh := by
  have hpends : ∀ credential, (arrived parseUri config request environment).call.toList.countP
      (FetchCall.pends credential) = 0 := fun credential => goOn_pends {} _ credential
  have hextends : s.Extends { s with processes := s.processes ++ [arrived parseUri config request environment] } :=
    .of_same rfl rfl
  refine ⟨⟨fun credential => ?_, h.credentials.once, fun key entry hentry => ?_⟩, fun process hprocess => ?_⟩
  · have hcounted := h.credentials.counted credential
    have hnone := hpends credential
    simp only [calls, List.flatMap_append, List.flatMap_singleton, List.countP_append] at hcounted ⊢
    omega
  · exact hextends.known _ _ (h.credentials.entries key entry hentry)
  · rcases List.mem_append.mp hprocess with hprocess | hprocess
    · exact hextends.tracked (h.tracked process hprocess)
    · cases List.mem_singleton.mp hprocess
      exact tracked_arrived parseUri config request environment

theorem Fresh.step (h : s.Fresh) {action : ProxyAction} (hfresh : s.fetchesFresh action = true)
    (hstep : s.step parseUri config action = some t) : t.Fresh := by
  have hnew : ∀ credential ∈ action.gets, credential ∉ s.fetched := by
    intro credential hmem
    have hone := List.all_eq_true.mp hfresh credential hmem
    simpa using hone
  cases action with
  | arrive request environment =>
    cases hstep
    exact h.arrive request environment
  | lookup index now nowUnix =>
    obtain ⟨process, u, next, hget, _, hact, rfl⟩ := onProcess_spec hstep
    exact h.lookup hget hact
  | advance index input =>
    obtain ⟨process, u, next, hget, _, hact, rfl⟩ := onProcess_spec hstep
    exact h.advance hget hnew hact
  | fetchUncached index result now nowUnix =>
    obtain ⟨process, u, next, hget, hconnected, hact, rfl⟩ := onProcess_spec hstep
    exact h.fetchUncached hget hconnected hnew hact
  | timeout index =>
    obtain ⟨process, u, next, hget, _, hact, rfl⟩ := onProcess_spec hstep
    obtain ⟨next', hresume, heq⟩ := Option.map_eq_some_iff.mp hact
    cases heq
    exact h.timeout hget hresume
  | answer index result =>
    obtain ⟨process, u, next, hget, _, hact, rfl⟩ := onProcess_spec hstep
    exact h.answer hget hact
  | disconnect index =>
    simp only [ProxyRun.step] at hstep
    obtain ⟨process, u, next, hget, _, hact, rfl⟩ := onProcess_spec hstep
    cases hact
    exact h.disconnect hget
  | advanceDetached index input => exact h.advanceDetached hnew hstep

theorem fresh_start : ({} : ProxyRun).Fresh := by
  refine ⟨⟨fun credential => ?_, fun credential => ?_, fun _ _ => nofun⟩, fun _ => nofun⟩
  · exact Nat.le_refl 0
  · exact Nat.zero_le 1

end

end ProxyRun

end AgentDesktop
