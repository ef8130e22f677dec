import AgentDesktop.ProxyRetrySteps

namespace AgentDesktop

/-- The credential that an input brings from a fetch. -/
def FetchInput.gets : FetchInput ControllerError → List String
  | .respond (.ok fetched) => [fetched.credential]
  | _ => []

def ProxyAction.gets : ProxyAction → List String
  | .advance _ input => input.gets
  | .advanceDetached _ input => input.gets
  | .fetchUncached _ result _ _ => ProxyRun.gotten result
  | _ => []

/-- No fetch returns a credential that another fetch returned. -/
def ProxyRun.fetchesFresh (s : ProxyRun) (action : ProxyAction) : Bool :=
  action.gets.all fun credential => !s.fetched.contains credential

theorem FetchCall.receives_sublist (call : FetchCall) (input : FetchInput ControllerError) :
    (call.receives input).Sublist input.gets := by
  unfold FetchCall.receives
  split
  next => exact List.Sublist.refl _
  next => exact List.nil_sublist _

theorem ProxyAction.gets_length (action : ProxyAction) : action.gets.length ≤ 1 := by
  have hinput : ∀ input : FetchInput ControllerError, input.gets.length ≤ 1 := by
    intro input
    unfold FetchInput.gets
    split
    next => exact Nat.le_refl 1
    next => exact Nat.zero_le 1
  unfold ProxyAction.gets
  split
  next => exact hinput _
  next => exact hinput _
  next result _ _ =>
    cases result with
    | ok fetched => exact Nat.le_refl 1
    | error error => exact Nat.zero_le 1
  next => exact Nat.zero_le 1

namespace ProxyRun

variable {s t : ProxyRun} {key credential : String} {call : FetchCall}
  {input : FetchInput ControllerError} {progress : FetchProgress ControllerError}

/-- Each credential came from one fetch, and one that waits to be cached was not cached yet. -/
structure CredentialsOnce (s : ProxyRun) : Prop where
  counted : ∀ credential, s.calls.countP (FetchCall.pends credential) + s.inserts.countP (·.2 == credential) ≤
    s.fetched.count credential
  once : ∀ credential, s.fetched.count credential ≤ 1
  entries : ∀ key entry, s.cache.entries key = some entry → s.Known key entry.credential

theorem Known.inserted (h : s.Known key credential) : 0 < s.inserts.countP (·.2 == credential) :=
  List.countP_pos_iff.mpr ⟨_, h, beq_self_eq_true _⟩

namespace CredentialsOnce

theorem fetched (h : s.CredentialsOnce) (hknown : s.Known key credential) : credential ∈ s.fetched := by
  have hcounted := h.counted credential
  have hinserted := hknown.inserted
  exact List.count_pos_iff.mp (by omega)

theorem not_pending (h : s.CredentialsOnce) (hknown : s.Known key credential) (hcall : call ∈ s.calls) :
    call.pends credential = false := by
  have hcounted := h.counted credential
  have honce := h.once credential
  have hinserted := hknown.inserted
  have hnone : s.calls.countP (FetchCall.pends credential) = 0 := by omega
  exact Bool.eq_false_iff.mpr (List.countP_eq_zero.mp hnone call hcall)

/-- A step that may get one new credential. -/
theorem gotten (h : s.CredentialsOnce) {got : List String} (hlength : got.length ≤ 1)
    (hnew : ∀ credential ∈ got, credential ∉ s.fetched) (hfetched : t.fetched = s.fetched ++ got)
    (hcounted : ∀ credential,
      t.calls.countP (FetchCall.pends credential) + t.inserts.countP (·.2 == credential) ≤
        s.calls.countP (FetchCall.pends credential) + s.inserts.countP (·.2 == credential) + got.count credential)
    (hentries : ∀ key entry, t.cache.entries key = some entry → t.Known key entry.credential) :
    t.CredentialsOnce := by
  refine ⟨fun credential => ?_, fun credential => ?_, hentries⟩
  · have hbefore := h.counted credential
    have hstep := hcounted credential
    rw [hfetched, List.count_append]
    omega
  · have honce := h.once credential
    have hgot : got.count credential ≤ got.length := List.count_le_length
    rw [hfetched, List.count_append]
    by_cases hmem : credential ∈ got
    · have habsent := List.count_eq_zero.mpr (hnew credential hmem)
      omega
    · have habsent := List.count_eq_zero.mpr hmem
      omega

theorem known_moved (h : s.CredentialsOnce) (hmoved : s.CallMoved t call input progress) :
    ∀ key entry, t.cache.entries key = some entry → t.Known key entry.credential := by
  intro key entry hentry
  rw [Known, hmoved.inserts]
  rcases (getOrFetchStep_credentials hmoved.stepped).entries key entry hentry with hold | ⟨_, hstored⟩
  · exact List.mem_append_left _ (h.entries key entry hold)
  · exact List.mem_append_right _ hstored

/-- A credential that is gone does not come back. -/
theorem extends_moved (h : s.CredentialsOnce) (hmoved : s.CallMoved t call input progress) : s.Extends t := by
  have hknown : ∀ key credential, s.Known key credential → t.Known key credential := by
    intro key credential hknown
    rw [Known, hmoved.inserts]
    exact List.mem_append_left _ hknown
  refine ⟨hknown, fun key credential hgone => ⟨hknown _ _ hgone.known, fun entry hentry heq => ?_⟩⟩
  rcases (getOrFetchStep_credentials hmoved.stepped).entries key entry hentry with hold | ⟨hpends, _⟩
  · exact hgone.absent entry hold heq
  · have hidle := h.not_pending hgone.known hmoved.member
    rw [← heq, hpends] at hidle
    cases hidle

/-- A step of a fetch that gets no credential twice. -/
theorem moved (h : s.CredentialsOnce) (hmoved : s.CallMoved t call input progress)
    (hnew : ∀ credential ∈ input.gets, credential ∉ s.fetched) : t.CredentialsOnce := by
  have hreceives := call.receives_sublist input
  have hlength : (call.receives input).length ≤ 1 :=
    Nat.le_trans hreceives.length_le (ProxyAction.advance 0 input).gets_length
  refine h.gotten hlength (fun credential hmem => hnew credential (hreceives.subset hmem)) hmoved.fetched
    (fun credential => ?_) (h.known_moved hmoved)
  have hcounts := hmoved.counts (FetchCall.pends credential)
  have hcounted := (getOrFetchStep_credentials hmoved.stepped).counted credential
  rw [hmoved.inserts, List.countP_append]
  omega

end CredentialsOnce

/-- A fetch that was just spawned has no credential. -/
theorem goOn_pends (process : ProxyProcess) (next : ForwardPc × List ProxyEffect) (credential : String) :
    (process.goOn next).call.toList.countP (FetchCall.pends credential) = 0 := by
  have hspawned : (process.goOn next).call = next.1.spawned := rfl
  rw [hspawned]
  unfold ForwardPc.spawned
  split
  next prepared _ _ => cases prepared.cacheKey <;> rfl
  next => rfl

end ProxyRun

end AgentDesktop
