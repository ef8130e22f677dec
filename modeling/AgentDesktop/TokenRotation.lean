import AgentDesktop.TokenRefresh

namespace AgentDesktop

def SessionPc.refresher : SessionPc → List IdentityRequest
  | .refreshing pc identity => [⟨pc, identity⟩]
  | _ => []

/-- The session has checked its token and is still to save its identity. -/
def SessionPc.aboutToSave : SessionPc → Bool
  | .refreshed _ => true
  | .renewing _ => true
  | .renewed _ => true
  | .storing _ => true
  | _ => false

def SessionPc.enrolls : SessionPc → Bool
  | .enrolling => true
  | .enrolled _ => true
  | _ => false

/-- The session has not saved or loaded an identity. -/
def SessionPc.unenrolled : SessionPc → Bool
  | .starting => true
  | .failed => true
  | pc => pc.enrolls

/-- The refreshes in progress. -/
def Sessions.refreshers (s : Sessions) : List IdentityRequest :=
  s.session.refresher ++ s.requests

/-- The refresh an action is a step of. -/
def Sessions.refreshing (s : Sessions) : SessionsAction → Option (IdentityRequest × RefreshInput)
  | .session (.refresh input _) =>
    match s.session with
    | .refreshing pc identity => some (⟨pc, identity⟩, input)
    | _ => none
  | .request index input => s.requests[index]?.map (·, input)
  | _ => none

/-- A run of the session loop and the requests. `refreshes` are the credentials the
token endpoint answered with, `completed` those a refresh saved, in their order. -/
structure RefreshRun where
  sessions : Sessions
  refreshes : List OAuthCredentials := []
  completed : List OAuthCredentials := []

def RefreshRun.started (store : Option Identity) : RefreshRun :=
  { sessions := Sessions.started store }

def RefreshRun.step (run : RefreshRun) (action : SessionsAction) : Option RefreshRun :=
  (run.sessions.step action).map fun sessions =>
    match run.sessions.refreshing action with
    | none => { run with sessions }
    | some (request, input) =>
      { sessions
        refreshes := run.refreshes ++ request.answered input
        completed := run.completed ++ request.saved input }

/-- No logout, no rejection of the identity, and every save succeeds. -/
def SessionsAction.undisturbed : SessionsAction → Bool
  | .logout _ _ => false
  | .session (.load (some .unreadable) _) => false
  | .session (.refresh (.respond (.error .rejected) _) _) => false
  | .session (.refresh (.save ok) _) => ok
  | .session (.disconnected unauthenticated _) => !unauthenticated
  | .session (.save ok) => ok
  | .request _ (.save ok) => ok
  | _ => true

/-- The session skips its refresh only while its credentials are the stored ones,
and no request saves a refresh between that check and the session's save. -/
def RefreshRun.copyCurrent (run : RefreshRun) : SessionsAction → Bool
  | .session (.refresh (.clock now) _) =>
    match run.sessions.session with
    | .refreshing .checking identity =>
      identity.needsRefresh now || run.sessions.cell.store.map Identity.oauth == some identity.oauth
    | _ => true
  | .request _ (.save _) => !run.sessions.session.aboutToSave
  | _ => true

def RefreshRun.settledRefresh (run : RefreshRun) (action : SessionsAction) : Bool :=
  action.undisturbed && run.copyCurrent action

/-- At most one refresh holds the mutex, the answered credentials are saved in
their order, and the last saved ones are stored. -/
structure TokensKept (run : RefreshRun) : Prop where
  mutex : run.sessions.refreshers.countP IdentityRequest.holdsMutex = run.sessions.cell.locked.toNat
  pending : run.refreshes = run.completed ++ run.sessions.refreshers.flatMap IdentityRequest.unsaved
  stored : ∀ latest ∈ run.completed.getLast?, run.sessions.cell.store.map Identity.oauth = some latest
  copy : run.sessions.session.aboutToSave = true → ∀ identity ∈ run.sessions.session.identity,
    run.sessions.cell.store.map Identity.oauth = some identity.oauth
  fresh : run.sessions.cell.store = none →
    run.sessions.session.unenrolled = true ∧ run.sessions.requests = [] ∧ run.completed = []
  enrolling : run.sessions.session.enrolls = true → run.sessions.cell.store = none

theorem unsaved_of_free {request : IdentityRequest} (h : request.holdsMutex = false) : request.unsaved = [] := by
  obtain ⟨pc, identity⟩ := request
  cases pc <;> first | rfl | cases h

theorem unsaved_of_countP_eq_zero {requests : List IdentityRequest}
    (h : requests.countP IdentityRequest.holdsMutex = 0) : requests.flatMap IdentityRequest.unsaved = [] := by
  refine List.flatMap_eq_nil_iff.mpr fun request hr => unsaved_of_free ?_
  exact Bool.eq_false_iff.mpr (List.countP_eq_zero.mp h request hr)

theorem refresher_of_unenrolled {pc : SessionPc} (h : pc.unenrolled = true) : pc.refresher = [] := by
  cases pc <;> first | rfl | cases h

namespace TokensKept

variable {run : RefreshRun}

/-- A step of one of the refreshes in progress. -/
theorem refreshStep (h : TokensKept run) {before after : List IdentityRequest} {request : IdentityRequest}
    (hsplit : run.sessions.refreshers = before ++ request :: after) {input : RefreshInput} {progress : RefreshProgress}
    {next : Sessions} (hstep : RefreshStep run.sessions.cell request input next.cell progress)
    (hnext : next.refreshers = before ++ (progress.remaining ++ after))
    (hcopy : next.session.aboutToSave = true → ∀ identity ∈ next.session.identity,
      next.cell.store.map Identity.oauth = some identity.oauth)
    (henroll : next.session.enrolls = false) :
    TokensKept ⟨next, run.refreshes ++ request.answered input, run.completed ++ request.saved input⟩ := by
  have hmutex := h.mutex
  have hpending := h.pending
  rw [hsplit, List.countP_append, List.countP_cons] at hmutex
  have hheld : request.holdsMutex = true → run.sessions.cell.locked = true := by
    intro hr
    cases hl : run.sessions.cell.locked with
    | true => rfl
    | false =>
      rw [hl, if_pos hr] at hmutex
      simp at hmutex
  have hlock := hstep.mutex hheld
  rw [List.countP_singleton] at hlock
  have hsome : run.sessions.cell.store ≠ none := by
    intro hnone
    obtain ⟨hsession, hrequests, -⟩ := h.fresh hnone
    rw [Sessions.refreshers, refresher_of_unenrolled hsession, hrequests] at hsplit
    exact List.append_ne_nil_of_right_ne_nil _ (List.cons_ne_nil _ _) hsplit.symm
  refine ⟨?_, ?_, ?_, hcopy, fun hnone => ?_, fun henrolls => ?_⟩
  · show next.refreshers.countP IdentityRequest.holdsMutex = next.cell.locked.toNat
    rw [hnext, List.countP_append, List.countP_append]
    omega
  · rw [hnext, hpending, hsplit]
    have hcarried := hstep.carried
    cases hr : request.holdsMutex with
    | true =>
      have hbound := Bool.toNat_le run.sessions.cell.locked
      rw [if_pos hr] at hmutex
      have hbefore : before.flatMap IdentityRequest.unsaved = [] := unsaved_of_countP_eq_zero (by omega)
      have hafter : after.flatMap IdentityRequest.unsaved = [] := unsaved_of_countP_eq_zero (by omega)
      simp only [List.flatMap_append, List.flatMap_cons, hbefore, hafter, List.append_nil, List.nil_append,
        List.append_assoc, hcarried]
    | false =>
      obtain ⟨hanswered, hsaved⟩ := hstep.outside hr
      rw [hanswered, hsaved, unsaved_of_free hr] at hcarried
      simp only [List.nil_append] at hcarried
      simp only [hanswered, hsaved, List.append_nil, List.flatMap_append, List.flatMap_cons, unsaved_of_free hr,
        ← hcarried]
  · intro latest hlatest
    rcases hstep.stored with ⟨hsaved, hstore⟩ | ⟨hsaved, hstore⟩
    · rw [hsaved, List.append_nil] at hlatest
      rw [hstore]
      exact h.stored latest hlatest
    · rw [hsaved, List.getLast?_concat] at hlatest
      cases hlatest
      rw [hstore]
      rfl
  · rcases hstep.stored with ⟨-, hstore⟩ | ⟨-, hstore⟩
    · exact absurd (hstore.symm.trans hnone) hsome
    · exact absurd (hstore.symm.trans hnone) nofun
  · rw [henroll] at henrolls
    cases henrolls

/-- The session goes on, outside of a refresh. -/
theorem moved (h : TokensKept run) (idle : run.sessions.session.refresher.countP IdentityRequest.holdsMutex = 0)
    {next : SessionPc} (hidle : next.refresher.countP IdentityRequest.holdsMutex = 0) {store : Option Identity}
    (hstore : store.map Identity.oauth = run.sessions.cell.store.map Identity.oauth ∨ run.completed = [])
    (hcopy : next.aboutToSave = true → ∀ identity ∈ next.identity, store.map Identity.oauth = some identity.oauth)
    (hfresh : store = none → run.sessions.cell.store = none ∧ next.unenrolled = true)
    (henroll : next.enrolls = true → store = none) :
    TokensKept { run with sessions :=
      { run.sessions with cell := { run.sessions.cell with store }, session := next } } := by
  have hmutex := h.mutex
  have hpending := h.pending
  simp only [Sessions.refreshers, List.countP_append, List.flatMap_append, idle, unsaved_of_countP_eq_zero idle]
    at hmutex hpending
  refine ⟨?_, ?_, fun latest hlatest => ?_, hcopy, fun hnone => ?_, henroll⟩
  · simpa only [Sessions.refreshers, List.countP_append, hidle] using hmutex
  · simpa only [Sessions.refreshers, List.flatMap_append, unsaved_of_countP_eq_zero hidle] using hpending
  · rcases hstore with hsame | hnil
    · exact hsame.trans (h.stored latest hlatest)
    · simp [hnil] at hlatest
  · obtain ⟨hbefore, hnext⟩ := hfresh hnone
    exact ⟨hnext, (h.fresh hbefore).2⟩

/-- The session goes on and leaves the stored identity. -/
theorem idle (h : TokensKept run) (idle : run.sessions.session.refresher.countP IdentityRequest.holdsMutex = 0)
    {next : SessionPc} (hidle : next.refresher.countP IdentityRequest.holdsMutex = 0)
    (hcopy : next.aboutToSave = true → ∀ identity ∈ next.identity,
      run.sessions.cell.store.map Identity.oauth = some identity.oauth)
    (hfresh : run.sessions.cell.store = none → next.unenrolled = true)
    (henroll : next.enrolls = true → run.sessions.cell.store = none) :
    TokensKept { run with sessions := { run.sessions with session := next } } :=
  h.moved idle hidle (.inl rfl) hcopy (fun hnone => ⟨hnone, hfresh hnone⟩) henroll

end TokensKept

end AgentDesktop
