import AgentDesktop.TokenRotation

namespace AgentDesktop

namespace TokensKept

variable {run : RefreshRun} {t : Sessions}

/-- A refresh step of the session. -/
theorem sessionRefresh (h : TokensKept run) {pc : RefreshPc} {identity : Identity}
    (hsession : run.sessions.session = .refreshing pc identity) {input : RefreshInput} {deleted : Bool}
    (allowed : run.settledRefresh (.session (.refresh input deleted)) = true)
    (hstep : run.sessions.sessionStep (.refresh input deleted) = some t) :
    TokensKept ⟨t, run.refreshes ++ IdentityRequest.answered ⟨pc, identity⟩ input,
      run.completed ++ IdentityRequest.saved ⟨pc, identity⟩ input⟩ := by
  obtain ⟨hundisturbed, hcurrent⟩ := Bool.and_eq_true_iff.mp allowed
  simp only [Sessions.sessionStep, hsession] at hstep
  split at hstep
  next => cases hstep
  next cell progress hrefresh =>
    cases hstep
    have hspec : RefreshStep run.sessions.cell ⟨pc, identity⟩ input cell progress := by
      refine refreshStep_spec hrefresh ?_
      rintro rfl
      cases hundisturbed
    have hsplit : run.sessions.refreshers = [] ++ ⟨pc, identity⟩ :: run.sessions.requests := by
      rw [Sessions.refreshers, hsession]
      rfl
    cases progress with
    | running next other => exact h.refreshStep hsplit hspec rfl (by rintro ⟨⟩) rfl
    | finished other =>
      refine h.refreshStep hsplit hspec rfl (fun _ _ ho => ?_) rfl
      cases ho
      rcases hspec.finished other rfl with hstored | ⟨now, rfl, hpc, rfl, hfresh⟩
      · exact hstored
      · cases hpc
        obtain ⟨-, hstore⟩ | ⟨hsaved, -⟩ := hspec.stored
        · rw [RefreshRun.copyCurrent, hsession] at hcurrent
          simp only [hfresh, Bool.false_or, beq_iff_eq] at hcurrent
          exact hstore ▸ hcurrent
        · cases hsaved
    | failed failure =>
      cases failure with
      | rejected =>
        obtain hother | ⟨now, rfl⟩ := hspec.failed _ rfl
        · cases hother
        · cases hundisturbed
      | transient => exact h.refreshStep hsplit hspec rfl (by rintro ⟨⟩) rfl
      | other => exact h.refreshStep hsplit hspec rfl (by rintro ⟨⟩) rfl

/-- The session saves credentials that are the stored ones, or the first ones. -/
theorem saveIdentity (h : TokensKept run) {identity : Identity} {next : SessionPc}
    (idle : run.sessions.session.refresher.countP IdentityRequest.holdsMutex = 0)
    (hidle : next.refresher.countP IdentityRequest.holdsMutex = 0)
    (hsame : run.sessions.cell.store.map Identity.oauth = some identity.oauth ∨ run.completed = [])
    (hnext : next.identity = some identity) (henroll : next.enrolls = false) :
    TokensKept { run with sessions := run.sessions.saveIdentity identity true next } := by
  refine h.moved idle hidle ?_ (fun _ other ho => ?_) nofun (fun henrolls => ?_)
  · exact hsame.imp_left Eq.symm
  · cases Option.some.inj (hnext.symm.trans ho)
    rfl
  · rw [henroll] at henrolls
    cases henrolls

/-- The session goes on with the tokens it is to save. -/
theorem holding (h : TokensKept run) {identity : Identity} {next : SessionPc}
    (hsaves : run.sessions.session.aboutToSave = true) (hidentity : run.sessions.session.identity = some identity)
    (hidle : next.refresher.countP IdentityRequest.holdsMutex = 0)
    (hnext : ∀ other ∈ next.identity, other.oauth = identity.oauth) (henroll : next.enrolls = false) :
    TokensKept { run with sessions := { run.sessions with session := next } } := by
  have hfree : run.sessions.session.refresher = [] ∧ run.sessions.session.unenrolled = false := by
    cases hsession : run.sessions.session <;> rw [hsession] at hsaves <;> first | exact ⟨rfl, rfl⟩ | cases hsaves
  have hcopy := h.copy hsaves identity hidentity
  refine h.idle (by rw [hfree.1]; rfl) hidle (fun _ other ho => ?_) (fun hnone => ?_) (fun henrolls => ?_)
  · rw [hnext other ho]
    exact hcopy
  · rw [hnone] at hcopy
    cases hcopy
  · rw [henroll] at henrolls
    cases henrolls

/-- Any other step of the session. -/
theorem sessionStep (h : TokensKept run) {input : SessionInput}
    (hother : ∀ refresh deleted, input ≠ .refresh refresh deleted)
    (allowed : run.settledRefresh (.session input) = true) (hstep : run.sessions.sessionStep input = some t) :
    TokensKept { run with sessions := t } := by
  obtain ⟨hundisturbed, -⟩ := Bool.and_eq_true_iff.mp allowed
  have enrolled : run.sessions.session.unenrolled = false → run.sessions.cell.store ≠ none := by
    intro hheld hnone
    rw [(h.fresh hnone).1] at hheld
    cases hheld
  unfold Sessions.sessionStep at hstep
  split at hstep
  next fault discarded hsession =>
    have hidle : run.sessions.session.refresher.countP IdentityRequest.holdsMutex = 0 := by rw [hsession]; rfl
    split at hstep
    next => cases hundisturbed
    next =>
      cases hstep
      exact h.idle hidle rfl nofun (fun _ => rfl) nofun
    next =>
      split at hstep
      next identity hstore =>
        cases hstep
        exact h.idle hidle rfl nofun (fun hnone => absurd (hstore.symm.trans hnone) nofun) nofun
      next hstore =>
        cases hstep
        exact h.idle hidle rfl nofun (fun _ => rfl) (fun _ => hstore)
  next =>
    cases hstep
    exact h
  next identity hsession =>
    cases hstep
    have hnone := h.enrolling (by rw [hsession]; rfl)
    exact h.idle (by rw [hsession]; rfl) rfl nofun (fun _ => rfl) (fun _ => hnone)
  next identity ok hsession =>
    cases hstep
    cases (show ok = true from hundisturbed)
    have hnone := h.enrolling (by rw [hsession]; rfl)
    exact h.saveIdentity (by rw [hsession]; rfl) rfl (.inr (h.fresh hnone).2.2) rfl rfl
  next pc identity refresh deleted hsession => exact absurd rfl (hother refresh deleted)
  next identity now hsession =>
    cases hstep
    have hidentity : run.sessions.session.identity = some identity := by rw [hsession]; rfl
    split
    · exact h.holding (by rw [hsession]; rfl) hidentity rfl (fun _ ho => by cases ho; rfl) rfl
    · exact h.holding (by rw [hsession]; rfl) hidentity rfl (fun _ ho => by cases ho; rfl) rfl
  next identity hsession =>
    cases hstep
    have hidentity : run.sessions.session.identity = some identity := by rw [hsession]; rfl
    exact h.holding (by rw [hsession]; rfl) hidentity rfl (fun _ ho => by cases ho; rfl) rfl
  next identity pem expiresAt hsession =>
    cases hstep
    have hidentity : run.sessions.session.identity = some identity := by rw [hsession]; rfl
    exact h.holding (by rw [hsession]; rfl) hidentity rfl (fun _ ho => by cases ho; rfl) rfl
  next identity ok hsession =>
    cases hstep
    cases (show ok = true from hundisturbed)
    have hcopy := h.copy (by rw [hsession]; rfl) identity (by rw [hsession]; rfl)
    exact h.saveIdentity (by rw [hsession]; rfl) rfl (.inl hcopy) rfl rfl
  next identity ok hsession =>
    cases hstep
    cases (show ok = true from hundisturbed)
    have hcopy := h.copy (by rw [hsession]; rfl) identity (by rw [hsession]; rfl)
    exact h.saveIdentity (by rw [hsession]; rfl) rfl (.inl hcopy) rfl rfl
  next identity unauthenticated deleted hsession =>
    have hsome := enrolled (by rw [hsession]; rfl)
    split at hstep
    next hrejected =>
      rw [hrejected] at hundisturbed
      cases hundisturbed
    next =>
      cases hstep
      exact h.idle (by rw [hsession]; rfl) rfl nofun (fun hnone => absurd hnone hsome) nofun
  next identity hsession =>
    cases hstep
    have hsome := enrolled (by rw [hsession]; rfl)
    exact h.idle (by rw [hsession]; rfl) rfl nofun (fun hnone => absurd hnone hsome) nofun
  next hsession =>
    cases hstep
    exact h.idle (by rw [hsession]; rfl) rfl nofun (fun _ => rfl) nofun
  next => cases hstep

theorem begin {fault : Option LoadFault} (h : TokensKept run) (hstep : run.sessions.begin fault = some t) :
    TokensKept { run with sessions := t } := by
  unfold Sessions.begin at hstep
  split at hstep
  next identity hstore =>
    cases hstep
    have hmutex := h.mutex
    have hpending := h.pending
    refine ⟨?_, ?_, h.stored, h.copy, fun hnone => absurd (hstore.symm.trans hnone) nofun, h.enrolling⟩
    · simpa [Sessions.refreshers, IdentityRequest.holdsMutex, RefreshPc.holdsMutex] using hmutex
    · simpa [Sessions.refreshers, IdentityRequest.unsaved] using hpending
  next => cases hstep

/-- A step of a request, or its end. -/
theorem requestMoved (h : TokensKept run) {index : Nat} {request : IdentityRequest}
    (hget : run.sessions.requests[index]? = some request) {input : RefreshInput} {cell : IdentityCell}
    {progress : RefreshProgress} (hspec : RefreshStep run.sessions.cell request input cell progress)
    (hlate : request.saved input ≠ [] → run.sessions.session.aboutToSave = false) :
    TokensKept ⟨{ run.sessions with cell, requests := progress.replace run.sessions.requests index },
      run.refreshes ++ request.answered input, run.completed ++ request.saved input⟩ := by
  obtain ⟨before, after, hsplit, hreplace⟩ := replace_split hget progress
  have hall : run.sessions.refreshers = (run.sessions.session.refresher ++ before) ++ request :: after := by
    rw [Sessions.refreshers, hsplit, List.append_assoc]
  refine h.refreshStep hall hspec ?_ (fun habout => ?_) ?_
  · rw [Sessions.refreshers, hreplace, List.append_assoc]
  · rcases hspec.stored with ⟨-, hstore⟩ | ⟨hsaved, -⟩
    · rw [hstore]
      exact h.copy habout
    · have hnot := hlate (by rw [hsaved]; exact List.cons_ne_nil _ _)
      exact absurd (habout.symm.trans hnot) (by rintro ⟨⟩)
  · refine Bool.eq_false_iff.mpr fun henrolls => ?_
    have hnil := (h.fresh (h.enrolling henrolls)).2.1
    rw [hnil] at hget
    cases hget

theorem requestStep (h : TokensKept run) {index : Nat} {input : RefreshInput}
    (allowed : run.settledRefresh (.request index input) = true)
    (hstep : run.sessions.requestStep index input = some t) :
    ∃ request, run.sessions.requests[index]? = some request ∧
      TokensKept ⟨t, run.refreshes ++ request.answered input, run.completed ++ request.saved input⟩ := by
  obtain ⟨hundisturbed, hcurrent⟩ := Bool.and_eq_true_iff.mp allowed
  obtain ⟨request, cell, progress, hget, hrefresh, rfl⟩ := Sessions.requestStep_spec hstep
  have hspec : RefreshStep run.sessions.cell request input cell progress := by
    refine refreshStep_spec hrefresh ?_
    rintro rfl
    cases hundisturbed
  refine ⟨request, hget, h.requestMoved hget hspec fun hsaved => ?_⟩
  cases input with
  | save ok => exact (Bool.not_eq_true' _).mp hcurrent
  | _ => exact absurd rfl hsaved

theorem cancel (h : TokensKept run) {index : Nat} (hstep : run.sessions.cancel index = some t) :
    TokensKept { run with sessions := t } := by
  have dropped : ∀ {request : IdentityRequest} {cell : IdentityCell}, run.sessions.requests[index]? = some request →
      RefreshStep run.sessions.cell request .lock cell (.failed .other) →
      TokensKept { run with sessions :=
        { run.sessions with cell, requests := run.sessions.requests.eraseIdx index } } := by
    intro request cell hget hspec
    have hmoved := h.requestMoved hget hspec fun hsaved => absurd rfl hsaved
    simpa only [IdentityRequest.answered, IdentityRequest.saved, List.append_nil, RefreshProgress.replace] using hmoved
  unfold Sessions.cancel at hstep
  split at hstep
  next identity hget =>
    cases hstep
    exact dropped hget ⟨fun _ => rfl, rfl, fun _ => ⟨rfl, rfl⟩, .inl ⟨rfl, rfl⟩, fun _ => nofun, fun _ hf => .inl
      (RefreshProgress.failed.inj hf).symm⟩
  next identity hget =>
    cases hstep
    exact dropped hget ⟨fun _ => rfl, rfl, fun _ => ⟨rfl, rfl⟩, .inl ⟨rfl, rfl⟩, fun _ => nofun, fun _ hf => .inl
      (RefreshProgress.failed.inj hf).symm⟩
  next identity hget =>
    cases hstep
    refine dropped hget ⟨fun held => ?_, rfl, nofun, .inl ⟨rfl, rfl⟩, fun _ => nofun, fun _ hf => .inl
      (RefreshProgress.failed.inj hf).symm⟩
    rw [held rfl]
    rfl
  next => cases hstep

end TokensKept

end AgentDesktop
