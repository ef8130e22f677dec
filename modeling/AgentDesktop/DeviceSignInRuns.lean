import AgentDesktop.DeviceSignIns

namespace AgentDesktop

section

variable {Account : Type}

/-- A call that asked for a grant still waits for it or has ended. -/
def AskedOnce (s : DeviceLogins Account) : Prop :=
  ∀ index ∈ s.requested, ∃ call, s.calls[index]? = some call ∧
    (call.phase.isRequesting = true ∨ call.phase.isEnded = true)

theorem AskedOnce.set {s : DeviceLogins Account} (h : AskedOnce s) {other : Nat} {moved next : LoginCall Account}
    (hmoved : s.calls[other]? = some moved)
    (hnext : next.phase.isEnded = true ∨ moved.phase.isRequesting = false ∧ moved.phase.isEnded = false) :
    ∀ index ∈ s.requested, ∃ call, (s.calls.set other next)[index]? = some call ∧
      (call.phase.isRequesting = true ∨ call.phase.isEnded = true) := by
  intro index hindex
  obtain ⟨call, hcall, hasked⟩ := h index hindex
  by_cases hsame : other = index
  · subst hsame
    cases hmoved.symm.trans hcall
    rcases hnext with hended | ⟨hidle, hrunning⟩
    · have hbound := (List.getElem?_eq_some_iff.mp hcall).1
      exact ⟨next, List.getElem?_set_self hbound, Or.inr hended⟩
    · rcases hasked with hrequesting | hended
      · cases hidle.symm.trans hrequesting
      · cases hrunning.symm.trans hended
  · exact ⟨call, (List.getElem?_set_ne hsame).trans hcall, hasked⟩

variable [DecidableEq Account]

def LoginCall.asks (account : Account) (call : LoginCall Account) : Bool :=
  decide (call.account = account) && call.phase.isRequesting

variable (parses : String → Bool)

/-- The device sign-ins of an account come one after another: at most one grant is asked
for or polled, its entry is pending while its background task runs, and only that task
removes it. -/
structure SignIns (s : DeviceLogins Account) : Prop where
  polled : ∀ (first second : Nat) (one other : DeviceGrant Account), s.grants[first]? = some one →
    s.grants[second]? = some other → one.phase.isPolling = true → other.phase.isPolling = true →
    one.account = other.account → first = second
  asked : ∀ account, s.calls.countP (LoginCall.asks account) ≤ 1
  apart : ∀ call ∈ s.calls, call.phase.isRequesting = true → ∀ grant ∈ s.grants, grant.account = call.account →
    grant.phase.isLive = false
  pending : ∀ account entry, s.pending account = some entry ↔
    ∃ grant ∈ s.grants, grant.account = account ∧ grant.phase.isLive = true ∧ pendingFrom grant.device = entry
  kept : ∀ action t, s.step parses action = some t → ∀ account entry, s.pending account = some entry →
    t.pending account = some entry ∨ ∃ index, action = .remove index ∧ s.inserted account = some index

/-- A check that finds no usable token while an entry is pending ends its call with that
entry, and the call asks for no grant. -/
def AnswersPending (s : DeviceLogins Account) : Prop :=
  ∀ index account starting entry,
    s.calls[index]? = some ⟨account, .checking (.deviceLogin starting) .looking⟩ → s.pending account = some entry →
    ∀ rest final, execute (DeviceLogins.step parses) (fun _ _ => true) (.look index :: rest) s = some final →
      final.calls[index]? = some ⟨account, .ended (some (.ok (.status (awaiting entry))))⟩ ∧ index ∉ final.requested

variable {parses} {s t : DeviceLogins Account} {action : LoginAction Account} {index : Nat} {call : LoginCall Account}

theorem isLive_of_isPolling {phase : GrantPhase} (h : phase.isPolling = true) : phase.isLive = true := by
  cases phase with
  | polling => rfl
  | approved => rfl
  | finishing => rfl
  | ended => cases h

theorem GrantsOwned.kept (h : GrantsOwned s) (hstep : LoginStep s action t) {account : Account}
    {entry : PendingDeviceLogin} (hentry : s.pending account = some entry) :
    t.pending account = some entry ∨ ∃ index, action = .remove index ∧ s.inserted account = some index := by
  cases hstep with
  | joined => exact Or.inl hentry
  | moved => exact Or.inl hentry
  | asked => exact Or.inl hentry
  | entered => exact Or.inl hentry
  | finished => exact Or.inl hentry
  | @granted _ owner hcall =>
    have hnone : s.pending owner = none := h.absent _ (List.mem_of_getElem? hcall) rfl
    have hne : account ≠ owner := by
      intro hsame
      rw [hsame, hnone] at hentry
      cases hentry
    exact Or.inl ((Function.update_of_ne hne _ _).trans hentry)
  | polled => exact Or.inl hentry
  | @removed index grant hgrant live removes =>
    by_cases hsame : account = grant.account
    · rw [hsame]
      exact Or.inr ⟨index, removes, (h.entry index grant hgrant live).2⟩
    · exact Or.inl ((Function.update_of_ne hsame _ _).trans hentry)
  | forgot => exact Or.inl hentry

theorem GrantsOwned.signIns (h : GrantsOwned s) (hstarts : StartsAlone s) : SignIns parses s := by
  refine ⟨fun first second one other hone hother hfirst hsecond hsame => ?_, fun account => ?_,
    fun call hcall hrequesting grant hgrant hsame => ?_, fun account entry => ⟨fun hentry => ?_, ?_⟩,
    fun action t hstep account entry hentry => h.kept (DeviceLogins.step_spec hstep) hentry⟩
  · have hinserted := (h.entry first one hone (isLive_of_isPolling hfirst)).2
    have hagain := (h.entry second other hother (isLive_of_isPolling hsecond)).2
    rw [← hsame] at hagain
    exact Option.some.inj (hinserted.symm.trans hagain)
  · have hcount : s.calls.countP (LoginCall.asks account) ≤ s.calls.countP (LoginCall.starts account) := by
      refine List.countP_mono_left fun call _ hasks => ?_
      obtain ⟨howner, hrequesting⟩ := Bool.and_eq_true_iff.mp hasks
      exact Bool.and_eq_true_iff.mpr ⟨howner, requesting_holds hrequesting⟩
    have hbound : (s.starting account).toNat ≤ 1 := Bool.toNat_le _
    have hheld := hstarts account
    omega
  · cases hlive : grant.phase.isLive with
    | false => rfl
    | true =>
      obtain ⟨index, hindex⟩ := List.mem_iff_getElem?.mp hgrant
      have hentry := (h.entry index grant hindex hlive).1
      rw [hsame, h.absent call hcall hrequesting] at hentry
      cases hentry
  · obtain ⟨index, grant, hgrant, howner, hlive⟩ := h.live account entry hentry
    have hown := (h.entry index grant hgrant hlive).1
    rw [howner, hentry] at hown
    exact ⟨grant, List.mem_of_getElem? hgrant, howner, hlive, (Option.some.inj hown).symm⟩
  · rintro ⟨grant, hgrant, howner, hlive, hown⟩
    obtain ⟨index, hindex⟩ := List.mem_iff_getElem?.mp hgrant
    rw [← howner, ← hown]
    exact (h.entry index grant hindex hlive).1

theorem LoginStep.ended (hstep : LoginStep s action t) (hcall : s.calls[index]? = some call)
    (hended : call.phase.isEnded = true) : t.calls[index]? = some call := by
  have hset : ∀ {other : Nat} {moved : LoginCall Account} (next : LoginCall Account), s.calls[other]? = some moved →
      moved.phase.isEnded = false → (s.calls.set other next)[index]? = some call := by
    intro other moved next hmoved hrunning
    have hne : other ≠ index := by
      intro hsame
      rw [hsame, hcall] at hmoved
      cases hmoved
      cases hended.symm.trans hrunning
    exact (List.getElem?_set_ne hne).trans hcall
  cases hstep with
  | joined =>
    have hbound := (List.getElem?_eq_some_iff.mp hcall).1
    exact (List.getElem?_append_left hbound).trans hcall
  | moved hmoved _ running => exact hset _ hmoved running
  | asked hmoved => exact hset _ hmoved rfl
  | entered hmoved => exact hset _ hmoved rfl
  | finished hmoved running => exact hset _ hmoved running
  | granted hmoved => exact hset _ hmoved rfl
  | polled => exact hcall
  | removed => exact hcall
  | forgot => exact hcall

theorem LoginStep.requested (hstep : LoginStep s action t) (hcall : s.calls[index]? = some call)
    (hended : call.phase.isEnded = true) (hnever : index ∉ s.requested) : index ∉ t.requested := by
  cases hstep with
  | @asked other _ hother =>
    intro hmem
    rcases List.mem_append.mp hmem with hold | hnew
    · exact hnever hold
    · rw [← List.mem_singleton.mp hnew, hcall] at hother
      cases hother
      cases hended
  | joined => exact hnever
  | moved => exact hnever
  | entered => exact hnever
  | finished => exact hnever
  | granted => exact hnever
  | polled => exact hnever
  | removed => exact hnever
  | forgot => exact hnever

theorem AskedOnce.step (h : AskedOnce s) (hstep : LoginStep s action t) : AskedOnce t := by
  cases hstep with
  | joined =>
    intro index hindex
    obtain ⟨call, hcall, hasked⟩ := h index hindex
    have hbound := (List.getElem?_eq_some_iff.mp hcall).1
    exact ⟨call, (List.getElem?_append_left hbound).trans hcall, hasked⟩
  | moved hcall _ running asks => exact h.set hcall (Or.inr ⟨asks, running⟩)
  | @asked index account hcall =>
    intro other hother
    rcases List.mem_append.mp hother with hold | hnew
    · exact h.set hcall (Or.inr ⟨rfl, rfl⟩) other hold
    · have hbound := (List.getElem?_eq_some_iff.mp hcall).1
      rw [List.mem_singleton.mp hnew]
      exact ⟨_, List.getElem?_set_self hbound, Or.inl rfl⟩
  | entered hcall => exact h.set hcall (Or.inr ⟨rfl, rfl⟩)
  | finished hcall => exact h.set hcall (Or.inl rfl)
  | granted hcall => exact h.set hcall (Or.inl rfl)
  | polled => exact h
  | removed => exact h
  | forgot => exact h

theorem AskedOnce.answers (h : AskedOnce s) : AnswersPending parses s := by
  intro index account starting entry hcall hentry rest final hrun
  obtain ⟨next, _, hlook, hrest⟩ := execute_cons hrun
  have hbound := (List.getElem?_eq_some_iff.mp hcall).1
  have hnever : index ∉ s.requested := by
    intro hindex
    obtain ⟨call, hfound, hasked⟩ := h index hindex
    cases hcall.symm.trans hfound
    rcases hasked with hrequesting | hended
    · cases hrequesting
    · cases hended
  have hnext : next.calls[index]? = some ⟨account, .ended (some (.ok (.status (awaiting entry))))⟩ ∧
      index ∉ next.requested := by
    simp only [DeviceLogins.step, DeviceLogins.look, hcall, hentry] at hlook
    cases hlook
    exact ⟨List.getElem?_set_self hbound, hnever⟩
  have hkept := execute_invariant (fun (state : DeviceLogins Account) action after
      (hkept : state.calls[index]? = some ⟨account, .ended (some (.ok (.status (awaiting entry))))⟩ ∧
        index ∉ state.requested) _ hstep => by
    have hspec := DeviceLogins.step_spec hstep
    exact ⟨hspec.ended hkept.1 rfl, hspec.requested hkept.1 rfl hkept.2⟩) hnext hrest
  exact hkept

/-- Whatever order the calls, the background tasks and the refreshes take their steps in,
the device sign-ins of an account come one after another. -/
theorem one_device_sign_in_at_a_time (parses : String → Bool) (tokens : Account → Option StoredTokens)
    (actions : List (LoginAction Account)) (final : DeviceLogins Account)
    (hrun : execute (DeviceLogins.step parses) (fun _ _ => true) actions { tokens } = some final) :
    SignIns parses final ∧ AnswersPending parses final := by
  have hstart : StartsAlone { tokens } ∧ GrantsOwned { tokens } ∧ AskedOnce { tokens } := by
    refine ⟨fun _ => rfl, ⟨fun _ _ hgrant => ?_, fun _ _ hentry => ?_, fun _ hcall => ?_⟩, fun _ hindex => ?_⟩
    · cases hgrant
    · cases hentry
    · cases hcall
    · cases hindex
  have hkept := execute_invariant (fun (state : DeviceLogins Account) action after
      (hkept : StartsAlone state ∧ GrantsOwned state ∧ AskedOnce state) _ hstep => by
    have hspec := DeviceLogins.step_spec hstep
    exact ⟨hkept.1.step hspec, hkept.2.1.step hkept.1 hspec, hkept.2.2.step hspec⟩) hstart hrun
  exact ⟨hkept.2.1.signIns hkept.1, hkept.2.2.answers⟩

end

section

def approveDevice : DeviceAuthorizationResponse where
  deviceCode := "device"
  userCode := "ABCD-EFGH"
  verificationUri := "https://idp.example/activate"
  verificationUriComplete := none
  expiresIn := 600
  interval := none

/-- Two calls find nothing; the second waits for the grant of the first and returns its code. -/
theorem one_device_sign_in_at_a_time_two_calls : ∃ final last,
    execute (DeviceLogins.step fun _ => true) (fun _ _ => true)
        [.deviceLogin (), .deviceLogin (), .load 0 0 (.ok ()), .look 0, .load 1 0 (.ok ()), .look 1, .lockStart 0,
          .load 0 0 (.ok ()), .look 0, .request 0 (.ok ("https://idp.example/token", approveDevice)), .lockStart 1,
          .load 1 0 (.ok ())]
        { tokens := fun _ => none } = some final ∧
      execute (DeviceLogins.step fun _ => true) (fun _ _ => true) [.look 1, .poll 0 (.error "denied"), .remove 0]
          final =
        some last ∧
      SignIns (fun _ => true) final ∧
      last.calls[1]? = some ⟨(), .ended (some (.ok (.status
        ⟨"awaitingAuthentication", some "https://idp.example/activate", some "ABCD-EFGH"⟩)))⟩ ∧
      1 ∉ last.requested := by
  have hrun : execute (DeviceLogins.step fun _ => true) (fun _ _ => true)
      [.deviceLogin (), .deviceLogin (), .load 0 0 (.ok ()), .look 0, .load 1 0 (.ok ()), .look 1, .lockStart 0,
        .load 0 0 (.ok ()), .look 0, .request 0 (.ok ("https://idp.example/token", approveDevice)), .lockStart 1,
        .load 1 0 (.ok ())]
      { tokens := fun _ => none } = some _ := rfl
  obtain ⟨hsignIns, hanswers⟩ := one_device_sign_in_at_a_time _ _ _ _ hrun
  exact ⟨_, _, hrun, rfl, hsignIns, hanswers 1 () true _ rfl rfl [.poll 0 (.error "denied"), .remove 0] _ rfl⟩

end

end AgentDesktop
