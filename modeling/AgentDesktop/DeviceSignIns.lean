import AgentDesktop.DeviceLoginRuns
import AgentDesktop.Transitions

namespace AgentDesktop

variable {Account : Type}

/-- A pending entry is that of the one grant with a background task, and no other is asked
for meanwhile. -/
structure GrantsOwned (s : DeviceLogins Account) : Prop where
  entry : ∀ index grant, s.grants[index]? = some grant → grant.phase.isLive = true →
    s.pending grant.account = some (pendingFrom grant.device) ∧ s.inserted grant.account = some index
  live : ∀ account entry, s.pending account = some entry →
    ∃ (index : Nat) (grant : DeviceGrant Account), s.grants[index]? = some grant ∧ grant.account = account ∧
      grant.phase.isLive = true
  absent : ∀ call ∈ s.calls, call.phase.isRequesting = true → s.pending call.account = none

variable {s t : DeviceLogins Account} {action : LoginAction Account} {account : Account} {index : Nat}
  {call : LoginCall Account}

theorem requesting_holds {phase : LoginPhase} (h : phase.isRequesting = true) : phase.holdsStart = true := by
  cases phase with
  | requesting => rfl
  | checking => cases h
  | browsing => cases h
  | queued => cases h
  | ended => cases h

namespace GrantsOwned

theorem of_calls (h : GrantsOwned s) (hgrants : t.grants = s.grants) (hpending : t.pending = s.pending)
    (hinserted : t.inserted = s.inserted)
    (habsent : ∀ call ∈ t.calls, call.phase.isRequesting = true → s.pending call.account = none) : GrantsOwned t := by
  refine ⟨?_, ?_, ?_⟩
  · rw [hgrants, hpending, hinserted]
    exact h.entry
  · rw [hgrants, hpending]
    exact h.live
  · rw [hpending]
    exact habsent

theorem absent_set (h : GrantsOwned s) {phase : LoginPhase} (hidle : phase.isRequesting = false) (owner : Account) :
    ∀ other ∈ s.calls.set index ⟨owner, phase⟩, other.phase.isRequesting = true → s.pending other.account = none := by
  intro other hother hrequesting
  rcases List.mem_or_eq_of_mem_set hother with hold | hnew
  · exact h.absent other hold hrequesting
  · rw [hnew, hidle] at hrequesting
    cases hrequesting

theorem poll (h : GrantsOwned s) {grant : DeviceGrant Account} (hgrant : s.grants[index]? = some grant)
    (phase : GrantPhase) (hlive : grant.phase.isLive = true) (hstays : phase.isLive = true)
    (tokens : Account → Option StoredTokens) :
    GrantsOwned { s with tokens, grants := s.grants.set index { grant with phase } } := by
  have hlength := (List.getElem?_eq_some_iff.mp hgrant).1
  refine ⟨fun position other hother hotherLive => ?_, fun owner entry hentry => ?_, h.absent⟩
  · by_cases hsame : index = position
    · subst hsame
      rw [List.getElem?_set_self hlength] at hother
      cases hother
      exact h.entry index grant hgrant hlive
    · rw [List.getElem?_set_ne hsame] at hother
      exact h.entry position other hother hotherLive
  · obtain ⟨position, other, hother, howner, hotherLive⟩ := h.live owner entry hentry
    by_cases hsame : index = position
    · subst hsame
      cases hother.symm.trans hgrant
      exact ⟨index, _, List.getElem?_set_self hlength, howner, hstays⟩
    · exact ⟨position, other, (List.getElem?_set_ne hsame).trans hother, howner, hotherLive⟩

variable [DecidableEq Account]

/-- Nobody asks for a grant of an account after the call that held its start lock. -/
theorem nobody_requests (h : StartsAlone s) (hcall : s.calls[index]? = some call)
    (hholds : call.phase.holdsStart = true) (answer : Option (Except LoginError LoginAnswer))
    {other : LoginCall Account} (hother : other ∈ (s.finish index call answer).calls)
    (hrequesting : other.phase.isRequesting = true) : other.account ≠ call.account := by
  intro hsame
  have hcount := h.finish hcall answer call.account
  have hfree : (s.finish index call answer).starting call.account = false := by
    simp [DeviceLogins.finish, hholds]
  rw [hfree] at hcount
  have hnone := List.countP_eq_zero.mp hcount other hother
  exact hnone (by simp [LoginCall.starts, hsame, requesting_holds hrequesting])

theorem grant (h : GrantsOwned s) (hstarts : StartsAlone s) (hcall : s.calls[index]? = some ⟨account, .requesting⟩)
    (tokenEndpoint : String) (device : DeviceAuthorizationResponse) (answer : Option (Except LoginError LoginAnswer)) :
    GrantsOwned ((s.start account tokenEndpoint device).finish index ⟨account, .requesting⟩ answer) := by
  have hnone : s.pending account = none := h.absent _ (List.mem_of_getElem? hcall) rfl
  refine ⟨fun position grant hgrant hlive => ?_, fun owner entry hentry => ?_, fun other hother hrequesting => ?_⟩
  · simp only [DeviceLogins.finish, DeviceLogins.setPhase, DeviceLogins.start] at hgrant ⊢
    by_cases hold : position < s.grants.length
    · rw [List.getElem?_append_left hold] at hgrant
      obtain ⟨hpending, hinserted⟩ := h.entry position grant hgrant hlive
      have hne : grant.account ≠ account := by
        intro hsame
        rw [hsame, hnone] at hpending
        cases hpending
      rw [Function.update_of_ne hne, Function.update_of_ne hne]
      exact ⟨hpending, hinserted⟩
    · have hlast : position = s.grants.length := by
        have hbound := (List.getElem?_eq_some_iff.mp hgrant).1
        rw [List.length_append, List.length_singleton] at hbound
        omega
      subst hlast
      rw [List.getElem?_concat_length] at hgrant
      cases hgrant
      exact ⟨Function.update_self .., Function.update_self ..⟩
  · simp only [DeviceLogins.finish, DeviceLogins.setPhase, DeviceLogins.start] at hentry ⊢
    by_cases hsame : owner = account
    · exact ⟨s.grants.length, _, List.getElem?_concat_length, hsame.symm, rfl⟩
    · rw [Function.update_of_ne hsame] at hentry
      obtain ⟨position, grant, hgrant, howner, hlive⟩ := h.live owner entry hentry
      have hbound := (List.getElem?_eq_some_iff.mp hgrant).1
      exact ⟨position, grant, (List.getElem?_append_left hbound).trans hgrant, howner, hlive⟩
  · have hsame : StartsAlone (s.start account tokenEndpoint device) := hstarts
    have hne := nobody_requests hsame hcall rfl answer hother hrequesting
    simp only [DeviceLogins.finish, DeviceLogins.setPhase, DeviceLogins.start] at hother ⊢
    rw [Function.update_of_ne hne]
    exact h.absent_set rfl account other hother hrequesting

/-- The task that ends removes its own entry. -/
theorem remove (h : GrantsOwned s) {grant : DeviceGrant Account} (hgrant : s.grants[index]? = some grant)
    (hlive : grant.phase.isLive = true) :
    GrantsOwned { s with
      pending := Function.update s.pending grant.account none
      grants := s.grants.set index { grant with phase := .ended } } := by
  have hlength := (List.getElem?_eq_some_iff.mp hgrant).1
  have hinserted := (h.entry index grant hgrant hlive).2
  refine ⟨fun position other hother hotherLive => ?_, fun owner entry hentry => ?_, fun call hcall hrequesting => ?_⟩
  · by_cases hsame : index = position
    · subst hsame
      rw [List.getElem?_set_self hlength] at hother
      cases hother
      cases hotherLive
    · rw [List.getElem?_set_ne hsame] at hother
      obtain ⟨hpending, hinsertedOther⟩ := h.entry position other hother hotherLive
      have hne : other.account ≠ grant.account := by
        intro howner
        rw [howner] at hinsertedOther
        exact hsame (Option.some.inj (hinserted.symm.trans hinsertedOther))
      simp only [Function.update_of_ne hne]
      exact ⟨hpending, hinsertedOther⟩
  · have hne : owner ≠ grant.account := by
      intro howner
      simp only [howner, Function.update_self] at hentry
      cases hentry
    simp only [Function.update_of_ne hne] at hentry
    obtain ⟨position, other, hother, howner, hotherLive⟩ := h.live owner entry hentry
    have hposition : index ≠ position := by
      intro hsame
      subst hsame
      cases hother.symm.trans hgrant
      exact hne howner.symm
    exact ⟨position, other, (List.getElem?_set_ne hposition).trans hother, howner, hotherLive⟩
  · by_cases hsame : call.account = grant.account
    · simp only [hsame, Function.update_self]
    · simp only [Function.update_of_ne hsame]
      exact h.absent call hcall hrequesting

theorem step (h : GrantsOwned s) (hstarts : StartsAlone s) (hstep : LoginStep s action t) : GrantsOwned t := by
  cases hstep with
  | joined account check =>
    refine h.of_calls rfl rfl rfl fun call hcall hrequesting => ?_
    rcases List.mem_append.mp hcall with hold | hnew
    · exact h.absent call hold hrequesting
    · rw [List.mem_singleton.mp hnew] at hrequesting
      cases hrequesting
  | moved _ _ _ _ idle => exact h.of_calls rfl rfl rfl (h.absent_set idle _)
  | asked hcall absent =>
    refine h.of_calls rfl rfl rfl fun call hcall hrequesting => ?_
    rcases List.mem_or_eq_of_mem_set hcall with hold | hnew
    · exact h.absent call hold hrequesting
    · rw [hnew]
      exact absent
  | entered => exact h.of_calls rfl rfl rfl (h.absent_set rfl _)
  | finished => exact h.of_calls rfl rfl rfl (h.absent_set rfl _)
  | granted hcall tokenEndpoint device answer => exact h.grant hstarts hcall tokenEndpoint device answer
  | polled hgrant phase live stays tokens => exact h.poll hgrant phase live stays tokens
  | removed hgrant live _ => exact h.remove hgrant live
  | forgot => exact h.of_calls rfl rfl rfl h.absent

end GrantsOwned

end AgentDesktop
