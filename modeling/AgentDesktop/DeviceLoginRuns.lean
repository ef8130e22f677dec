import AgentDesktop.DeviceLoginSteps
import AgentDesktop.ListAt

namespace AgentDesktop

variable {Account : Type} [DecidableEq Account]

def LoginCall.starts (account : Account) (call : LoginCall Account) : Bool :=
  decide (call.account = account) && call.phase.holdsStart

/-- At most one call holds the start lock of an account. -/
def StartsAlone (s : DeviceLogins Account) : Prop :=
  ∀ account, s.calls.countP (LoginCall.starts account) = (s.starting account).toNat

variable {s t : DeviceLogins Account} {action : LoginAction Account} {account : Account} {index : Nat}
  {call : LoginCall Account}

theorem starts_congr {phase : LoginPhase} (h : phase.holdsStart = call.phase.holdsStart) :
    LoginCall.starts account { call with phase } = call.starts account := by
  unfold LoginCall.starts
  rw [h]

theorem starts_free {phase : LoginPhase} (h : phase.holdsStart = false) (owner : Account) :
    LoginCall.starts account ⟨owner, phase⟩ = false := by
  unfold LoginCall.starts
  rw [h, Bool.and_false]

namespace StartsAlone

theorem setPhase (h : StartsAlone s) (hcall : s.calls[index]? = some call) {phase : LoginPhase}
    (hholds : phase.holdsStart = call.phase.holdsStart) : StartsAlone (s.setPhase index call phase) := by
  intro account
  have hcount := countP_set_at hcall { call with phase } (LoginCall.starts account)
  have hbefore := h account
  rw [starts_congr hholds] at hcount
  simp only [DeviceLogins.setPhase]
  omega

theorem finish (h : StartsAlone s) (hcall : s.calls[index]? = some call)
    (answer : Option (Except LoginError LoginAnswer)) : StartsAlone (s.finish index call answer) := by
  intro account
  have hcount := countP_set_at hcall ⟨call.account, .ended answer⟩ (LoginCall.starts account)
  have hbefore := h account
  have hfree : LoginCall.starts account ⟨call.account, .ended answer⟩ = false := starts_free rfl call.account
  rw [hfree] at hcount
  simp only [DeviceLogins.finish, DeviceLogins.setPhase]
  by_cases hholds : call.phase.holdsStart = true
  · rw [if_pos hholds]
    by_cases hsame : account = call.account
    · have hone : call.starts account = true := by simp [LoginCall.starts, hholds, hsame]
      have hbound : (s.starting account).toNat ≤ 1 := Bool.toNat_le _
      rw [hsame, Function.update_self]
      rw [hsame] at hcount hbefore hone hbound
      simp only [hone, Bool.toNat_true, Bool.toNat_false] at hcount ⊢
      omega
    · have hnone : call.starts account = false := by simp [LoginCall.starts, Ne.symm hsame]
      rw [Function.update_of_ne hsame]
      simp only [hnone, Bool.toNat_false] at hcount
      omega
  · have hnone : call.starts account = false := by simp [LoginCall.starts, hholds]
    rw [if_neg hholds]
    simp only [hnone, Bool.toNat_false] at hcount
    omega

theorem enter (h : StartsAlone s) (hcall : s.calls[index]? = some ⟨account, .queued⟩)
    (hfree : s.starting account = false) :
    StartsAlone ({ s with starting := Function.update s.starting account true }.setPhase index ⟨account, .queued⟩
      (.checking (.deviceLogin true) .waiting)) := by
  intro other
  have hcount := countP_set_at hcall ⟨account, .checking (.deviceLogin true) .waiting⟩ (LoginCall.starts other)
  have hbefore := h other
  rw [starts_free rfl account] at hcount
  simp only [DeviceLogins.setPhase]
  by_cases hsame : other = account
  · have hone : LoginCall.starts other ⟨account, .checking (.deviceLogin true) .waiting⟩ = true := by
      simp [LoginCall.starts, hsame, LoginPhase.holdsStart]
    rw [hsame, hfree] at hbefore
    rw [hsame, Function.update_self]
    rw [hsame] at hone hcount
    simp only [hone, Bool.toNat_true, Bool.toNat_false] at hcount hbefore ⊢
    omega
  · have hnone : LoginCall.starts other ⟨account, .checking (.deviceLogin true) .waiting⟩ = false := by
      simp [LoginCall.starts, Ne.symm hsame]
    rw [Function.update_of_ne hsame]
    simp only [hnone, Bool.toNat_false] at hcount
    omega

theorem step (h : StartsAlone s) (hstep : LoginStep s action t) : StartsAlone t := by
  cases hstep with
  | joined owner check free =>
    intro account
    have hholds : (LoginPhase.checking check .waiting).holdsStart = false := by
      cases check with
      | credential => rfl
      | deviceLogin starting =>
        cases starting with
        | false => rfl
        | true => exact absurd rfl free
    rw [List.countP_append, List.countP_singleton, starts_free hholds owner]
    exact h account
  | moved hcall phase _ _ _ holds login =>
    have hsame : StartsAlone { s with login } := h
    exact hsame.setPhase hcall holds
  | @asked index _ hcall =>
    have hsame : StartsAlone { s with login := false, requested := s.requested ++ [index] } := h
    exact hsame.setPhase hcall rfl
  | entered hcall free => exact h.enter hcall free
  | finished hcall _ tokens answer =>
    have hsame : StartsAlone { s with tokens } := h
    exact hsame.finish hcall answer
  | @granted _ account hcall tokenEndpoint device answer =>
    have hsame : StartsAlone (s.start account tokenEndpoint device) := h
    exact hsame.finish hcall answer
  | polled => exact h
  | removed => exact h
  | forgot => exact h

end StartsAlone

end AgentDesktop
