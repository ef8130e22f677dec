import AgentDesktop.EnrollmentSlots

namespace AgentDesktop

/-- Whether the request to the provider is in flight. -/
def DevicePhase.isCalling : DevicePhase → Bool
  | .calling => true
  | _ => false

def DevicePhase.isAnswered : DevicePhase → Bool
  | .answered _ => true
  | _ => false

def DevicePhase.isFailed : DevicePhase → Bool
  | .failed _ => true
  | _ => false

namespace Enrollments

/-- An id that was neither generated before nor guessed by a client. -/
def fresh (s : Enrollments) (enrollmentId : String) : Bool :=
  decide (enrollmentId ∉ s.issued) && s.completes.all fun call => decide (call.enrollmentId ≠ enrollmentId)

/-- The clock does not go back, ids are generated once, and a client knows an id only from
an answer. -/
def allowed (s : Enrollments) : EnrollmentAction → Bool
  | .tick later => decide (s.now ≤ later)
  | .begin _ _ enrollmentId _ _ => s.fresh enrollmentId
  | .beginDevice _ enrollmentId => s.fresh enrollmentId
  | .complete enrollmentId => decide (enrollmentId ∈ s.learned) || decide (enrollmentId ∉ s.issued)
  | _ => true

/-- No request to the provider is in flight for the lifetime of an enrollment. -/
def prompt (s : Enrollments) : EnrollmentAction → Bool
  | .tick later =>
    s.devices.all fun device => !device.phase.isCalling || decide (later < device.startedAt + enrollmentLifetime)
  | _ => true

end Enrollments

/-- What a step does to the clock, the pending entries, the calls and the ids. -/
inductive EnrollmentStep (s : Enrollments) (action : EnrollmentAction) : Enrollments → Prop where
  | ticked (later : Nat) (forward : s.now ≤ later) (ticks : action = .tick later) :
    EnrollmentStep s action { s with now := later }
  | refused (enrollmentId : String) (fresh : s.fresh enrollmentId = true)
    (pending : List (String × PendingEnrollment)) (prunes : pending = s.pending ∨ pending = s.unexpired) :
    EnrollmentStep s action { s with pending, issued := s.issued ++ [enrollmentId] }
  | begun (enrollmentId hostname nonce : String) (fresh : s.fresh enrollmentId = true)
    (room : s.unexpired.length < maxPendingEnrollments) :
    EnrollmentStep s action { s with
      pending := SortedMap.insert enrollmentId ⟨hostname, some nonce, s.now + enrollmentLifetime⟩ s.unexpired
      issued := s.issued ++ [enrollmentId]
      learned := s.learned ++ [enrollmentId] }
  | reserved (enrollmentId hostname : String) (fresh : s.fresh enrollmentId = true)
    (room : s.unexpired.length < maxPendingEnrollments) :
    EnrollmentStep s action { s with
      pending := SortedMap.insert enrollmentId ⟨hostname, none, s.now + enrollmentLifetime⟩ s.unexpired
      issued := s.issued ++ [enrollmentId]
      devices := s.devices ++ [⟨enrollmentId, s.now, .calling⟩] }
  | moved {index : Nat} {device : DeviceEnrollment} (hdevice : s.devices[index]? = some device) (phase : DevicePhase)
    (ends : phase.isCalling = false) (before : device.phase.isAnswered = false) (fails : phase.isFailed = false) :
    EnrollmentStep s action (s.setDevice index device phase)
  | narrowed {index : Nat} {device : DeviceEnrollment} (hdevice : s.devices[index]? = some device)
    (ended : device.phase.isCalling = false) (response : BeginEnrollmentResponse) (lifetime : Nat) :
    EnrollmentStep s action { (s.setPendingExpiry device.enrollmentId lifetime).setDevice index device
      (.answered response) with learned := s.learned ++ [device.enrollmentId] }
  | released {index : Nat} {device : DeviceEnrollment} (hdevice : s.devices[index]? = some device)
    (ended : device.phase.isCalling = false) (before : device.phase.isAnswered = false) (message : String) :
    EnrollmentStep s action ((s.releasePending device.enrollmentId).setDevice index device (.failed message))
  | joined (enrollmentId : String) (known : enrollmentId ∈ s.learned ∨ enrollmentId ∉ s.issued) :
    EnrollmentStep s action { s with completes := s.completes ++ [⟨enrollmentId, .waiting⟩] }
  | missed {index : Nat} {call : CompleteCall} (hcall : s.completes[index]? = some call) (message : String) :
    EnrollmentStep s action (s.setComplete index call (.failed message))
  | taken {index : Nat} {enrollmentId : String} (hcall : s.completes[index]? = some ⟨enrollmentId, .waiting⟩)
    {pending : PendingEnrollment} (found : s.pending.lookup enrollmentId = some pending) :
    EnrollmentStep s action ((s.releasePending enrollmentId).setComplete index ⟨enrollmentId, .waiting⟩
      (.checking pending))
  | passed {index : Nat} {enrollmentId : String} {pending : PendingEnrollment}
    (hcall : s.completes[index]? = some ⟨enrollmentId, .checking pending⟩) (early : s.now < pending.expiresAt) :
    EnrollmentStep s action (s.setComplete index ⟨enrollmentId, .checking pending⟩ (.passed pending s.now))

namespace Enrollments

variable {s t : Enrollments} {action : EnrollmentAction} {provider : OidcProvider}

/-- An insertion prunes and is refused, or finds room. -/
theorem insertPending_spec (enrollmentId hostname : String) (nonce : Option String) (lifetime : Nat) (s : Enrollments) :
    (∃ message, s.insertPending enrollmentId hostname nonce lifetime =
        ({ s with pending := s.unexpired }, .error message)) ∨
      s.unexpired.length < maxPendingEnrollments ∧
        s.insertPending enrollmentId hostname nonce lifetime =
          ({ s with pending := SortedMap.insert enrollmentId ⟨hostname, nonce, s.now + lifetime⟩ s.unexpired },
            .ok ()) := by
  unfold insertPending
  split
  next => exact Or.inl ⟨_, rfl⟩
  next hroom => exact Or.inr ⟨by omega, rfl⟩

theorem begin_spec {hostname codeChallenge enrollmentId state nonce : String} (hfresh : s.fresh enrollmentId = true)
    (h : s.step provider (.begin hostname codeChallenge enrollmentId state nonce) = some t) :
    EnrollmentStep s action t := by
  have hkept : ∀ message, s.begin provider hostname codeChallenge enrollmentId state nonce = (s, .error message) →
      EnrollmentStep s action t := by
    intro message hbegin
    simp only [step, hbegin] at h
    cases h
    exact .refused enrollmentId hfresh s.pending (Or.inl rfl)
  by_cases hblank : isBlank hostname = true
  · exact hkept "hostname is required" (by simp [begin, hblank])
  · by_cases hchallenge : isCodeChallenge codeChallenge = true
    · rcases insertPending_spec enrollmentId hostname (some nonce) enrollmentLifetime s with
        ⟨message, hinsert⟩ | ⟨hroom, hinsert⟩
      · simp only [step, begin, hblank, hchallenge, hinsert, Bool.false_eq_true, if_false, Bool.not_true] at h
        cases h
        exact .refused enrollmentId hfresh s.unexpired (Or.inr rfl)
      · simp only [step, begin, hblank, hchallenge, hinsert, Bool.false_eq_true, if_false, Bool.not_true] at h
        cases h
        exact .begun enrollmentId hostname nonce hfresh hroom
    · exact hkept "invalid PKCE code challenge" (by simp [begin, hblank, hchallenge])

theorem beginDevice_spec {hostname enrollmentId : String} (hfresh : s.fresh enrollmentId = true)
    (h : s.step provider (.beginDevice hostname enrollmentId) = some t) : EnrollmentStep s action t := by
  have hkept : ∀ message, s.beginDevice provider hostname enrollmentId = (s, .error message) →
      EnrollmentStep s action t := by
    intro message hbegin
    simp only [step, hbegin] at h
    cases h
    exact .refused enrollmentId hfresh s.pending (Or.inl rfl)
  by_cases hblank : isBlank hostname = true
  · exact hkept "hostname is required" (by simp [beginDevice, hblank])
  · cases hendpoint : provider.deviceAuthorizationEndpoint with
    | none =>
      exact hkept "OIDC provider does not support device authorization" (by simp [beginDevice, hblank, hendpoint])
    | some endpoint =>
      rcases insertPending_spec enrollmentId hostname none enrollmentLifetime s with
        ⟨message, hinsert⟩ | ⟨hroom, hinsert⟩
      · simp only [step, beginDevice, hblank, hendpoint, hinsert, Bool.false_eq_true, if_false] at h
        cases h
        exact .refused enrollmentId hfresh s.unexpired (Or.inr rfl)
      · simp only [step, beginDevice, hblank, hendpoint, hinsert, Bool.false_eq_true, if_false] at h
        cases h
        exact .reserved enrollmentId hostname hfresh hroom

variable {index : Nat}

theorem answer_spec {response : Except String DeviceAuthorizationResponse}
    (h : s.answer provider index response = some t) : EnrollmentStep s action t := by
  unfold answer at h
  split at h
  next hdevice =>
    dsimp only at h
    split at h
    next message _ =>
      cases h
      exact .moved hdevice (.releasing message) rfl rfl rfl
    next response lifetime _ =>
      cases h
      exact .moved hdevice (.narrowing response lifetime) rfl rfl rfl
  next => cases h

theorem settle_spec (h : s.settle index = some t) : EnrollmentStep s action t := by
  unfold settle at h
  split at h
  next response lifetime hdevice =>
    cases h
    exact .narrowed hdevice rfl response lifetime
  next message hdevice =>
    cases h
    exact .released hdevice rfl rfl message
  next => cases h

theorem drop_spec (h : s.drop index = some t) : EnrollmentStep s action t := by
  unfold drop at h
  split at h
  next hdevice =>
    cases h
    exact .moved hdevice .dropped rfl rfl rfl
  next hdevice =>
    cases h
    exact .moved hdevice .dropped rfl rfl rfl
  next hdevice =>
    cases h
    exact .moved hdevice .dropped rfl rfl rfl
  next => cases h

theorem take_spec (h : s.take index = some t) : EnrollmentStep s action t := by
  unfold take at h
  split at h
  next hcall =>
    dsimp only at h
    split at h
    next =>
      cases h
      exact .missed hcall _
    next hfound =>
      cases h
      exact .taken hcall hfound
  next => cases h

theorem check_spec (h : s.check index = some t) : EnrollmentStep s action t := by
  unfold check at h
  split at h
  next hcall =>
    dsimp only at h
    split at h
    next =>
      cases h
      exact .missed hcall _
    next hearly =>
      cases h
      exact .passed hcall (by omega)
  next => cases h

theorem step_spec (hallowed : s.allowed action = true) (h : s.step provider action = some t) :
    EnrollmentStep s action t := by
  cases action with
  | tick later =>
    cases h
    exact .ticked later (of_decide_eq_true hallowed) rfl
  | begin => exact begin_spec hallowed h
  | beginDevice => exact beginDevice_spec hallowed h
  | answer => exact answer_spec h
  | settle => exact settle_spec h
  | drop => exact drop_spec h
  | complete enrollmentId =>
    cases h
    have hknown := Bool.or_eq_true_iff.mp hallowed
    exact .joined enrollmentId (hknown.imp of_decide_eq_true of_decide_eq_true)
  | take => exact take_spec h
  | check => exact check_spec h

end Enrollments

end AgentDesktop
