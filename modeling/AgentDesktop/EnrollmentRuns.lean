import AgentDesktop.EnrollmentSteps
import AgentDesktop.ListAt

namespace AgentDesktop

/-- The call has taken the pending entry and was not refused. -/
def CompletePhase.took : CompletePhase → Bool
  | .checking _ => true
  | .passed _ _ => true
  | _ => false

def CompleteCall.took (enrollmentId : String) (call : CompleteCall) : Bool :=
  decide (call.enrollmentId = enrollmentId) && call.phase.took

/-- No more entries, and none under another id. -/
structure Fewer (after before : List (String × PendingEnrollment)) : Prop where
  length : after.length ≤ before.length
  absent : ∀ enrollmentId, before.lookup enrollmentId = none → after.lookup enrollmentId = none

/-- The entries are bounded, each stands for one generated id, and is taken once and before
it expires. -/
structure Slotted (s : Enrollments) : Prop where
  bounded : s.pending.length ≤ maxPendingEnrollments
  issued : ∀ enrollmentId, enrollmentId ∉ s.issued → s.pending.lookup enrollmentId = none
  taken : ∀ call ∈ s.completes, call.phase.took = true → call.enrollmentId ∈ s.issued
  once : ∀ enrollmentId, s.completes.countP (CompleteCall.took enrollmentId) +
    (s.pending.lookup enrollmentId).isSome.toNat ≤ 1
  early : ∀ call ∈ s.completes, ∀ pending time, call.phase = .passed pending time → time < pending.expiresAt
  devices : ∀ device ∈ s.devices, device.enrollmentId ∈ s.issued
  failed : ∀ device ∈ s.devices, device.phase.isFailed = true → s.pending.lookup device.enrollmentId = none

variable {s t : Enrollments} {action : EnrollmentAction} {enrollmentId : String}

theorem lookup_filter_none {pending : List (String × PendingEnrollment)} (p : String × PendingEnrollment → Bool)
    (h : pending.lookup enrollmentId = none) : (pending.filter p).lookup enrollmentId = none := by
  rw [List.lookup_eq_none_iff] at h ⊢
  intro entry hentry
  exact h entry (List.mem_of_mem_filter hentry)

theorem Fewer.filter (pending : List (String × PendingEnrollment)) (p : String × PendingEnrollment → Bool) :
    Fewer (pending.filter p) pending :=
  ⟨List.length_filter_le _ _, fun _ => lookup_filter_none p⟩

/-- An entry with another expiry stays under its id. -/
theorem lookup_setPendingExpiry (enrollmentId other : String) (lifetime : Nat) (s : Enrollments) :
    (s.setPendingExpiry enrollmentId lifetime).pending.lookup other =
      (s.pending.lookup other).map fun entry =>
        if other = enrollmentId then { entry with expiresAt := s.now + lifetime } else entry := by
  simp only [Enrollments.setPendingExpiry]
  induction s.pending with
  | nil => rfl
  | cons entry rest ih =>
    obtain ⟨key, value⟩ := entry
    rw [List.map_cons]
    by_cases hkey : key = enrollmentId
    · rw [if_pos hkey, SortedMap.lookup_cons_ite, SortedMap.lookup_cons_ite, ih]
      by_cases hsame : other = key
      · rw [if_pos hsame, if_pos hsame, Option.map_some, if_pos (hsame.trans hkey)]
      · rw [if_neg hsame, if_neg hsame]
    · rw [if_neg hkey, SortedMap.lookup_cons_ite, SortedMap.lookup_cons_ite, ih]
      by_cases hsame : other = key
      · rw [if_pos hsame, if_pos hsame, Option.map_some, if_neg (hsame ▸ hkey)]
      · rw [if_neg hsame, if_neg hsame]

theorem fewer_setPendingExpiry (enrollmentId : String) (lifetime : Nat) (s : Enrollments) :
    Fewer (s.setPendingExpiry enrollmentId lifetime).pending s.pending := by
  refine ⟨(List.length_map _).le, fun other hnone => ?_⟩
  rw [lookup_setPendingExpiry, hnone]
  rfl

theorem fresh_iff : s.fresh enrollmentId = true ↔
    enrollmentId ∉ s.issued ∧ ∀ call ∈ s.completes, call.enrollmentId ≠ enrollmentId := by
  simp [Enrollments.fresh]

namespace Slotted

/-- Entries may go away at any time. -/
theorem fewer (h : Slotted s) {pending : List (String × PendingEnrollment)} (hfewer : Fewer pending s.pending) :
    Slotted { s with pending } := by
  refine { h with
    bounded := hfewer.length.trans h.bounded
    issued := fun enrollmentId hnew => hfewer.absent enrollmentId (h.issued enrollmentId hnew)
    once := fun enrollmentId => ?_
    failed := fun device hdevice hfailed => hfewer.absent _ (h.failed device hdevice hfailed) }
  have hone := h.once enrollmentId
  cases hbefore : s.pending.lookup enrollmentId with
  | none =>
    rw [hbefore] at hone
    rw [hfewer.absent enrollmentId hbefore]
    exact hone
  | some entry =>
    rw [hbefore] at hone
    have hbound : (pending.lookup enrollmentId).isSome.toNat ≤ 1 := Bool.toNat_le _
    simp only [Option.isSome_some, Bool.toNat_true] at hone ⊢
    omega

theorem issue (h : Slotted s) (enrollmentId : String) : Slotted { s with issued := s.issued ++ [enrollmentId] } := by
  refine { h with
    issued := fun other hnew => h.issued other fun hold => hnew (List.mem_append_left _ hold)
    taken := fun call hcall htook => List.mem_append_left _ (h.taken call hcall htook)
    devices := fun device hdevice => List.mem_append_left _ (h.devices device hdevice) }

/-- A new entry under a fresh id. -/
theorem reserve (h : Slotted s) (hfresh : s.fresh enrollmentId = true)
    (hroom : s.unexpired.length < maxPendingEnrollments) (entry : PendingEnrollment) :
    Slotted { s with
      pending := SortedMap.insert enrollmentId entry s.unexpired
      issued := s.issued ++ [enrollmentId] } := by
  obtain ⟨hnew, hunknown⟩ := fresh_iff.mp hfresh
  have hpruned : Slotted { s with pending := s.unexpired } := h.fewer (Fewer.filter _ _)
  have hissued := hpruned.issue enrollmentId
  refine { hissued with
    bounded := ?_
    issued := fun other hother => ?_
    once := fun other => ?_
    failed := fun device hdevice hfailed => ?_ }
  · have hlength := SortedMap.length_insert_le enrollmentId entry s.unexpired
    simp only
    omega
  · have hne : other ≠ enrollmentId := by
      intro hsame
      exact hother (hsame ▸ List.mem_append_right _ (List.mem_singleton_self _))
    rw [SortedMap.lookup_insert_ne hne]
    exact hissued.issued other hother
  · by_cases hsame : other = enrollmentId
    · have hnone : s.completes.countP (CompleteCall.took other) = 0 := by
        rw [List.countP_eq_zero]
        intro call hcall htook
        have hid := of_decide_eq_true (Bool.and_eq_true_iff.mp htook).1
        exact hunknown call hcall (hid.trans hsame)
      have hbound : ((SortedMap.insert enrollmentId entry s.unexpired).lookup other).isSome.toNat ≤ 1 :=
        Bool.toNat_le _
      simp only [hnone]
      omega
    · rw [SortedMap.lookup_insert_ne hsame]
      exact hissued.once other
  · have hne : device.enrollmentId ≠ enrollmentId := by
      intro hsame
      exact hnew (hsame ▸ h.devices device hdevice)
    rw [SortedMap.lookup_insert_ne hne]
    exact hissued.failed device hdevice hfailed

theorem setDevice (h : Slotted s) {index : Nat} {device : DeviceEnrollment}
    (hdevice : s.devices[index]? = some device) (phase : DevicePhase)
    (hfailed : phase.isFailed = true → s.pending.lookup device.enrollmentId = none) :
    Slotted (s.setDevice index device phase) := by
  have hmem := List.mem_of_getElem? hdevice
  refine { h with
    devices := fun other hother => ?_
    failed := fun other hother hfails => ?_ }
  · rcases List.mem_or_eq_of_mem_set hother with hold | hnew
    · exact h.devices other hold
    · rw [hnew]
      exact h.devices device hmem
  · rcases List.mem_or_eq_of_mem_set hother with hold | hnew
    · exact h.failed other hold hfails
    · rw [hnew] at hfails ⊢
      exact hfailed hfails

/-- A call of `complete` that moves on, with the entry it may have taken. -/
theorem setComplete (h : Slotted s) {index : Nat} {call : CompleteCall} (hcall : s.completes[index]? = some call)
    (phase : CompletePhase) (htook : phase.took = true → call.phase.took = true)
    (hearly : ∀ pending time, phase = .passed pending time → time < pending.expiresAt) :
    Slotted (s.setComplete index call phase) := by
  have hmem := List.mem_of_getElem? hcall
  refine { h with
    taken := fun other hother hothertook => ?_
    once := fun enrollmentId => ?_
    early := fun other hother pending time hpassed => ?_ }
  · rcases List.mem_or_eq_of_mem_set hother with hold | hnew
    · exact h.taken other hold hothertook
    · rw [hnew] at hothertook ⊢
      exact h.taken call hmem (htook hothertook)
  · have hcount := countP_set_at hcall { call with phase } (CompleteCall.took enrollmentId)
    have hone := h.once enrollmentId
    have hless : (CompleteCall.took enrollmentId { call with phase }).toNat ≤ (call.took enrollmentId).toNat := by
      simp only [CompleteCall.took]
      cases hphase : phase.took with
      | false => simp
      | true => rw [htook hphase]
    simp only [Enrollments.setComplete]
    omega
  · rcases List.mem_or_eq_of_mem_set hother with hold | hnew
    · exact h.early other hold pending time hpassed
    · rw [hnew] at hpassed
      exact hearly pending time hpassed

theorem take (h : Slotted s) {index : Nat} (hcall : s.completes[index]? = some ⟨enrollmentId, .waiting⟩)
    {pending : PendingEnrollment} (hfound : s.pending.lookup enrollmentId = some pending) :
    Slotted ((s.releasePending enrollmentId).setComplete index ⟨enrollmentId, .waiting⟩ (.checking pending)) := by
  have hreleased : Slotted (s.releasePending enrollmentId) := h.fewer (Fewer.filter _ _)
  refine { hreleased with
    taken := fun other hother htook => ?_
    once := fun other => ?_
    early := fun other hother _ _ hpassed => ?_ }
  · rcases List.mem_or_eq_of_mem_set hother with hold | hnew
    · exact h.taken other hold htook
    · rw [hnew]
      by_contra hunissued
      cases (h.issued enrollmentId hunissued).symm.trans hfound
  · have hcount := countP_set_at hcall ⟨enrollmentId, .checking pending⟩ (CompleteCall.took other)
    have hone := h.once other
    simp only [Enrollments.setComplete, Enrollments.releasePending, SortedMap.lookup_erase]
    by_cases hsame : other = enrollmentId
    · have hbefore : CompleteCall.took other ⟨enrollmentId, .waiting⟩ = false := by
        simp [CompleteCall.took, CompletePhase.took]
      have hafter : CompleteCall.took other ⟨enrollmentId, .checking pending⟩ = true := by
        simp [CompleteCall.took, CompletePhase.took, hsame]
      rw [hbefore, hafter] at hcount
      rw [hsame] at hone hcount ⊢
      rw [if_pos rfl]
      simp only [hfound, Option.isSome_some, Option.isSome_none, Bool.toNat_true, Bool.toNat_false] at hone hcount ⊢
      omega
    · have hbefore : ∀ phase, CompleteCall.took other ⟨enrollmentId, phase⟩ = false := by
        intro phase
        simp [CompleteCall.took, Ne.symm hsame]
      rw [hbefore, hbefore] at hcount
      rw [if_neg hsame]
      omega
  · rcases List.mem_or_eq_of_mem_set hother with hold | hnew
    · exact h.early other hold _ _ hpassed
    · rw [hnew] at hpassed
      cases hpassed

theorem step (h : Slotted s) (hstep : EnrollmentStep s action t) : Slotted t := by
  cases hstep with
  | ticked => exact { h with }
  | refused enrollmentId _ pending prunes =>
    have hpruned : Slotted { s with pending } := by
      rcases prunes with rfl | rfl
      · exact h
      · exact h.fewer (Fewer.filter _ _)
    exact hpruned.issue enrollmentId
  | begun _ _ _ fresh room => exact { h.reserve fresh room _ with }
  | reserved enrollmentId hostname fresh room =>
    have hreserved := h.reserve fresh room ⟨hostname, none, s.now + enrollmentLifetime⟩
    refine { hreserved with
      devices := fun device hdevice => ?_
      failed := fun device hdevice hfailed => ?_ }
    · rcases List.mem_append.mp hdevice with hold | hnew
      · exact hreserved.devices device hold
      · rw [List.mem_singleton.mp hnew]
        exact List.mem_append_right _ (List.mem_singleton_self _)
    · rcases List.mem_append.mp hdevice with hold | hnew
      · exact hreserved.failed device hold hfailed
      · rw [List.mem_singleton.mp hnew] at hfailed
        cases hfailed
  | moved hdevice phase _ _ fails =>
    refine h.setDevice hdevice phase fun hfailed => ?_
    cases fails.symm.trans hfailed
  | @narrowed index device hdevice _ response lifetime =>
    have hnarrowed : Slotted (s.setPendingExpiry device.enrollmentId lifetime) :=
      h.fewer (fewer_setPendingExpiry device.enrollmentId lifetime s)
    have hset := hnarrowed.setDevice hdevice (.answered response) fun hfailed => by cases hfailed
    exact { hset with }
  | @released index device hdevice _ _ message =>
    have hreleased : Slotted (s.releasePending device.enrollmentId) := h.fewer (Fewer.filter _ _)
    refine hreleased.setDevice hdevice (.failed message) fun _ => ?_
    simp [Enrollments.releasePending, SortedMap.lookup_erase]
  | joined enrollmentId =>
    refine { h with
      taken := fun call hcall htook => ?_
      once := fun other => ?_
      early := fun call hcall pending time hpassed => ?_ }
    · rcases List.mem_append.mp hcall with hold | hnew
      · exact h.taken call hold htook
      · rw [List.mem_singleton.mp hnew] at htook
        cases htook
    · have hnone : CompleteCall.took other ⟨enrollmentId, .waiting⟩ = false := by
        simp [CompleteCall.took, CompletePhase.took]
      rw [List.countP_append, List.countP_singleton, hnone]
      exact h.once other
    · rcases List.mem_append.mp hcall with hold | hnew
      · exact h.early call hold pending time hpassed
      · rw [List.mem_singleton.mp hnew] at hpassed
        cases hpassed
  | missed hcall message =>
    exact h.setComplete hcall (.failed message) (fun htook => by cases htook) (fun _ _ hpassed => by cases hpassed)
  | taken hcall found => exact h.take hcall found
  | @passed index enrollmentId pending hcall early =>
    refine h.setComplete hcall (.passed pending s.now) (fun _ => rfl) fun other time hpassed => ?_
    cases hpassed
    exact early

end Slotted

end AgentDesktop
