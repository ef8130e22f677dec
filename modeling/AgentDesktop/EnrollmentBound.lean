import AgentDesktop.EnrollmentRuns
import AgentDesktop.Transitions
import Mathlib.Data.List.Nodup
import Mathlib.Data.List.Perm.Subperm

namespace AgentDesktop

def CompletePhase.isWaiting : CompletePhase → Bool
  | .waiting => true
  | _ => false

def CompletePhase.isPassed : CompletePhase → Bool
  | .passed _ _ => true
  | _ => false

def CompleteCall.passes (enrollmentId : String) (call : CompleteCall) : Bool :=
  decide (call.enrollmentId = enrollmentId) && call.phase.isPassed

/-- The slots are bounded, used once and before they expire, and a failed request leaves none. -/
structure Slots (s : Enrollments) : Prop where
  bounded : s.pending.length ≤ maxPendingEnrollments
  once : ∀ enrollmentId, s.completes.countP (CompleteCall.passes enrollmentId) ≤ 1
  early : ∀ call ∈ s.completes, ∀ pending time, call.phase = .passed pending time → time < pending.expiresAt
  released : ∀ device ∈ s.devices, device.phase.isFailed = true → s.pending.lookup device.enrollmentId = none

/-- Every request in flight has its entry, which has not expired and which no client knows. -/
structure Reserved (s : Enrollments) : Prop where
  learned : ∀ enrollmentId ∈ s.learned, enrollmentId ∈ s.issued
  hidden : ∀ device ∈ s.devices, device.phase.isAnswered = false → device.enrollmentId ∉ s.learned
  known : ∀ call ∈ s.completes, call.phase.isWaiting = true →
    call.enrollmentId ∈ s.learned ∨ call.enrollmentId ∉ s.issued
  distinct : (s.devices.map DeviceEnrollment.enrollmentId).Nodup
  running : ∀ device ∈ s.devices, device.phase.isCalling = true → s.now < device.startedAt + enrollmentLifetime
  held : ∀ device ∈ s.devices, device.phase.isCalling = true →
    ∃ entry, s.pending.lookup device.enrollmentId = some entry ∧
      entry.expiresAt = device.startedAt + enrollmentLifetime

variable {s t : Enrollments} {action : EnrollmentAction} {enrollmentId : String}

theorem isAnswered_of_isCalling {phase : DevicePhase} (h : phase.isCalling = true) : phase.isAnswered = false := by
  cases phase with
  | calling => rfl
  | narrowing => rfl
  | releasing => rfl
  | answered => cases h
  | failed => rfl
  | dropped => rfl

theorem took_of_isPassed {phase : CompletePhase} (h : phase.isPassed = true) : phase.took = true := by
  cases phase with
  | waiting => cases h
  | checking => rfl
  | passed => rfl
  | failed => cases h

theorem Slotted.slots (h : Slotted s) : Slots s := by
  refine ⟨h.bounded, fun enrollmentId => ?_, h.early, h.failed⟩
  have hcount : s.completes.countP (CompleteCall.passes enrollmentId) ≤
      s.completes.countP (CompleteCall.took enrollmentId) := by
    refine List.countP_mono_left fun call _ hpasses => ?_
    obtain ⟨hid, hpassed⟩ := Bool.and_eq_true_iff.mp hpasses
    exact Bool.and_eq_true_iff.mpr ⟨hid, took_of_isPassed hpassed⟩
  have hone := h.once enrollmentId
  omega

variable {pending : List (String × PendingEnrollment)}

theorem lookup_filter_some {p : String × PendingEnrollment → Bool} {entry : PendingEnrollment}
    (h : pending.lookup enrollmentId = some entry) (hp : p (enrollmentId, entry) = true) :
    (pending.filter p).lookup enrollmentId = some entry := by
  induction pending with
  | nil => cases h
  | cons first rest ih =>
    obtain ⟨key, value⟩ := first
    rw [SortedMap.lookup_cons_ite] at h
    by_cases hkey : enrollmentId = key
    · rw [if_pos hkey] at h
      cases h
      rw [List.filter_cons_of_pos (hkey ▸ hp), SortedMap.lookup_cons_ite, if_pos hkey]
    · rw [if_neg hkey] at h
      by_cases hfirst : p (key, value) = true
      · rw [List.filter_cons_of_pos hfirst, SortedMap.lookup_cons_ite, if_neg hkey]
        exact ih h
      · rw [List.filter_cons_of_neg hfirst]
        exact ih h

namespace Reserved

/-- The entries of requests in flight survive pruning. -/
theorem unexpired (h : Reserved s) {device : DeviceEnrollment} (hdevice : device ∈ s.devices)
    (hcalling : device.phase.isCalling = true) :
    ∃ entry, s.unexpired.lookup device.enrollmentId = some entry ∧
      entry.expiresAt = device.startedAt + enrollmentLifetime := by
  obtain ⟨entry, hentry, hexpires⟩ := h.held device hdevice hcalling
  have hrunning := h.running device hdevice hcalling
  refine ⟨entry, lookup_filter_some hentry (decide_eq_true ?_), hexpires⟩
  simp only
  omega

theorem refuse (h : Reserved s) (hfresh : s.fresh enrollmentId = true)
    (hprunes : pending = s.pending ∨ pending = s.unexpired) :
    Reserved { s with pending, issued := s.issued ++ [enrollmentId] } := by
  obtain ⟨_, hunknown⟩ := fresh_iff.mp hfresh
  refine { h with
    learned := fun other hother => List.mem_append_left _ (h.learned other hother)
    known := fun call hcall hwaiting => ?_
    held := fun device hdevice hcalling => ?_ }
  · refine (h.known call hcall hwaiting).imp_right fun hnew hissued => ?_
    rcases List.mem_append.mp hissued with hold | hsame
    · exact hnew hold
    · exact hunknown call hcall (List.mem_singleton.mp hsame)
  · rcases hprunes with rfl | rfl
    · exact h.held device hdevice hcalling
    · exact h.unexpired hdevice hcalling

/-- A new entry under a fresh id leaves those of the requests in flight. -/
theorem reserve (h : Reserved s) (hslotted : Slotted s) (hfresh : s.fresh enrollmentId = true)
    (entry : PendingEnrollment) :
    Reserved { s with
      pending := SortedMap.insert enrollmentId entry s.unexpired
      issued := s.issued ++ [enrollmentId] } := by
  obtain ⟨hnew, _⟩ := fresh_iff.mp hfresh
  have hpruned := h.refuse hfresh (Or.inr rfl)
  refine { hpruned with held := fun device hdevice hcalling => ?_ }
  have hne : device.enrollmentId ≠ enrollmentId := by
    intro hsame
    exact hnew (hsame ▸ hslotted.devices device hdevice)
  rw [SortedMap.lookup_insert_ne hne]
  exact h.unexpired hdevice hcalling

/-- A request that has ended, with what becomes of its entry. -/
theorem settle (h : Reserved s) {index : Nat} {device : DeviceEnrollment} (hdevice : s.devices[index]? = some device)
    {phase : DevicePhase} (hends : phase.isCalling = false)
    (hothers : ∀ other, other ≠ device.enrollmentId → pending.lookup other = s.pending.lookup other)
    {learned : List String}
    (hlearned : learned = s.learned ∧ device.phase.isAnswered = false ∨
      learned = s.learned ++ [device.enrollmentId] ∧ phase.isAnswered = true)
    (hissued : device.enrollmentId ∈ s.issued) :
    Reserved { s with pending, learned, devices := s.devices.set index { device with phase } } := by
  have hbound := (List.getElem?_eq_some_iff.mp hdevice).1
  have hmap : (s.devices.set index { device with phase }).map DeviceEnrollment.enrollmentId =
      s.devices.map DeviceEnrollment.enrollmentId := map_set_at hdevice rfl
  have hdistinct : ((s.devices.set index { device with phase }).map DeviceEnrollment.enrollmentId).Nodup := by
    rw [hmap]
    exact h.distinct
  have hself : { device with phase } ∈ s.devices.set index { device with phase } := List.mem_set hbound _
  have hsplit : ∀ other ∈ s.devices.set index { device with phase }, other = { device with phase } ∨
      other ∈ s.devices ∧ other.enrollmentId ≠ device.enrollmentId := by
    intro other hother
    by_cases hsame : other.enrollmentId = device.enrollmentId
    · exact Or.inl (List.inj_on_of_nodup_map hdistinct hother hself hsame)
    · rcases List.mem_or_eq_of_mem_set hother with hold | hnew
      · exact Or.inr ⟨hold, hsame⟩
      · exact Or.inl hnew
  have hmore : ∀ id, id ∈ s.learned → id ∈ learned := by
    intro id hid
    rcases hlearned with ⟨rfl, _⟩ | ⟨rfl, _⟩
    · exact hid
    · exact List.mem_append_left _ hid
  refine ⟨fun id hid => ?_, fun other hother hanswered => ?_, fun call hcall hwaiting => ?_, hdistinct,
    fun other hother hcalling => ?_, fun other hother hcalling => ?_⟩
  · rcases hlearned with ⟨rfl, _⟩ | ⟨rfl, _⟩
    · exact h.learned id hid
    · rcases List.mem_append.mp hid with hold | hsame
      · exact h.learned id hold
      · rw [List.mem_singleton.mp hsame]
        exact hissued
  · rcases hsplit other hother with rfl | ⟨hold, hne⟩
    · rcases hlearned with ⟨rfl, hbefore⟩ | ⟨_, hafter⟩
      · exact h.hidden device (List.mem_of_getElem? hdevice) hbefore
      · cases hanswered.symm.trans hafter
    · have hhidden := h.hidden other hold hanswered
      rcases hlearned with ⟨rfl, _⟩ | ⟨rfl, _⟩
      · exact hhidden
      · intro hmem
        rcases List.mem_append.mp hmem with hin | hsame
        · exact hhidden hin
        · exact hne (List.mem_singleton.mp hsame)
  · exact (h.known call hcall hwaiting).imp_left (hmore _)
  · rcases hsplit other hother with rfl | ⟨hold, _⟩
    · cases hends.symm.trans hcalling
    · exact h.running other hold hcalling
  · rcases hsplit other hother with rfl | ⟨hold, hne⟩
    · cases hends.symm.trans hcalling
    · simp only [hothers _ hne]
      exact h.held other hold hcalling

theorem setComplete (h : Reserved s) (index : Nat) (call : CompleteCall) {phase : CompletePhase}
    (hwaits : phase.isWaiting = false) : Reserved (s.setComplete index call phase) := by
  refine { h with known := fun other hother hwaiting => ?_ }
  rcases List.mem_or_eq_of_mem_set hother with hold | hnew
  · exact h.known other hold hwaiting
  · rw [hnew] at hwaiting
    cases hwaits.symm.trans hwaiting

theorem take (h : Reserved s) (hslotted : Slotted s) {index : Nat}
    (hcall : s.completes[index]? = some ⟨enrollmentId, .waiting⟩) (pending : PendingEnrollment) :
    Reserved ((s.releasePending enrollmentId).setComplete index ⟨enrollmentId, .waiting⟩ (.checking pending)) := by
  have hreleased : Reserved (s.releasePending enrollmentId) := by
    refine { h with held := fun device hdevice hcalling => ?_ }
    have hne : device.enrollmentId ≠ enrollmentId := by
      intro hsame
      have hhidden := h.hidden device hdevice (isAnswered_of_isCalling hcalling)
      rcases h.known _ (List.mem_of_getElem? hcall) rfl with hlearned | hunissued
      · exact hhidden (hsame ▸ hlearned)
      · exact hunissued (hsame ▸ hslotted.devices device hdevice)
    simp only [Enrollments.releasePending, SortedMap.lookup_erase, if_neg hne]
    exact h.held device hdevice hcalling
  exact hreleased.setComplete index _ rfl

theorem step (h : Reserved s) (hslotted : Slotted s) (hprompt : s.prompt action = true)
    (hstep : EnrollmentStep s action t) : Reserved t := by
  cases hstep with
  | ticked later _ ticks =>
    refine { h with running := fun device hdevice hcalling => ?_ }
    subst ticks
    have hends := List.all_eq_true.mp hprompt device hdevice
    simp only [hcalling, Bool.not_true, Bool.false_or] at hends
    exact of_decide_eq_true hends
  | refused _ fresh _ prunes => exact h.refuse fresh prunes
  | begun enrollmentId hostname nonce fresh =>
    obtain ⟨hnew, _⟩ := fresh_iff.mp fresh
    have hreserved := h.reserve hslotted fresh ⟨hostname, some nonce, s.now + enrollmentLifetime⟩
    refine { hreserved with
      learned := fun other hother => ?_
      hidden := fun device hdevice hanswered hmem => ?_
      known := fun call hcall hwaiting => ?_ }
    · rcases List.mem_append.mp hother with hold | hsame
      · exact List.mem_append_left _ (h.learned other hold)
      · exact List.mem_append_right _ hsame
    · rcases List.mem_append.mp hmem with hold | hsame
      · exact h.hidden device hdevice hanswered hold
      · exact hnew (List.mem_singleton.mp hsame ▸ hslotted.devices device hdevice)
    · exact (hreserved.known call hcall hwaiting).imp_left (List.mem_append_left _)
  | reserved enrollmentId hostname fresh =>
    obtain ⟨hnew, _⟩ := fresh_iff.mp fresh
    have hreserved := h.reserve hslotted fresh ⟨hostname, none, s.now + enrollmentLifetime⟩
    refine { hreserved with
      hidden := fun device hdevice hanswered => ?_
      distinct := ?_
      running := fun device hdevice hcalling => ?_
      held := fun device hdevice hcalling => ?_ }
    · rcases List.mem_append.mp hdevice with hold | hsame
      · exact h.hidden device hold hanswered
      · rw [List.mem_singleton.mp hsame]
        exact fun hmem => hnew (h.learned enrollmentId hmem)
    · rw [List.map_append, List.map_singleton, List.nodup_append_comm, List.singleton_append, List.nodup_cons]
      refine ⟨fun hmem => ?_, h.distinct⟩
      obtain ⟨device, hdevice, hsame⟩ := List.mem_map.mp hmem
      have hissued := hslotted.devices device hdevice
      rw [hsame] at hissued
      exact hnew hissued
    · rcases List.mem_append.mp hdevice with hold | hsame
      · exact h.running device hold hcalling
      · rw [List.mem_singleton.mp hsame]
        exact Nat.lt_add_of_pos_right (by decide)
    · rcases List.mem_append.mp hdevice with hold | hsame
      · exact hreserved.held device hold hcalling
      · rw [List.mem_singleton.mp hsame]
        exact ⟨_, SortedMap.lookup_insert_self .., rfl⟩
  | moved hdevice phase ends before =>
    have hissued := hslotted.devices _ (List.mem_of_getElem? hdevice)
    exact h.settle hdevice ends (fun _ _ => rfl) (Or.inl ⟨rfl, before⟩) hissued
  | @narrowed _ device hdevice _ response lifetime =>
    have hissued := hslotted.devices _ (List.mem_of_getElem? hdevice)
    refine h.settle hdevice rfl (fun other hne => ?_) (Or.inr ⟨rfl, rfl⟩) hissued
    have hlookup := lookup_setPendingExpiry device.enrollmentId other lifetime s
    simp only [if_neg hne, Option.map_id'] at hlookup
    exact hlookup
  | released hdevice _ before message =>
    have hissued := hslotted.devices _ (List.mem_of_getElem? hdevice)
    refine h.settle hdevice rfl (fun other hne => ?_) (Or.inl ⟨rfl, before⟩) hissued
    exact (SortedMap.lookup_erase _ _ _).trans (if_neg hne)
  | joined enrollmentId knows =>
    refine { h with known := fun call hcall hwaiting => ?_ }
    rcases List.mem_append.mp hcall with hold | hsame
    · exact h.known call hold hwaiting
    · rw [List.mem_singleton.mp hsame]
      exact knows
  | missed _ message => exact h.setComplete _ _ rfl
  | taken hcall => exact h.take hslotted hcall _
  | passed => exact h.setComplete _ _ rfl

/-- The requests in flight are no more than the entries. -/
theorem in_flight (h : Reserved s) :
    s.devices.countP (fun device => device.phase.isCalling) ≤ s.pending.length := by
  let calling := s.devices.filter fun device => device.phase.isCalling
  have hdistinct : (calling.map DeviceEnrollment.enrollmentId).Nodup :=
    h.distinct.sublist (List.filter_sublist.map _)
  have hsubset : calling.map DeviceEnrollment.enrollmentId ⊆ s.pending.map Prod.fst := by
    intro id hid
    obtain ⟨device, hdevice, rfl⟩ := List.mem_map.mp hid
    obtain ⟨hmem, hcalling⟩ := List.mem_filter.mp hdevice
    obtain ⟨entry, hentry, _⟩ := h.held device hmem hcalling
    exact SortedMap.mem_keys_of_lookup hentry
  have hlength := (hdistinct.subperm hsubset).length_le
  rw [List.length_map, List.length_map] at hlength
  rw [List.countP_eq_length_filter]
  exact hlength

end Reserved

/-- Whatever order the calls take their steps in, the slots are bounded and used once; and
while every request to the provider ends within the lifetime of an enrollment, the slots bound
the requests in flight. -/
theorem enrollment_slots_bounded (provider : OidcProvider) (start : Nat) (actions : List EnrollmentAction)
    (final : Enrollments)
    (hrun : execute (Enrollments.step provider) Enrollments.allowed actions { now := start } = some final) :
    Slots final ∧
      (execute (Enrollments.step provider) (fun s action => s.allowed action && s.prompt action) actions
          { now := start } = some final →
        final.devices.countP (fun device => device.phase.isCalling) ≤ maxPendingEnrollments) := by
  have hslotted : Slotted { now := start } := by
    refine ⟨Nat.zero_le _, fun _ _ => rfl, fun _ hcall => ?_, fun _ => Nat.zero_le _, fun _ hcall => ?_,
      fun _ hdevice => ?_, fun _ hdevice => ?_⟩
    · cases hcall
    · cases hcall
    · cases hdevice
    · cases hdevice
  have hreserved : Reserved { now := start } := by
    refine ⟨fun _ hid => ?_, fun _ hdevice => ?_, fun _ hcall => ?_, List.nodup_nil, fun _ hdevice => ?_,
      fun _ hdevice => ?_⟩
    · cases hid
    · cases hdevice
    · cases hcall
    · cases hdevice
    · cases hdevice
  have hfinal : Slotted final :=
    execute_invariant (fun (s : Enrollments) action next (hkept : Slotted s) hallowed hstep =>
      hkept.step (Enrollments.step_spec hallowed hstep)) hslotted hrun
  refine ⟨hfinal.slots, fun hprompt => ?_⟩
  have hboth := execute_invariant (fun (s : Enrollments) action next (hkept : Slotted s ∧ Reserved s) hallowed
      hstep => by
    obtain ⟨hknown, hends⟩ := Bool.and_eq_true_iff.mp hallowed
    have hspec := Enrollments.step_spec hknown hstep
    exact ⟨hkept.1.step hspec, hkept.2.step hkept.1 hends hspec⟩) ⟨hslotted, hreserved⟩ hprompt
  exact hboth.2.in_flight.trans hboth.1.bounded

def exampleProvider : OidcProvider where
  clientId := "agentdesktop"
  redirectUri := "http://127.0.0.1:7777/callback"
  tokenEndpoint := "https://idp.example/token"
  deviceAuthorizationEndpoint := some "https://idp.example/device"
  authorizationUrl _ := "https://idp.example/authorize"
  parses _ := true

/-- One device enrollment is answered and completed, another fails, and a third is in flight. -/
theorem enrollment_slots_bounded_device : ∃ final,
    execute (Enrollments.step exampleProvider) Enrollments.allowed
        [.beginDevice "host" "first", .tick 5, .beginDevice "host" "second", .tick 9,
          .answer 0 (.ok ⟨"device", "ABCD-EFGH", "https://idp.example/activate", none, 600, none⟩),
          .answer 1 (.error "unavailable"), .settle 1, .settle 0, .complete "first", .complete "first", .take 1,
          .take 0,
          .check 1, .beginDevice "host" "third"]
        { now := 0 } = some final ∧
      Slots final ∧ final.devices.countP (fun device => device.phase.isCalling) ≤ maxPendingEnrollments := by
  have hrun : execute (Enrollments.step exampleProvider) Enrollments.allowed
      [.beginDevice "host" "first", .tick 5, .beginDevice "host" "second", .tick 9,
        .answer 0 (.ok ⟨"device", "ABCD-EFGH", "https://idp.example/activate", none, 600, none⟩),
        .answer 1 (.error "unavailable"), .settle 1, .settle 0, .complete "first", .complete "first", .take 1, .take 0,
        .check 1, .beginDevice "host" "third"] { now := 0 } = some _ := rfl
  obtain ⟨hslots, hbound⟩ := enrollment_slots_bounded _ _ _ _ hrun
  exact ⟨_, hrun, hslots, hbound rfl⟩

end AgentDesktop
