import AgentDesktop.StatusNumbers

namespace AgentDesktop

variable {Config : Type}

namespace Daemon

variable {parser : ConfigParser Config} {s t : Daemon Config} {base : Nat}

/-- The sequence numbers behind the statuses sent since the log had a length. -/
def sequencesSince (base : Nat) (s : Daemon Config) : List Nat :=
  sentSequences (s.log.drop base)

/-- The sequence number of a pushed configuration that is applied and still to be reported. -/
def unreported (s : Daemon Config) : List Nat :=
  match s.handling with
  | some (.saving _ _ report) => [report.sequence]
  | _ => []

def applying (s : Daemon Config) : Bool :=
  match s.handling with
  | some (.applying _ _) => true
  | _ => false

/-- The loop may still consume the outcome. -/
def Consumable (s : Daemon Config) (reapply : Reapply Config) : Prop :=
  (reapply ∈ s.reapplies ∧ ∀ current ∈ s.published, current.sequence ≤ reapply.sequence) ∨
    (s.unseen = true ∧ s.published = some reapply)

/-- No outcome under the revision is still to be consumed. -/
def settledUnder (s : Daemon Config) (revision : Option UInt64) : Bool :=
  s.unconsumed.all fun reapply => decide (reapply.status.revision ≠ revision)

/-- The steps of one stream, where no re-apply's outcome under the revision of a
push is still to be consumed when the push is applied, or found not to parse. A
push that does not parse may repeat the revision of the stream. -/
def orderly (parser : ConfigParser Config) (s : Daemon Config) : DaemonAction → Bool
  | .connect => false
  | .disconnect => false
  | .logout => false
  | .receive push =>
    match parser.parsePushedConfig push with
    | .error _ => decide (s.streamRevision = some push.revision) || s.settledUnder (some push.revision)
    | .ok _ => true
  | .applyPushed _ => s.settledUnder s.streamRevision
  | _ => true

theorem Consumable.unconsumed {reapply : Reapply Config} (h : s.Consumable reapply) : reapply ∈ s.unconsumed := by
  rcases h with ⟨hmem, -⟩ | ⟨hunseen, hpublished⟩
  · exact List.mem_append_left _ hmem
  · simp [Daemon.unconsumed, hunseen, hpublished]

theorem settledUnder_spec {revision : Option UInt64} (h : s.settledUnder revision = true) {reapply : Reapply Config}
    (hr : s.Consumable reapply) : reapply.status.revision ≠ revision :=
  of_decide_eq_true (List.all_eq_true.mp h reapply hr.unconsumed)

theorem consume_unseen {saveResult : Except ErrorText Unit} (h : s.consume saveResult = some t) : s.unseen = true := by
  unfold consume at h
  split at h
  next => cases h
  next =>
    split at h
    next hready => exact (Bool.and_eq_true_iff.mp hready).2
    next => cases h

/-- A published outcome that waits to be consumed has a number of its own. -/
theorem Numbered.published_ne (h : Numbered s) {reapply other : Reapply Config}
    (hpublished : s.published = some reapply) (hother : other ∈ s.reapplies) : other.sequence ≠ reapply.sequence := by
  have hdistinct := h.distinct
  rw [waiting, hpublished, List.map_append, List.nodup_append] at hdistinct
  exact hdistinct.2.2 _ (List.mem_map_of_mem hother) _ (List.mem_singleton.mpr rfl)

variable {events : List (DaemonEvent Config)}

theorem sequencesSince_append (h : base ≤ s.log.length) (hlog : t.log = s.log ++ events) :
    t.sequencesSince base = s.sequencesSince base ++ sentSequences events := by
  rw [sequencesSince, hlog, List.drop_append_of_le_length h, sentSequences, List.filterMap_append]
  rfl

/-- The statuses of the stream are in order, and what may still be sent comes from
a later apply. -/
structure InOrder (base : Nat) (s : Daemon Config) : Prop where
  numbered : Numbered s
  start : base ≤ s.log.length
  increasing : (s.sequencesSince base ++ s.unreported).Pairwise (· < ·)
  past : ∀ sequence ∈ s.sequencesSince base ++ s.unreported, sequence ≤ s.sequence
  ahead : s.applying = false → ∀ reapply, s.Consumable reapply → reapply.status.revision = s.streamRevision →
    ∀ sequence ∈ s.sequencesSince base ++ s.unreported, sequence < reapply.sequence

namespace InOrder

/-- Steps that report nothing new. -/
theorem transfer (h : InOrder base s) (numbered : Numbered t) (log : t.log = s.log ++ events)
    (reported : s.unreported = sentSequences events ++ t.unreported) (sequence : s.sequence ≤ t.sequence)
    (ahead : t.applying = false → ∀ reapply, t.Consumable reapply → reapply.status.revision = t.streamRevision →
      ∀ sequence ∈ s.sequencesSince base ++ s.unreported, sequence < reapply.sequence) : InOrder base t := by
  have hsame : t.sequencesSince base ++ t.unreported = s.sequencesSince base ++ s.unreported := by
    rw [sequencesSince_append h.start log, reported, List.append_assoc]
  refine ⟨numbered, ?_, ?_, ?_, ?_⟩
  · rw [log, List.length_append]
    exact h.start.trans (Nat.le_add_right _ _)
  · rw [hsame]
    exact h.increasing
  · rw [hsame]
    exact fun other ho => (h.past other ho).trans sequence
  · rw [hsame]
    exact ahead

/-- Steps that report the outcome of a later apply, or find that it is to be reported. -/
theorem reports (h : InOrder base s) (numbered : Numbered t) (log : t.log = s.log ++ events) (idle : s.unreported = [])
    {next : Nat} (reported : sentSequences events ++ t.unreported = [next])
    (later : ∀ sequence ∈ s.sequencesSince base ++ s.unreported, sequence < next) (bound : next ≤ t.sequence)
    (ahead : ∀ reapply, t.Consumable reapply → reapply.status.revision = t.streamRevision → next < reapply.sequence) :
    InOrder base t := by
  have hsame : t.sequencesSince base ++ t.unreported = s.sequencesSince base ++ [next] := by
    rw [sequencesSince_append h.start log, List.append_assoc, reported]
  have hincreasing := h.increasing
  rw [idle, List.append_nil] at later hincreasing
  have hlast : ∀ sequence ∈ s.sequencesSince base ++ [next], sequence ≤ next := by
    intro sequence hs
    rcases List.mem_append.mp hs with hs | hs
    · exact (later sequence hs).le
    · exact (List.mem_singleton.mp hs).le
  refine ⟨numbered, ?_, ?_, ?_, ?_⟩
  · rw [log, List.length_append]
    exact h.start.trans (Nat.le_add_right _ _)
  · rw [hsame, List.pairwise_append]
    refine ⟨hincreasing, List.pairwise_singleton _ _, fun earlier he last hl => ?_⟩
    rw [List.mem_singleton.mp hl]
    exact later earlier he
  · rw [hsame]
    exact fun sequence hs => (hlast sequence hs).trans bound
  · rw [hsame]
    exact fun _ reapply hr hrevision sequence hs => (hlast sequence hs).trans_lt (ahead reapply hr hrevision)

theorem receive {push : DaemonConfig} (h : InOrder base s) (numbered : Numbered t)
    (allowed : s.orderly parser (.receive push) = true) (hstep : s.receive parser push = some t) : InOrder base t := by
  obtain ⟨hidle, ⟨error, hparse, rfl⟩ | ⟨config, -, rfl⟩⟩ := receive_spec hstep
  · have hquiet : s.applying = false := by rw [Daemon.applying, hidle]
    refine h.transfer numbered rfl rfl le_rfl fun _ reapply hr hrevision => ?_
    simp only [orderly, hparse, Bool.or_eq_true, decide_eq_true_eq] at allowed
    rcases allowed with hsame | hsettled
    · exact h.ahead hquiet reapply hr (hrevision.trans hsame.symm)
    · exact absurd hrevision (settledUnder_spec hsettled hr)
  · have hnone : s.unreported = [] := by rw [unreported, hidle]
    exact h.transfer numbered (List.append_nil _).symm hnone le_rfl nofun

theorem applyPushed {outcome : ApplyOutcome} (h : InOrder base s) (numbered : Numbered t)
    (allowed : s.orderly parser (.applyPushed outcome) = true) (hstep : s.applyPushed outcome = some t) :
    InOrder base t := by
  obtain ⟨push, config, hhandling, ⟨-, rfl⟩ | ⟨error, rfl⟩⟩ := applyPushed_spec hstep
  all_goals
    have hnone : s.unreported = [] := by rw [unreported, hhandling]
    have hlater : ∀ sequence ∈ s.sequencesSince base ++ s.unreported, sequence < s.sequence + 1 :=
      fun sequence hs => Nat.lt_succ_of_le (h.past sequence hs)
    have hsettled : ∀ reapply, s.Consumable reapply → reapply.status.revision = s.streamRevision →
        s.sequence + 1 < reapply.sequence :=
      fun reapply hr hrevision => absurd hrevision (settledUnder_spec allowed hr)
  · exact h.reports numbered rfl hnone rfl hlater le_rfl hsettled
  · exact h.reports numbered (List.append_assoc _ _ _) hnone rfl hlater le_rfl hsettled

theorem savePushed {result : Except ErrorText Unit} (h : InOrder base s) (numbered : Numbered t)
    (hstep : s.savePushed result = some t) : InOrder base t := by
  obtain ⟨push, config, report, hhandling, rfl | ⟨error, rfl⟩⟩ := savePushed_spec hstep
  all_goals
    have hreport : s.unreported = [report.sequence] := by rw [unreported, hhandling]
    have hquiet : s.applying = false := by rw [Daemon.applying, hhandling]
  · exact h.transfer numbered (List.append_assoc _ _ _) hreport le_rfl fun _ => h.ahead hquiet
  · exact h.transfer numbered rfl hreport le_rfl fun _ => h.ahead hquiet

/-- A re-apply gets a greater number than what was sent. -/
theorem reapply {outcome : ApplyOutcome} (h : InOrder base s) (numbered : Numbered t)
    (hstep : s.reapply outcome = some t) : InOrder base t := by
  obtain ⟨current, -, rfl⟩ := reapply_spec hstep
  refine h.transfer numbered rfl rfl (Nat.le_succ _) fun hquiet reapply hr hrevision => ?_
  rcases hr with ⟨hmem, hlater⟩ | hpublished
  · rcases List.mem_append.mp hmem with hold | hnew
    · exact h.ahead hquiet reapply (.inl ⟨hold, hlater⟩) hrevision
    · rw [List.mem_singleton.mp hnew]
      exact fun sequence hs => Nat.lt_succ_of_le (h.past sequence hs)
  · exact h.ahead hquiet reapply (.inr hpublished) hrevision

/-- An outcome that is published was to be consumed already. -/
theorem publish {index : Nat} (h : InOrder base s) (numbered : Numbered t) (hstep : s.publish index = some t) :
    InOrder base t := by
  obtain ⟨before, reapply, after, hsplit, hcases⟩ := publish_cases hstep
  have hrest : ∀ other ∈ before ++ after, other ∈ s.reapplies := by
    intro other ho
    rw [hsplit]
    exact (((List.sublist_cons_self reapply after).append_left before)).subset ho
  have hmem : reapply ∈ s.reapplies := by
    rw [hsplit]
    exact List.mem_append_right _ List.mem_cons_self
  rcases hcases with ⟨current, -, -, rfl⟩ | ⟨hlatest, rfl⟩
  · refine h.transfer numbered (List.append_nil _).symm rfl le_rfl fun hquiet other ho => ?_
    refine h.ahead hquiet other (ho.imp_left fun hother => ⟨hrest other hother.1, hother.2⟩)
  · refine h.transfer numbered (List.append_nil _).symm rfl le_rfl fun hquiet other ho => ?_
    rcases ho with ⟨hother, hlater⟩ | ⟨-, hpublished⟩
    · have hafter : reapply.sequence ≤ other.sequence := hlater reapply rfl
      exact h.ahead hquiet other (.inl ⟨hrest other hother, fun current hc => (hlatest current hc).trans hafter⟩)
    · cases hpublished
      exact h.ahead hquiet reapply (.inl ⟨hmem, hlatest⟩)

/-- What is consumed is later than all that was sent, and what is left is later still. -/
theorem consume {saveResult : Except ErrorText Unit} (h : InOrder base s) (numbered : Numbered t)
    (hstep : s.consume saveResult = some t) : InOrder base t := by
  have hunseen := consume_unseen hstep
  obtain ⟨reapply, hpublished, -, hidle, rfl⟩ := consume_spec hstep
  obtain ⟨pendingPersist, saved, lastSent, events, heq, hsent⟩ :=
    handleTick_sends { s with unseen := false } reapply.status saveResult
  rw [heq] at numbered ⊢
  have hquiet : s.applying = false := by rw [Daemon.applying, hidle]
  have hnone : s.unreported = [] := by rw [unreported, hidle]
  have hleft : ∀ other, (Daemon.Consumable { s with
      unseen := false, pendingPersist, saved, lastSent, log := s.log ++ events } other) →
      other ∈ s.reapplies ∧ s.Consumable other := by
    intro other ho
    rcases ho with hother | ⟨hfalse, -⟩
    · exact ⟨hother.1, .inl hother⟩
    · cases hfalse
  rcases hsent with hnothing | ⟨hsent, hrevision⟩
  · refine h.transfer numbered rfl ?_ le_rfl fun _ other ho => h.ahead hquiet other (hleft other ho).2
    rw [hnothing]
    rfl
  · have hahead := h.ahead hquiet reapply (.inr ⟨hunseen, hpublished⟩) hrevision
    have hbound := h.numbered.bounded reapply (by simp [waiting, hpublished])
    refine h.reports numbered rfl hnone ?_ hahead hbound fun other ho _ => ?_
    · rw [hsent]
      simp only [unreported, hidle, List.append_nil]
      rfl
    · rcases ho with ⟨hother, hlater⟩ | ⟨hfalse, -⟩
      · exact lt_of_le_of_ne (hlater reapply hpublished) (h.numbered.published_ne hpublished hother).symm
      · cases hfalse

theorem step {action : DaemonAction} (h : InOrder base s) (allowed : s.orderly parser action = true)
    (hstep : s.step parser action = some t) : InOrder base t := by
  have numbered : Numbered t := h.numbered.step hstep
  cases action with
  | connect => cases allowed
  | disconnect => cases allowed
  | logout => cases allowed
  | receive push => exact h.receive numbered allowed hstep
  | applyPushed outcome => exact h.applyPushed numbered allowed hstep
  | savePushed result => exact h.savePushed numbered hstep
  | reapply outcome => exact h.reapply numbered hstep
  | publish index => exact h.publish numbered hstep
  | consume saveResult => exact h.consume numbered hstep

/-- On a new stream nothing was sent. -/
theorem connected (h : Numbered s) (hstep : s.step parser .connect = some t) : InOrder t.log.length t := by
  have numbered : Numbered t := h.step hstep
  have hidle : t.handling = none := by
    simp only [Daemon.step, connect] at hstep
    split at hstep
    next => cases hstep
    next hfree =>
      cases hstep
      exact h.attached (Bool.eq_false_iff.mpr hfree)
  have hnothing : t.sequencesSince t.log.length ++ t.unreported = [] := by
    rw [sequencesSince, List.drop_length, unreported, hidle]
    rfl
  refine ⟨numbered, le_rfl, ?_, ?_, ?_⟩
  · rw [hnothing]
    exact List.Pairwise.nil
  · rw [hnothing]
    exact fun _ => nofun
  · rw [hnothing]
    exact fun _ _ _ _ _ => nofun

end InOrder

theorem started_numbered (current : Option Config) (sequence : Nat) (saved : Option Bytes) :
    Numbered (started current sequence saved) :=
  ⟨fun _ => nofun, List.nodup_nil, fun _ => rfl⟩

end Daemon

/-- The applies behind the statuses sent on a stream are in order if no re-apply's
outcome under the revision of a push is still to be consumed when the push is
applied, or found not to parse. -/
theorem statuses_in_apply_order (parser : ConfigParser Config) (current : Option Config) (sequence : Nat)
    (saved : Option Bytes) (before stream : List DaemonAction) (offline opened s : Daemon Config)
    (earlier : execute (Daemon.step parser) (fun _ _ => true) before (Daemon.started current sequence saved) =
      some offline)
    (connected : offline.step parser .connect = some opened)
    (run : execute (Daemon.step parser) (Daemon.orderly parser) stream opened = some s) :
    (sentSequences (s.log.drop opened.log.length)).Pairwise (· < ·) := by
  have hnumbered : offline.Numbered :=
    execute_invariant (fun _ _ _ h _ hstep => h.step hstep) (Daemon.started_numbered current sequence saved) earlier
  have horder : Daemon.InOrder opened.log.length s :=
    execute_invariant (fun _ _ _ h allowed hstep => h.step allowed hstep) (.connected hnumbered connected) run
  exact (List.pairwise_append.mp horder.increasing).1

/-- A push whose apply fails, and the tick that repairs it. -/
theorem statuses_in_order_after_repair :
    ∃ opened s, (Daemon.started none 0 none).step twoConfigs .connect = some opened ∧
      execute (Daemon.step twoConfigs) (Daemon.orderly twoConfigs)
        (repairedByTick.tail ++ [.consume (.ok ())]) opened = some s ∧
      sentSequences (s.log.drop opened.log.length) = [1, 2] ∧
      (sentSequences (s.log.drop opened.log.length)).Pairwise (· < ·) :=
  ⟨_, _, rfl, rfl, rfl, statuses_in_apply_order twoConfigs none 0 none [] (repairedByTick.tail ++ [.consume (.ok ())])
    _ _ _ rfl rfl rfl⟩

/-- A tick takes the apply lock between a push and its apply, and fails. Its outcome
is consumed after the push was applied and reported. -/
theorem older_status_sent_after_newer :
    ∃ opened s, (Daemon.started none 0 none).step twoConfigs .connect = some opened ∧
      execute (Daemon.step twoConfigs) (fun _ _ => true)
        [.receive ⟨7, [1], [1]⟩, .reapply applyFailed, .applyPushed appliedOk, .savePushed (.ok ()), .publish 0,
          .consume (.ok ())] opened = some s ∧
      sentSequences (s.log.drop opened.log.length) = [2, 1] :=
  ⟨_, _, rfl, rfl, rfl⟩

end AgentDesktop
