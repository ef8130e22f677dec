import AgentDesktop.SavedConfig

namespace AgentDesktop

variable {Config : Type}

namespace Daemon

/-- A push that does not parse is received only while no save is pending. -/
def keepsPending (parser : ConfigParser Config) (s : Daemon Config) : DaemonAction → Bool
  | .receive push =>
    match parser.parsePushedConfig push with
    | .error _ => s.pendingPersist.isNone
    | .ok _ => true
  | _ => true

/-- The last push that parsed is the current configuration, and once it is
handled it is the saved one or the save is pending. -/
structure SavesCurrent (parser : ConfigParser Config) (s : Daemon Config) : Prop where
  current : ∀ push, s.accepted = some push → ∃ config, parser.parseYaml push.yaml = .ok config ∧
    s.current = some ⟨some push.revision, config⟩
  handled : ∀ handling, s.handling = some handling →
    s.accepted = some handling.push ∧ s.streamRevision = some handling.push.revision
  settled : ∀ push, s.accepted = some push → s.handling = none →
    (s.pendingPersist = none ∧ s.saved = some push.yaml) ∨
      (s.pendingPersist = some (push.revision, push.yaml) ∧ s.streamRevision = some push.revision)

variable {parser : ConfigParser Config} {s t : Daemon Config}

namespace SavesCurrent

/-- Steps that leave the loop's variables, the current configuration and the saved one. -/
theorem congr (h : SavesCurrent parser s) (accepted : t.accepted = s.accepted) (current : t.current = s.current)
    (handling : t.handling = s.handling) (stream : t.streamRevision = s.streamRevision)
    (pending : t.pendingPersist = s.pendingPersist) (saved : t.saved = s.saved) : SavesCurrent parser t := by
  refine ⟨?_, ?_, ?_⟩
  · rw [accepted, current]
    exact h.current
  · rw [handling, accepted, stream]
    exact h.handled
  · rw [accepted, handling, pending, saved, stream]
    exact h.settled

theorem endStream (hidle : s.handling = none) (current : Option (CurrentConfig Config)) :
    SavesCurrent parser { s.endStream with current } := by
  refine ⟨fun _ => nofun, fun handling hh => ?_, fun _ => nofun⟩
  exact absurd (hidle.symm.trans hh) (by simp)

theorem receive {push : DaemonConfig} (h : SavesCurrent parser s)
    (allowed : s.keepsPending parser (.receive push) = true) (hstep : s.receive parser push = some t) :
    SavesCurrent parser t := by
  obtain ⟨hidle, ⟨error, hparse, rfl⟩ | ⟨config, hparse, rfl⟩⟩ := receive_spec hstep
  · have hnone : s.pendingPersist = none := by simpa [keepsPending, hparse] using allowed
    refine ⟨h.current, fun handling hh => ?_, fun accepted ha _ => ?_⟩
    · exact absurd (hidle.symm.trans hh) (by simp)
    · rcases h.settled accepted ha hidle with ⟨_, hsaved⟩ | ⟨hpending, _⟩
      · exact Or.inl ⟨rfl, hsaved⟩
      · rw [hnone] at hpending
        cases hpending
  · refine ⟨fun accepted ha => ?_, fun handling hh => ?_, fun _ _ => nofun⟩
    · cases ha
      exact ⟨config, ConfigParser.parseYaml_of_pushed hparse, rfl⟩
    · cases hh
      exact ⟨rfl, rfl⟩

/-- The end of the handling of a push: it is saved, or its save is pending. -/
theorem finishPush (h : SavesCurrent parser s) {handling : Handling Config} (hhandling : s.handling = some handling)
    (report : ApplyReport) (result : Except ErrorText Unit)
    (saved : result = .ok () → s.saved = some handling.push.yaml) :
    SavesCurrent parser (s.finishPush handling.push report result) := by
  obtain ⟨haccepted, hstream⟩ := h.handled handling hhandling
  refine ⟨h.current, fun _ => nofun, fun push ha _ => ?_⟩
  cases Option.some.inj (haccepted.symm.trans ha)
  simp only [Daemon.finishPush]
  split
  next hok => exact Or.inl ⟨rfl, saved ((configStatus_error _ _ _).mp hok)⟩
  next => exact Or.inr ⟨rfl, hstream⟩

theorem applyPushed {outcome : ApplyOutcome} (h : SavesCurrent parser s) (hstep : s.applyPushed outcome = some t) :
    SavesCurrent parser t := by
  obtain ⟨push, config, hhandling, ⟨_, rfl⟩ | ⟨error, rfl⟩⟩ := applyPushed_spec hstep
  · refine ⟨h.current, fun handling hh => ?_, fun _ _ => nofun⟩
    cases hh
    exact h.handled (.applying push config) hhandling
  · have happly : SavesCurrent parser (s.apply config outcome).1 := h.congr rfl rfl rfl rfl rfl rfl
    exact happly.finishPush hhandling (s.apply config outcome).2 (.error error) nofun

theorem savePushed {result : Except ErrorText Unit} (h : SavesCurrent parser s)
    (hstep : s.savePushed result = some t) : SavesCurrent parser t := by
  obtain ⟨push, config, report, hhandling, rfl | ⟨error, rfl⟩⟩ := savePushed_spec hstep
  · have hsaved : SavesCurrent parser (s.persistConfig push.yaml) := by
      refine ⟨h.current, h.handled, fun _ _ hh => ?_⟩
      exact absurd (hhandling.symm.trans hh) (by simp)
    exact hsaved.finishPush hhandling report (.ok ()) fun _ => rfl
  · exact h.finishPush hhandling report (.error error) nofun

theorem reportTick (h : SavesCurrent parser s) (tick : TickStatus) : SavesCurrent parser (s.reportTick tick) := by
  rcases reportTick_spec s tick with heq | ⟨status, heq⟩
  · rwa [heq]
  · rw [heq]
    exact h.congr rfl rfl rfl rfl rfl rfl

theorem consume {saveResult : Except ErrorText Unit} (h : SavesCurrent parser s)
    (hstep : s.consume saveResult = some t) : SavesCurrent parser t := by
  obtain ⟨reapply, _, _, hidle, rfl⟩ := consume_spec hstep
  have hseen : SavesCurrent parser { s with unseen := false } := h.congr rfl rfl rfl rfl rfl rfl
  rcases handleTick_spec { s with unseen := false } reapply.status saveResult with
    ⟨reported, heq⟩ | ⟨revision, yaml, hdue, heq⟩
  · rw [heq]
    exact hseen.reportTick reported
  · obtain ⟨_, _, hpending⟩ := dueSave_spec hdue
    have hsaved : SavesCurrent parser ({ s with unseen := false, pendingPersist := none }.persistConfig yaml) := by
      refine ⟨h.current, h.handled, fun push ha _ => Or.inl ⟨rfl, ?_⟩⟩
      rcases h.settled push ha hidle with ⟨hnone, _⟩ | ⟨hsome, _⟩
      · exact absurd (hnone.symm.trans hpending) (by simp)
      · cases Option.some.inj (hpending.symm.trans hsome)
        rfl
    rw [heq]
    exact hsaved.reportTick reapply.status

theorem step {action : DaemonAction} (h : SavesCurrent parser s) (allowed : s.keepsPending parser action = true)
    (hstep : s.step parser action = some t) : SavesCurrent parser t := by
  cases action with
  | connect =>
    rw [connect_spec hstep]
    exact h.congr rfl rfl rfl rfl rfl rfl
  | disconnect =>
    obtain ⟨hidle, rfl⟩ := disconnect_spec hstep
    exact endStream hidle s.current
  | logout =>
    obtain ⟨hidle, rfl⟩ := logout_spec hstep
    exact endStream hidle none
  | receive push => exact h.receive allowed hstep
  | applyPushed outcome => exact h.applyPushed hstep
  | savePushed result => exact h.savePushed hstep
  | reapply outcome =>
    obtain ⟨current, _, rfl⟩ := reapply_spec hstep
    exact h.congr rfl rfl rfl rfl rfl rfl
  | publish index =>
    obtain ⟨reapplies, published, unseen, rfl, _⟩ := publish_spec hstep
    exact h.congr rfl rfl rfl rfl rfl rfl
  | consume saveResult => exact h.consume hstep

end SavesCurrent

theorem reportTick_saved (tick : TickStatus) (s : Daemon Config) : (s.reportTick tick).saved = s.saved := by
  rcases reportTick_spec s tick with heq | ⟨status, heq⟩ <;> rw [heq]

/-- Handling a successful outcome of the revision of the last push that parsed, with
a save that does not fail. -/
theorem SavesCurrent.handleTick_saved (h : SavesCurrent parser s) (hidle : s.handling = none) {push : DaemonConfig}
    (accepted : s.accepted = some push) {tick : TickStatus} (ok : tick.error = none)
    (revision : tick.revision = some push.revision) : (s.handleTick tick (.ok ())).saved = some push.yaml := by
  unfold Daemon.handleTick
  rcases h.settled push accepted hidle with ⟨hnone, hsaved⟩ | ⟨hpending, hstream⟩
  · have hdue : s.dueSave tick = none := by simp [dueSave, hnone]
    rw [hdue]
    exact (reportTick_saved tick s).trans hsaved
  · have hdue : s.dueSave tick = some (push.revision, push.yaml) := by
      simp [dueSave, ok, revision, hstream, hpending]
    rw [hdue]
    exact reportTick_saved tick _

end Daemon

/-- The outcome of a tick that applied the current configuration leaves that
configuration saved, in every run that receives no push that does not parse while
a save is pending. -/
theorem current_config_saved_after_tick (parser : ConfigParser Config) (current : Option Config) (sequence : Nat)
    (saved : Option Bytes) (actions : List DaemonAction) (s t : Daemon Config)
    (run : execute (Daemon.step parser) (Daemon.keepsPending parser) actions
      (Daemon.started current sequence saved) = some s)
    (push : DaemonConfig) (accepted : s.accepted = some push) (reapply : Reapply Config)
    (published : s.published = some reapply) (succeeded : reapply.succeeded = true)
    (ofCurrent : s.current.map CurrentConfig.revision = some reapply.status.revision)
    (handled : s.step parser (.consume (.ok ())) = some t) :
    t.saved = some push.yaml ∧
      ∃ config, parser.parseYaml push.yaml = .ok config ∧ s.current = some ⟨some push.revision, config⟩ := by
  have hstart : Daemon.SavesCurrent parser (Daemon.started current sequence saved) :=
    ⟨fun _ => nofun, fun _ => nofun, fun _ => nofun⟩
  have h : Daemon.SavesCurrent parser s :=
    execute_invariant (fun _ _ _ h allowed hstep => h.step allowed hstep) hstart run
  obtain ⟨config, hparse, hcurrent⟩ := h.current push accepted
  obtain ⟨other, hother, _, hidle, rfl⟩ := Daemon.consume_spec handled
  cases Option.some.inj (hother.symm.trans published)
  have hseen : Daemon.SavesCurrent parser { s with unseen := false } := h.congr rfl rfl rfl rfl rfl rfl
  refine ⟨hseen.handleTick_saved hidle accepted ?_ ?_, config, hparse, hcurrent⟩
  · simpa [Reapply.succeeded] using succeeded
  · simpa [hcurrent] using ofCurrent.symm

theorem current_config_saved_after_repair :
    ∃ s t, execute (Daemon.step twoConfigs) (Daemon.keepsPending twoConfigs) repairedByTick
        (Daemon.started none 0 (some [2])) = some s ∧
      s.step twoConfigs (.consume (.ok ())) = some t ∧ t.saved = some [1] :=
  ⟨_, _, rfl, rfl, (current_config_saved_after_tick twoConfigs none 0 (some [2]) repairedByTick _ _ rfl
    ⟨7, [1], [1]⟩ rfl _ rfl rfl rfl rfl).1⟩

/-- A push that does not parse between a failed apply and the tick that repairs it:
the tick applied the current configuration and the older one stays saved. -/
theorem older_config_stays_saved :
    ∃ s t reapply, execute (Daemon.step twoConfigs) (fun _ _ => true)
        [.connect, .receive ⟨7, [1], [1]⟩, .applyPushed applyFailed, .receive ⟨8, [3], [3]⟩, .reapply appliedOk,
          .publish 0] (Daemon.started (some "second") 0 (some [2])) = some s ∧
      s.accepted = some ⟨7, [1], [1]⟩ ∧ s.current = some ⟨some 7, "first"⟩ ∧ s.published = some reapply ∧
      reapply.succeeded = true ∧ reapply.config = "first" ∧ reapply.status.revision = some 7 ∧
      s.step twoConfigs (.consume (.ok ())) = some t ∧ t.saved = some [2] :=
  ⟨_, _, _, rfl, rfl, rfl, rfl, rfl, rfl, rfl, rfl, rfl⟩

end AgentDesktop
