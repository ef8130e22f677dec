import AgentDesktop.ConnectionLoop

namespace AgentDesktop

variable {Config : Type}

def Handling.push : Handling Config → DaemonConfig
  | .applying push _ => push
  | .saving push _ _ => push

def Handling.config : Handling Config → Config
  | .applying _ config => config
  | .saving _ config _ => config

def Reapply.succeeded (reapply : Reapply Config) : Bool :=
  reapply.status.error.isNone

namespace Daemon

variable {parser : ConfigParser Config} {s t : Daemon Config}

/-- The outcomes of re-applies the loop has not consumed. -/
def unconsumed (s : Daemon Config) : List (Reapply Config) :=
  s.reapplies ++ if s.unseen then s.published.toList else []

theorem idle_iff : s.idle = true ↔ s.connected = true ∧ s.handling = none := by
  simp [idle]

theorem connect_spec (h : s.connect = some t) : t = { s with connected := true, unseen := false } := by
  unfold connect at h
  split at h
  next => cases h
  next => exact (Option.some.inj h).symm

theorem disconnect_spec (h : s.disconnect = some t) : s.handling = none ∧ t = s.endStream := by
  unfold disconnect at h
  split at h
  next hidle => exact ⟨(idle_iff.mp hidle).2, (Option.some.inj h).symm⟩
  next => cases h

theorem logout_spec (h : s.logout = some t) : s.handling = none ∧ t = { s.endStream with current := none } := by
  unfold logout at h
  split at h
  next hidle => exact ⟨Option.isNone_iff_eq_none.mp hidle, (Option.some.inj h).symm⟩
  next => cases h

/-- A push is answered at once if it does not parse, and handled otherwise. -/
theorem receive_spec {push : DaemonConfig} (h : s.receive parser push = some t) :
    s.handling = none ∧
      ((∃ error, parser.parsePushedConfig push = .error error ∧
          t = { s with
            streamRevision := some push.revision
            pendingPersist := none
            lastSent := some (configStatus push.revision [] (.error error))
            log := s.log ++ [.sent (configStatus push.revision [] (.error error)) none] }) ∨
        ∃ config, parser.parsePushedConfig push = .ok config ∧
          t = { s with
            streamRevision := some push.revision
            current := some ⟨some push.revision, config⟩
            accepted := some push
            handling := some (.applying push config) }) := by
  unfold receive at h
  split at h
  next hidle =>
    refine ⟨(idle_iff.mp hidle).2, ?_⟩
    split at h
    next error hparse => exact Or.inl ⟨error, hparse, (Option.some.inj h).symm⟩
    next config hparse => exact Or.inr ⟨config, hparse, (Option.some.inj h).symm⟩
  next => cases h

theorem applyPushed_spec {outcome : ApplyOutcome} (h : s.applyPushed outcome = some t) :
    ∃ push config, s.handling = some (.applying push config) ∧
      ((outcome.error.isNone = true ∧ t = { (s.apply config outcome).1 with
          handling := some (.saving push config (s.apply config outcome).2) }) ∨
        ∃ error, t = (s.apply config outcome).1.finishPush push (s.apply config outcome).2 (.error error)) := by
  unfold applyPushed at h
  split at h
  next push config hhandling =>
    refine ⟨push, config, hhandling, ?_⟩
    split at h
    next hresult => exact Or.inl ⟨by simp [ApplyOutcome.error, hresult], (Option.some.inj h).symm⟩
    next error _ => exact Or.inr ⟨error, (Option.some.inj h).symm⟩
  next => cases h

theorem savePushed_spec {result : Except ErrorText Unit} (h : s.savePushed result = some t) :
    ∃ push config report, s.handling = some (.saving push config report) ∧
      (t = (s.persistConfig push.yaml).finishPush push report (.ok ()) ∨
        ∃ error, t = s.finishPush push report (.error error)) := by
  unfold savePushed at h
  split at h
  next push config report hhandling =>
    refine ⟨push, config, report, hhandling, ?_⟩
    split at h
    next => exact Or.inl (Option.some.inj h).symm
    next error => exact Or.inr ⟨error, (Option.some.inj h).symm⟩
  next => cases h

theorem reapply_spec {outcome : ApplyOutcome} (h : s.reapply outcome = some t) :
    ∃ current, s.current = some current ∧ t = { (s.apply current.config outcome).1 with
      reapplies := s.reapplies ++
        [⟨⟨current.revision, (s.apply current.config outcome).2, outcome.error⟩, current.config⟩] } := by
  unfold reapply at h
  split at h
  next => cases h
  next current hcurrent => exact ⟨current, hcurrent, (Option.some.inj h).symm⟩

/-- Publishing adds nothing to what is to be consumed. -/
theorem publish_spec {index : Nat} (h : s.publish index = some t) :
    ∃ reapplies published unseen, t = { s with reapplies, published, unseen } ∧
      ∀ reapply ∈ t.unconsumed, reapply ∈ s.unconsumed := by
  unfold publish at h
  split at h
  next => cases h
  next reapply hget =>
    have hrest : ∀ other ∈ s.reapplies.eraseIdx index, other ∈ s.reapplies :=
      fun other ho => List.mem_of_mem_eraseIdx ho
    cases h
    unfold publishStatus
    split
    next =>
      refine ⟨s.reapplies.eraseIdx index, s.published, s.unseen, rfl, fun other ho => ?_⟩
      rcases List.mem_append.mp ho with ho | ho
      · exact List.mem_append_left _ (hrest other ho)
      · exact List.mem_append_right _ ho
    next =>
      refine ⟨s.reapplies.eraseIdx index, some reapply, true, rfl, fun other ho => ?_⟩
      simp only [unconsumed, if_true, Option.toList_some, List.mem_append, List.mem_singleton] at ho
      rcases ho with ho | rfl
      · exact List.mem_append_left _ (hrest other ho)
      · exact List.mem_append_left _ (List.mem_of_getElem? hget)

theorem consume_spec {saveResult : Except ErrorText Unit} (h : s.consume saveResult = some t) :
    ∃ reapply, s.published = some reapply ∧ reapply ∈ s.unconsumed ∧ s.handling = none ∧
      t = { s with unseen := false }.handleTick reapply.status saveResult := by
  unfold consume at h
  split at h
  next => cases h
  next reapply hpublished =>
    split at h
    next hready =>
      simp only [Bool.and_eq_true] at hready
      refine ⟨reapply, hpublished, ?_, (idle_iff.mp hready.1).2, (Option.some.inj h).symm⟩
      simp [unconsumed, hready.2, hpublished]
    next => cases h

theorem dueSave_spec {tick : TickStatus} {pending : UInt64 × Bytes} (h : s.dueSave tick = some pending) :
    tick.error = none ∧ tick.revision = s.streamRevision ∧ s.pendingPersist = some pending := by
  unfold dueSave at h
  split at h
  next hcond =>
    simp only [Bool.and_eq_true, Option.isNone_iff_eq_none, decide_eq_true_eq] at hcond
    exact ⟨hcond.1.1, hcond.2, h⟩
  next => cases h

/-- An outcome is reported, after the save it calls for. -/
theorem handleTick_spec (s : Daemon Config) (tick : TickStatus) (saveResult : Except ErrorText Unit) :
    (∃ reported, s.handleTick tick saveResult = s.reportTick reported) ∨
      ∃ revision yaml, s.dueSave tick = some (revision, yaml) ∧
        s.handleTick tick saveResult = ({ s with pendingPersist := none }.persistConfig yaml).reportTick tick := by
  unfold handleTick
  split
  next => exact Or.inl ⟨tick, rfl⟩
  next revision yaml hdue =>
    split
    next => exact Or.inr ⟨revision, yaml, hdue, rfl⟩
    next error => exact Or.inl ⟨_, rfl⟩

theorem reportTick_spec (s : Daemon Config) (tick : TickStatus) :
    s.reportTick tick = s ∨ ∃ status, s.reportTick tick = { s with
      lastSent := some status
      log := s.log ++ [.sent status (some tick.report.sequence)] } := by
  unfold reportTick
  split
  next => exact Or.inl rfl
  next status _ => exact Or.inr ⟨status, rfl⟩

end Daemon

end AgentDesktop
