import AgentDesktop.ConnectionSteps

namespace AgentDesktop

variable {Config : Type}

/-- The configurations that were applied successfully, in order. -/
def appliedConfigs (log : List (DaemonEvent Config)) : List Config :=
  log.filterMap fun
    | .applied config _ true => some config
    | _ => none

def HasApplied (log : List (DaemonEvent Config)) (config : Config) : Prop :=
  config ∈ appliedConfigs log

/-- Every configuration that was saved had been applied successfully before. -/
def OnlyAppliedSaved (parser : ConfigParser Config) (log : List (DaemonEvent Config)) : Prop :=
  ∀ before yaml after, log = before ++ .saved yaml :: after →
    ∃ config, parser.parseYaml yaml = .ok config ∧ HasApplied before config

variable {log : List (DaemonEvent Config)}

theorem HasApplied.append {config : Config} (h : HasApplied log config) (more : List (DaemonEvent Config)) :
    HasApplied (log ++ more) config := by
  rw [HasApplied, appliedConfigs, List.filterMap_append]
  exact List.mem_append_left _ h

/-- One more event keeps the order of applies and saves, if it is no save or the
save of an applied configuration. -/
theorem OnlyAppliedSaved.append {parser : ConfigParser Config} {event : DaemonEvent Config}
    (h : OnlyAppliedSaved parser log)
    (hevent : ∀ yaml, event = .saved yaml → ∃ config, parser.parseYaml yaml = .ok config ∧ HasApplied log config) :
    OnlyAppliedSaved parser (log ++ [event]) := by
  intro before yaml after hlog
  rcases List.eq_nil_or_concat after with rfl | ⟨rest, last, rfl⟩
  · obtain ⟨rfl, hlast⟩ := List.append_inj' hlog rfl
    exact hevent yaml (List.singleton_inj.mp hlast)
  · rw [List.concat_eq_append, ← List.cons_append, ← List.append_assoc] at hlog
    exact h before yaml rest (List.append_inj' hlog rfl).1

theorem OnlyAppliedSaved.append_other {parser : ConfigParser Config} {event : DaemonEvent Config}
    (h : OnlyAppliedSaved parser log) (hevent : ∀ yaml, event ≠ .saved yaml) :
    OnlyAppliedSaved parser (log ++ [event]) :=
  h.append fun yaml heq => absurd heq (hevent yaml)

namespace Daemon

/-- The push whose save is still to come: the one being handled, or the pending one. -/
def due (s : Daemon Config) : Option (UInt64 × Bytes) :=
  match s.handling with
  | some handling => some (handling.push.revision, handling.push.yaml)
  | none => s.pendingPersist

/-- The configuration of the push is the current one, and what is still to be
consumed under its revision comes from applying it. -/
def Live (parser : ConfigParser Config) (s : Daemon Config) (revision : UInt64) (yaml : Bytes) : Prop :=
  ∃ config, parser.parseYaml yaml = .ok config ∧ s.streamRevision = some revision ∧
    s.current = some ⟨some revision, config⟩ ∧
    ∀ reapply ∈ s.unconsumed, reapply.succeeded = true → reapply.status.revision = some revision →
      reapply.config = config

/-- What keeps a configuration that was not applied from being saved. -/
structure SavesApplied (parser : ConfigParser Config) (s : Daemon Config) : Prop where
  log : OnlyAppliedSaved parser s.log
  outcomes : ∀ reapply ∈ s.unconsumed, reapply.succeeded = true → HasApplied s.log reapply.config
  live : ∀ revision yaml, s.due = some (revision, yaml) → s.Live parser revision yaml
  parsed : ∀ handling, s.handling = some handling → parser.parseYaml handling.push.yaml = .ok handling.config
  saving : ∀ push config report, s.handling = some (.saving push config report) → HasApplied s.log config

/-- A push that parses is received only when every successful outcome still to be
consumed under its revision comes from the pushed configuration. -/
def distinguishable [DecidableEq Config] (parser : ConfigParser Config) (s : Daemon Config) : DaemonAction → Bool
  | .receive push =>
    match parser.parsePushedConfig push with
    | .error _ => true
    | .ok config => s.unconsumed.all fun reapply =>
      !(reapply.succeeded && decide (reapply.status.revision = some push.revision)) || decide (reapply.config = config)
  | _ => true

variable {parser : ConfigParser Config} {s t : Daemon Config}

theorem due_of_idle (h : s.handling = none) : s.due = s.pendingPersist := by
  simp [due, h]

namespace SavesApplied

/-- Steps that only consume outcomes, and add statuses to the log. -/
theorem transfer (h : SavesApplied parser s) (log : OnlyAppliedSaved parser t.log)
    (applied : ∀ config, HasApplied s.log config → HasApplied t.log config)
    (unconsumed : ∀ reapply ∈ t.unconsumed, reapply ∈ s.unconsumed) (handling : t.handling = s.handling)
    (due : ∀ revision yaml, t.due = some (revision, yaml) →
      s.due = some (revision, yaml) ∧ t.streamRevision = s.streamRevision ∧ t.current = s.current) :
    SavesApplied parser t where
  log := log
  outcomes reapply hr hok := applied _ (h.outcomes reapply (unconsumed reapply hr) hok)
  live revision yaml hdue := by
    obtain ⟨hsame, hstream, hcurrent⟩ := due revision yaml hdue
    obtain ⟨config, hparse, hrevision, hconfig, houtcomes⟩ := h.live revision yaml hsame
    exact ⟨config, hparse, hstream.trans hrevision, hcurrent.trans hconfig,
      fun reapply hr => houtcomes reapply (unconsumed reapply hr)⟩
  parsed other ho := h.parsed other (handling ▸ ho)
  saving push config report hs := applied _ (h.saving push config report (handling ▸ hs))

/-- The outcomes from before are no longer to be consumed. -/
theorem seen (h : SavesApplied parser s) (connected : Bool) :
    SavesApplied parser { s with connected, unseen := false } :=
  h.transfer h.log (fun _ ha => ha)
    (fun reapply hr => List.mem_append_left _ (by simpa [Daemon.unconsumed] using hr)) rfl
    fun _ _ hdue => ⟨hdue, rfl, rfl⟩

/-- With nothing being handled and no save pending, there is nothing to save. -/
theorem unpend (h : SavesApplied parser s) (handling : t.handling = none) (pending : t.pendingPersist = none)
    (idle : s.handling = none) (log : OnlyAppliedSaved parser t.log)
    (applied : ∀ config, HasApplied s.log config → HasApplied t.log config)
    (unconsumed : t.unconsumed = s.unconsumed) : SavesApplied parser t := by
  refine h.transfer log applied (fun _ hr => unconsumed ▸ hr) (handling.trans idle.symm) ?_
  intro revision yaml hdue
  rw [due_of_idle handling, pending] at hdue
  cases hdue

theorem receive [DecidableEq Config] {push : DaemonConfig} (h : SavesApplied parser s)
    (allowed : s.distinguishable parser (.receive push) = true) (hstep : s.receive parser push = some t) :
    SavesApplied parser t := by
  obtain ⟨hidle, ⟨error, _, rfl⟩ | ⟨config, hparse, rfl⟩⟩ := receive_spec hstep
  · exact h.unpend hidle rfl hidle (h.log.append_other fun _ => nofun) (fun _ ha => ha.append _) rfl
  · have hyaml := ConfigParser.parseYaml_of_pushed hparse
    refine ⟨h.log, h.outcomes, ?_, ?_, fun _ _ _ => nofun⟩
    · intro revision yaml hdue
      cases hdue
      refine ⟨config, hyaml, rfl, rfl, fun reapply hr hok hrevision => ?_⟩
      simp only [distinguishable, hparse, List.all_eq_true] at allowed
      have hsame := allowed reapply hr
      change reapply.status.revision = some push.revision at hrevision
      simpa [hok, hrevision] using hsame
    · intro handling hh
      cases hh
      exact hyaml

theorem apply (h : SavesApplied parser s) (config : Config) (outcome : ApplyOutcome) :
    SavesApplied parser (s.apply config outcome).1 :=
  h.transfer (h.log.append_other fun _ => nofun) (fun _ ha => ha.append _) (fun _ hr => hr) rfl
    fun _ _ hdue => ⟨hdue, rfl, rfl⟩

variable {outcome : ApplyOutcome}

theorem apply_hasApplied (s : Daemon Config) (config : Config) (hok : outcome.error.isNone = true) :
    HasApplied (s.apply config outcome).1.log config := by
  simp [Daemon.apply, HasApplied, appliedConfigs, hok]

/-- A push whose apply or save failed stays due. -/
theorem finishPush_failed (h : SavesApplied parser s) {push : DaemonConfig} (report : ApplyReport) (error : ErrorText)
    (hdue : s.due = some (push.revision, push.yaml)) :
    SavesApplied parser (s.finishPush push report (.error error)) := by
  have hpending : (s.finishPush push report (.error error)).due = some (push.revision, push.yaml) := by
    simp [Daemon.due, finishPush, configStatus_error]
  refine ⟨h.log.append_other fun _ => nofun, ?_, ?_, fun _ => nofun, fun _ _ _ => nofun⟩
  · exact fun reapply hr hok => (h.outcomes reapply hr hok).append _
  · intro revision yaml hd
    exact h.live revision yaml (hdue.trans (hpending.symm.trans hd))

/-- A push that was saved is no longer due. -/
theorem finishPush_saved (h : SavesApplied parser s) (push : DaemonConfig) (report : ApplyReport) :
    SavesApplied parser (s.finishPush push report (.ok ())) := by
  have hpending : (s.finishPush push report (.ok ())).due = none := by
    simp [Daemon.due, finishPush, configStatus_error]
  refine ⟨h.log.append_other fun _ => nofun, ?_, ?_, fun _ => nofun, fun _ _ _ => nofun⟩
  · exact fun reapply hr hok => (h.outcomes reapply hr hok).append _
  · intro revision yaml hd
    rw [hpending] at hd
    cases hd

theorem persistConfig (h : SavesApplied parser s) {yaml : Bytes} {config : Config}
    (hparse : parser.parseYaml yaml = .ok config) (happlied : HasApplied s.log config) :
    SavesApplied parser (s.persistConfig yaml) := by
  refine h.transfer (h.log.append fun other heq => ?_) (fun _ ha => ha.append _) (fun _ hr => hr) rfl
    fun _ _ hdue => ⟨hdue, rfl, rfl⟩
  cases heq
  exact ⟨config, hparse, happlied⟩

theorem applyPushed (h : SavesApplied parser s) (hstep : s.applyPushed outcome = some t) :
    SavesApplied parser t := by
  obtain ⟨push, config, hhandling, ⟨hok, rfl⟩ | ⟨error, rfl⟩⟩ := applyPushed_spec hstep
  all_goals
    have hdue : s.due = some (push.revision, push.yaml) := by simp [Daemon.due, hhandling, Handling.push]
    have happly := h.apply config outcome
  · refine ⟨happly.log, happly.outcomes, ?_, ?_, ?_⟩
    · intro revision yaml hd
      exact happly.live revision yaml (hdue.trans hd)
    · intro handling hh
      cases hh
      exact h.parsed (.applying push config) hhandling
    · intro _ _ _ hh
      cases hh
      exact apply_hasApplied s config hok
  · exact happly.finishPush_failed _ error hdue

theorem savePushed {result : Except ErrorText Unit} (h : SavesApplied parser s)
    (hstep : s.savePushed result = some t) : SavesApplied parser t := by
  obtain ⟨push, config, report, hhandling, rfl | ⟨error, rfl⟩⟩ := savePushed_spec hstep
  · exact (h.persistConfig (h.parsed _ hhandling) (h.saving _ _ _ hhandling)).finishPush_saved push report
  · exact h.finishPush_failed report error (by simp [Daemon.due, hhandling, Handling.push])

theorem reapply (h : SavesApplied parser s) (hstep : s.reapply outcome = some t) :
    SavesApplied parser t := by
  obtain ⟨current, hcurrent, rfl⟩ := reapply_spec hstep
  have happly := h.apply current.config outcome
  have hnew : ∀ {new : Reapply Config} {reapply : Reapply Config},
      reapply ∈ (s.reapplies ++ [new]) ++ (if s.unseen then s.published.toList else []) →
        reapply ∈ s.unconsumed ∨ reapply = new := by
    intro new reapply hr
    simp only [List.mem_append, List.mem_singleton, Daemon.unconsumed] at hr ⊢
    tauto
  refine ⟨happly.log, ?_, ?_, happly.parsed, happly.saving⟩
  · intro reapply hr hok
    rcases hnew hr with hold | rfl
    · exact happly.outcomes reapply hold hok
    · exact apply_hasApplied s current.config hok
  · intro revision yaml hdue
    obtain ⟨config, hparse, hrevision, hconfig, houtcomes⟩ := h.live revision yaml hdue
    refine ⟨config, hparse, hrevision, hconfig, fun reapply hr hok hsame => ?_⟩
    rcases hnew hr with hold | rfl
    · exact houtcomes reapply hold hok hsame
    · cases Option.some.inj (hcurrent.symm.trans hconfig)
      rfl

theorem reportTick (h : SavesApplied parser s) (tick : TickStatus) : SavesApplied parser (s.reportTick tick) := by
  rcases reportTick_spec s tick with heq | ⟨status, heq⟩
  · rwa [heq]
  · rw [heq]
    exact h.transfer (h.log.append_other fun _ => nofun) (fun _ ha => ha.append _) (fun _ hr => hr) rfl
      fun _ _ hdue => ⟨hdue, rfl, rfl⟩

/-- The configuration an outcome saves is the one it comes from. -/
theorem consume {saveResult : Except ErrorText Unit} (h : SavesApplied parser s)
    (hstep : s.consume saveResult = some t) : SavesApplied parser t := by
  obtain ⟨reapply, _, hmem, hidle, rfl⟩ := consume_spec hstep
  have hseen := h.seen s.connected
  rcases handleTick_spec { s with unseen := false } reapply.status saveResult with
    ⟨reported, heq⟩ | ⟨revision, yaml, hdue, heq⟩
  · rw [heq]
    exact hseen.reportTick reported
  · obtain ⟨hok, hrevision, hpending⟩ := dueSave_spec hdue
    obtain ⟨config, hparse, hstream, _, houtcomes⟩ := h.live revision yaml ((due_of_idle hidle).trans hpending)
    have hsucceeded : reapply.succeeded = true := by simp [Reapply.succeeded, hok]
    have hconfig := houtcomes reapply hmem hsucceeded (hrevision.trans hstream)
    have happlied : HasApplied s.log config := hconfig ▸ h.outcomes reapply hmem hsucceeded
    have htaken : SavesApplied parser { s with unseen := false, pendingPersist := none } :=
      hseen.unpend hidle rfl hidle h.log (fun _ ha => ha) rfl
    rw [heq]
    exact (htaken.persistConfig hparse happlied).reportTick _

/-- What every allowed step of the daemon keeps. -/
theorem step [DecidableEq Config] {action : DaemonAction} (h : SavesApplied parser s)
    (allowed : s.distinguishable parser action = true) (hstep : s.step parser action = some t) :
    SavesApplied parser t := by
  cases action with
  | connect =>
    rw [connect_spec hstep]
    exact h.seen true
  | disconnect =>
    obtain ⟨hidle, rfl⟩ := disconnect_spec hstep
    exact h.unpend hidle rfl hidle h.log (fun _ ha => ha) rfl
  | logout =>
    obtain ⟨hidle, rfl⟩ := logout_spec hstep
    exact h.unpend hidle rfl hidle h.log (fun _ ha => ha) rfl
  | receive push => exact h.receive allowed hstep
  | applyPushed outcome => exact h.applyPushed hstep
  | savePushed result => exact h.savePushed hstep
  | reapply outcome => exact h.reapply hstep
  | publish index =>
    obtain ⟨reapplies, published, unseen, rfl, hfewer⟩ := publish_spec hstep
    exact h.transfer h.log (fun _ ha => ha) hfewer rfl fun _ _ hdue => ⟨hdue, rfl, rfl⟩
  | consume saveResult => exact h.consume hstep

end SavesApplied

/-- The daemon after its startup, before it has a stream. -/
def started (current : Option Config) (sequence : Nat) (saved : Option Bytes) : Daemon Config :=
  { current := current.map fun config => ⟨none, config⟩, sequence, saved }

theorem started_savesApplied (parser : ConfigParser Config) (current : Option Config) (sequence : Nat)
    (saved : Option Bytes) : SavesApplied parser (started current sequence saved) := by
  refine ⟨?_, ?_, ?_, ?_, ?_⟩
  · intro before yaml after hlog
    exact absurd hlog.symm (by simp [started])
  · intro reapply hr
    simp [started, unconsumed] at hr
  · intro revision yaml hdue
    cases hdue
  · intro _ hh
    cases hh
  · intro _ _ _ hh
    cases hh

end Daemon

/-- Only an applied configuration is saved, in every run that receives no
configuration under the revision of another one whose successful outcome is still
to be consumed. -/
theorem only_applied_config_saved [DecidableEq Config] (parser : ConfigParser Config) (current : Option Config)
    (sequence : Nat) (saved : Option Bytes) (actions : List DaemonAction) (s : Daemon Config)
    (run : execute (Daemon.step parser) (Daemon.distinguishable parser) actions
      (Daemon.started current sequence saved) = some s) :
    OnlyAppliedSaved parser s.log :=
  (execute_invariant (fun _ _ _ h allowed hstep => h.step allowed hstep)
    (Daemon.started_savesApplied parser current sequence saved) run).log

/-- A parser that knows two configurations. -/
def twoConfigs : ConfigParser String where
  digest yaml := yaml
  utf8 yaml := if yaml = [1] then .ok "first" else if yaml = [2] then .ok "second" else .error "invalid byte"
  parseDaemon text := .ok text

def appliedOk : ApplyOutcome := ⟨[], .ok ()⟩

def applyFailed : ApplyOutcome := ⟨[], .error ⟨"apply failed", by decide⟩⟩

/-- A push whose apply fails and that a tick then applies. -/
def repairedByTick : List DaemonAction :=
  [.connect, .receive ⟨7, [1], [1]⟩, .applyPushed applyFailed, .reapply appliedOk, .publish 0]

theorem only_applied_config_saved_by_tick :
    ∃ s, execute (Daemon.step twoConfigs) (Daemon.distinguishable twoConfigs) (repairedByTick ++ [.consume (.ok ())])
        (Daemon.started none 0 none) = some s ∧ s.saved = some [1] ∧ OnlyAppliedSaved twoConfigs s.log :=
  ⟨_, rfl, rfl, only_applied_config_saved twoConfigs none 0 none (repairedByTick ++ [.consume (.ok ())]) _ rfl⟩

/-- Another configuration under the same revision arrives before the outcome of
the tick is consumed: its apply fails, and the outcome saves it. -/
theorem unapplied_config_saved :
    ∃ s, execute (Daemon.step twoConfigs) (fun _ _ => true)
        (repairedByTick ++ [.receive ⟨7, [2], [2]⟩, .applyPushed applyFailed, .consume (.ok ())])
        (Daemon.started none 0 none) = some s ∧
      s.saved = some [2] ∧ twoConfigs.parseYaml [2] = .ok "second" ∧ ¬ HasApplied s.log "second" := by
  refine ⟨_, rfl, rfl, rfl, ?_⟩
  change "second" ∉ ["first"]
  decide

end AgentDesktop
