import AgentDesktop.AttributedApply

namespace AgentDesktop

variable {β : Type}

/-- The device before an apply, with nothing performed yet. -/
def World.start (world : World β) : World β :=
  { world with log := [] }

def Performs (plan : ReconcilePlan β) (world : World β) (change : FileChange β) : Prop :=
  ∃ k, plan.operations[k]? = some change ∧ .operation k ∈ world.log

def PerformsKey (plan : ReconcilePlan β) (world : World β) (keyPlan : RegistryKeyPlan) : Prop :=
  ∃ k, plan.registry[k]? = some keyPlan ∧ .key k ∈ world.log

variable {entry : ProgramEntry}

theorem settled_blocked_iff {written : Bool} {blockedBy : String} {settled : ProgramState × String}
    (h : entry.settled written blockedBy = some settled) :
    settled.1 = .blocked ↔ entry.changes = true ∧ written = false := by
  unfold ProgramEntry.settled at h
  split at h
  next hb => cases h; simpa using hb
  next hb =>
    have hne : ¬ (entry.changes = true ∧ written = false) := by simpa using hb
    simp only [hne, iff_false]
    split at h
    next => cases h; simp
    next =>
      split at h
      next => cases h; simp
      next => split at h <;> cases h <;> simp

theorem settled_changed {written : Bool} {blockedBy : String} {settled : ProgramState × String}
    (h : entry.settled written blockedBy = some settled) (hs : settled.1 = .applied ∨ settled.1 = .removed) :
    entry.changes = true ∧ written = true := by
  unfold ProgramEntry.settled at h
  split at h
  next => cases h; simp at hs
  next hb =>
    have hw : entry.changes = true → written = true := by simpa using hb
    split at h
    next => cases h; simp at hs
    next =>
      split at h
      next => cases h; simp at hs
      next =>
        split at h
        next hc _ => exact ⟨hc, hw hc⟩
        next hc _ => exact ⟨hc, hw hc⟩
        next => cases h; simp at hs
        next => cases h

variable {stop : Stop}

/-- A program that is neither failed nor conflicting is reported as it settled. -/
theorem programOutcome_settled {entries : List ProgramEntry} (hf : entry.failed = none)
    (hd : stop.failedDuring entry.program = false) (hc : entry.conflicts = []) :
    programOutcome entries stop entry =
      (entry.settled (entry.written stop) (blockedBy entries stop)).map fun settled =>
        outcome entry.program settled.1 settled.2 := by
  simp [programOutcome, hf, hd, hc]

theorem programOutcome_failed (entries : List ProgramEntry)
    (h : entry.failed ≠ none ∨ stop.failedDuring entry.program = true) :
    ∃ o, programOutcome entries stop entry = some o ∧ o.state = .failed := by
  unfold programOutcome
  split
  next => exact ⟨_, rfl, rfl⟩
  next hf =>
    have hd := h.resolve_left (fun hne => hne hf)
    rw [hd]
    cases stop with
    | completed => cases hd
    | beforeWrites => cases hd
    | failed => exact ⟨_, rfl, rfl⟩

/-- Any other outcome is how the program settled. -/
theorem programOutcome_cases {entries : List ProgramEntry} {o : ProgramOutcome}
    (h : programOutcome entries stop entry = some o) :
    o.state = .failed ∨ o.state = .conflict ∨
      (entry.failed = none ∧ stop.failedDuring entry.program = false ∧ ∃ settled,
        entry.settled (entry.written stop) (blockedBy entries stop) = some settled ∧ o.state = settled.1) := by
  by_cases hf : entry.failed ≠ none ∨ stop.failedDuring entry.program = true
  · obtain ⟨other, ho, hs⟩ := programOutcome_failed entries hf
    exact Or.inl (Option.some.inj (h.symm.trans ho) ▸ hs)
  · push Not at hf
    obtain ⟨hnone, hd⟩ := hf
    have hd : stop.failedDuring entry.program = false := by simpa using hd
    by_cases hc : entry.conflicts = []
    · rw [programOutcome_settled hnone hd hc] at h
      obtain ⟨settled, hs, rfl⟩ := Option.map_eq_some_iff.mp h
      exact Or.inr (Or.inr ⟨hnone, hd, settled, hs, rfl⟩)
    · refine Or.inr (Or.inl ?_)
      have ho : outcome entry.program .conflict ("; ".intercalate entry.conflicts) = o := by
        simpa [programOutcome, hnone, hd, hc] using h
      exact ho ▸ rfl

/-- The state the report gives for a program, if it lists the program. -/
def AttributedPlan.reported (attributed : AttributedPlan β) (stop : Stop) (entry : ProgramEntry) :
    Option ProgramState :=
  (programOutcome attributed.entries stop entry).map ProgramOutcome.state

/-- The file operation or key plan an apply stopped at is one of the provider's own. -/
inductive OwnsStop (plan own : ReconcilePlan β) : ApplyStop → Prop where
  | operation {k : Nat} {change : FileChange β} (hk : plan.operations[k]? = some change)
      (hown : change ∈ own.operations) : OwnsStop plan own (.operation k)
  | registry {k : Nat} {path : Path} {keyPlan : RegistryKeyPlan} (hk : plan.registry[k]? = some keyPlan)
      (hown : keyPlan ∈ own.registry) : OwnsStop plan own (.registry k path)

variable {attributed : AttributedPlan β}

theorem reported_blocked (h : attributed.reported stop entry = some .blocked) :
    entry.failed = none ∧ stop.failedDuring entry.program = false ∧ entry.changes = true ∧
      entry.written stop = false := by
  obtain ⟨o, ho, hs⟩ := Option.map_eq_some_iff.mp h
  rcases programOutcome_cases ho with hf | hc | ⟨hf, hd, settled, hsettled, heq⟩
  · simp [hs] at hf
  · simp [hs] at hc
  · exact ⟨hf, hd, (settled_blocked_iff hsettled).mp (heq.symm.trans hs)⟩

theorem reported_changed
    (h : attributed.reported stop entry = some .applied ∨ attributed.reported stop entry = some .removed) :
    entry.changes = true ∧ entry.written stop = true := by
  have hstate : ∃ o, programOutcome attributed.entries stop entry = some o ∧
      (o.state = .applied ∨ o.state = .removed) := by
    rcases h with h | h
    · obtain ⟨o, ho, hs⟩ := Option.map_eq_some_iff.mp h
      exact ⟨o, ho, Or.inl hs⟩
    · obtain ⟨o, ho, hs⟩ := Option.map_eq_some_iff.mp h
      exact ⟨o, ho, Or.inr hs⟩
  obtain ⟨o, ho, hs⟩ := hstate
  rcases programOutcome_cases ho with hf | hc | ⟨hf, hd, settled, hsettled, heq⟩
  · simp [hf] at hs
  · simp [hc] at hs
  · exact settled_changed hsettled (heq ▸ hs)

theorem reported_failed (h : stop.failedDuring entry.program = true) :
    attributed.reported stop entry = some .failed := by
  obtain ⟨o, ho, hs⟩ := programOutcome_failed attributed.entries (Or.inr h)
  simp [AttributedPlan.reported, ho, hs]

theorem reported_blocked_of (hf : entry.failed = none) (hd : stop.failedDuring entry.program = false)
    (hc : entry.conflicts = []) (hchanges : entry.changes = true) (hwritten : entry.written stop = false) :
    attributed.reported stop entry = some .blocked := by
  simp [AttributedPlan.reported, programOutcome_settled hf hd hc, ProgramEntry.settled, hchanges, hwritten, outcome]

variable [DecidableEq β]

/-- Where the apply stopped, if planning got that far. -/
def AttributedPlan.stoppedAt (env : ApplyEnv β) (attributed : AttributedPlan β) (world : World β) :
    Option ApplyStop :=
  match attributed.firstError, (applyTracked env attributed.plan world).2 with
  | none, .error (_, stopped) => some stopped
  | _, _ => none

/-- The report of an apply tells the truth about the disk it left. -/
structure ReportTrue (env : ApplyEnv β) (results : PlanResults β) (attributed : AttributedPlan β)
    (world : World β) (executed : World β × Except String Unit × Stop) : Prop where
  inEffect : ∀ planned entry, (planned, entry) ∈ results.zip attributed.entries →
    attributed.reported executed.2.2 entry = some .applied ∨
      attributed.reported executed.2.2 entry = some .removed →
    ∃ own, planned.2 = .ok own ∧ (∀ change ∈ own.operations, change.InEffect env.host executed.1.files) ∧
      ∀ keyPlan ∈ own.registry, executed.1.registry keyPlan.key =
        applyKeyChanges (world.registry keyPlan.key) keyPlan.changes
  blocked : ∀ planned entry, (planned, entry) ∈ results.zip attributed.entries →
    attributed.reported executed.2.2 entry = some .blocked →
    ∃ own, planned.2 = .ok own ∧ own.summary.changes = true ∧
      (∀ change ∈ own.operations, ¬ Performs attributed.plan executed.1 change) ∧
      ∀ keyPlan ∈ own.registry, ¬ PerformsKey attributed.plan executed.1 keyPlan
  owner : ∀ stopped, attributed.stoppedAt env world.start = some stopped →
    ∀ planned entry own, (planned, entry) ∈ results.zip attributed.entries → planned.2 = .ok own →
    OwnsStop attributed.plan own stopped → attributed.reported executed.2.2 entry = some .failed
  completed : executed.2.1 = .ok () →
    ∀ entry ∈ attributed.entries, attributed.reported executed.2.2 entry ≠ some .blocked

/-- The stop comes after a file operation of a program that had to be written,
and before the end of its registry range, while another program caused it. -/
def SplitByStop (env : ApplyEnv β) (attributed : AttributedPlan β) (world : World β) (stopped : ApplyStop)
    (entry : ProgramEntry) : Prop :=
  entry.changes = true ∧ entry.program ∉ ownersOf attributed.entries stopped ∧
    (writtenBefore stopped).2 < entry.registryOperations.stop ∧
    ∃ k change, entry.operations.contains k = true ∧ attributed.plan.operations[k]? = some change ∧
      (k : ENat) < (writtenBefore stopped).1 ∧
      alreadyInPlace env.host world.files attributed.plan.observed change = false

end AgentDesktop
