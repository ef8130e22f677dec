import AgentDesktop.ProgramReportStop

namespace AgentDesktop

variable {β : Type} [DecidableEq β]

theorem summary_conflicts_eq_nil {plan : ReconcilePlan β} :
    plan.summary.conflicts = [] ↔ plan.hasConflicts = false := by
  simp [ReconcilePlan.summary, ReconcilePlan.hasConflicts]

theorem applyTracked_conflict (env : ApplyEnv β) {plan : ReconcilePlan β} (world : World β)
    (h : plan.hasConflicts = true) : ∃ error, applyTracked env plan world = (world, .error (error, .conflict)) := by
  rw [applyTracked]
  split
  next change _ => exact ⟨_, rfl⟩
  next hnone =>
    obtain ⟨change, hc, ha⟩ := List.any_eq_true.mp h
    exact absurd ha (List.find?_eq_none.mp hnone change hc)

variable {results : PlanResults β} {env : ApplyEnv β}

/-- A refused apply writes nothing and reports nothing as applied. -/
theorem reportTrue_of_refused {configured optedOut : List String} {world : World β} {error : String}
    (stops : ∀ stopped, (planWithReport configured optedOut results).stoppedAt env world.start = some stopped →
      stopped = .conflict) :
    ReportTrue env results (planWithReport configured optedOut results) world
      (world.start, .error error, .beforeWrites) := by
  obtain ⟨_, changes⟩ := List.forall₂_iff_zip.mp (planWithReport_changes configured optedOut results)
  constructor
  · intro planned entry hz h
    have hw := (reported_changed h).2
    cases hw
  · intro planned entry hz h
    obtain ⟨own, hown, hc⟩ := changes hz (reported_blocked h).2.2.1
    refine ⟨own, hown, hc, ?_, ?_⟩
    · rintro change _ ⟨k, _, hlog⟩
      cases hlog
    · rintro keyPlan _ ⟨k, _, hlog⟩
      cases hlog
  · intro stopped hs planned entry own _ _ howns
    cases stops stopped hs
    cases howns
  · intro h
    cases h

variable {attributed : AttributedPlan β} {world final : World β}

theorem Attributed.reportTrue_of_completed (h : Attributed results attributed)
    (happly : applyTracked env attributed.plan world.start = (final, .ok ())) :
    ReportTrue env results attributed world (final, .ok (), .completed) := by
  have applied := applyTracked_applied env world.start h.distinct h.distinctKeys
  rw [happly] at applied
  constructor
  · intro planned entry hz _
    obtain ⟨own, hown, howns⟩ := h.owns hz
    refine ⟨own, hown, fun change hc => ?_, fun keyPlan hk => ?_⟩
    · obtain ⟨k, hget, _⟩ := howns.operations.index_of_mem hc
      exact applied.planned rfl (List.mem_of_getElem? hget)
    · obtain ⟨k, hget, _⟩ := howns.registry.index_of_mem hk
      exact applied.keyEffect k keyPlan hget (List.getElem?_eq_some_iff.mp hget).1
  · intro planned entry _ hb
    cases (reported_blocked hb).2.2.2
  · intro stopped hs
    simp [AttributedPlan.stoppedAt, h.firstError, happly] at hs
  · intro _ entry _ hb
    cases (reported_blocked hb).2.2.2

theorem attributed_of_compatible (configured optedOut : List String) (compatible : Compatible results) :
    Attributed results (planWithReport configured optedOut results) where
  compatible := compatible
  assembled := (planWithReport_spec configured optedOut results).2 compatible
  firstError := (planWithReport_spec configured optedOut results).1.mpr compatible
  changes := planWithReport_changes configured optedOut results

/-- An entry with conflicts is that of a provider whose conflict is in the device plan. -/
theorem Attributed.hasConflicts (h : Attributed results attributed) {entry : ProgramEntry}
    (hentry : entry ∈ attributed.entries) (hc : entry.conflicts ≠ []) : attributed.plan.hasConflicts = true := by
  obtain ⟨planned, hz⟩ := exists_mem_zip h.assembled.entries.length_eq hentry
  obtain ⟨own, hown, howns⟩ := h.owns hz
  have hconflicts : own.hasConflicts = true := by
    rw [← Bool.not_eq_false, ← summary_conflicts_eq_nil, ← howns.conflicts]
    exact hc
  have hmem : own ∈ plansOf results :=
    List.mem_filterMap.mpr ⟨planned, (List.of_mem_zip hz).1, by simp [hown, Except.toOption]⟩
  obtain ⟨change, hchange, ha⟩ := List.any_eq_true.mp hconflicts
  refine List.any_eq_true.mpr ⟨change, ?_, ha⟩
  rw [h.assembled.changes]
  exact List.mem_flatMap.mpr ⟨own, hmem, hchange⟩

theorem Attributed.execute_eq_of_conflict (h : Attributed results attributed) {entry : ProgramEntry}
    (hentry : entry ∈ attributed.entries) (hc : entry.conflicts ≠ []) {error : String} {stopped : ApplyStop}
    (happly : applyTracked env attributed.plan world = (final, .error (error, stopped))) :
    attributed.execute env world = (final, .error error, .beforeWrites) := by
  have hany : (attributed.entries.any fun entry => !entry.conflicts.isEmpty) = true :=
    List.any_eq_true.mpr ⟨entry, hentry, by simpa using hc⟩
  simp [AttributedPlan.execute, h.firstError, hany, ReconcilePlan.apply, happly, Except.mapError]

theorem Attributed.execute_eq_of_no_conflicts (h : Attributed results attributed)
    (hc : ∀ entry ∈ attributed.entries, entry.conflicts = []) {result : Except (String × ApplyStop) Unit}
    (happly : applyTracked env attributed.plan world = (final, result)) :
    attributed.execute env world = (final, match result with
      | .ok _ => (.ok (), .completed)
      | .error failure => (.error failure.1, stopOf attributed failure.1 failure.2)) := by
  have hany : (attributed.entries.any fun entry => !entry.conflicts.isEmpty) = false := by
    rw [List.any_eq_false]
    intro entry hentry
    simp [hc entry hentry]
  cases result with
  | ok => simp [AttributedPlan.execute, h.firstError, hany, happly]
  | error failure => simp [AttributedPlan.execute, h.firstError, hany, happly, stopOf]

/-- The report tells the truth exactly when no stop splits a program. -/
theorem report_true_iff_no_program_split (env : ApplyEnv β) (configured optedOut : List String)
    (results : PlanResults β) (world : World β) :
    ReportTrue env results (planWithReport configured optedOut results) world
        ((planWithReport configured optedOut results).execute env world.start) ↔
      ∀ stopped, (planWithReport configured optedOut results).stoppedAt env world.start = some stopped →
        ∀ entry ∈ (planWithReport configured optedOut results).entries,
          ¬ SplitByStop env (planWithReport configured optedOut results) world stopped entry := by
  by_cases compatible : Compatible results
  · have h := attributed_of_compatible configured optedOut compatible
    generalize hattributed : planWithReport configured optedOut results = attributed at h ⊢
    by_cases hc : ∀ entry ∈ attributed.entries, entry.conflicts = []
    · obtain ⟨final, result, happly⟩ : ∃ final result,
          applyTracked env attributed.plan world.start = (final, result) := ⟨_, _, rfl⟩
      rw [h.execute_eq_of_no_conflicts hc happly]
      cases result with
      | ok =>
        have hstop : attributed.stoppedAt env world.start = none := by
          simp [AttributedPlan.stoppedAt, happly]
        simp only [hstop, reduceCtorEq, false_implies, implies_true, iff_true]
        exact h.reportTrue_of_completed happly
      | error failure =>
        have hstop : attributed.stoppedAt env world.start = some failure.2 := by
          simp [AttributedPlan.stoppedAt, h.firstError, happly]
        simp only [hstop, Option.some.injEq, forall_eq']
        exact ⟨fun report entry hentry => h.not_split_of_reportTrue happly hc report hentry,
          h.reportTrue_of_stopped happly⟩
    · push Not at hc
      obtain ⟨entry, hentry, hne⟩ := hc
      obtain ⟨error, happly⟩ := applyTracked_conflict env world.start (h.hasConflicts hentry hne)
      have hstop : attributed.stoppedAt env world.start = some .conflict := by
        simp [AttributedPlan.stoppedAt, h.firstError, happly]
      rw [h.execute_eq_of_conflict hentry hne happly]
      simp only [hstop, Option.some.injEq, forall_eq']
      refine iff_of_true ?_ fun entry _ => not_splitByStop_of_nothing_written rfl
      subst hattributed
      exact reportTrue_of_refused (by simp [hstop])
  · obtain ⟨error, herror⟩ := Option.ne_none_iff_exists'.mp
      (mt (planWithReport_spec configured optedOut results).1.mp compatible)
    have hstop : (planWithReport configured optedOut results).stoppedAt env world.start = none := by
      simp [AttributedPlan.stoppedAt, herror]
    simp only [AttributedPlan.execute, herror, hstop, reduceCtorEq, false_implies, implies_true, iff_true]
    exact reportTrue_of_refused (by simp [hstop])

/-- The plan of a file that is not there yet. -/
def createFile (displayName : String) (path : Path) : Except String (ReconcilePlan String) :=
  (ReconcilePlan.writeFile emptyWorld.files path "managed" 0o644 {}).map
    (·.recordDiff displayName "managed settings" .create path none (some "managed"))

/-- Claude Desktop plans registry values, Codex and OpenCode a file each. -/
def threePrograms : PlanResults String :=
  [("claude-desktop", .ok
      { registry := [⟨⟨.localMachine, "Claude"⟩, .empty, [(".agentdesktop.owner", some "[\"inferenceProvider\"]"),
          ("inferenceProvider", some "gateway")], false⟩]
        changes := [⟨"Claude Desktop", "managed settings", .create, ["HKLM", "Claude"], some "\x7b\x7d",
          some "\x7b\"inferenceProvider\":\"gateway\"\x7d"⟩] }),
   ("codex", createFile "Codex" ["codex.toml"]),
   ("opencode", createFile "OpenCode" ["opencode.json"])]

/-- The second file operation fails. -/
def secondWriteFails : ApplyEnv String where
  host := { unix := false }
  operationFails index _ _ := if index = 1 then some "access denied" else none

/-- Codex is reported blocked although its file was written. -/
theorem report_blocked_after_write :
    ¬ ReportTrue secondWriteFails threePrograms
      (planWithReport ["claude-desktop", "codex", "opencode"] [] threePrograms) emptyWorld
      ((planWithReport ["claude-desktop", "codex", "opencode"] [] threePrograms).execute secondWriteFails
        emptyWorld.start) := by
  intro h
  obtain ⟨own, hown, _, hnone, _⟩ := h.blocked _ _ (List.mem_of_getElem? (i := 1) rfl) (by decide)
  cases hown
  exact hnone _ (List.mem_singleton.mpr rfl) ⟨0, rfl, by decide⟩

end AgentDesktop
