import AgentDesktop.PlanComplete
import AgentDesktop.JsonPlan

namespace AgentDesktop

variable {β : Type}

/-- A plan made from a snapshot of `files`, with these file operations, no
registry or directory changes, and a conflict recorded or not. -/
structure Plans (files : FileSystem β) (operations : List (FileChange β)) (conflict : Bool)
    (plan : ReconcilePlan β) : Prop where
  snapshot : ∀ path contents, plan.observed.get? path = some contents → readOptional files path = .ok contents
  operations : plan.operations = operations
  conflict : plan.hasConflicts = conflict
  registry : plan.registry = []
  privateDirs : plan.privateDirs = []

namespace Plans

variable {files : FileSystem β} {operations : List (FileChange β)} {conflict : Bool} {plan : ReconcilePlan β}

theorem start (files : FileSystem β) : Plans files [] false {} :=
  ⟨by simp, rfl, rfl, rfl, rfl⟩

theorem read_ok (h : Plans files operations conflict plan) {path : Path} {contents : Option β}
    (hr : readOptional files path = .ok contents) :
    ∃ next, plan.read files path = .ok (next, contents) ∧ Plans files operations conflict next := by
  unfold ReconcilePlan.read
  split
  next cached hc =>
    have hsame := (h.snapshot path cached hc).symm.trans hr
    cases hsame
    exact ⟨plan, rfl, h⟩
  next =>
    rw [hr]
    refine ⟨_, rfl, { h with snapshot := fun other c hc => ?_ }⟩
    rw [BTreeMap.get?_insert] at hc
    split at hc
    next heq => cases hc; rw [heq, hr]
    next => exact h.snapshot other c hc

theorem read_error (h : Plans files operations conflict plan) {path : Path}
    (hr : readOptional files path = .error ()) : plan.read files path = .error () := by
  unfold ReconcilePlan.read
  split
  next cached hc => cases (h.snapshot path cached hc).symm.trans hr
  next => rw [hr]

theorem writeFile_ok (h : Plans files operations conflict plan) {path : Path} {existing : Option β}
    (hr : readOptional files path = .ok existing) (contents : β) (mode : UInt32) :
    ∃ next, plan.writeFile files path contents mode = .ok next ∧
      Plans files (operations ++ [⟨path, some contents, mode⟩]) conflict next := by
  obtain ⟨read, hread, hplans⟩ := h.read_ok hr
  rw [ReconcilePlan.writeFile, hread]
  exact ⟨_, rfl, { hplans with operations := by simp [hplans.operations] }⟩

theorem removeFile_ok (h : Plans files operations conflict plan) {path : Path} {contents : β}
    (hr : readOptional files path = .ok (some contents)) :
    ∃ next, plan.removeFile files path = .ok (next, true) ∧
      Plans files (operations ++ [⟨path, none, 0⟩]) conflict next := by
  obtain ⟨read, hread, hplans⟩ := h.read_ok hr
  rw [ReconcilePlan.removeFile, hread]
  exact ⟨_, rfl, { hplans with operations := by simp [hplans.operations] }⟩

theorem recordDiff (h : Plans files operations conflict plan) (displayName description : String)
    (action : Action) (path : Path) (before after : Option β) :
    Plans files operations (conflict || decide (action = .conflict))
      (plan.recordDiff displayName description action path before after) := by
  refine ⟨h.snapshot, h.operations, ?_, h.registry, h.privateDirs⟩
  have hc := h.conflict
  simp only [ReconcilePlan.hasConflicts] at hc
  simp [ReconcilePlan.hasConflicts, ReconcilePlan.recordDiff, hc]

theorem record (h : Plans files operations conflict plan) (displayName description : String) (action : Action)
    (path : Path) :
    Plans files operations (conflict || decide (action = .conflict))
      (plan.record files displayName description action path) := by
  unfold ReconcilePlan.record
  split
  next next before hread =>
    obtain ⟨contents, hr⟩ : ∃ contents, readOptional files path = .ok contents := by
      cases hr : readOptional files path with
      | ok contents => exact ⟨contents, rfl⟩
      | error e => rw [h.read_error hr] at hread; cases hread
    obtain ⟨read, hread', hplans⟩ := h.read_ok hr
    rw [hread] at hread'
    cases hread'
    exact hplans.recordDiff displayName description .remove path before none
  next => exact h.recordDiff displayName description _ path none none

theorem record_plain (h : Plans files operations conflict plan) (displayName description : String)
    {action : Action} (hne : action ≠ .conflict) (path : Path) :
    Plans files operations conflict (plan.record files displayName description action path) := by
  simpa [hne] using h.record displayName description action path

theorem recordChange (h : Plans files operations conflict plan) (target : MergeTarget) {action : Action}
    (hne : action ≠ .conflict) (before after : Option β) :
    Plans files operations conflict (AgentDesktop.recordChange target action before after plan) := by
  unfold AgentDesktop.recordChange
  split
  next => simpa [hne] using h.recordDiff target.displayName target.description action target.path none none
  next => simpa [hne] using h.recordDiff target.displayName target.description action target.path before after

theorem readState_ok (h : Plans files operations conflict plan) {codec : Codec β} {path : Path}
    (displayName : String) {state : Option MergeState} (hs : sidecar codec (files path) = .ok state) :
    ∃ next, readState codec files path displayName plan = .ok (next, state) ∧
      Plans files operations conflict next := by
  unfold sidecar at hs
  unfold readState
  split at hs
  next hf =>
    cases hs
    obtain ⟨next, hread, hplans⟩ := h.read_ok (show readOptional files path = .ok none by simp [readOptional, hf])
    exact ⟨next, by rw [hread], hplans⟩
  next => cases hs
  next contents mode hf =>
    obtain ⟨next, hread, hplans⟩ :=
      h.read_ok (show readOptional files path = .ok (some contents) by simp [readOptional, hf])
    split at hs
    next parsed hp =>
      cases hs
      exact ⟨next, by simp only [hread, hp], hplans⟩
    next => cases hs

theorem readState_error (h : Plans files operations conflict plan) {codec : Codec β} {path : Path}
    (displayName : String) (hs : sidecar codec (files path) = .error ()) :
    ∃ error, readState codec files path displayName plan = .error error := by
  unfold sidecar at hs
  unfold readState
  split at hs
  next => cases hs
  next hf => exact ⟨_, by rw [h.read_error (by simp [readOptional, hf])]⟩
  next contents mode hf =>
    obtain ⟨next, hread, hplans⟩ :=
      h.read_ok (show readOptional files path = .ok (some contents) by simp [readOptional, hf])
    split at hs
    next => cases hs
    next hp =>
      simp only [hread, hp]
      exact ⟨_, rfl⟩

end Plans

end AgentDesktop
