import AgentDesktop.JsonDocument

namespace AgentDesktop

variable {β : Type} {files : FileSystem β} {target : MergeTarget}

theorem writeMerge_ok {existing old : Option β} {plan : ReconcilePlan β}
    (hread : readOptional files target.path = .ok existing) (hold : readOptional files target.statePath = .ok old)
    (h : Plans files [] false plan) (action : Action) (contents state : β) :
    ∃ next, writeMerge files target action contents state plan = .ok next ∧
      Plans files ((if action = .unchanged then [] else [⟨target.path, some contents, target.options.mode⟩]) ++
        [⟨target.statePath, some state, 0o600⟩]) false next := by
  unfold writeMerge
  split
  next => exact h.writeFile_ok hold state 0o600
  next =>
    obtain ⟨next, hwrite, hplans⟩ := h.writeFile_ok hread contents target.options.mode
    rw [hwrite]
    exact hplans.writeFile_ok hold state 0o600

theorem readOptional_of_sidecar {codec : Codec β} {path : Path} {state : Option MergeState}
    (h : sidecar codec (files path) = .ok state) :
    ∃ contents, readOptional files path = .ok contents := by
  cases hf : files path with
  | absent => exact ⟨none, by simp [readOptional, hf]⟩
  | file contents mode => exact ⟨some contents, by simp [readOptional, hf]⟩
  | unreadable => rw [hf] at h; cases h

variable [DecidableEq β]

/-- The file operations of a merge that is no conflict: the user file unless it
is already as planned, then the sidecar. -/
def mergeOperations (codec : Codec β) (host : Host) (files : FileSystem β) (target : MergeTarget)
    (existing : Option β) (state : MergeState) : List (FileChange β) :=
  let contents := codec.print state.after
  (if mergeAction host files target existing contents = .unchanged then []
    else [⟨target.path, some contents, target.options.mode⟩]) ++
    [⟨target.statePath, some (codec.print (stateJson state)), 0o600⟩]

theorem mergeAction_unchanged {host : Host} {existing : Option β} {contents : β}
    (h : mergeAction host files target existing contents = .unchanged) :
    existing = some contents ∧ grantsBeyond host files target.path target.options.mode = false := by
  unfold mergeAction at h
  split at h
  next =>
    split at h
    next hsame => exact ⟨congrArg some hsame.1, hsame.2⟩
    next => cases h
  next => cases h

theorem mergeOperations_outcome {codec : Codec β} (host : Host) {existing : Option β}
    (hread : readOptional files target.path = .ok existing) (state : MergeState) :
    ∃ operations, mergeOperations codec host files target existing state =
        operations ++ [⟨target.statePath, some (codec.print (stateJson state)), 0o600⟩] ∧
      FileOutcome codec target files operations (.document state.after) := by
  refine ⟨_, rfl, ?_⟩
  split
  next hsame =>
    have hcontents := (mergeAction_unchanged hsame).1
    have hstored : stored codec target.options.format (files target.path) = .document state.after := by
      rw [stored_of_contents ((readOptional_contents hread).trans hcontents), stored_print]
    rw [← hstored]
    exact .kept
  next => exact .written _ _

theorem mergeAction_ne_conflict (host : Host) (files : FileSystem β) (target : MergeTarget) (existing : Option β)
    (contents : β) : mergeAction host files target existing contents ≠ .conflict := by
  unfold mergeAction
  split
  next => split <;> simp
  next => simp

/-- What `planMergeWith` plans from the files, by what they hold, after reads alone. -/
theorem planMergeWith_after {start : ReconcilePlan β} (begun : Plans files [] false start) (codec : Codec β)
    (host : Host) (target : MergeTarget) (managed : Json) (legacyOwned : Bool) :
    (∃ error, planMergeWith codec host files target managed legacyOwned start = .error error ∧
        ¬ (target.view codec files).Mergeable managed) ∨
      (∃ plan, planMergeWith codec host files target managed legacyOwned start = .ok plan ∧ Plans files [] true plan ∧
        ¬ (target.view codec files).Mergeable managed) ∨
      ∃ plan existing state, planMergeWith codec host files target managed legacyOwned start = .ok plan ∧
        readOptional files target.path = .ok existing ∧
        Plans files (mergeOperations codec host files target existing state) false plan ∧
        (target.view codec files).merge target.options legacyOwned managed =
          ⟨.document state.after, .ok (some state)⟩ := by
  cases hread : readOptional files target.path with
  | error e =>
    refine Or.inl ⟨_, by rw [planMergeWith, begun.read_error hread], ?_⟩
    simp [MergeTarget.view, DocState.Mergeable, stored_unreadable hread, Stored.existing]
  | ok existing =>
    obtain ⟨read, hr, hplans⟩ := begun.read_ok hread
    cases hside : sidecar codec (files target.statePath) with
    | error e =>
      obtain ⟨error, hs⟩ := hplans.readState_error target.displayName hside
      refine Or.inl ⟨error, by simp only [planMergeWith, hr, hs], ?_⟩
      simp [MergeTarget.view, DocState.Mergeable, hside]
    | ok previous =>
      obtain ⟨next, hs, hnext⟩ := hplans.readState_ok target.displayName hside
      obtain ⟨hdoc, habsent⟩ := existingDocument_eq codec target.options.format managed hread
      cases hexists : existingDocument codec target.options.format managed existing with
      | none =>
        have hplan : planMergeWith codec host files target managed legacyOwned start =
            .ok (next.record files target.displayName target.description .conflict target.path) := by
          simp only [planMergeWith, hr, hs, hexists]
        have hconflict := hnext.record target.displayName target.description .conflict target.path
        refine Or.inr (Or.inl ⟨_, hplan, by simpa using hconflict, ?_⟩)
        rw [hexists] at hdoc
        simp [MergeTarget.view, DocState.Mergeable, ← hdoc]
      | some combined =>
        obtain ⟨old, hold⟩ := readOptional_of_sidecar hside
        rw [hexists] at hdoc
        have hcreated : existing.isNone =
            decide (stored codec target.options.format (files target.path) = .absent) := by
          rw [← decide_eq_decide.mpr habsent]
          cases existing <;> rfl
        refine Or.inr (Or.inr ?_)
        simp only [planMergeWith, hr, hs, hexists]
        let before := Json.user target.options previous legacyOwned managed combined
        let state : MergeState := ⟨existing.isNone || (previous.map MergeState.created).getD legacyOwned,
          before, Json.merge target.options before managed⟩
        have hne := mergeAction_ne_conflict host files target existing (codec.print state.after)
        obtain ⟨plan, hplan, hdone⟩ := writeMerge_ok hread hold
          (hnext.recordChange target hne existing (some (codec.print state.after)))
          (mergeAction host files target existing (codec.print state.after)) (codec.print state.after)
          (codec.print (stateJson state))
        refine ⟨plan, existing, state, hplan, rfl, hdone, ?_⟩
        simp only [MergeTarget.view, DocState.merge, hside, ← hdoc, ← hcreated]
        rfl

theorem planMergeWith_spec (codec : Codec β) (host : Host) (files : FileSystem β) (target : MergeTarget)
    (managed : Json) (legacyOwned : Bool) :
    (∃ error, planMergeWith codec host files target managed legacyOwned {} = .error error ∧
        ¬ (target.view codec files).Mergeable managed) ∨
      (∃ plan, planMergeWith codec host files target managed legacyOwned {} = .ok plan ∧ Plans files [] true plan ∧
        ¬ (target.view codec files).Mergeable managed) ∨
      ∃ plan existing state, planMergeWith codec host files target managed legacyOwned {} = .ok plan ∧
        readOptional files target.path = .ok existing ∧
        Plans files (mergeOperations codec host files target existing state) false plan ∧
        (target.view codec files).merge target.options legacyOwned managed =
          ⟨.document state.after, .ok (some state)⟩ :=
  planMergeWith_after (.start files) codec host target managed legacyOwned

/-- A merge whose outcome is already in the file plans nothing for it. -/
theorem planMergeWith_in_place {codec : Codec β} {host : Host} {managed : Json} {legacyOwned : Bool}
    (hne : target.statePath ≠ target.path) (mergeable : (target.view codec files).Mergeable managed)
    {state : MergeState}
    (hmerge : (target.view codec files).merge target.options legacyOwned managed =
      ⟨.document state.after, .ok (some state)⟩)
    (hcontents : (files target.path).contents = some (codec.print state.after))
    (hmode : grantsBeyond host files target.path target.options.mode = false) :
    ∃ plan, planMergeWith codec host files target managed legacyOwned {} = .ok plan ∧
      ∀ change ∈ plan.operations, change.path ≠ target.path := by
  rcases planMergeWith_spec codec host files target managed legacyOwned with
    ⟨error, hplan, hno⟩ | ⟨plan, hplan, hplans, hno⟩ | ⟨plan, existing, other, hplan, hread, hplans, hother⟩
  · exact absurd mergeable hno
  · exact absurd mergeable hno
  · have hstate : state = other := by simpa using congrArg DocState.sidecar (hmerge.symm.trans hother)
    subst hstate
    have hexisting := (readOptional_contents hread).symm.trans hcontents
    have hsame : mergeAction host files target existing (codec.print state.after) = .unchanged := by
      simp [mergeAction, hexisting, hmode]
    refine ⟨plan, hplan, ?_⟩
    simp [hplans.operations, mergeOperations, hsame, hne]

end AgentDesktop
