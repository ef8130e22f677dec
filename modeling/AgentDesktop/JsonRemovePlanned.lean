import AgentDesktop.JsonDocument

namespace AgentDesktop

variable {β : Type}

/-- What a planned removal does: nothing, or an outcome for the user's file with
the sidecar taken away. -/
inductive RemovePlanned (codec : Codec β) (target : MergeTarget) (files : FileSystem β) (plan : ReconcilePlan β) :
    Prop where
  | nothing {conflict : Bool} (plans : Plans files [] conflict plan)
      (same : (target.view codec files).remove target.options = target.view codec files)
  | removed {operations : List (FileChange β)} {file : Stored}
      (plans : Plans files (operations ++ [⟨target.statePath, none, 0⟩]) false plan)
      (outcome : FileOutcome codec target files operations file)
      (removes : (target.view codec files).remove target.options = ⟨file, .ok none⟩)

theorem readOptional_of_recorded {codec : Codec β} {files : FileSystem β} {path : Path} {state : MergeState}
    (h : sidecar codec (files path) = .ok (some state)) :
    ∃ contents, readOptional files path = .ok (some contents) := by
  cases hf : files path with
  | absent => rw [hf] at h; cases h
  | file contents mode => exact ⟨contents, by simp [readOptional, hf]⟩
  | unreadable => rw [hf] at h; cases h

section

variable {codec : Codec β} {files : FileSystem β} {target : MergeTarget} {plan : ReconcilePlan β} {old : β}
  (hold : readOptional files target.statePath = .ok (some old))

include hold

theorem removeState_planned {operations : List (FileChange β)} {file : Stored}
    (h : Plans files operations false plan) (outcome : FileOutcome codec target files operations file)
    (removes : (target.view codec files).remove target.options = ⟨file, .ok none⟩) :
    ∃ next, removeState files target plan = .ok (next, true) ∧ RemovePlanned codec target files next := by
  obtain ⟨next, hremove, hplans⟩ := h.removeFile_ok hold
  exact ⟨next, by rw [removeState, hremove], .removed hplans outcome removes⟩

theorem removeUserFile_planned {existing : β} (h : Plans files [] false plan)
    (hread : readOptional files target.path = .ok (some existing))
    (removes : (target.view codec files).remove target.options = ⟨.absent, .ok none⟩) :
    ∃ next, removeUserFile files target plan = .ok (next, true) ∧ RemovePlanned codec target files next := by
  obtain ⟨next, hremove, hplans⟩ := h.removeFile_ok hread
  rw [removeUserFile, hremove]
  exact removeState_planned hold hplans .deleted removes

end

section

variable [DecidableEq β] {codec : Codec β} (host : Host) {files : FileSystem β} {target : MergeTarget}
  {state : MergeState} {plan : ReconcilePlan β} {existing old : β} {mode : UInt32}

theorem removeFromFile_blank (h : Plans files [] false plan) (hf : files target.path = .file existing mode)
    (hside : sidecar codec (files target.statePath) = .ok (some state))
    (hold : readOptional files target.statePath = .ok (some old)) (hblank : codec.blank existing = true) :
    ∃ next, removeFromFile codec host files target state existing plan = .ok (next, true) ∧
      RemovePlanned codec target files next := by
  have hread : readOptional files target.path = .ok (some existing) := by simp [readOptional, hf]
  have hstored : stored codec target.options.format (files target.path) = .blank := by simp [stored, hf, hblank]
  rw [removeFromFile, if_pos hblank]
  split
  next hcreated =>
    refine removeUserFile_planned hold (h.record_plain _ _ (by simp) _) hread ?_
    simp [MergeTarget.view, DocState.remove, hside, hstored, hcreated]
  next hcreated =>
    refine removeState_planned hold (h.record_plain _ _ (by simp) _) .kept ?_
    simp [MergeTarget.view, DocState.remove, hside, hstored, hcreated]

/-- The removal from a file whose document still has the shape the merge left. -/
theorem removeFromFile_document (h : Plans files [] false plan) (hf : files target.path = .file existing mode)
    (hside : sidecar codec (files target.statePath) = .ok (some state))
    (hold : readOptional files target.statePath = .ok (some old)) (hblank : ¬ codec.blank existing = true)
    {document : Json} (hparse : codec.parse target.options.format existing = some document)
    (hshape : sameShape document.value state.after.value = true) :
    ∃ next, removeFromFile codec host files target state existing plan = .ok (next, true) ∧
      RemovePlanned codec target files next := by
  have hread : readOptional files target.path = .ok (some existing) := by simp [readOptional, hf]
  have hstored : stored codec target.options.format (files target.path) = .document document := by
    simp [stored, hf, hblank, hparse]
  simp only [removeFromFile, if_neg hblank, mergedDocument, hparse, if_pos hshape]
  split
  next hempty =>
    refine removeUserFile_planned hold (h.recordChange target (by simp) _ _) hread ?_
    simp only [MergeTarget.view, DocState.remove, hside, hstored, hshape, if_true, hempty]
  next hempty =>
    have hremove : (target.view codec files).remove target.options =
        ⟨.document (Json.removed target.options state.before state.after document), .ok none⟩ := by
      simp only [MergeTarget.view, DocState.remove, hside, hstored, hshape, if_true, if_neg hempty]
    split
    next hsame =>
      refine removeState_planned hold (h.recordChange target (by simp) _ _) .kept ?_
      rw [hremove, stored_of_contents (by rw [hf]; rfl), ← hsame, stored_print]
    next hdiffers =>
      have hrecorded := h.recordChange target (by simp : Action.update ≠ .conflict) (some existing)
        (some (codec.print (Json.removed target.options state.before state.after document)))
      obtain ⟨written, hwrite, hplans⟩ := hrecorded.writeFile_ok hread
        (codec.print (Json.removed target.options state.before state.after document))
        ((currentMode host files target.path).getD 0o644)
      rw [hwrite]
      exact removeState_planned hold hplans (.written _ _) hremove

theorem removeFromFile_spec (h : Plans files [] false plan) (hf : files target.path = .file existing mode)
    (hside : sidecar codec (files target.statePath) = .ok (some state))
    (hold : readOptional files target.statePath = .ok (some old)) :
    ∃ next, removeFromFile codec host files target state existing plan = .ok (next, true) ∧
      RemovePlanned codec target files next := by
  have hconflict := h.record target.displayName target.description .conflict target.path
  by_cases hblank : codec.blank existing = true
  · exact removeFromFile_blank host h hf hside hold hblank
  · cases hparse : codec.parse target.options.format existing with
    | none =>
      refine ⟨_, by rw [removeFromFile, if_neg hblank, mergedDocument, hparse], .nothing hconflict ?_⟩
      simp [MergeTarget.view, DocState.remove, hside, stored, hf, hblank, hparse]
    | some document =>
      by_cases hshape : sameShape document.value state.after.value = true
      · exact removeFromFile_document host h hf hside hold hblank hparse hshape
      · refine ⟨_, by simp only [removeFromFile, if_neg hblank, mergedDocument, hparse, if_neg hshape],
          .nothing hconflict ?_⟩
        simp [MergeTarget.view, DocState.remove, hside, stored, hf, hblank, hparse, hshape]

/-- What `planRemoveWith` plans from the files, by what they hold, and whether it finds a merge. -/
theorem planRemoveWith_spec (codec : Codec β) (host : Host) (files : FileSystem β) (target : MergeTarget) :
    (∃ error, planRemoveWith codec host files target {} = .error error ∧
        (target.view codec files).remove target.options = target.view codec files) ∨
      ∃ plan found, planRemoveWith codec host files target {} = .ok (plan, found) ∧
        RemovePlanned codec target files plan ∧
        (found = true ↔ ∃ state, sidecar codec (files target.statePath) = .ok (some state)) := by
  have begun := Plans.start files
  cases hside : sidecar codec (files target.statePath) with
  | error e =>
    obtain ⟨error, hs⟩ := begun.readState_error target.displayName hside
    refine Or.inl ⟨error, by rw [planRemoveWith, hs], ?_⟩
    simp [MergeTarget.view, DocState.remove, hside]
  | ok previous =>
    obtain ⟨next, hs, hnext⟩ := begun.readState_ok target.displayName hside
    cases previous with
    | none =>
      refine Or.inr ⟨next, false, by rw [planRemoveWith, hs], .nothing hnext ?_, by simp⟩
      simp [MergeTarget.view, DocState.remove, hside]
    | some state =>
      obtain ⟨old, hold⟩ := readOptional_of_recorded hside
      cases hf : files target.path with
      | unreadable =>
        have hread : readOptional files target.path = .error () := by simp [readOptional, hf]
        refine Or.inl ⟨_, by simp only [planRemoveWith, hs, hnext.read_error hread]; rfl, ?_⟩
        simp [MergeTarget.view, DocState.remove, hside, hf, stored]
      | absent =>
        have hread : readOptional files target.path = .ok none := by simp [readOptional, hf]
        obtain ⟨read, hr, hplans⟩ := hnext.read_ok hread
        have hremove : (target.view codec files).remove target.options =
            ⟨stored codec target.options.format (files target.path), .ok none⟩ := by
          simp [MergeTarget.view, DocState.remove, hside, hf, stored]
        obtain ⟨plan, hplan, hdone⟩ :=
          removeState_planned hold (hplans.record_plain target.displayName target.description
            (by simp : Action.unchanged ≠ .conflict) target.path) .kept hremove
        exact Or.inr ⟨plan, true, by simp only [planRemoveWith, hs, hr, hplan], hdone, by simp⟩
      | file existing mode =>
        have hread : readOptional files target.path = .ok (some existing) := by simp [readOptional, hf]
        obtain ⟨read, hr, hplans⟩ := hnext.read_ok hread
        obtain ⟨plan, hplan, hdone⟩ := removeFromFile_spec host hplans hf hside hold
        exact Or.inr ⟨plan, true, by simp only [planRemoveWith, hs, hr, hplan], hdone, by simp⟩

end

end AgentDesktop
