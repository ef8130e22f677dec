import AgentDesktop.JsonMergePlanned
import AgentDesktop.JsonRemovePlanned

namespace AgentDesktop

variable {β : Type} [DecidableEq β]

/-- A merge planned from the files and applied to them. -/
def mergeInto (codec : Codec β) (env : ApplyEnv β) (target : MergeTarget) (legacyOwned : Bool) (managed : Json)
    (world : World β) : World β × Except String Unit :=
  match planMergeWith codec env.host world.files target managed legacyOwned {} with
  | .error error => (world, .error error)
  | .ok plan => plan.apply env world

/-- A removal planned from the files and applied to them. -/
def removeFrom (codec : Codec β) (env : ApplyEnv β) (target : MergeTarget) (world : World β) :
    World β × Except String Unit :=
  match planRemoveWith codec env.host world.files target {} with
  | .error error => (world, .error error)
  | .ok (plan, _) => plan.apply env world

/-- What was to be done to a file is done, and nothing else. -/
structure Carried (host : Host) (files next : FileSystem β) (path : Path) (changes : List (FileChange β)) : Prop where
  effect : ∀ change ∈ changes, change.InEffect host next
  kept : changes = [] → next path = files path

namespace Plans

variable {env : ApplyEnv β} {world : World β} {operations : List (FileChange β)} {plan : ReconcilePlan β}
  {conflict : Bool}

theorem files_unchanged (h : Plans world.files operations conflict plan) :
    findChanged world.files plan.observed.entries = none :=
  findChanged_eq_none.mpr fun path expected he => h.snapshot path expected (BTreeMap.mem_entries_iff.mp he)

theorem applied (h : Plans world.files operations conflict plan) (env : ApplyEnv β)
    (distinct : (operations.map FileChange.path).Nodup) :
    Applied env plan world (applyTracked env plan world) :=
  applyTracked_applied env world (h.operations ▸ distinct) (by simp [h.registry])

theorem completes (h : Plans world.files operations false plan) (reliable : Reliable env) :
    (applyTracked env plan world).2 = .ok () :=
  applyTracked_completes reliable h.conflict h.files_unchanged (by simp [h.registry, findChangedKey])

/-- After an apply a file is as before or as planned. -/
theorem applied_read (h : Plans world.files operations conflict plan)
    (distinct : (operations.map FileChange.path).Nodup) (env : ApplyEnv β) (other : Path) :
    readOptional (applyTracked env plan world).1.files other = readOptional world.files other ∨
      ∃ change ∈ operations, change.path = other ∧
        readOptional (applyTracked env plan world).1.files other = .ok change.contents := by
  have applied := h.applied env distinct
  by_cases hreached : ∃ k change, plan.operations[k]? = some change ∧
      k < (progress plan (applyTracked env plan world).2).1 ∧ other = change.path
  · obtain ⟨k, change, hk, hlt, rfl⟩ := hreached
    have hmem : change ∈ operations := h.operations ▸ List.mem_of_getElem? hk
    exact Or.inr ⟨change, hmem, rfl, readOptional_of_inEffect (applied.effect k change hk hlt)⟩
  · refine Or.inl (readOptional_congr (applied.frame other fun k change hk hlt heq => ?_))
    exact hreached ⟨k, change, hk, hlt, heq⟩

/-- An apply carries out the first of the operations and no others. -/
theorem applied_in_order (h : Plans world.files operations conflict plan)
    (distinct : (operations.map FileChange.path).Nodup) (env : ApplyEnv β) :
    ∃ first rest, operations = first ++ rest ∧
      (∀ change ∈ first, change.InEffect env.host (applyTracked env plan world).1.files) ∧
      (∀ path ∉ first.map FileChange.path, (applyTracked env plan world).1.files path = world.files path) ∧
      ((applyTracked env plan world).2 = .ok () → rest = []) := by
  have applied := h.applied env distinct
  have hops := h.operations
  let done := (progress plan (applyTracked env plan world).2).1
  refine ⟨operations.take done, operations.drop done, (List.take_append_drop _ _).symm, fun change hchange => ?_,
    fun path hpath => ?_, fun hok => ?_⟩
  · obtain ⟨k, hk⟩ := List.mem_iff_getElem?.mp hchange
    rw [List.getElem?_take] at hk
    split at hk
    next hlt => exact applied.effect k change (hops ▸ hk) hlt
    next => cases hk
  · refine applied.frame path fun k change hk hlt heq => hpath ?_
    rw [hops] at hk
    have hmem : change ∈ operations.take done :=
      List.mem_of_getElem? ((List.getElem?_take_of_lt hlt).trans hk)
    exact heq ▸ List.mem_map_of_mem hmem
  · have hdone : done = operations.length := by
      simp only [done, hok, progress, hops]
    rw [hdone, List.drop_length]

/-- Of two operations an apply carries out none, the first or both. -/
theorem applied_both {before after : List (FileChange β)} (h : Plans world.files (before ++ after) conflict plan)
    (distinct : ((before ++ after).map FileChange.path).Nodup) (hbefore : before.length ≤ 1) (hafter : after.length ≤ 1)
    (env : ApplyEnv β) :
    ∃ done, (done = [] ∨ done = before ∨ done = before ++ after) ∧
      (∀ change ∈ done, change.InEffect env.host (applyTracked env plan world).1.files) ∧
      (∀ path ∉ done.map FileChange.path, (applyTracked env plan world).1.files path = world.files path) ∧
      ((applyTracked env plan world).2 = .ok () → done = before ++ after) := by
  obtain ⟨first, rest, hsplit, heffect, hframe, hok⟩ := h.applied_in_order distinct env
  refine ⟨first, ?_, heffect, hframe, fun hdone => ?_⟩
  · rcases List.append_eq_append_iff.mp hsplit with ⟨reached, hfirst, hreached⟩ | ⟨missed, hmissed, _⟩
    · cases reached with
      | nil => exact Or.inr (Or.inl (by rw [hfirst, List.append_nil]))
      | cons change others =>
        have hlength := congrArg List.length hreached
        simp only [List.cons_append, List.length_append, List.length_cons] at hlength
        have hrest : rest = [] := List.eq_nil_of_length_eq_zero (by omega)
        rw [hrest, List.append_nil] at hreached
        exact Or.inr (Or.inr (by rw [hfirst, hreached]))
    · cases first with
      | nil => exact Or.inl rfl
      | cons change others =>
        have hlength := congrArg List.length hmissed
        simp only [List.cons_append, List.length_append, List.length_cons] at hlength
        have hnone : missed = [] := List.eq_nil_of_length_eq_zero (by omega)
        rw [hnone, List.append_nil] at hmissed
        exact Or.inr (Or.inl hmissed.symm)
  · rw [hsplit, hok hdone, List.append_nil]

/-- An apply carries out the changes of one file and then those of another, at most one for each. -/
theorem applied_files {before after : List (FileChange β)} {first second : Path}
    (h : Plans world.files (before ++ after) conflict plan) (hfirst : ∀ change ∈ before, change.path = first)
    (hsecond : ∀ change ∈ after, change.path = second) (hne : first ≠ second) (hbefore : before.length ≤ 1)
    (hafter : after.length ≤ 1) (env : ApplyEnv β) :
    ((applyTracked env plan world).1.files first = world.files first ∧
        (applyTracked env plan world).1.files second = world.files second ∨
      Carried env.host world.files (applyTracked env plan world).1.files first before ∧
        (applyTracked env plan world).1.files second = world.files second ∨
      Carried env.host world.files (applyTracked env plan world).1.files first before ∧
        Carried env.host world.files (applyTracked env plan world).1.files second after) ∧
    ((applyTracked env plan world).2 = .ok () →
      Carried env.host world.files (applyTracked env plan world).1.files first before ∧
        Carried env.host world.files (applyTracked env plan world).1.files second after) := by
  have hoff : ∀ {path other : Path} {changes : List (FileChange β)}, (∀ change ∈ changes, change.path = other) →
      path ≠ other → path ∉ changes.map FileChange.path := by
    intro path other changes hpaths hpath hmem
    obtain ⟨change, hchange, hsame⟩ := List.mem_map.mp hmem
    exact hpath (hsame.symm.trans (hpaths change hchange))
  have hdistinct : ((before ++ after).map FileChange.path).Nodup := by
    have hsmall : ∀ changes : List (FileChange β), changes.length ≤ 1 → (changes.map FileChange.path).Nodup := by
      intro changes hlength
      cases changes with
      | nil => simp
      | cons change rest =>
        have hrest : rest = [] := List.eq_nil_of_length_eq_zero (by simpa using hlength)
        simp [hrest]
    rw [List.map_append]
    refine List.nodup_append.mpr ⟨hsmall _ hbefore, hsmall _ hafter, fun path hpath other hother heq => ?_⟩
    obtain ⟨change, hchange, rfl⟩ := List.mem_map.mp hpath
    obtain ⟨later, hlater, rfl⟩ := List.mem_map.mp hother
    exact hne ((hfirst change hchange).symm.trans (heq.trans (hsecond later hlater)))
  obtain ⟨done, hdone, heffect, hframe, hok⟩ := h.applied_both hdistinct hbefore hafter env
  have hall : done = before ++ after →
      Carried env.host world.files (applyTracked env plan world).1.files first before ∧
        Carried env.host world.files (applyTracked env plan world).1.files second after := by
    rintro rfl
    refine ⟨⟨fun change hchange => heffect change (List.mem_append_left _ hchange), fun hnil => hframe _ ?_⟩,
      ⟨fun change hchange => heffect change (List.mem_append_right _ hchange), fun hnil => hframe _ ?_⟩⟩
    · rw [hnil, List.nil_append]
      exact hoff hsecond hne
    · rw [hnil, List.append_nil]
      exact hoff hfirst (Ne.symm hne)
  refine ⟨?_, fun hcomplete => hall (hok hcomplete)⟩
  rcases hdone with rfl | rfl | hdone
  · exact Or.inl ⟨hframe _ (by simp), hframe _ (by simp)⟩
  · exact Or.inr (Or.inl ⟨⟨heffect, fun hnil => hframe _ (by simp [hnil])⟩, hframe _ (hoff hfirst (Ne.symm hne))⟩)
  · exact Or.inr (Or.inr (hall hdone))

theorem apply_without_operations (h : Plans world.files [] conflict plan) :
    (plan.apply env world).1.files = world.files := by
  funext path
  exact (h.applied env (by simp)).untouched (by simp [h.operations])

/-- A stopped apply did not reach its last operation. -/
theorem stopped_before_last {before : List (FileChange β)} {last : FileChange β}
    (h : Plans world.files (before ++ [last]) false plan)
    (distinct : ((before ++ [last]).map FileChange.path).Nodup) {error : String × ApplyStop}
    (hstop : (applyTracked env plan world).2 = .error error) :
    (progress plan (applyTracked env plan world).2).1 ≤ before.length := by
  have applied := h.applied env distinct
  have hlength : plan.operations.length = before.length + 1 := by simp [h.operations]
  obtain ⟨text, stopped⟩ := error
  rw [hstop]
  cases stopped with
  | operation index =>
    have := applied.operationStop text index hstop
    simp only [progress]
    omega
  | registry index path =>
    obtain ⟨keyPlan, hk, _⟩ := applied.keyStop text index path hstop
    simp [h.registry] at hk
  | conflict => simp [progress]
  | observed path => simp [progress]
  | privateDir path => simp [progress]

end Plans

section

variable {codec : Codec β} {target : MergeTarget} {env : ApplyEnv β} {world : World β}
  {operations : List (FileChange β)} {file : Stored} {side : FileChange β} {plan : ReconcilePlan β}

/-- A complete apply leaves the user's file with its outcome and the sidecar as planned. -/
theorem FileOutcome.completed (h : FileOutcome codec target world.files operations file)
    (hne : side.path ≠ target.path) (hplans : Plans world.files (operations ++ [side]) false plan)
    (hok : (applyTracked env plan world).2 = .ok ()) :
    stored codec target.options.format ((applyTracked env plan world).1.files target.path) = file ∧
      side.InEffect env.host (applyTracked env plan world).1.files := by
  have applied := hplans.applied env (h.distinct hne)
  have planned : ∀ change ∈ operations ++ [side], change.InEffect env.host (applyTracked env plan world).1.files :=
    fun change hc => applied.planned hok (hplans.operations ▸ hc)
  refine ⟨?_, planned side (by simp)⟩
  cases h with
  | kept => rw [applied.untouched (by simp [hplans.operations, Ne.symm hne])]
  | deleted =>
    have heffect : (_ : Entry β) = .absent := planned ⟨target.path, none, 0⟩ (by simp)
    rw [heffect]
    rfl
  | written document mode =>
    have heffect := (planned ⟨target.path, some (codec.print document), mode⟩ (by simp)).contents
    rw [stored_of_contents heffect, stored_print]

/-- A stopped apply leaves the sidecar alone, and the user's file too unless it
holds the planned contents. -/
theorem FileOutcome.stopped (h : FileOutcome codec target world.files operations file)
    (hne : side.path ≠ target.path) (hplans : Plans world.files (operations ++ [side]) false plan)
    {error : String × ApplyStop} (hstop : (applyTracked env plan world).2 = .error error) :
    (applyTracked env plan world).1.files side.path = world.files side.path ∧
      ((applyTracked env plan world).1.files target.path = world.files target.path ∨
        ∃ change ∈ operations, change.InEffect env.host (applyTracked env plan world).1.files) := by
  have applied := hplans.applied env (h.distinct hne)
  have hbefore := hplans.stopped_before_last (h.distinct hne) hstop
  have reached : ∀ k change, plan.operations[k]? = some change →
      k < (progress plan (applyTracked env plan world).2).1 → change ∈ operations := by
    intro k change hk hlt
    rw [hplans.operations, List.getElem?_append_left (by omega)] at hk
    exact List.mem_of_getElem? hk
  constructor
  · refine applied.frame side.path fun k change hk hlt heq => hne ?_
    rw [heq]
    exact h.paths change (reached k change hk hlt)
  · by_cases hnone : ∃ k change, plan.operations[k]? = some change ∧
        k < (progress plan (applyTracked env plan world).2).1
    · obtain ⟨k, change, hk, hlt⟩ := hnone
      exact Or.inr ⟨change, reached k change hk hlt, applied.effect k change hk hlt⟩
    · refine Or.inl (applied.frame target.path fun k change hk hlt => ?_)
      exact absurd ⟨k, change, hk, hlt⟩ hnone

end

section

variable (codec : Codec β) {env : ApplyEnv β} {target : MergeTarget} (legacyOwned : Bool) (managed : Json)
  (world : World β) {plan : ReconcilePlan β}

theorem apply_eq {result : Except (String × ApplyStop) Unit} (h : (applyTracked env plan world).2 = result) :
    plan.apply env world = ((applyTracked env plan world).1, result.mapError Prod.fst) := by
  rw [ReconcilePlan.apply, h]

theorem tracked_ok (h : (plan.apply env world).2 = .ok ()) :
    (applyTracked env plan world).2 = .ok () := by
  cases hr : (applyTracked env plan world).2 with
  | ok => rfl
  | error failure => rw [apply_eq world hr] at h; cases h

/-- What a planned merge leaves once it is applied: the merged document, and its sidecar. -/
theorem Plans.merge_applied (hne : target.statePath ≠ target.path) {existing : Option β} {state : MergeState}
    (hread : readOptional world.files target.path = .ok existing)
    (hplans : Plans world.files (mergeOperations codec env.host world.files target existing state) false plan)
    (hok : (applyTracked env plan world).2 = .ok ()) :
    target.view codec (plan.apply env world).1.files = ⟨.document state.after, .ok (some state)⟩ ∧
      ((plan.apply env world).1.files target.statePath).contents = some (codec.print (stateJson state)) := by
  obtain ⟨operations, hops, houtcome⟩ := mergeOperations_outcome env.host hread state
  rw [hops] at hplans
  obtain ⟨hfile, hside⟩ := houtcome.completed hne hplans hok
  rw [apply_eq world hok]
  refine ⟨?_, hside.contents⟩
  rw [MergeTarget.view, hfile, sidecar_of_contents hside.contents, sidecar_print]

/-- Merging files refines merging documents, when nothing fails or the merge
completed all the same. -/
theorem mergeInto_view (hne : target.statePath ≠ target.path)
    (complete : Reliable env ∨ (mergeInto codec env target legacyOwned managed world).2 = .ok ()) :
    target.view codec (mergeInto codec env target legacyOwned managed world).1.files =
      (target.view codec world.files).merge target.options legacyOwned managed := by
  rcases planMergeWith_spec codec env.host world.files target managed legacyOwned with
    ⟨error, hplan, hno⟩ | ⟨plan, hplan, hplans, hno⟩ | ⟨plan, existing, state, hplan, hread, hplans, hmerge⟩
  · rw [mergeInto, hplan, DocState.merge_of_not_mergeable hno]
  · rw [mergeInto, hplan, DocState.merge_of_not_mergeable hno]
    simp only [hplans.apply_without_operations]
  · have hok : (applyTracked env plan world).2 = .ok () := by
      rcases complete with reliable | hok
      · exact hplans.completes reliable
      · rw [mergeInto, hplan] at hok
        exact tracked_ok world hok
    rw [mergeInto, hplan, hmerge]
    exact (hplans.merge_applied codec world hne hread hok).1

/-- A file that a merge completed on holds the merged document, at a mode within
the planned one. -/
theorem mergeInto_contents (hne : target.statePath ≠ target.path) (reliable : Reliable env)
    (mergeable : (target.view codec world.files).Mergeable managed) :
    ∃ state, (target.view codec world.files).merge target.options legacyOwned managed =
        ⟨.document state.after, .ok (some state)⟩ ∧
      ((mergeInto codec env target legacyOwned managed world).1.files target.path).contents =
        some (codec.print state.after) ∧
      grantsBeyond env.host (mergeInto codec env target legacyOwned managed world).1.files target.path
        target.options.mode = false := by
  rcases planMergeWith_spec codec env.host world.files target managed legacyOwned with
    ⟨error, hplan, hno⟩ | ⟨plan, hplan, hplans, hno⟩ | ⟨plan, existing, state, hplan, hread, hplans, hmerge⟩
  · exact absurd mergeable hno
  · exact absurd mergeable hno
  · have hok := hplans.completes reliable
    obtain ⟨operations, hops, houtcome⟩ := mergeOperations_outcome env.host hread state
    refine ⟨state, hmerge, ?_⟩
    rw [mergeInto, hplan]
    simp only [apply_eq world hok]
    have applied := hplans.applied env (hops ▸ houtcome.distinct hne)
    by_cases hsame : mergeAction env.host world.files target existing (codec.print state.after) = .unchanged
    · have hpath : target.path ∉ plan.operations.map FileChange.path := by
        simp [hplans.operations, mergeOperations, hsame, Ne.symm hne]
      obtain ⟨hexisting, hmode⟩ := mergeAction_unchanged hsame
      unfold grantsBeyond at hmode ⊢
      rw [applied.untouched hpath]
      exact ⟨(readOptional_contents hread).trans hexisting, hmode⟩
    · have hmem : ⟨target.path, some (codec.print state.after), target.options.mode⟩ ∈ plan.operations := by
        simp [hplans.operations, mergeOperations, hsame]
      exact applied.planned hok hmem

/-- The sidecar that a completed merge leaves. -/
theorem mergeInto_sidecar (hne : target.statePath ≠ target.path) (reliable : Reliable env)
    (mergeable : (target.view codec world.files).Mergeable managed) {state : MergeState}
    (hstate : (target.view codec world.files).merge target.options legacyOwned managed =
      ⟨.document state.after, .ok (some state)⟩) :
    ((mergeInto codec env target legacyOwned managed world).1.files target.statePath).contents =
      some (codec.print (stateJson state)) := by
  rcases planMergeWith_spec codec env.host world.files target managed legacyOwned with
    ⟨error, hplan, hno⟩ | ⟨plan, hplan, hplans, hno⟩ | ⟨plan, existing, found, hplan, hread, hplans, hmerge⟩
  · exact absurd mergeable hno
  · exact absurd mergeable hno
  · have hsame : found = state := by
      have hsidecar := congrArg DocState.sidecar (hmerge.symm.trans hstate)
      exact Option.some.inj (Except.ok.inj hsidecar)
    rw [mergeInto, hplan, ← hsame]
    exact (hplans.merge_applied codec world hne hread (hplans.completes reliable)).2

/-- Removing from files refines removing from documents. -/
theorem removeFrom_view (hne : target.statePath ≠ target.path) (reliable : Reliable env) :
    target.view codec (removeFrom codec env target world).1.files =
      (target.view codec world.files).remove target.options := by
  rcases planRemoveWith_spec codec env.host world.files target with
    ⟨error, hplan, hremove⟩ | ⟨plan, found, hplan, hdone, -⟩
  · rw [removeFrom, hplan, hremove]
  · rw [removeFrom, hplan]
    cases hdone with
    | nothing hplans hremove =>
      rw [hremove]
      simp only [hplans.apply_without_operations]
    | removed hplans houtcome hremove =>
      have hok := hplans.completes reliable
      obtain ⟨hfile, hside⟩ := houtcome.completed hne hplans hok
      have habsent : (applyTracked env plan world).1.files target.statePath = .absent := hside
      rw [hremove]
      simp only [apply_eq world hok, MergeTarget.view, hfile, habsent]
      rfl

/-- A merge that stopped with the contents of the user's file as they were changed
nothing at all. -/
theorem mergeInto_stopped_view (hne : target.statePath ≠ target.path) {error : String}
    (hstop : (mergeInto codec env target legacyOwned managed world).2 = .error error)
    (same : ((mergeInto codec env target legacyOwned managed world).1.files target.path).contents =
      (world.files target.path).contents) :
    target.view codec (mergeInto codec env target legacyOwned managed world).1.files =
      target.view codec world.files := by
  rcases planMergeWith_spec codec env.host world.files target managed legacyOwned with
    ⟨error, hplan, _⟩ | ⟨plan, hplan, hplans, _⟩ | ⟨plan, existing, state, hplan, hread, hplans, _⟩
  · rw [mergeInto, hplan]
  · rw [mergeInto, hplan]
    simp only [hplans.apply_without_operations]
  · obtain ⟨operations, hops, houtcome⟩ := mergeOperations_outcome env.host hread state
    rw [hops] at hplans
    simp only [mergeInto, hplan] at hstop same ⊢
    obtain ⟨failure, hfail⟩ : ∃ failure, (applyTracked env plan world).2 = .error failure := by
      cases h : (applyTracked env plan world).2 with
      | ok => rw [apply_eq world h] at hstop; cases hstop
      | error failure => exact ⟨failure, rfl⟩
    rw [apply_eq world hfail] at same ⊢
    obtain ⟨hside, hfile⟩ := houtcome.stopped hne hplans hfail
    have hsame : stored codec target.options.format ((applyTracked env plan world).1.files target.path) =
        stored codec target.options.format (world.files target.path) := by
      rcases hfile with hfile | ⟨change, hc, heffect⟩
      · rw [hfile]
      · have hnew : ((applyTracked env plan world).1.files target.path).contents =
            some (codec.print state.after) := by
          rw [← houtcome.paths change hc, heffect.contents, houtcome.writes_document hc]
        rw [stored_of_contents hnew, stored_of_contents (same.symm.trans hnew)]
    simp only [MergeTarget.view, hsame, DocState.mk.injEq, true_and]
    exact congrArg (sidecar codec) hside

end

end AgentDesktop
