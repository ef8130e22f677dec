import AgentDesktop.AttributedPlan
import Mathlib.Data.List.Forall2
import Mathlib.Data.List.Induction

namespace AgentDesktop

variable {β : Type}

def plansOf (results : PlanResults β) : List (ReconcilePlan β) :=
  results.filterMap fun planned => planned.2.toOption

def operationsOf (results : PlanResults β) : List (FileChange β) :=
  (plansOf results).flatMap ReconcilePlan.operations

def keyPlansOf (results : PlanResults β) : List RegistryKeyPlan :=
  (plansOf results).flatMap ReconcilePlan.registry

def Observes (plans : List (ReconcilePlan β)) (path : Path) (contents : Option β) : Prop :=
  ∃ plan ∈ plans, plan.observed.get? path = some contents

/-- The providers all planned, and no two plans disagree about a path. -/
structure Compatible (results : PlanResults β) : Prop where
  planned : ∀ planned ∈ results, ∃ own, planned.2 = .ok own
  agree : ∀ path a b, Observes (plansOf results) path a → Observes (plansOf results) path b → a = b
  operations : ((operationsOf results).map FileChange.path).Nodup
  keys : ((keyPlansOf results).map RegistryKeyPlan.key).Nodup

@[simp] theorem plansOf_concat_ok (results : PlanResults β) (program : String) (own : ReconcilePlan β) :
    plansOf (results ++ [(program, .ok own)]) = plansOf results ++ [own] := by
  simp [plansOf, Except.toOption]

@[simp] theorem operationsOf_concat_ok (results : PlanResults β) (program : String) (own : ReconcilePlan β) :
    operationsOf (results ++ [(program, .ok own)]) = operationsOf results ++ own.operations := by
  simp [operationsOf]

@[simp] theorem keyPlansOf_concat_ok (results : PlanResults β) (program : String) (own : ReconcilePlan β) :
    keyPlansOf (results ++ [(program, .ok own)]) = keyPlansOf results ++ own.registry := by
  simp [keyPlansOf]

variable {own : ReconcilePlan β}

theorem observes_concat {plans : List (ReconcilePlan β)} {path : Path} {contents : Option β} :
    Observes (plans ++ [own]) path contents ↔
      Observes plans path contents ∨ own.observed.get? path = some contents := by
  simp [Observes, or_and_right, exists_or]

variable {results : PlanResults β}

theorem Compatible.of_concat {planned : String × Except String (ReconcilePlan β)}
    (h : Compatible (results ++ [planned])) : Compatible results := by
  obtain ⟨own, hown⟩ := h.planned planned (by simp)
  obtain ⟨program, result⟩ := planned
  cases hown
  have ops := h.operations
  have keys := h.keys
  rw [operationsOf_concat_ok, List.map_append] at ops
  rw [keyPlansOf_concat_ok, List.map_append] at keys
  refine ⟨fun other ho => h.planned other (List.mem_append_left _ ho), ?_,
    (List.nodup_append.mp ops).1, (List.nodup_append.mp keys).1⟩
  intro path a b ha hb
  refine h.agree path a b ?_ ?_ <;> rw [plansOf_concat_ok, observes_concat]
  · exact Or.inl ha
  · exact Or.inl hb

/-- The indices of `part` in the list `whole` it was appended to. -/
structure Slice {α : Type} (range : IndexRange) (part whole : List α) : Prop where
  stop : range.stop = range.start + part.length
  items : ∀ k item, part[k]? = some item → whole[range.start + k]? = some item

namespace Slice

variable {α : Type} {range : IndexRange} {part whole : List α}

theorem of_append (whole part : List α) : Slice ⟨whole.length, (whole ++ part).length⟩ part (whole ++ part) := by
  refine ⟨List.length_append, fun k item hk => ?_⟩
  rw [List.getElem?_append_right (Nat.le_add_right _ k), Nat.add_sub_cancel_left, hk]

theorem append (h : Slice range part whole) (more : List α) : Slice range part (whole ++ more) := by
  refine ⟨h.stop, fun k item hk => ?_⟩
  have hold := h.items k item hk
  obtain ⟨hlt, _⟩ := List.getElem?_eq_some_iff.mp hold
  rw [List.getElem?_append_left hlt, hold]

theorem mem_of_contains (h : Slice range part whole) {k : Nat} {item : α} (hk : whole[k]? = some item)
    (hc : range.contains k = true) : item ∈ part := by
  have hb := IndexRange.contains_iff.mp hc
  have hstop := h.stop
  have hlt : k - range.start < part.length := by omega
  have hitem := h.items (k - range.start) part[k - range.start] (List.getElem?_eq_getElem hlt)
  rw [Nat.add_sub_cancel' hb.1, hk] at hitem
  exact Option.some.inj hitem ▸ List.getElem_mem hlt

theorem index_of_mem (h : Slice range part whole) {item : α} (hm : item ∈ part) :
    ∃ k, whole[k]? = some item ∧ range.contains k = true := by
  obtain ⟨j, hlt, hj⟩ := List.mem_iff_getElem.mp hm
  have hstop := h.stop
  refine ⟨range.start + j, h.items j item (by rw [List.getElem?_eq_getElem hlt, hj]), ?_⟩
  rw [IndexRange.contains_iff]
  omega

theorem contains_of_mem (h : Slice range part whole) (distinct : whole.Nodup) {k : Nat} {item : α}
    (hk : whole[k]? = some item) (hm : item ∈ part) : range.contains k = true := by
  obtain ⟨j, hj, hc⟩ := h.index_of_mem hm
  obtain ⟨hb, _⟩ := List.getElem?_eq_some_iff.mp hk
  rwa [(List.getElem?_inj hb distinct).mp (hk.trans hj.symm)]

end Slice

variable [DecidableEq β]

/-- An entry describes the part its provider's own plan has in the device plan. -/
structure Owns (plan own : ReconcilePlan β) (entry : ProgramEntry) : Prop where
  failed : entry.failed = none
  conflicts : entry.conflicts = own.summary.conflicts
  paths : entry.paths = own.summary.paths
  operations : Slice entry.operations own.operations plan.operations
  registry : Slice entry.registryOperations own.registry plan.registry

/-- The device plan is the providers' plans one after the other. -/
structure Assembled (results : PlanResults β) (attributed : AttributedPlan β) : Prop where
  observed : ∀ path contents, attributed.plan.observed.get? path = some contents ↔
    Observes (plansOf results) path contents
  operations : attributed.plan.operations = operationsOf results
  registry : attributed.plan.registry = keyPlansOf results
  changes : attributed.plan.changes = (plansOf results).flatMap ReconcilePlan.changes
  entries : List.Forall₂ (fun planned entry => ∃ own, planned.2 = .ok own ∧ Owns attributed.plan own entry)
    results attributed.entries

theorem Owns.append {plan result own other : ReconcilePlan β} {entry : ProgramEntry} (h : Owns plan own entry)
    (appended : Appended plan other result) : Owns result own entry :=
  { h with
    operations := appended.operations ▸ h.operations.append other.operations
    registry := appended.registry ▸ h.registry.append other.registry }

variable {attributed : AttributedPlan β}

theorem addProvider_firstError {configured optedOut : List String}
    {planned : String × Except String (ReconcilePlan β)} :
    (attributed.addProvider configured optedOut planned).firstError = none ↔
      attributed.firstError = none ∧
        ∃ own, planned.2 = .ok own ∧ (own.appendAttributed attributed.plan).2 = none := by
  obtain ⟨program, result⟩ := planned
  cases result with
  | error error => simp [AttributedPlan.addProvider]
  | ok own =>
    simp only [AttributedPlan.addProvider, Except.ok.injEq, exists_eq_left']
    cases h : (own.appendAttributed attributed.plan).2 with
    | none => simp
    | some failure => simp

theorem Assembled.addProvider {configured optedOut : List String} {program : String}
    (assembled : Assembled results attributed) (h : (own.appendAttributed attributed.plan).2 = none) :
    Assembled (results ++ [(program, .ok own)])
      (attributed.addProvider configured optedOut (program, .ok own)) := by
  have appended := appendAttributed_appended h
  simp only [AttributedPlan.addProvider, h]
  constructor
  · intro path contents
    rw [appended.observed, assembled.observed, plansOf_concat_ok, observes_concat]
  · simp [appended.operations, assembled.operations]
  · simp [appended.registry, assembled.registry]
  · simp [appended.changes, assembled.changes]
  · refine List.rel_append (assembled.entries.imp ?_) ?_
    · rintro planned entry ⟨other, hok, howns⟩
      exact ⟨other, hok, howns.append appended⟩
    · refine List.Forall₂.cons ⟨own, rfl, ?_⟩ List.Forall₂.nil
      refine ⟨rfl, rfl, rfl, ?_, ?_⟩
      · rw [appended.operations]
        exact Slice.of_append _ _
      · rw [appended.registry]
        exact Slice.of_append _ _

/-- A further plan is compatible exactly when appending it meets no disagreement. -/
theorem compatible_concat_iff {program : String} (compatible : Compatible results)
    (assembled : Assembled results attributed) :
    Compatible (results ++ [(program, .ok own)]) ↔ (own.appendAttributed attributed.plan).2 = none := by
  have sees : ∀ path contents, Sees attributed.plan.observed own.observed.entries path contents ↔
      Observes (plansOf (results ++ [(program, .ok own)])) path contents := by
    intro path contents
    rw [Sees, assembled.observed, BTreeMap.mem_entries_iff, plansOf_concat_ok, observes_concat]
  have ops : attributed.plan.operations ++ own.operations =
      operationsOf (results ++ [(program, .ok own)]) := by
    simp [assembled.operations]
  have keys : attributed.plan.registry ++ own.registry =
      keyPlansOf (results ++ [(program, .ok own)]) := by
    simp [assembled.registry]
  rw [appendAttributed_none_iff (assembled.operations ▸ compatible.operations)
    (assembled.registry ▸ compatible.keys), ops, keys]
  simp only [sees]
  constructor
  · intro h
    exact ⟨h.agree, h.operations, h.keys⟩
  · rintro ⟨agree, hops, hkeys⟩
    refine ⟨fun planned hp => ?_, agree, hops, hkeys⟩
    rcases List.mem_append.mp hp with hp | hp
    · exact compatible.planned planned hp
    · exact ⟨own, by rw [List.mem_singleton.mp hp]⟩

theorem planWithReport_concat (configured optedOut : List String) (results : PlanResults β)
    (planned : String × Except String (ReconcilePlan β)) :
    planWithReport configured optedOut (results ++ [planned]) =
      (planWithReport configured optedOut results).addProvider configured optedOut planned := by
  simp [planWithReport]

theorem planWithReport_spec (configured optedOut : List String) (results : PlanResults β) :
    ((planWithReport configured optedOut results).firstError = none ↔ Compatible results) ∧
      (Compatible results → Assembled results (planWithReport configured optedOut results)) := by
  induction results using List.reverseRecOn with
  | nil =>
    refine ⟨⟨fun _ => ?_, fun _ => rfl⟩, fun _ => ?_⟩
    · constructor <;> simp [operationsOf, keyPlansOf, plansOf, Observes]
    · constructor <;> simp [planWithReport, operationsOf, keyPlansOf, plansOf, Observes]
  | append_singleton results planned ih =>
    obtain ⟨hnone, hassembled⟩ := ih
    obtain ⟨program, result⟩ := planned
    rw [planWithReport_concat, addProvider_firstError, hnone]
    have step : Compatible (results ++ [(program, result)]) → ∃ own, result = .ok own ∧
        (own.appendAttributed (planWithReport configured optedOut results).plan).2 = none := by
      intro h
      obtain ⟨own, rfl⟩ := h.planned (program, result) (by simp)
      exact ⟨own, rfl, (compatible_concat_iff h.of_concat (hassembled h.of_concat)).mp h⟩
    refine ⟨⟨?_, fun h => ⟨h.of_concat, step h⟩⟩, ?_⟩
    · rintro ⟨h, own, rfl, hown⟩
      exact (compatible_concat_iff h (hassembled h)).mpr hown
    · intro h
      obtain ⟨own, rfl, hown⟩ := step h
      exact (hassembled h.of_concat).addProvider hown

/-- An entry with changes is that of a provider whose own plan has changes. -/
theorem planWithReport_changes (configured optedOut : List String) (results : PlanResults β) :
    List.Forall₂ (fun planned entry => entry.changes = true →
        ∃ own, planned.2 = .ok own ∧ own.summary.changes = true)
      results (planWithReport configured optedOut results).entries := by
  induction results using List.reverseRecOn with
  | nil => exact List.Forall₂.nil
  | append_singleton results planned ih =>
    rw [planWithReport_concat]
    obtain ⟨program, result⟩ := planned
    cases result with
    | error error => exact List.rel_append ih (List.Forall₂.cons (by simp) List.Forall₂.nil)
    | ok own =>
      simp only [AttributedPlan.addProvider]
      split
      next => exact List.rel_append ih (List.Forall₂.cons (fun h => ⟨own, rfl, h⟩) List.Forall₂.nil)
      next error path _ =>
        refine List.rel_append ?_ (List.Forall₂.cons (fun h => ⟨own, rfl, h⟩) List.Forall₂.nil)
        rw [List.forall₂_map_right_iff]
        refine ih.imp fun planned entry h hc => h ?_
        unfold markFailed at hc
        split at hc <;> exact hc

end AgentDesktop
