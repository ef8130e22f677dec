import AgentDesktop.PlanComplete

namespace AgentDesktop

variable {β : Type}

/-- Adds items one by one until one has the key of an item already there. -/
def extendDistinct {α κ : Type} [DecidableEq κ] (key : α → κ) : List α → List α → List α × Option α
  | [], existing => (existing, none)
  | item :: rest, existing =>
    if existing.any fun other => decide (key other = key item) then (existing, some item)
    else extendDistinct key rest (existing ++ [item])

section

variable {α κ : Type} [DecidableEq κ] {key : α → κ}

theorem extendDistinct_items {items existing : List α} (h : (extendDistinct key items existing).2 = none) :
    (extendDistinct key items existing).1 = existing ++ items := by
  induction items generalizing existing with
  | nil => simp [extendDistinct]
  | cons item rest ih =>
    rw [extendDistinct] at h ⊢
    split at h
    next => cases h
    next hnew =>
      rw [if_neg hnew, ih h]
      simp

theorem extendDistinct_none_iff {items existing : List α} (distinct : (existing.map key).Nodup) :
    (extendDistinct key items existing).2 = none ↔ ((existing ++ items).map key).Nodup := by
  induction items generalizing existing with
  | nil => simpa [extendDistinct] using distinct
  | cons item rest ih =>
    rw [extendDistinct]
    split
    next hold =>
      simp only [reduceCtorEq, false_iff]
      intro hn
      obtain ⟨other, ho, heq⟩ := List.any_eq_true.mp hold
      rw [List.map_append, List.nodup_append] at hn
      exact hn.2.2 (key other) (List.mem_map_of_mem ho) (key item) (by simp) (of_decide_eq_true heq)
    next hnew =>
      have hitem : ∀ other ∈ existing, key other ≠ key item := by
        intro other ho heq
        exact hnew (List.any_eq_true.mpr ⟨other, ho, decide_eq_true heq⟩)
      have hnext : ((existing ++ [item]).map key).Nodup := by
        rw [List.map_append, List.nodup_append]
        refine ⟨distinct, by simp, ?_⟩
        rintro a ha b hb rfl
        obtain ⟨other, ho, rfl⟩ := List.mem_map.mp ha
        exact hitem other ho (by simpa using hb)
      rw [ih hnext]
      simp

end

/-- What a set of observations together with further ones says about a path. -/
def Sees (observed : BTreeMap Path (Option β)) (items : List (Path × Option β)) (path : Path)
    (contents : Option β) : Prop :=
  observed.get? path = some contents ∨ (path, contents) ∈ items

variable {observed : BTreeMap Path (Option β)}

theorem sees_insert {rest : List (Path × Option β)} {path : Path} {expected : Option β}
    (agrees : ∀ previous, observed.get? path = some previous → previous = expected) (other : Path)
    (contents : Option β) :
    Sees (observed.insert path expected) rest other contents ↔
      Sees observed ((path, expected) :: rest) other contents := by
  unfold Sees
  rw [BTreeMap.get?_insert, List.mem_cons, Prod.mk.injEq]
  by_cases h : other = path
  · subst h
    rw [if_pos rfl, Option.some.injEq]
    constructor
    · rintro (h | h)
      · exact Or.inr (Or.inl ⟨rfl, h.symm⟩)
      · exact Or.inr (Or.inr h)
    · rintro (h | ⟨-, h⟩ | h)
      · exact Or.inl (agrees contents h).symm
      · exact Or.inl h.symm
      · exact Or.inr h
  · simp [h]

section

variable [DecidableEq β]

/-- Adds observations one by one until one disagrees with what is there. -/
def extendObserved : List (Path × Option β) → BTreeMap Path (Option β) →
    BTreeMap Path (Option β) × Option (String × Path)
  | [], observed => (observed, none)
  | (path, expected) :: rest, observed =>
    if ∃ previous ∈ observed.get? path, previous ≠ expected then
      (observed, some (displayPath path ++ " changed while planning reconciliation", path))
    else extendObserved rest (observed.insert path expected)

theorem extendObserved_get? {items : List (Path × Option β)} (h : (extendObserved items observed).2 = none)
    (path : Path) (contents : Option β) :
    (extendObserved items observed).1.get? path = some contents ↔ Sees observed items path contents := by
  induction items generalizing observed with
  | nil => simp [extendObserved, Sees]
  | cons item rest ih =>
    obtain ⟨p, expected⟩ := item
    rw [extendObserved] at h ⊢
    split at h
    next => cases h
    next hagree =>
      rw [if_neg hagree, ih h]
      refine sees_insert (fun previous hp => ?_) path contents
      by_contra hne
      exact hagree ⟨previous, hp, hne⟩

theorem extendObserved_none_iff {items : List (Path × Option β)} :
    (extendObserved items observed).2 = none ↔
      ∀ path a b, Sees observed items path a → Sees observed items path b → a = b := by
  induction items generalizing observed with
  | nil =>
    simp only [extendObserved, Sees, List.not_mem_nil, or_false, true_iff]
    intro path a b ha hb
    exact Option.some.inj (ha.symm.trans hb)
  | cons item rest ih =>
    obtain ⟨p, expected⟩ := item
    rw [extendObserved]
    split
    next hne =>
      obtain ⟨previous, hp, hne⟩ := hne
      simp only [reduceCtorEq, false_iff]
      intro hall
      exact hne (hall p previous expected (Or.inl hp) (Or.inr (by simp)))
    next hagree =>
      have agrees : ∀ previous, observed.get? p = some previous → previous = expected := by
        intro previous hp
        by_contra hne
        exact hagree ⟨previous, hp, hne⟩
      rw [ih]
      simp only [sees_insert agrees]

def multipleProviders (path : Path) : String × Path :=
  ("multiple providers plan to modify " ++ displayPath path, path)

/-- Appends another plan; on failure also gives the path the two plans disagree
about, and the plan keeps what was added before it. -/
def ReconcilePlan.appendAttributed (other plan : ReconcilePlan β) : ReconcilePlan β × Option (String × Path) :=
  match extendObserved other.observed.entries plan.observed with
  | (observed, some error) => ({ plan with observed }, some error)
  | (observed, none) =>
  let privateDirs := plan.privateDirs ++ other.privateDirs
  match extendDistinct FileChange.path other.operations plan.operations with
  | (operations, some change) => ({ plan with observed, privateDirs, operations }, some (multipleProviders change.path))
  | (operations, none) =>
  match extendDistinct RegistryKeyPlan.key other.registry plan.registry with
  | (registry, some keyPlan) =>
    ({ plan with observed, privateDirs, operations, registry }, some (multipleProviders keyPlan.key.displayPath))
  | (registry, none) =>
    let changes := plan.changes ++ other.changes
    let reportInactive := plan.reportInactive ++ other.reportInactive
    ({ plan with observed, privateDirs, operations, registry, changes, reportInactive }, none)

/-- An append that met no disagreement. -/
structure Appended (plan other result : ReconcilePlan β) : Prop where
  observed : ∀ path contents, result.observed.get? path = some contents ↔
    plan.observed.get? path = some contents ∨ other.observed.get? path = some contents
  operations : result.operations = plan.operations ++ other.operations
  registry : result.registry = plan.registry ++ other.registry
  changes : result.changes = plan.changes ++ other.changes

theorem appendAttributed_appended {plan other : ReconcilePlan β} (h : (other.appendAttributed plan).2 = none) :
    Appended plan other (other.appendAttributed plan).1 := by
  unfold ReconcilePlan.appendAttributed at h ⊢
  split at h
  next => cases h
  next observed hobs =>
  dsimp only at h
  split at h
  next => cases h
  next operations hops =>
  split at h
  next => cases h
  next registry hkeys =>
    have seen := extendObserved_get? (congrArg Prod.snd hobs)
    have listed := extendDistinct_items (congrArg Prod.snd hops)
    have keys := extendDistinct_items (congrArg Prod.snd hkeys)
    simp only [hobs, hops, hkeys] at seen listed keys ⊢
    refine ⟨fun path contents => ?_, listed, keys, rfl⟩
    rw [seen, Sees, BTreeMap.mem_entries_iff]

theorem appendAttributed_none_iff {plan other : ReconcilePlan β}
    (distinct : (plan.operations.map FileChange.path).Nodup)
    (distinctKeys : (plan.registry.map RegistryKeyPlan.key).Nodup) :
    (other.appendAttributed plan).2 = none ↔
      (∀ path a b, Sees plan.observed other.observed.entries path a →
        Sees plan.observed other.observed.entries path b → a = b) ∧
      ((plan.operations ++ other.operations).map FileChange.path).Nodup ∧
      ((plan.registry ++ other.registry).map RegistryKeyPlan.key).Nodup := by
  rw [← extendObserved_none_iff, ← extendDistinct_none_iff distinct, ← extendDistinct_none_iff distinctKeys]
  unfold ReconcilePlan.appendAttributed
  split
  next hobs => simp [hobs]
  next hobs =>
  dsimp only
  split
  next hops => simp [hobs, hops]
  next hops =>
  split
  next hkeys => simp [hobs, hops, hkeys]
  next hkeys => simp [hobs, hops, hkeys]

end

end AgentDesktop
