import AgentDesktop.PlanApplySpec

namespace AgentDesktop

variable {β : Type}

/-- No directory, file operation or key plan fails. -/
structure Reliable (env : ApplyEnv β) : Prop where
  dirs : ∀ dir, env.dirFails dir = none
  operations : ∀ index change files, env.operationFails index change files = none
  keys : ∀ index, env.keyFails index = none

theorem reliable_default : Reliable ({} : ApplyEnv β) :=
  ⟨fun _ => rfl, fun _ _ _ => rfl, fun _ => rfl⟩

variable {env : ApplyEnv β}

theorem findChangedKey_eq_none {registry : RegistryKey → RegistryValues} {plans : List RegistryKeyPlan} :
    findChangedKey env registry plans = none ↔
      ∀ keyPlan ∈ plans, env.keyUnreadable keyPlan.key = none ∧ registry keyPlan.key = keyPlan.observed := by
  induction plans with
  | nil => simp [findChangedKey]
  | cons keyPlan rest ih =>
    simp only [findChangedKey, List.forall_mem_cons]
    split
    next hread => simp [hread]
    next hread =>
      split
      next hsame => simp [hread, hsame, ih]
      next hdiffers => simp [hdiffers]

theorem createDirs_reliable (reliable : Reliable env) (dirs : List Path) (world : World β) :
    (createDirs env dirs world).2 = none := by
  induction dirs generalizing world with
  | nil => rfl
  | cons dir rest ih =>
    rw [createDirs]
    split
    next => exact ih world
    next =>
      rw [reliable.dirs]
      exact ih _

theorem runKeys_reliable (reliable : Reliable env) (start : Nat) (plans : List RegistryKeyPlan) (world : World β) :
    (runKeys env start plans world).2 = none := by
  induction plans generalizing start world with
  | nil => rfl
  | cons keyPlan rest ih =>
    rw [runKeys, reliable.keys]
    exact ih _ _

variable [DecidableEq β]

/-- An apply is not started when a conflict is recorded or something observed differs. -/
theorem applyTracked_refused {plan : ReconcilePlan β} {world : World β}
    (h : plan.hasConflicts = true ∨ findChanged world.files plan.observed.entries ≠ none ∨
      findChangedKey env world.registry plan.registry ≠ none) :
    (applyTracked env plan world).1 = world ∧ ∃ error, (applyTracked env plan world).2 = .error error := by
  rw [applyTracked]
  split
  next => exact ⟨rfl, _, rfl⟩
  next hconflict =>
  split
  next => exact ⟨rfl, _, rfl⟩
  next hfiles =>
  split
  next => exact ⟨rfl, _, rfl⟩
  next hkeys =>
    rcases h with h | h | h
    · obtain ⟨change, hc, ha⟩ := List.any_eq_true.mp h
      exact absurd ha (List.find?_eq_none.mp hconflict change hc)
    · exact absurd hfiles h
    · exact absurd hkeys h

theorem runOperations_reliable (reliable : Reliable env) (observed : BTreeMap Path (Option β)) (start : Nat)
    (operations : List (FileChange β)) (world : World β) :
    (runOperations env observed start operations world).2 = none := by
  induction operations generalizing start world with
  | nil => rfl
  | cons change rest ih =>
    rw [runOperations]
    split
    next => exact ih _ world
    next =>
      rw [reliable.operations]
      exact ih _ _

theorem applyTracked_completes (reliable : Reliable env) {plan : ReconcilePlan β} {world : World β}
    (conflicts : plan.hasConflicts = false) (files : findChanged world.files plan.observed.entries = none)
    (keys : findChangedKey env world.registry plan.registry = none) :
    (applyTracked env plan world).2 = .ok () := by
  have none_found : plan.changes.find? (fun change => decide (change.action = .conflict)) = none := by
    rw [List.find?_eq_none]
    intro change hc
    simpa using List.any_eq_false.mp conflicts change hc
  rw [applyTracked, none_found, files, keys]
  dsimp only
  split
  next hdirs => simpa [hdirs] using createDirs_reliable reliable plan.privateDirs world
  next after hdirs =>
  split
  next hops => simpa [hops] using runOperations_reliable reliable plan.observed 0 plan.operations after
  next next hops =>
  split
  next hkeys => simpa [hkeys] using runKeys_reliable reliable 0 plan.registry next
  next => rfl

end AgentDesktop
