import AgentDesktop.PlanKeys
import AgentDesktop.PlanOperations

namespace AgentDesktop

variable {β : Type} {files : FileSystem β} {path : Path}

theorem readOptional_contents {contents : Option β} (h : readOptional files path = .ok contents) :
    (files path).contents = contents := by
  unfold readOptional at h
  split at h
  next hf => cases h; simp [hf, Entry.contents]
  next hf => cases h; simp [hf, Entry.contents]
  next => cases h

theorem readOptional_congr {files next : FileSystem β} (h : next path = files path) :
    readOptional next path = readOptional files path := by
  unfold readOptional
  rw [h]

theorem absent_of_read (h : readOptional files path = .ok none) :
    files path = .absent := by
  unfold readOptional at h
  split at h
  next hentry => exact hentry
  next => cases h
  next => cases h

theorem readOptional_of_inEffect {host : Host} {change : FileChange β} (h : change.InEffect host files) :
    readOptional files change.path = .ok change.contents := by
  have hcontents := h.contents
  unfold FileChange.InEffect at h
  unfold readOptional
  cases hentry : files change.path with
  | file contents mode =>
    rw [hentry] at hcontents
    rw [← hcontents]
    rfl
  | absent =>
    rw [hentry] at hcontents
    rw [← hcontents]
    rfl
  | unreadable =>
    rw [hentry] at hcontents h
    rw [← hcontents] at h
    cases h

theorem createDirs_spec (env : ApplyEnv β) (dirs : List Path) (world : World β) :
    (createDirs env dirs world).1.files = world.files ∧
      (createDirs env dirs world).1.registry = world.registry ∧
      ∀ event, (∀ dir, event ≠ .dir dir) → (event ∈ (createDirs env dirs world).1.log ↔ event ∈ world.log) := by
  induction dirs generalizing world with
  | nil => exact ⟨rfl, rfl, fun _ _ => Iff.rfl⟩
  | cons dir rest ih =>
    rw [createDirs]
    split
    next => exact ih world
    next =>
      split
      next => exact ⟨rfl, rfl, fun _ _ => Iff.rfl⟩
      next =>
        obtain ⟨hf, hr, hl⟩ := ih { world with log := world.log ++ [.dir dir] }
        refine ⟨hf, hr, fun event h => ?_⟩
        rw [hl event h]
        simp [h dir]

variable [DecidableEq β]

theorem findChanged_eq_none {entries : List (Path × Option β)} :
    findChanged files entries = none ↔ ∀ path expected, (path, expected) ∈ entries →
      readOptional files path = .ok expected := by
  induction entries with
  | nil => simp [findChanged]
  | cons entry rest ih =>
    obtain ⟨path, expected⟩ := entry
    rw [findChanged]
    split
    next hr =>
      simp only [reduceCtorEq, false_iff, not_forall]
      exact ⟨path, expected, by simp, by simp [hr]⟩
    next current hr =>
      split
      next heq =>
        rw [ih]
        constructor
        · intro h p e he
          rcases List.mem_cons.mp he with he | he
          · cases he; rw [hr, heq]
          · exact h p e he
        · intro h p e he
          exact h p e (List.mem_cons_of_mem _ he)
      next hne =>
        simp only [reduceCtorEq, false_iff, not_forall]
        exact ⟨path, expected, by simp, by simp [hr, hne]⟩

/-- How many file operations and key plans took effect. -/
def progress (plan : ReconcilePlan β) (outcome : Except (String × ApplyStop) Unit) : Nat × Nat :=
  match outcome with
  | .ok _ => (plan.operations.length, plan.registry.length)
  | .error (_, .operation index) => (index, 0)
  | .error (_, .registry index _) => (plan.operations.length, index)
  | .error _ => (0, 0)

/-- What an apply leaves on the device, by how far it got. -/
structure Applied (env : ApplyEnv β) (plan : ReconcilePlan β) (world : World β)
    (result : World β × Except (String × ApplyStop) Unit) : Prop where
  effect : ∀ k change, plan.operations[k]? = some change → k < (progress plan result.2).1 →
    change.InEffect env.host result.1.files
  frame : ∀ path, (∀ k change, plan.operations[k]? = some change → k < (progress plan result.2).1 →
      path ≠ change.path) → result.1.files path = world.files path
  keyEffect : ∀ k keyPlan, plan.registry[k]? = some keyPlan → k < (progress plan result.2).2 →
    result.1.registry keyPlan.key = applyKeyChanges (world.registry keyPlan.key) keyPlan.changes
  operationLog : ∀ k, .operation k ∈ result.1.log ↔ .operation k ∈ world.log ∨
    ∃ change, plan.operations[k]? = some change ∧ k < (progress plan result.2).1 ∧
      alreadyInPlace env.host world.files plan.observed change = false
  keyLog : ∀ k, .key k ∈ result.1.log ↔ .key k ∈ world.log ∨ k < (progress plan result.2).2
  operationStop : ∀ error index, result.2 = .error (error, .operation index) → index < plan.operations.length
  keyStop : ∀ error index path, result.2 = .error (error, .registry index path) →
    ∃ keyPlan, plan.registry[index]? = some keyPlan ∧ path = keyPlan.key.displayPath

section

variable {env : ApplyEnv β} {plan : ReconcilePlan β} {world : World β}
  {result : World β × Except (String × ApplyStop) Unit}

theorem Applied.planned (applied : Applied env plan world result) (h : result.2 = .ok ()) {change : FileChange β}
    (hc : change ∈ plan.operations) : change.InEffect env.host result.1.files := by
  obtain ⟨k, hlt, hk⟩ := List.mem_iff_getElem.mp hc
  refine applied.effect k change (by rw [List.getElem?_eq_getElem hlt, hk]) ?_
  rw [h]
  exact hlt

theorem Applied.untouched (applied : Applied env plan world result) (h : path ∉ plan.operations.map FileChange.path) :
    result.1.files path = world.files path := by
  refine applied.frame path fun k change hk _ heq => h ?_
  exact heq ▸ List.mem_map_of_mem (List.mem_of_getElem? hk)

end

variable {plan : ReconcilePlan β} {env : ApplyEnv β} {error : String}

/-- An apply that stopped before its first file operation. -/
theorem applied_nothing {world next : World β} {stop : ApplyStop} (files : next.files = world.files)
    (log : ∀ event, (∀ dir, event ≠ .dir dir) → (event ∈ next.log ↔ event ∈ world.log))
    (hp : progress plan (.error (error, stop)) = (0, 0)) (hop : ∀ index, stop ≠ .operation index)
    (hkey : ∀ index path, stop ≠ .registry index path) :
    Applied env plan world (next, .error (error, stop)) := by
  constructor
  · intro k change _ hlt
    simp [hp] at hlt
  · intro path _
    rw [files]
  · intro k keyPlan _ hlt
    simp [hp] at hlt
  · intro k
    simp [log (.operation k) (by simp), hp]
  · intro k
    simp [log (.key k) (by simp), hp]
  · intro e index h
    simp only [Except.error.injEq, Prod.mk.injEq] at h
    exact absurd h.2 (hop index)
  · intro e index path h
    simp only [Except.error.injEq, Prod.mk.injEq] at h
    exact absurd h.2 (hkey index path)

theorem observed_seen {observed : BTreeMap Path (Option β)} (h : findChanged files observed.entries = none)
    {contents : Option β} (hobs : observed.get? path = some contents) : (files path).contents = contents :=
  readOptional_contents (findChanged_eq_none.mp h path contents (observed.mem_entries_iff.mpr hobs))

theorem Applied.after_dirs {world after : World β} {result : World β × Except (String × ApplyStop) Unit}
    (run : Applied env plan after result) (files : after.files = world.files)
    (registry : after.registry = world.registry)
    (log : ∀ event, (∀ dir, event ≠ .dir dir) → (event ∈ after.log ↔ event ∈ world.log)) :
    Applied env plan world result where
  effect := run.effect
  frame := files ▸ run.frame
  keyEffect := registry ▸ run.keyEffect
  operationLog k := by
    rw [run.operationLog, log _ (by simp), files]
  keyLog k := by
    rw [run.keyLog, log _ (by simp)]
  operationStop := run.operationStop
  keyStop := run.keyStop

/-- The file operations stopped at `index`, so no key plan ran. -/
theorem applied_of_stopped_operations {world next : World β} {index : Nat}
    (run : OperationsRun env plan.observed 0 plan.operations world (next, some (index, error))) :
    Applied env plan world (next, .error (error, .operation index)) := by
  constructor
  · intro k change hk hlt
    exact run.effect k change hk (by simpa [progress, reachedIndex] using hlt)
  · intro path h
    refine run.frame path fun k change hk hlt => h k change hk ?_
    simpa [progress, reachedIndex] using hlt
  · intro k keyPlan _ hlt
    simp [progress] at hlt
  · intro k
    rw [run.log]
    simp [progress, reachedIndex]
  · intro k
    rw [run.log]
    simp [progress]
  · intro e i h
    simp only [Except.error.injEq, Prod.mk.injEq, ApplyStop.operation.injEq] at h
    obtain ⟨k, change, hk, hi⟩ := run.stopped index error rfl
    obtain ⟨hlt, _⟩ := List.getElem?_eq_some_iff.mp hk
    omega
  · intro e i path h
    simp at h

/-- All the file operations ran, and then the key plans as far as they got. -/
theorem applied_of_keys {world next : World β} {result : World β × Except (String × ApplyStop) Unit}
    {stop : Option (Nat × Path × String)} (run : OperationsRun env plan.observed 0 plan.operations world (next, none))
    (keys : KeysRun 0 plan.registry next (result.1, stop))
    (outcome : result.2 = match stop with
      | some (index, path, error) => .error (error, .registry index path)
      | none => .ok ()) :
    Applied env plan world result := by
  have hp : progress plan result.2 = (plan.operations.length, reachedKey (0 + plan.registry.length) stop) := by
    rw [outcome]
    cases stop <;> simp [progress, reachedKey]
  have hlt : ∀ k change, plan.operations[k]? = some change → k < plan.operations.length := by
    intro k change hk
    exact (List.getElem?_eq_some_iff.mp hk).1
  constructor
  · intro k change hk _
    rw [keys.files]
    exact run.effect k change hk (by simpa [reachedIndex] using hlt k change hk)
  · intro path h
    rw [keys.files]
    refine run.frame path fun k change hk _ => h k change hk ?_
    rw [hp]
    exact hlt k change hk
  · intro k keyPlan hk hprogress
    rw [hp] at hprogress
    rw [keys.effect k keyPlan hk (by simpa using hprogress), run.registry]
  · intro k
    rw [hp, keys.log, run.log]
    simp [reachedIndex]
  · intro k
    rw [hp, keys.log, run.log]
    simp
  · intro error index h
    rw [outcome] at h
    split at h <;> simp at h
  · intro error index path h
    rw [outcome] at h
    cases stop with
    | none => cases h
    | some failed =>
      obtain ⟨i, p, e⟩ := failed
      simp only [Except.error.injEq, Prod.mk.injEq, ApplyStop.registry.injEq] at h
      obtain ⟨k, keyPlan, hk, hi, hpath⟩ := keys.stopped i p e rfl
      obtain ⟨_, rfl, rfl⟩ := h
      exact ⟨keyPlan, by rw [hi]; simpa using hk, hpath⟩

theorem applyTracked_applied (env : ApplyEnv β) (world : World β)
    (distinct : (plan.operations.map FileChange.path).Nodup)
    (distinctKeys : (plan.registry.map RegistryKeyPlan.key).Nodup) :
    Applied env plan world (applyTracked env plan world) := by
  rw [applyTracked]
  split
  next => exact applied_nothing rfl (fun _ _ => Iff.rfl) rfl (by simp) (by simp)
  next =>
  split
  next => exact applied_nothing rfl (fun _ _ => Iff.rfl) rfl (by simp) (by simp)
  next hobs =>
  split
  next => exact applied_nothing rfl (fun _ _ => Iff.rfl) rfl (by simp) (by simp)
  next =>
  have dirs := createDirs_spec env plan.privateDirs world
  split
  next after dir error hdirs =>
    rw [hdirs] at dirs
    exact applied_nothing dirs.1 dirs.2.2 rfl (by simp) (by simp)
  next after hdirs =>
  rw [hdirs] at dirs
  have seen : ∀ change ∈ plan.operations, ∀ contents, plan.observed.get? change.path = some contents →
      (after.files change.path).contents = contents :=
    fun change _ contents hc => dirs.1 ▸ observed_seen hobs hc
  have run := runOperations_run env plan.observed 0 distinct seen
  refine Applied.after_dirs ?_ dirs.1 dirs.2.1 dirs.2.2
  split
  next next index error hops =>
    rw [hops] at run
    exact applied_of_stopped_operations run
  next next hops =>
    rw [hops] at run
    have keys : KeysRun 0 plan.registry next (runKeys env 0 plan.registry next) := runKeys_run env 0 distinctKeys
    split
    next last index path error hkeys =>
      rw [hkeys] at keys
      exact applied_of_keys run keys rfl
    next last hkeys =>
      rw [hkeys] at keys
      exact applied_of_keys run keys rfl

theorem runOperations_fails {observed : BTreeMap Path (Option β)} {start index : Nat} {operations : List (FileChange β)}
    {world : World β} (h : (runOperations env observed start operations world).2 = some (index, error)) :
    ∃ change files, env.operationFails index change files = some error := by
  induction operations generalizing start world with
  | nil => cases h
  | cons change rest ih =>
    rw [runOperations] at h
    split at h
    next => exact ih h
    next =>
      split at h
      next cause hfail =>
        cases h
        exact ⟨change, world.files, hfail⟩
      next => exact ih h

/-- An apply that stopped at a file operation met a failure of that operation. -/
theorem applyTracked_operation_fails {world : World β} {index : Nat}
    (h : (applyTracked env plan world).2 = .error (error, .operation index)) :
    ∃ change files, env.operationFails index change files = some error := by
  unfold applyTracked at h
  split at h
  next => cases h
  next =>
    split at h
    next => cases h
    next =>
      split at h
      next => cases h
      next =>
        split at h
        next => cases h
        next =>
          split at h
          next hrun =>
            cases h
            exact runOperations_fails (congrArg Prod.snd hrun)
          next => split at h <;> cases h

end AgentDesktop
