import AgentDesktop.PlanApply

namespace AgentDesktop

variable {β : Type}

theorem World.setKey_self (world : World β) (keyPlan : RegistryKeyPlan) (changes : List (String × Option String)) :
    (world.setKey keyPlan changes).registry keyPlan.key =
      applyKeyChanges (world.registry keyPlan.key) changes := by
  simp [World.setKey, setRegistryKey]

theorem World.setKey_ne (world : World β) (keyPlan : RegistryKeyPlan) (changes : List (String × Option String))
    {key : RegistryKey} (h : keyPlan.key ≠ key) :
    (world.setKey keyPlan changes).registry key = world.registry key := by
  simp [World.setKey, setRegistryKey, Ne.symm h]

/-- How far the key plans got. -/
def reachedKey (total : Nat) (stop : Option (Nat × Path × String)) : Nat :=
  match stop with
  | none => total
  | some (index, _) => index

/-- What the loop over the key plans does, in terms of the world before it. -/
structure KeysRun (start : Nat) (plans : List RegistryKeyPlan) (world : World β)
    (result : World β × Option (Nat × Path × String)) : Prop where
  files : result.1.files = world.files
  lower : start ≤ reachedKey (start + plans.length) result.2
  upper : reachedKey (start + plans.length) result.2 ≤ start + plans.length
  stopped : ∀ index path error, result.2 = some (index, path, error) →
    ∃ k keyPlan, plans[k]? = some keyPlan ∧ index = start + k ∧ path = keyPlan.key.displayPath
  effect : ∀ k keyPlan, plans[k]? = some keyPlan → start + k < reachedKey (start + plans.length) result.2 →
    result.1.registry keyPlan.key = applyKeyChanges (world.registry keyPlan.key) keyPlan.changes
  frame : ∀ key, (∀ keyPlan ∈ plans, keyPlan.key ≠ key) → result.1.registry key = world.registry key
  log : ∀ event, event ∈ result.1.log ↔ event ∈ world.log ∨
    ∃ k, start + k < reachedKey (start + plans.length) result.2 ∧ event = .key (start + k)

/-- A first key plan that was applied, before a run of the others. -/
theorem KeysRun.cons {start : Nat} {keyPlan : RegistryKeyPlan} {rest : List RegistryKeyPlan} {world next : World β}
    {result : World β × Option (Nat × Path × String)} (run : KeysRun (start + 1) rest next result)
    (fresh : ∀ other ∈ rest, other.key ≠ keyPlan.key) (files : next.files = world.files)
    (registry : next.registry = (world.setKey keyPlan keyPlan.changes).registry)
    (log : ∀ event, event ∈ next.log ↔ event ∈ world.log ∨ event = .key start) :
    KeysRun start (keyPlan :: rest) world result := by
  have total : start + (keyPlan :: rest).length = start + 1 + rest.length := by
    simp only [List.length_cons]; omega
  have hne : ∀ key, keyPlan.key ≠ key → next.registry key = world.registry key := by
    intro key hkey
    rw [registry]
    exact World.setKey_ne _ _ _ hkey
  have hlower := run.lower
  constructor
  · exact run.files.trans files
  · rw [total]; omega
  · rw [total]; exact run.upper
  · intro index path error h
    obtain ⟨k, other, hk, hi, hp⟩ := run.stopped index path error h
    exact ⟨k + 1, other, by simpa using hk, by omega, hp⟩
  · intro k other hk hlt
    rw [total] at hlt
    cases k with
    | zero =>
      cases Option.some.inj hk
      rw [run.frame keyPlan.key fresh, registry]
      exact World.setKey_self _ _ _
    | succ k =>
      have hk' : rest[k]? = some other := by simpa using hk
      rw [run.effect k other hk' (by omega), hne other.key (Ne.symm (fresh other (List.mem_of_getElem? hk')))]
  · intro key hk
    rw [run.frame key fun other ho => hk other (List.mem_cons_of_mem _ ho)]
    exact hne key (hk keyPlan (by simp))
  · intro event
    rw [run.log, log, total]
    constructor
    · rintro ((h | h) | ⟨k, hlt, h⟩)
      · exact Or.inl h
      · exact Or.inr ⟨0, by omega, h⟩
      · exact Or.inr ⟨k + 1, by omega, by rw [h]; congr 1; omega⟩
    · rintro (h | ⟨k, hlt, h⟩)
      · exact Or.inl (Or.inl h)
      · cases k with
        | zero => exact Or.inl (Or.inr h)
        | succ k => exact Or.inr ⟨k, by omega, by rw [h]; congr 1; omega⟩

theorem runKeys_run (env : ApplyEnv β) (start : Nat) {plans : List RegistryKeyPlan} {world : World β}
    (distinct : (plans.map RegistryKeyPlan.key).Nodup) :
    KeysRun start plans world (runKeys env start plans world) := by
  induction plans generalizing start world with
  | nil => constructor <;> simp [runKeys, reachedKey]
  | cons keyPlan rest ih =>
    have hd := List.nodup_cons.mp distinct
    have fresh : ∀ other ∈ rest, other.key ≠ keyPlan.key :=
      fun other ho heq => hd.1 (heq ▸ List.mem_map_of_mem ho)
    rw [runKeys]
    split
    next written cause hfail =>
      refine ⟨rfl, le_refl _, by simp [reachedKey], ?_, ?_, ?_, ?_⟩
      · intro index path error h
        exact ⟨0, keyPlan, rfl, by simp_all⟩
      · intro k other _ hlt
        simp [reachedKey] at hlt
      · intro key hk
        exact World.setKey_ne _ _ _ (hk keyPlan (by simp))
      · simp [reachedKey, World.setKey]
    next hfail =>
      refine (ih (start + 1) hd.2).cons fresh rfl rfl ?_
      intro event
      simp [World.setKey]

end AgentDesktop
