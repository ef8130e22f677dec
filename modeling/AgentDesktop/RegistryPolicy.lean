import AgentDesktop.PlanComplete
import AgentDesktop.RegistryPlanned

namespace AgentDesktop

variable {β : Type}

/-- The marker before the values change, unless it is there. -/
def firstMarker (text : RegistryText β) (values : RegistryValues) (names : List String) :
    List (String × Option String) :=
  if (observedValue values registryOwnerValue).bind id ≠ some (text.names names) then
    [(registryOwnerValue, some (text.names names))]
  else []

/-- The marker after the values changed, unless it is the one before. -/
def lastMarker (text : RegistryText β) (names full : List String) : List (String × Option String) :=
  if text.names names ≠ text.names full then [(registryOwnerValue, some (text.names names))] else []

theorem firstMarker_length (text : RegistryText β) (values : RegistryValues) (names : List String) :
    (firstMarker text values names).length ≤ 1 := by
  unfold firstMarker
  split <;> simp

theorem lastMarker_length (text : RegistryText β) (names full : List String) :
    (lastMarker text names full).length ≤ 1 := by
  unfold lastMarker
  split <;> simp

/-- What is planned for desired values that are not in the way of others. -/
def policyChanges (text : RegistryText β) (values : RegistryValues) (desired : BTreeMap String String) :
    List (String × Option String) :=
  let stale := staleNames (registryOwnedValues text values) desired
  firstMarker text values (fullNames desired stale) ++ valueChanges values desired stale ++
    lastMarker text (desired.entries.map Prod.fst) (fullNames desired stale)

/-- What is planned to remove the claimed values. -/
def removalChanges (text : RegistryText β) (values : RegistryValues) : List (String × Option String) :=
  if observesName values registryOwnerValue then
    ((registryOwnedValues text values).filter (observesName values)).map (fun name => (name, none)) ++
      [(registryOwnerValue, none)]
  else []

/-- A plan of changes to one key and nothing else. -/
structure PlansKey (key : RegistryKey) (values : RegistryValues) (changes : List (String × Option String))
    (plan : ReconcilePlan β) : Prop where
  conflicts : plan.hasConflicts = false
  observed : plan.observed = .empty
  operations : plan.operations = []
  privateDirs : plan.privateDirs = []
  registry : (changes = [] ∧ plan.registry = []) ∨
    changes ≠ [] ∧ ∃ whenEmpty, plan.registry = [⟨key, values, changes, whenEmpty⟩]

section

variable {text : RegistryText β} {key : RegistryKey} {values : RegistryValues} {desired : BTreeMap String String}

theorem settingChanges_eq (stale : List String) (writes : List (String × Option String)) :
    settingChanges text values desired stale writes =
      firstMarker text values (fullNames desired stale) ++
        (writes ++ (stale.filter (observesName values)).map fun name => (name, none)) ++
        lastMarker text (desired.entries.map Prod.fst) (fullNames desired stale) := by
  unfold settingChanges firstMarker lastMarker fullNames
  dsimp only
  split <;> split <;> simp

theorem planRegistryRemove_plans :
    PlansKey key values (removalChanges text values) (planRegistryRemove text key values {}) := by
  unfold planRegistryRemove removalChanges
  cases observesName values registryOwnerValue with
  | false => exact ⟨rfl, rfl, rfl, rfl, Or.inl ⟨rfl, rfl⟩⟩
  | true => exact ⟨rfl, rfl, rfl, rfl, Or.inr ⟨by simp, true, rfl⟩⟩

theorem planRegistrySettings_empty (h : desired.entries = []) (plan : ReconcilePlan β) :
    planRegistrySettings text key values desired plan = planRegistryRemove text key values plan := by
  simp [planRegistrySettings, h]

theorem planRegistrySettings_plans (hne : desired.entries ≠ [])
    (hunblocked : ∀ entry ∈ desired.entries, ¬ Blocked values (registryOwnedValues text values) entry) :
    PlansKey key values (policyChanges text values desired) (planRegistrySettings text key values desired {}) := by
  have hempty : desired.entries.isEmpty = false := by simp [hne]
  have hchanges : policyChanges text values desired = settingChanges text values desired _ _ :=
    (settingChanges_eq _ _).symm
  unfold planRegistrySettings
  dsimp only
  rw [settingWrites_eq hunblocked, hempty]
  dsimp only
  rw [← hchanges, if_neg (by simp)]
  have hconflicts : ∀ action (plan : ReconcilePlan β), plan.changes = [] → action ≠ .conflict →
      (plan.recordDiff "Claude Desktop" "managed settings" action key.displayPath
        (some (registryReport text (desired.entries.map Prod.fst ++ registryOwnedValues text values) values))
        (some (registryReportDesired text desired))).hasConflicts = false := by
    intro action plan hplan haction
    simp [ReconcilePlan.hasConflicts, ReconcilePlan.recordDiff, hplan, haction]
  cases policyChanges text values desired with
  | nil => exact ⟨rfl, rfl, rfl, rfl, Or.inl ⟨rfl, rfl⟩⟩
  | cons change rest =>
    refine ⟨hconflicts _ _ rfl ?_, rfl, rfl, rfl, Or.inr ⟨by simp, false, rfl⟩⟩
    split
    next => split <;> simp
    next => simp

theorem planRegistrySettings_conflict
    (hblocked : ∃ entry ∈ desired.entries, Blocked values (registryOwnedValues text values) entry) :
    (planRegistrySettings text key values desired {}).hasConflicts = true ∧
      (planRegistrySettings text key values desired {}).registry = [] := by
  have hempty : desired.entries.isEmpty = false := by
    obtain ⟨entry, hentry, _⟩ := hblocked
    simp [List.ne_nil_of_mem hentry]
  unfold planRegistrySettings
  dsimp only
  rw [settingWrites_blocked hblocked, hempty]
  exact ⟨rfl, rfl⟩

end

/-- An apply of the plan makes some of its changes in order, and all of them if it succeeds. -/
theorem PlansKey.applied [DecidableEq β] {key : RegistryKey} {world : World β}
    {changes : List (String × Option String)} {plan : ReconcilePlan β}
    (h : PlansKey key (world.registry key) changes plan) (env : ApplyEnv β) :
    (∃ count, (applyTracked env plan world).1.registry key =
        applyKeyChanges (world.registry key) (changes.take count)) ∧
      ((applyTracked env plan world).2 = .ok () →
        (applyTracked env plan world).1.registry key = applyKeyChanges (world.registry key) changes) := by
  have hfind : plan.changes.find? (fun change => decide (change.action = .conflict)) = none := by
    have hconflicts := List.any_eq_false.mp h.conflicts
    exact List.find?_eq_none.mpr hconflicts
  unfold applyTracked
  rw [hfind, h.observed, h.privateDirs, h.operations]
  rcases h.registry with ⟨rfl, hregistry⟩ | ⟨_, whenEmpty, hregistry⟩
  · rw [hregistry]
    exact ⟨⟨0, rfl⟩, fun _ => rfl⟩
  · have hset := World.setKey_self world ⟨key, world.registry key, changes, whenEmpty⟩
    rw [hregistry]
    simp only [findChanged, BTreeMap.empty, findChangedKey, createDirs, runOperations, runKeys, if_true]
    cases env.keyUnreadable key with
    | some cause => exact ⟨⟨0, rfl⟩, by rintro ⟨⟩⟩
    | none =>
      cases env.keyFails 0 with
      | some failure => exact ⟨⟨failure.1, hset _⟩, by rintro ⟨⟩⟩
      | none =>
        refine ⟨⟨changes.length, ?_⟩, fun _ => hset changes⟩
        rw [List.take_length]
        exact hset changes

end AgentDesktop
