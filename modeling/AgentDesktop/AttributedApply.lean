import AgentDesktop.AttributedAssembly

namespace AgentDesktop

variable {β : Type}

/-- A reason for which nothing of the providers' plans may be written. -/
inductive Refused (env : ApplyEnv β) (results : PlanResults β) (world : World β) : Prop where
  | planFailed {program error : String} (h : (program, .error error) ∈ results)
  | observedDiffer {path : Path} {a b : Option β} (ha : Observes (plansOf results) path a)
      (hb : Observes (plansOf results) path b) (hne : a ≠ b)
  | sameFile (h : ¬ ((operationsOf results).map FileChange.path).Nodup)
  | sameKey (h : ¬ ((keyPlansOf results).map RegistryKeyPlan.key).Nodup)
  | conflict {own : ReconcilePlan β} (hown : own ∈ plansOf results) (h : own.hasConflicts = true)
  | fileChanged {path : Path} {contents : Option β} (hobs : Observes (plansOf results) path contents)
      (h : readOptional world.files path ≠ .ok contents)
  | keyChanged {own : ReconcilePlan β} {keyPlan : RegistryKeyPlan} (hown : own ∈ plansOf results)
      (hkey : keyPlan ∈ own.registry)
      (h : env.keyUnreadable keyPlan.key ≠ none ∨ world.registry keyPlan.key ≠ keyPlan.observed)

/-- The same observations, operations, key plans and conflicts in another order
of the providers and of what each of them planned. -/
structure Reordered (results reordered : PlanResults β) : Prop where
  failures : (∃ program error, (program, .error error) ∈ reordered) ↔ ∃ program error, (program, .error error) ∈ results
  observes : ∀ path contents, Observes (plansOf reordered) path contents ↔ Observes (plansOf results) path contents
  operations : (operationsOf reordered).Perm (operationsOf results)
  keys : (keyPlansOf reordered).Perm (keyPlansOf results)
  conflicts : (∃ own ∈ plansOf reordered, own.hasConflicts = true) ↔ ∃ own ∈ plansOf results, own.hasConflicts = true

theorem Refused.of_reordered {env : ApplyEnv β} {results reordered : PlanResults β} {world : World β}
    (same : Reordered results reordered) (h : Refused env reordered world) : Refused env results world := by
  cases h with
  | planFailed h =>
    obtain ⟨program, error, h⟩ := same.failures.mp ⟨_, _, h⟩
    exact .planFailed h
  | observedDiffer ha hb hne =>
    exact .observedDiffer ((same.observes _ _).mp ha) ((same.observes _ _).mp hb) hne
  | sameFile h => exact .sameFile fun hn => h ((same.operations.map _).nodup_iff.mpr hn)
  | sameKey h => exact .sameKey fun hn => h ((same.keys.map _).nodup_iff.mpr hn)
  | conflict hown h =>
    obtain ⟨own, hown, h⟩ := same.conflicts.mp ⟨_, hown, h⟩
    exact .conflict hown h
  | fileChanged hobs h => exact .fileChanged ((same.observes _ _).mp hobs) h
  | keyChanged hown hkey h =>
    have hmem := same.keys.mem_iff.mp (List.mem_flatMap.mpr ⟨_, hown, hkey⟩)
    obtain ⟨own, hown, hkey⟩ := List.mem_flatMap.mp hmem
    exact .keyChanged hown hkey h

variable [DecidableEq β]

/-- With no planning error the writes are those of the tracked apply. -/
theorem execute_eq (env : ApplyEnv β) {attributed : AttributedPlan β} (world : World β)
    (h : attributed.firstError = none) :
    (attributed.execute env world).1 = (applyTracked env attributed.plan world).1 ∧
      (attributed.execute env world).2.1 = (applyTracked env attributed.plan world).2.mapError Prod.fst := by
  rw [AttributedPlan.execute, h]
  dsimp only
  split
  next => exact ⟨rfl, rfl⟩
  next =>
    split
    next happly => rw [happly]; exact ⟨rfl, rfl⟩
    next happly => rw [happly]; exact ⟨rfl, rfl⟩

theorem Assembled.refused_iff {env : ApplyEnv β} {results : PlanResults β} {attributed : AttributedPlan β}
    {world : World β} (compatible : Compatible results) (assembled : Assembled results attributed) :
    Refused env results world ↔ attributed.plan.hasConflicts = true ∨
      findChanged world.files attributed.plan.observed.entries ≠ none ∨
      findChangedKey env world.registry attributed.plan.registry ≠ none := by
  rw [Ne, Ne, findChanged_eq_none, findChangedKey_eq_none, assembled.registry, ReconcilePlan.hasConflicts,
    assembled.changes]
  simp only [BTreeMap.mem_entries_iff, assembled.observed]
  constructor
  · rintro (h | ⟨ha, hb, hne⟩ | h | h | ⟨hown, h⟩ | ⟨hobs, h⟩ | ⟨hown, hkey, h⟩)
    · obtain ⟨own, hown⟩ := compatible.planned _ h
      cases hown
    · exact absurd (compatible.agree _ _ _ ha hb) hne
    · exact absurd compatible.operations h
    · exact absurd compatible.keys h
    · refine Or.inl ?_
      obtain ⟨change, hc, ha⟩ := List.any_eq_true.mp h
      exact List.any_eq_true.mpr ⟨change, List.mem_flatMap.mpr ⟨_, hown, hc⟩, ha⟩
    · exact Or.inr (Or.inl fun hall => h (hall _ _ hobs))
    · refine Or.inr (Or.inr fun hall => ?_)
      obtain ⟨hread, hsame⟩ := hall _ (List.mem_flatMap.mpr ⟨_, hown, hkey⟩)
      exact h.elim (fun hne => hne hread) (fun hne => hne hsame)
  · rintro (h | h | h)
    · obtain ⟨change, hc, ha⟩ := List.any_eq_true.mp h
      obtain ⟨own, hown, hc⟩ := List.mem_flatMap.mp hc
      exact .conflict hown (List.any_eq_true.mpr ⟨change, hc, ha⟩)
    · push Not at h
      obtain ⟨path, contents, hobs, hne⟩ := h
      exact .fileChanged hobs hne
    · push Not at h
      obtain ⟨keyPlan, hk, hne⟩ := h
      obtain ⟨own, hown, hk⟩ := List.mem_flatMap.mp hk
      refine .keyChanged hown hk ?_
      by_cases hread : env.keyUnreadable keyPlan.key = none
      · exact Or.inr (hne hread)
      · exact Or.inl hread

theorem refused_of_not_compatible {env : ApplyEnv β} {results : PlanResults β} {world : World β}
    (h : ¬ Compatible results) : Refused env results world := by
  by_contra hno
  refine h ⟨?_, ?_, ?_, ?_⟩
  · rintro ⟨program, result⟩ hp
    cases result with
    | ok own => exact ⟨own, rfl⟩
    | error error => exact absurd (.planFailed hp) hno
  · intro path a b ha hb
    by_contra hne
    exact hno (.observedDiffer ha hb hne)
  · by_contra hn
    exact hno (.sameFile hn)
  · by_contra hn
    exact hno (.sameKey hn)

section

variable {env : ApplyEnv β} {results : PlanResults β} {world : World β} (configured optedOut : List String)

/-- Compatible plans are applied as the one assembled plan. -/
theorem deviceApply_eq (env : ApplyEnv β) (world : World β) (compatible : Compatible results) :
    (deviceApply env configured optedOut results world).1 =
        (applyTracked env (planWithReport configured optedOut results).plan world).1 ∧
      (deviceApply env configured optedOut results world).2.2 =
        (applyTracked env (planWithReport configured optedOut results).plan world).2.mapError Prod.fst :=
  execute_eq env world ((planWithReport_spec configured optedOut results).1.mpr compatible)

theorem deviceApply_refused (refused : Refused env results world) :
    (deviceApply env configured optedOut results world).1 = world ∧
      ∃ error, (deviceApply env configured optedOut results world).2.2 = .error error := by
  obtain ⟨hnone, hassembled⟩ := planWithReport_spec configured optedOut results
  by_cases compatible : Compatible results
  · obtain ⟨hworld, hresult⟩ := deviceApply_eq configured optedOut env world compatible
    obtain ⟨hsame, failure, hfail⟩ :=
      applyTracked_refused (((hassembled compatible).refused_iff compatible).mp refused)
    rw [hworld, hresult, hsame, hfail]
    exact ⟨rfl, _, rfl⟩
  · obtain ⟨error, herror⟩ := Option.ne_none_iff_exists'.mp (mt hnone.mp compatible)
    simp only [deviceApply, AttributedPlan.apply, AttributedPlan.execute, herror]
    exact ⟨trivial, error, rfl⟩

theorem compatible_of_accepted (accepted : ¬ Refused env results world) : Compatible results := by
  by_contra h
  exact accepted (refused_of_not_compatible h)

theorem deviceApply_completes (reliable : Reliable env) (accepted : ¬ Refused env results world) :
    (deviceApply env configured optedOut results world).2.2 = .ok () := by
  have compatible := compatible_of_accepted accepted
  have assembled := (planWithReport_spec configured optedOut results).2 compatible
  have unmet := mt (assembled.refused_iff compatible).mpr accepted
  push Not at unmet
  obtain ⟨hconflicts, hfiles, hkeys⟩ := unmet
  rw [(deviceApply_eq configured optedOut env world compatible).2,
    applyTracked_completes reliable (by simpa using hconflicts) hfiles hkeys]
  rfl

/-- What a completed apply leaves: every planned file as planned, written or
already in place, and every other path as it was. -/
theorem deviceApply_contents (compatible : Compatible results)
    (hok : (deviceApply env configured optedOut results world).2.2 = .ok ()) :
    (∀ change ∈ operationsOf results,
      ((deviceApply env configured optedOut results world).1.files change.path).contents = change.contents) ∧
    ∀ path, path ∉ (operationsOf results).map FileChange.path →
      (deviceApply env configured optedOut results world).1.files path = world.files path := by
  have assembled := (planWithReport_spec configured optedOut results).2 compatible
  obtain ⟨hworld, hresult⟩ := deviceApply_eq configured optedOut env world compatible
  rw [hresult] at hok
  rw [hworld, ← assembled.operations]
  have applied := applyTracked_applied env world (assembled.operations ▸ compatible.operations)
    (assembled.registry ▸ compatible.keys)
  have hdone : (applyTracked env (planWithReport configured optedOut results).plan world).2 = .ok () := by
    cases h : (applyTracked env (planWithReport configured optedOut results).plan world).2 with
    | ok => rfl
    | error e => rw [h] at hok; cases hok
  exact ⟨fun change hc => (applied.planned hdone hc).contents, fun path hp => applied.untouched hp⟩

theorem deviceApply_reordered {reordered : PlanResults β} (compatible : Compatible results)
    (compatible' : Compatible reordered) (perm : (operationsOf reordered).Perm (operationsOf results))
    (hok : (deviceApply env configured optedOut results world).2.2 = .ok ())
    (hok' : (deviceApply env configured optedOut reordered world).2.2 = .ok ()) (path : Path) :
    ((deviceApply env configured optedOut reordered world).1.files path).contents =
      ((deviceApply env configured optedOut results world).1.files path).contents := by
  obtain ⟨planned, kept⟩ := deviceApply_contents configured optedOut compatible hok
  obtain ⟨planned', kept'⟩ := deviceApply_contents configured optedOut compatible' hok'
  by_cases h : path ∈ (operationsOf results).map FileChange.path
  · obtain ⟨change, hc, rfl⟩ := List.mem_map.mp h
    rw [planned change hc, planned' change (perm.mem_iff.mpr hc)]
  · rw [kept path h, kept' path fun h' => h ((perm.map FileChange.path).mem_iff.mp h')]

end

/-- A device plan is applied completely or not started, and what it leaves does
not depend on the order of the providers and their operations. -/
theorem device_plan_applied_or_not_started (env : ApplyEnv β) (configured optedOut : List String)
    (results : PlanResults β) (world : World β) :
    (Refused env results world →
      (deviceApply env configured optedOut results world).1 = world ∧
      ∃ error, (deviceApply env configured optedOut results world).2.2 = .error error) ∧
    (¬ Refused env results world →
      ((operationsOf results).map FileChange.path).Nodup ∧
      (∀ path contents, Observes (plansOf results) path contents → (world.files path).contents = contents) ∧
      (Reliable env → (deviceApply env configured optedOut results world).2.2 = .ok ()) ∧
      ((deviceApply env configured optedOut results world).2.2 = .ok () →
        (∀ change ∈ operationsOf results,
          ((deviceApply env configured optedOut results world).1.files change.path).contents = change.contents) ∧
        (∀ path, path ∉ (operationsOf results).map FileChange.path →
          (deviceApply env configured optedOut results world).1.files path = world.files path) ∧
        ∀ reordered : PlanResults β, Reordered results reordered → ¬ Refused env reordered world ∧
          ((deviceApply env configured optedOut reordered world).2.2 = .ok () →
          ∀ path, ((deviceApply env configured optedOut reordered world).1.files path).contents =
            ((deviceApply env configured optedOut results world).1.files path).contents))) := by
  refine ⟨deviceApply_refused configured optedOut, fun accepted => ?_⟩
  have compatible := compatible_of_accepted accepted
  refine ⟨compatible.operations, ?_, fun reliable => deviceApply_completes configured optedOut reliable accepted, ?_⟩
  · intro path contents hobs
    by_contra hne
    exact accepted (.fileChanged hobs fun hr => hne (readOptional_contents hr))
  · intro hok
    obtain ⟨planned, kept⟩ := deviceApply_contents configured optedOut compatible hok
    refine ⟨planned, kept, fun reordered same => ?_⟩
    have accepted' := mt (Refused.of_reordered same) accepted
    refine ⟨accepted', fun hok' path => ?_⟩
    exact deviceApply_reordered configured optedOut compatible (compatible_of_accepted accepted')
      same.operations hok hok' path

/-- Two programs that each create a file. -/
def twoPrograms : PlanResults String :=
  [("codex", .ok { observed := BTreeMap.empty.insert ["codex.toml"] none
                   operations := [⟨["codex.toml"], some "model", 0o600⟩] }),
   ("pi", .ok { observed := BTreeMap.empty.insert ["pi.json"] none
                operations := [⟨["pi.json"], some "settings", 0o644⟩] })]

def emptyWorld : World String :=
  ⟨fun _ => .absent, fun _ => .empty, []⟩

theorem twoPrograms_accepted : ¬ Refused {} twoPrograms emptyWorld := by
  have observed : ∀ path contents, Observes (plansOf twoPrograms) path contents → contents = none := by
    rintro path contents ⟨own, hown, h⟩
    simp only [plansOf, twoPrograms, Except.toOption, List.filterMap_cons, List.filterMap_nil, List.mem_cons,
      List.not_mem_nil, or_false] at hown
    rcases hown with rfl | rfl <;> simp_all [BTreeMap.get?_insert]
  have plain : ∀ own ∈ plansOf twoPrograms, own.changes = [] ∧ own.registry = [] := by
    simp [plansOf, twoPrograms, Except.toOption]
  intro h
  cases h with
  | planFailed h => simp [twoPrograms] at h
  | observedDiffer ha hb hne => exact hne ((observed _ _ ha).trans (observed _ _ hb).symm)
  | sameFile h => exact h (by decide)
  | sameKey h => exact h (by decide)
  | conflict hown h => simp [ReconcilePlan.hasConflicts, (plain _ hown).1] at h
  | fileChanged hobs h => exact h (by rw [observed _ _ hobs]; rfl)
  | keyChanged hown hkey h => simp [(plain _ hown).2] at hkey

theorem device_plan_applied_two_programs :
    ¬ Refused {} twoPrograms emptyWorld ∧ (deviceApply {} [] [] twoPrograms emptyWorld).2.2 = .ok () :=
  ⟨twoPrograms_accepted, ((device_plan_applied_or_not_started {} [] [] twoPrograms emptyWorld).2
    twoPrograms_accepted).2.2.1 reliable_default⟩

end AgentDesktop
