import AgentDesktop.RegistryPolicySteps

namespace AgentDesktop

/-- What is planned for the policy key. -/
inductive PolicyRequest where
  | settings (wanted : Value)
  | remove

section

variable {β : Type} (text : RegistryText β) (key : RegistryKey)

def PolicyRequest.plan (values : RegistryValues) : PolicyRequest → Except String (ReconcilePlan β)
  | .settings wanted =>
    match registryValues text wanted with
    | .error error => .error error
    | .ok desired => .ok (planRegistrySettings text key values desired {})
  | .remove => .ok (planRegistryRemove text key values {})

/-- The names of the settings are not those of the values of others. -/
def PolicyRequest.apart (foreign : RegistryValues) : PolicyRequest → Bool
  | .settings wanted =>
    match registryValues text wanted with
    | .error _ => true
    | .ok desired => desired.entries.all fun entry => !observesName foreign entry.1
  | .remove => true

variable [DecidableEq β]

/-- Plans a request against the key as it is and applies the plan, as far as the apply gets. -/
def policyStep (world : World β) (step : PolicyRequest × ApplyEnv β) : Option (World β) :=
  match step.1.plan text key (world.registry key) with
  | .error _ => some world
  | .ok plan => some (applyTracked step.2 plan world).1

/-- What holds of the key after any applies, beside the values of others. -/
structure PolicySurvives (foreign : RegistryValues) (world : World β) : Prop where
  kept : ∀ entry ∈ foreign.entries, entry ∈ (world.registry key).entries
  claimed : ∀ entry ∈ (world.registry key).entries, entry ∈ foreign.entries ∨
    sameName entry.1 registryOwnerValue = true ∨
      ∃ claimed ∈ registryOwnedValues text (world.registry key), sameName claimed entry.1 = true
  planned : ∀ request plan, PolicyRequest.apart text foreign request = true →
    request.plan text key (world.registry key) = .ok plan → plan.hasConflicts = false
  settings : ∀ settings desired env applied, registryValues text settings = .ok desired → desired.entries ≠ [] →
    PolicyRequest.apart text foreign (.settings settings) = true →
    applyTracked env (planRegistrySettings text key (world.registry key) desired {}) world = (applied, .ok ()) →
    PolicyHolds text foreign desired (applied.registry key) ∧
      registryOwnedValues text (applied.registry key) = desired.entries.map Prod.fst ∧
      (planRegistrySettings text key (applied.registry key) desired {}).registry = []
  emptied : ∀ settings desired env applied, registryValues text settings = .ok desired → desired.entries = [] →
    applyTracked env (planRegistrySettings text key (world.registry key) desired {}) world = (applied, .ok ()) →
    applied.registry key = foreign
  removed : ∀ env applied,
    applyTracked env (planRegistryRemove text key (world.registry key) {}) world = (applied, .ok ()) →
    applied.registry key = foreign
  conflict : ∀ settings desired, registryValues text settings = .ok desired →
    (∃ entry ∈ desired.entries, ∃ existing, observedValue foreign entry.1 = some existing ∧ existing ≠ some entry.2) →
    (planRegistrySettings text key (world.registry key) desired {}).hasConflicts = true ∧
      (planRegistrySettings text key (world.registry key) desired {}).registry = [] ∧
      ∀ env, (applyTracked env (planRegistrySettings text key (world.registry key) desired {}) world).1 = world

end

section

variable {β : Type} {text : RegistryText β} {key : RegistryKey} {foreign values : RegistryValues}

theorem PolicyRequest.apart_settings {settings : Value} {desired : BTreeMap String String}
    (hvalues : registryValues text settings = .ok desired)
    (h : PolicyRequest.apart text foreign (.settings settings) = true) : ApartFrom foreign desired := by
  simp only [PolicyRequest.apart, hvalues] at h
  refine ⟨registryValues_accepted hvalues, fun entry hentry => ?_⟩
  have hnone := List.all_eq_true.mp h entry hentry
  rw [observesName_eq] at hnone
  simpa using hnone

/-- Every plan of a request beside the values of others keeps to the claims wherever it stops. -/
theorem PolicyKept.request (h : PolicyKept text foreign values) (hforeign : ForeignValues foreign)
    {request : PolicyRequest} {plan : ReconcilePlan β} (hapart : request.apart text foreign = true)
    (hplan : request.plan text key values = .ok plan) :
    ∃ changes, PlansKey key values changes plan ∧
      Throughout setRegistryValue (PolicyKept text foreign) values changes := by
  cases request with
  | remove =>
    cases hplan
    exact ⟨_, planRegistryRemove_plans, (h.removal hforeign).1⟩
  | settings settings =>
    dsimp only [PolicyRequest.plan] at hplan
    cases hvalues : registryValues text settings with
    | error error =>
      rw [hvalues] at hplan
      cases hplan
    | ok desired =>
      rw [hvalues] at hplan
      cases hplan
      have hdesired := PolicyRequest.apart_settings hvalues hapart
      by_cases hempty : desired.entries = []
      · rw [planRegistrySettings_empty hempty]
        exact ⟨_, planRegistryRemove_plans, (h.removal hforeign).1⟩
      · exact ⟨_, planRegistrySettings_plans hempty (h.unblocked hdesired), (h.settings hforeign hdesired).1⟩

/-- A value of others with other data is in the way wherever the key is. -/
theorem PolicyKept.blocked (h : PolicyKept text foreign values) {entry : String × String} {existing : Option String}
    (hexisting : observedValue foreign entry.1 = some existing) (hdiffers : existing ≠ some entry.2) :
    Blocked values (registryOwnedValues text values) entry := by
  obtain ⟨stored, hstored, hsame⟩ := observedValue_mem hexisting
  have hvalue := observedValue_of_mem h.claims.distinct (h.claims.kept _ hstored) hsame
  refine ⟨existing, hvalue, hdiffers, fun claimed hclaimed => ?_⟩
  by_contra hspelled
  have hapart := (h.claims.claimable.spelled hclaimed (Bool.not_eq_false _ ▸ hspelled)).1
  rw [hexisting] at hapart
  cases hapart

variable [DecidableEq β]

theorem PolicyKept.step {world next : World β} (h : PolicyKept text foreign (world.registry key))
    (hforeign : ForeignValues foreign) {step : PolicyRequest × ApplyEnv β}
    (hapart : step.1.apart text foreign = true) (hstep : policyStep text key world step = some next) :
    PolicyKept text foreign (next.registry key) := by
  unfold policyStep at hstep
  cases hplan : step.1.plan text key (world.registry key) with
  | error error =>
    rw [hplan] at hstep
    cases hstep
    exact h
  | ok plan =>
    rw [hplan] at hstep
    cases hstep
    obtain ⟨changes, hplans, hthroughout⟩ := h.request hforeign hapart hplan
    obtain ⟨count, hcount⟩ := (hplans.applied step.2).1
    rw [hcount]
    exact hthroughout count

theorem PolicyKept.survives {world : World β} (h : PolicyKept text foreign (world.registry key))
    (hforeign : ForeignValues foreign) : PolicySurvives text key foreign world := by
  have hremoved : ∀ env applied,
      applyTracked env (planRegistryRemove text key (world.registry key) {}) world = (applied, .ok ()) →
      applied.registry key = foreign := by
    intro env applied happlied
    have hall := (planRegistryRemove_plans.applied env).2 (congrArg Prod.snd happlied)
    rw [happlied, (h.removal hforeign).2] at hall
    exact hall
  constructor
  · exact h.claims.kept
  · exact fun entry hentry => h.claims.entry hentry
  · intro request plan hapart hplan
    obtain ⟨changes, hplans, _⟩ := h.request hforeign hapart hplan
    exact hplans.conflicts
  · intro settings desired env applied hvalues hne hapart happlied
    have hdesired := PolicyRequest.apart_settings hvalues hapart
    have hplans : PlansKey key _ _ _ := planRegistrySettings_plans hne (h.unblocked hdesired)
    have hall := (hplans.applied env).2 (congrArg Prod.snd happlied)
    rw [happlied] at hall
    obtain ⟨hthroughout, hholds⟩ := h.settings hforeign hdesired
    have hkept : PolicyKept text foreign (applyKeyChanges _ _) := hthroughout.full
    rw [← hall] at hholds hkept
    refine ⟨hholds, hholds.marker.owned hdesired.claimable.increasing, ?_⟩
    have hagain : PlansKey key _ _ _ := planRegistrySettings_plans hne (hkept.unblocked hdesired)
    rcases hagain.registry with ⟨_, hregistry⟩ | ⟨hchanges, _⟩
    · exact hregistry
    · exact absurd hholds.settled hchanges
  · intro settings desired env applied _ hempty happlied
    rw [planRegistrySettings_empty hempty] at happlied
    exact hremoved env applied happlied
  · exact hremoved
  · rintro settings desired _ ⟨entry, hentry, existing, hexisting, hdiffers⟩
    obtain ⟨hconflict, hregistry⟩ := planRegistrySettings_conflict ⟨entry, hentry, h.blocked hexisting hdiffers⟩
    exact ⟨hconflict, hregistry, fun env => (applyTracked_refused (Or.inl hconflict)).1⟩

/-- Requests beside the values of others, however far their applies get, leave those values
and claim all other ones; a complete apply leaves just the desired values beside them. -/
theorem registry_policy_survives (hforeign : ForeignValues foreign) {steps : List (PolicyRequest × ApplyEnv β)}
    {world final : World β} (hworld : world.registry key = foreign)
    (h : execute (policyStep text key) (fun _ step => step.1.apart text foreign) steps world = some final) :
    PolicySurvives text key foreign final := by
  have hstart : PolicyKept text foreign (world.registry key) := by
    rw [hworld]
    exact hforeign.policyKept
  have hfinal : PolicyKept text foreign (final.registry key) :=
    execute_invariant (fun world step next (hkept : PolicyKept text foreign (world.registry key)) hapart hstep =>
      hkept.step hforeign hapart hstep) hstart h
  exact hfinal.survives hforeign

end

section

/-- Names with an escape before each character and a comma after each name. -/
def escapedNames (names : List String) : List Char :=
  names.flatMap fun name => (name.toList.flatMap fun c => ['\\', c]) ++ [',']

def readEscaped : List Char → List Char → Option (List String)
  | [], [] => some []
  | '\\' :: c :: rest, name => readEscaped rest (name ++ [c])
  | ',' :: rest, name => (readEscaped rest []).map (String.ofList name :: ·)
  | _, _ => none

theorem readEscaped_name (name rest before : List Char) :
    readEscaped ((name.flatMap fun c => ['\\', c]) ++ ',' :: rest) before =
      (readEscaped rest []).map (String.ofList (before ++ name) :: ·) := by
  induction name generalizing before with
  | nil => simp [readEscaped]
  | cons c name ih =>
    have hread := ih (before ++ [c])
    simpa [readEscaped] using hread

theorem readEscaped_names (names : List String) : readEscaped (escapedNames names) [] = some names := by
  induction names with
  | nil => rfl
  | cons name rest ih =>
    have hread := readEscaped_name name.toList (escapedNames rest) []
    rw [ih] at hread
    simpa [escapedNames] using hread

def stringElements : Value → List String
  | .array elements => elements.filterMap fun
    | .string name => some name
    | _ => none
  | _ => []

def escapedText : RegistryText String where
  json value := String.ofList (escapedNames (stringElements value))
  debug := id
  bytes := id
  parseNames text := readEscaped text.toList []
  parse_json names _ := by
    have helements : stringElements (.array (names.map .string)) = names := by
      simp [stringElements, List.filterMap_map]
    rw [helements, String.toList_ofList, readEscaped_names]

def policyKey : RegistryKey := ⟨.localMachine, "SOFTWARE\\Policies\\Claude"⟩

def themeValues : RegistryValues := ⟨[("theme", some "dark")], List.pairwise_singleton _ _⟩

/-- An apply that stops before its second value, and a later one with another spelling of
the first. -/
def stoppedSteps : List (PolicyRequest × ApplyEnv String) :=
  [(.settings (.object [("mode", .string "gateway"), ("url", .string "first")]),
      { keyFails := fun _ => some (2, "denied") }),
    (.settings (.object [("Mode", .string "direct")]), {})]

theorem registry_policy_survives_stopped : ∃ final,
    execute (policyStep escapedText policyKey) (fun _ step => step.1.apart escapedText themeValues) stoppedSteps
        ⟨fun _ => .absent, fun _ => themeValues, []⟩ = some final ∧
      observedValue (final.registry policyKey) "mode" = some (some "direct") ∧
      observedValue (final.registry policyKey) "url" = none ∧
      PolicySurvives escapedText policyKey themeValues final := by
  have hforeign : ForeignValues themeValues := by
    refine ⟨fun first hfirst second hsecond _ => ?_, by decide +kernel⟩
    rw [List.mem_singleton.mp hfirst, List.mem_singleton.mp hsecond]
  have hrun : execute (policyStep escapedText policyKey) (fun _ step => step.1.apart escapedText themeValues)
      stoppedSteps ⟨fun _ => .absent, fun _ => themeValues, []⟩ = some _ := rfl
  exact ⟨_, hrun, by decide +kernel, by decide +kernel, registry_policy_survives hforeign rfl hrun⟩

end

end AgentDesktop
