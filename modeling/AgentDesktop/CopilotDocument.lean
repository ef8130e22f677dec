import AgentDesktop.JsonKeyedOwned
import AgentDesktop.KeyOrder
import AgentDesktop.SocketAddress

namespace AgentDesktop

def providerOpenai : String := "agentdesktop"

def providerAnthropic : String := "agentdesktop-anthropic"

/-- The provider entries that are written, one for each shape of the API. -/
inductive CopilotProvider where
  | agentdesktop
  | agentdesktopAnthropic
  deriving DecidableEq

def CopilotProvider.name : CopilotProvider → String
  | .agentdesktop => providerOpenai
  | .agentdesktopAnthropic => providerAnthropic

/-- A model of the configuration. The keys that are passed through are none of those that its
entry has anyway. -/
structure CopilotModel where
  provider : CopilotProvider := .agentdesktop
  modelId : Option String := none
  extra : BTreeMap String Json
  passedThrough : ∀ key ∈ ["provider", "id", "modelId"], extra.get? key = none

structure CopilotConfig where
  models : BTreeMap String CopilotModel

/-- The entry of a model, before its keys are put in order. -/
def CopilotModel.properties (id : String) (model : CopilotModel) : List (String × Value) :=
  [("provider", .string model.provider.name), ("id", .string id), ("modelId", .string (model.modelId.getD id))] ++
    model.extra.entries.map fun entry => (entry.1, entry.2.value)

def modelDocument (id : String) (model : CopilotModel) : Value :=
  .object (BTreeMap.collect (model.properties id)).entries

def CopilotConfig.modelDocuments (config : CopilotConfig) : List Value :=
  config.models.entries.map fun entry => modelDocument entry.1 entry.2

def pairingHeaderName : String := "x-agentdesktop-pairing"

def providerEntry (name kind baseUrl pairing : String) : Value :=
  .object [("baseUrl", .string baseUrl), ("headers", .object [(pairingHeaderName, .string pairing)]),
    ("name", .string name), ("type", .string kind)]

def managedProviders (listen : SocketAddr) (pairing : String) : List Value :=
  [providerEntry providerOpenai "openai" ("http://" ++ listen.display ++ "/copilot-cli/v1") pairing,
    providerEntry providerAnthropic "anthropic" ("http://" ++ listen.display ++ "/copilot-cli") pairing]

theorem mem_collect {entries : List (String × Value)} {entry : String × Value}
    (h : entry ∈ (BTreeMap.collect entries).entries) : entry ∈ entries := by
  have hlast : (SortedMap.valuesOf entry.1 entries).getLast? = some entry.2 := by
    rw [← BTreeMap.get?_collect]
    exact BTreeMap.mem_entries_iff.mp h
  obtain ⟨found, hfound, hvalue⟩ := List.mem_map.mp (List.mem_of_getLast? hlast)
  obtain ⟨hmem, hkey⟩ := List.mem_filter.mp hfound
  have hsame : found = entry := Prod.ext (of_decide_eq_true hkey) hvalue
  exact hsame ▸ hmem

theorem modelDocument_valid (id : String) (model : CopilotModel) : (modelDocument id model).valid = true := by
  refine valid_object.mpr ⟨(BTreeMap.collect _).sorted, fun entry hentry => ?_⟩
  rcases List.mem_append.mp (mem_collect hentry) with hown | hextra
  · simp only [List.mem_cons, List.not_mem_nil, or_false] at hown
    rcases hown with rfl | rfl | rfl <;> rfl
  · obtain ⟨passed, _, rfl⟩ := List.mem_map.mp hextra
    exact passed.2.valid

theorem sorted_of_keys {fields : Fields} (h : (fields.map Prod.fst).Pairwise (· < ·)) : SortedMap.Sorted fields :=
  List.pairwise_map.mp h

theorem providerEntry_valid (name kind baseUrl pairing : String) :
    (providerEntry name kind baseUrl pairing).valid = true := by
  have hkeys : ["baseUrl", "headers", "name", "type"].Pairwise (· < ·) := by decide
  refine valid_object.mpr ⟨sorted_of_keys hkeys, fun entry hentry => ?_⟩
  simp only [List.mem_cons, List.not_mem_nil, or_false] at hentry
  rcases hentry with rfl | rfl | rfl | rfl <;> rfl

/-- The document that is merged into `providers.json`. -/
def managedDocument (config : CopilotConfig) (listen : SocketAddr) (pairing : String) : Json where
  value := .object [("models", .array config.modelDocuments), ("providers", .array (managedProviders listen pairing))]
  valid := by
    have hkeys : ["models", "providers"].Pairwise (· < ·) := by decide
    refine valid_object.mpr ⟨sorted_of_keys hkeys, fun entry hentry => ?_⟩
    simp only [List.mem_cons, List.not_mem_nil, or_false] at hentry
    rcases hentry with rfl | rfl
    · refine valid_array.mpr fun element helement => ?_
      obtain ⟨model, _, rfl⟩ := List.mem_map.mp helement
      exact modelDocument_valid model.1 model.2
    · refine valid_array.mpr fun element helement => ?_
      simp only [managedProviders, List.mem_cons, List.not_mem_nil, or_false] at helement
      rcases helement with rfl | rfl <;> exact providerEntry_valid _ _ _ _

def keyedProviders : KeyedArray := ⟨"providers", ["name"]⟩

def keyedModels : KeyedArray := ⟨"models", ["provider", "id"]⟩

def providersOptions : MergeOptions where
  mode := 0o600
  keyedArrays := [keyedProviders, keyedModels]
  redactDiff := true

theorem keyedArrays_cases {keyed : KeyedArray} (h : keyed ∈ providersOptions.keyedArrays) :
    keyed = keyedProviders ∨ keyed = keyedModels := by
  simpa [providersOptions] using h

/-- A text under a key of an element. -/
def strAt (key : String) (element : Value) : Option String :=
  (element.get key).bind Value.asStr

def managedNames : List String := [providerOpenai, providerAnthropic]

/-- The text under a key is the name of a managed provider. -/
def underManagedName (key : String) (element : Value) : Bool :=
  (strAt key element).any managedNames.contains

theorem elementKey_providers (element : Value) :
    elementKey keyedProviders element = (strAt "name" element).map fun name => [name] := by
  simp only [elementKey, keyedProviders, strAt, List.mapM_cons, List.mapM_nil]
  cases (element.get "name").bind Value.asStr <;> rfl

theorem elementKey_models (element : Value) : elementKey keyedModels element =
    (strAt "provider" element).bind fun provider => (strAt "id" element).map fun id => [provider, id] := by
  simp only [elementKey, keyedModels, strAt, List.mapM_cons, List.mapM_nil]
  cases (element.get "provider").bind Value.asStr with
  | none => rfl
  | some provider => cases (element.get "id").bind Value.asStr <;> rfl

theorem CopilotProvider.name_mem (provider : CopilotProvider) : provider.name ∈ managedNames := by
  cases provider <;> decide

section

variable (id : String) (model : CopilotModel)

theorem countP_properties {key : String} (h : key ∈ ["provider", "id", "modelId"]) :
    (model.properties id).countP (·.1 = key) ≤ 1 := by
  have hextra : (model.extra.entries.map fun entry => (entry.1, entry.2.value)).countP (·.1 = key) = 0 := by
    rw [List.countP_eq_zero]
    intro entry hentry hkey
    obtain ⟨passed, hpassed, rfl⟩ := List.mem_map.mp hentry
    have hfound : model.extra.get? passed.1 = some passed.2 := BTreeMap.mem_entries_iff.mp hpassed
    rw [of_decide_eq_true hkey, model.passedThrough key h] at hfound
    cases hfound
  rw [CopilotModel.properties, List.countP_append, hextra]
  simp only [List.mem_cons, List.not_mem_nil, or_false] at h
  rcases h with rfl | rfl | rfl <;> simp

theorem modelDocument_get {key : String} (h : key ∈ ["provider", "id", "modelId"]) :
    (modelDocument id model).get key = (model.properties id).lookup key :=
  BTreeMap.lookup_collect (countP_properties id model h)

theorem strAt_model {key text : String} (h : key ∈ ["provider", "id", "modelId"])
    (hvalue : (model.properties id).lookup key = some (.string text)) :
    strAt key (modelDocument id model) = some text := by
  rw [strAt, modelDocument_get id model h, hvalue]
  rfl

theorem strAt_model_provider : strAt "provider" (modelDocument id model) = some model.provider.name :=
  strAt_model id model (by simp) rfl

theorem strAt_model_id : strAt "id" (modelDocument id model) = some id :=
  strAt_model id model (by simp) rfl

theorem elementKey_model : elementKey keyedModels (modelDocument id model) = some [model.provider.name, id] := by
  rw [elementKey_models, strAt_model_provider, strAt_model_id]
  rfl

end

section

variable (config : CopilotConfig) (listen : SocketAddr) (pairing : String)

theorem elementsOf_providers :
    elementsOf keyedProviders (managedDocument config listen pairing).value = managedProviders listen pairing := rfl

theorem elementsOf_models :
    elementsOf keyedModels (managedDocument config listen pairing).value = config.modelDocuments := rfl

theorem keyedKeys_providers : keyedKeys keyedProviders (managedDocument config listen pairing).value =
    [[providerOpenai], [providerAnthropic]] := rfl

theorem keyedKeys_models : keyedKeys keyedModels (managedDocument config listen pairing).value =
    config.models.entries.map fun entry => [entry.2.provider.name, entry.1] := by
  change (config.models.entries.map _).filterMap (elementKey keyedModels) = _
  rw [List.filterMap_map, ← List.filterMap_eq_map]
  exact List.filterMap_congr fun entry _ => elementKey_model entry.1 entry.2

/-- Every managed entry has a key, and no two have the same. -/
theorem managedDocument_keys :
    ManagedKeys providersOptions.keyedArrays false (managedDocument config listen pairing).value := by
  refine ⟨⟨rfl, fun keyed hkeyed => ?_⟩, fun keyed hkeyed element helement => ?_, fun keyed hkeyed => ?_⟩
  · rcases keyedArrays_cases hkeyed with rfl | rfl <;> rfl
  · rcases keyedArrays_cases hkeyed with rfl | rfl
    · rw [elementsOf_providers] at helement
      simp only [managedProviders, List.mem_cons, List.not_mem_nil, or_false] at helement
      rcases helement with rfl | rfl <;> rfl
    · rw [elementsOf_models] at helement
      obtain ⟨entry, _, rfl⟩ := List.mem_map.mp helement
      rw [elementKey_model]
      rfl
  · rcases keyedArrays_cases hkeyed with rfl | rfl
    · rw [keyedKeys_providers]
      decide
    · rw [keyedKeys_models]
      refine List.pairwise_map.mpr (config.models.sorted.imp fun hlt hsame => ?_)
      have hid : _ = _ := (List.cons.inj (List.cons.inj hsame).2).1
      exact absurd hid (ne_of_lt hlt)

/-- Which elements of an array have a managed key. -/
theorem ownedBy_providers (element : Value) :
    ownedBy providersOptions.keyedArrays keyedProviders (managedDocument config listen pairing).value element =
      underManagedName "name" element := by
  have hother : ownsKey keyedModels keyedProviders (managedDocument config listen pairing).value element = false := rfl
  simp only [ownedBy, providersOptions, List.any_cons, List.any_nil, hother, Bool.or_false]
  simp only [ownsKey, hasKeyIn, keyedKeys_providers, elementKey_providers, underManagedName]
  cases strAt "name" element with
  | none => rfl
  | some name => simp [managedNames]

theorem ownedBy_models (element : Value) :
    ownedBy providersOptions.keyedArrays keyedModels (managedDocument config listen pairing).value element = true ↔
      ∃ id model, config.models.get? id = some model ∧ strAt "provider" element = some model.provider.name ∧
        strAt "id" element = some id := by
  have hother : ownsKey keyedProviders keyedModels (managedDocument config listen pairing).value element = false := rfl
  simp only [ownedBy, providersOptions, List.any_cons, List.any_nil, hother, Bool.or_false, Bool.false_or]
  simp only [ownsKey, hasKeyIn, keyedKeys_models, elementKey_models]
  cases strAt "provider" element with
  | none => simp
  | some provider =>
    cases strAt "id" element with
    | none => simp
    | some id =>
      simp only [decide_true, Bool.true_and, Option.bind_some, Option.map_some, List.contains_eq_mem, decide_eq_true_eq,
        List.mem_map, Option.some.injEq]
      constructor
      · rintro ⟨entry, hentry, hkeys⟩
        cases hkeys
        exact ⟨entry.1, entry.2, BTreeMap.mem_entries_iff.mp hentry, rfl, rfl⟩
      · rintro ⟨found, model, hfound, rfl, rfl⟩
        exact ⟨(_, model), BTreeMap.mem_entries_iff.mpr hfound, rfl⟩

end

end AgentDesktop
