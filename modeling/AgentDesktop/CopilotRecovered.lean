import AgentDesktop.CopilotMerged
import AgentDesktop.JsonInterrupted
import AgentDesktop.JsonRemergeRuns

namespace AgentDesktop

/-- Every model of the first configuration has its provider and its id among those of the second. -/
def ModelsCovered (first second : CopilotConfig) : Prop :=
  ∀ id model, first.models.get? id = some model →
    ∃ other, second.models.get? id = some other ∧ other.provider = model.provider

/-- The elements of the first managed document whose key the second one does not manage. -/
def leftovers (first second : CopilotManaged) (keyed : KeyedArray) : List Value :=
  (elementsOf keyed first.document.value).filter (providersOptions.free keyed [second.document])

section

variable {first second : CopilotManaged}

theorem CopilotProvider.name_injective {a b : CopilotProvider} (h : a.name = b.name) : a = b := by
  cases a <;> cases b <;> first | rfl | exact absurd h (by decide)

theorem leftovers_nil_iff {keyed : KeyedArray} : leftovers first second keyed = [] ↔
    ∀ element ∈ elementsOf keyed first.document.value,
      ownedBy providersOptions.keyedArrays keyed second.document.value element = true := by
  rw [leftovers, List.filter_eq_nil_iff]
  refine forall₂_congr fun element _ => ?_
  simp [MergeOptions.free_iff]

theorem leftovers_providers : leftovers first second keyedProviders = [] := by
  refine leftovers_nil_iff.mpr fun element helement => ?_
  have hnamed := first.named (by simp [providersOptions]) element helement
  exact (ownedBy_providers second.config second.listen second.pairing element).trans hnamed

theorem leftovers_models_iff :
    leftovers first second keyedModels = [] ↔ ModelsCovered first.config second.config := by
  have howned := ownedBy_models second.config second.listen second.pairing
  rw [leftovers_nil_iff]
  constructor
  · intro h id model hmodel
    have helement : modelDocument id model ∈ elementsOf keyedModels first.document.value :=
      List.mem_map.mpr ⟨(id, model), BTreeMap.mem_entries_iff.mpr hmodel, rfl⟩
    obtain ⟨found, other, hother, hprovider, hid⟩ := (howned _).mp (h _ helement)
    rw [strAt_model_provider, Option.some.injEq] at hprovider
    rw [strAt_model_id, Option.some.injEq] at hid
    exact ⟨other, hid ▸ hother, (CopilotProvider.name_injective hprovider).symm⟩
  · intro h element helement
    obtain ⟨entry, hentry, rfl⟩ := List.mem_map.mp helement
    obtain ⟨other, hother, hprovider⟩ := h entry.1 entry.2 (BTreeMap.mem_entries_iff.mp hentry)
    refine (howned _).mpr ⟨entry.1, other, hother, ?_, strAt_model_id entry.1 entry.2⟩
    rw [strAt_model_provider, hprovider]

theorem leftovers_iff : (∀ keyed ∈ providersOptions.keyedArrays, leftovers first second keyed = []) ↔
    ModelsCovered first.config second.config := by
  rw [← leftovers_models_iff]
  constructor
  · intro h
    exact h keyedModels (by simp [providersOptions])
  · intro h keyed hkeyed
    rcases keyedArrays_cases hkeyed with rfl | rfl
    · exact leftovers_providers
    · exact h

end

variable {β : Type} [DecidableEq β]

/-- A managed document merged into `providers.json`. -/
def applyManaged (codec : Codec β) (env : ApplyEnv β) (path : Path) (gateway : ProxyUnavailable)
    (managed : CopilotManaged) (world : World β) : World β :=
  (applyProviders codec env path (some (managed.listen, managed.pairing)) (some (managed.config, some gateway)) world).1

/-- The managed entries removed from `providers.json`. -/
def removeManaged (codec : Codec β) (env : ApplyEnv β) (path : Path) (proxy : Option (SocketAddr × String))
    (world : World β) : World β :=
  (applyProviders codec env path proxy none world).1

/-- The elements of an array in `providers.json`. -/
def providersElements (codec : Codec β) (path : Path) (world : World β) (keyed : KeyedArray) : List Value :=
  (stored codec .json (world.files path)).elementsOf keyed

section

variable (codec : Codec β) {env : ApplyEnv β} (reliable : Reliable env) {path : Path} (gateway : ProxyUnavailable)
  {world : World β}

include reliable

theorem applyManaged_view {found : Json} (hfound : stored codec .json (world.files path) = .document found)
    (object : found.value.isObject = true) (fresh : world.files (statePath path) = .absent) (managed : CopilotManaged)
    (hforeign : foreignEntry managed.document.value found.value = none) :
    (providersTarget path).view codec (applyManaged codec env path gateway managed world).files =
      DocState.merge providersOptions false managed.document ⟨.document found, .ok none⟩ := by
  rw [← providersTarget_view_fresh codec hfound fresh]
  exact applyProviders_view codec reliable hfound object fresh managed.config gateway managed.listen managed.pairing
    hforeign

/-- The first merge puts the managed elements after those of the user. -/
theorem applyManaged_stored {document : Json} (hstored : stored codec .json (world.files path) = .document document)
    (object : document.value.isObject = true) (user : UserProviders document.value)
    (fresh : world.files (statePath path) = .absent) (managed : CopilotManaged) :
    stored codec .json ((applyManaged codec env path gateway managed world).files path) =
      .document (Json.merge providersOptions document managed.document) := by
  have hview := applyManaged_view codec reliable gateway hstored object fresh managed (user.foreignEntry managed)
  have hexisting : (Stored.document document).existing managed.document = some document :=
    Stored.existing_object rfl object
  refine (congrArg DocState.file hview).trans ?_
  simp only [DocState.merge, hexisting, user.kept managed]

variable {document : Value} {found : Json} {first : CopilotManaged}
  (hfound : stored codec .json (world.files path) = .document found)
  (merged : HoldsMerged first document found.value) (lost : world.files (statePath path) = .absent)
  (user : UserProviders document)

include hfound merged lost

theorem applyManaged_keyed (second : CopilotManaged) :
    KeyedState providersOptions.keyedArrays false (some second.document)
        ((providersTarget path).view codec (applyManaged codec env path gateway second world).files) ∧
      ∀ keyed ∈ providersOptions.keyedArrays,
        providersElements codec path (applyManaged codec env path gateway second world) keyed =
          (elementsOf keyed found.value).filter (providersOptions.free keyed [second.document]) ++
            elementsOf keyed second.document.value := by
  have hstart : KeyedState providersOptions.keyedArrays false none ⟨.document found, .ok none⟩ :=
    ⟨merged.keyable, none, rfl, .fresh⟩
  have hmerge := hstart.merge (by decide) second.keys
  rw [← applyManaged_view codec reliable gateway hfound merged.root lost second (merged.foreignEntry second)] at hmerge
  exact hmerge

include user

variable {keyed : KeyedArray}

/-- The next merge takes what it does not manage itself for the user's. -/
theorem applyManaged_elements (second : CopilotManaged) (hkeyed : keyed ∈ providersOptions.keyedArrays) :
    providersElements codec path (applyManaged codec env path gateway second world) keyed =
      elementsOf keyed document ++ leftovers first second keyed ++ elementsOf keyed second.document.value := by
  have hown := List.filter_eq_self.mpr (user.free second hkeyed)
  rw [(applyManaged_keyed codec reliable gateway hfound merged lost second).2 keyed hkeyed, merged.elements hkeyed,
    List.filter_append, hown]
  rfl

theorem removeManaged_elements (second : CopilotManaged) (proxy : Option (SocketAddr × String))
    (hkeyed : keyed ∈ providersOptions.keyedArrays) :
    providersElements codec path
        (removeManaged codec env path proxy (applyManaged codec env path gateway second world)) keyed =
      elementsOf keyed document ++ leftovers first second keyed := by
  have hown := List.filter_eq_self.mpr (user.free second hkeyed)
  have hleft : (leftovers first second keyed).filter (providersOptions.free keyed [second.document]) =
      leftovers first second keyed := by
    simp [leftovers, List.filter_filter]
  have hmanaged : (elementsOf keyed second.document.value).filter
      (providersOptions.free keyed [second.document]) = [] := by
    refine List.filter_eq_nil_iff.mpr fun element helement => ?_
    simp [MergeOptions.free_iff, second.keys.owned hkeyed helement]
  have hstate := (applyManaged_keyed codec reliable gateway hfound merged lost second).1
  obtain ⟨previous, hside, hrecord⟩ := hstate.sidecar
  cases hrecord with
  | @merged _ state _ _ =>
    have hremoved := hstate.remove hkeyed
    change _ = (providersElements codec path (applyManaged codec env path gateway second world) keyed).filter
      (providersOptions.free keyed [second.document]) at hremoved
    rw [applyManaged_elements codec reliable gateway hfound merged lost user second hkeyed, List.filter_append,
      List.filter_append, hown, hleft, hmanaged, List.append_nil] at hremoved
    rw [providersElements, removeManaged, applyProviders_recorded codec hside proxy, ← hremoved]
    exact congrArg (Stored.elementsOf keyed) (removeFrom_file (statePath_ne path) reliable _)

/-- Without a sidecar and a pairing the user's elements are left. -/
theorem removeManaged_orphaned (hkeyed : keyed ∈ providersOptions.keyedArrays) :
    providersElements codec path (removeManaged codec env path none world) keyed = elementsOf keyed document := by
  have hnames := merged.orphanedNames user
  have hremoved := applyProviders_orphaned codec reliable hfound merged.root lost none (hnames ▸ by decide)
  rw [providersElements, removeManaged, hremoved]
  change elementsOf keyed (withoutProviders (orphanedNames none found.value) found).value = _
  rw [hnames]
  exact merged.withoutNamed user hkeyed

theorem named_elements (second : CopilotManaged) (hkeyed : keyed ∈ providersOptions.keyedArrays) :
    (providersElements codec path (applyManaged codec env path gateway second world) keyed).filter
        (underManagedName (nameKey keyed)) =
      leftovers first second keyed ++ elementsOf keyed second.document.value := by
  have hown : (elementsOf keyed document).filter (underManagedName (nameKey keyed)) = [] :=
    List.filter_eq_nil_iff.mpr fun element helement => by simp [user.unnamed hkeyed element helement]
  have hleft : (leftovers first second keyed).filter (underManagedName (nameKey keyed)) =
      leftovers first second keyed :=
    List.filter_eq_self.mpr fun element helement => first.named hkeyed element (List.mem_of_mem_filter helement)
  have hmanaged := List.filter_eq_self.mpr (second.named hkeyed)
  rw [applyManaged_elements codec reliable gateway hfound merged lost user second hkeyed, List.filter_append,
    List.filter_append, hown, hleft, hmanaged, List.nil_append]

end

/-- Of a merge whose sidecar is missing, a removal without a pairing leaves the user's providers
and models. The next merge and its removal do so, and have no more than their own entries under
managed names, exactly if each model of the first merge is one of theirs. -/
theorem orphaned_providers_recovered_iff (codec : Codec β) (env : ApplyEnv β) (reliable : Reliable env) (path : Path)
    (before gateway : ProxyUnavailable) (world : World β) (document : Json)
    (hdocument : stored codec .json (world.files path) = .document document)
    (object : document.value.isObject = true) (user : UserProviders document.value)
    (fresh : world.files (statePath path) = .absent) (first second : CopilotManaged) (orphaned : World β)
    (hmerged : stored codec .json (orphaned.files path) =
      stored codec .json ((applyManaged codec env path before first world).files path))
    (lost : orphaned.files (statePath path) = .absent) :
    (∀ keyed ∈ providersOptions.keyedArrays,
      providersElements codec path (removeManaged codec env path none orphaned) keyed =
        elementsOf keyed document.value) ∧
    ((∀ keyed ∈ providersOptions.keyedArrays,
        (providersElements codec path (applyManaged codec env path gateway second orphaned) keyed).filter
            (underManagedName (nameKey keyed)) = elementsOf keyed second.document.value ∧
          ∀ proxy, providersElements codec path
              (removeManaged codec env path proxy (applyManaged codec env path gateway second orphaned)) keyed =
            elementsOf keyed document.value) ↔
      ModelsCovered first.config second.config) := by
  have hfound := hmerged.trans (applyManaged_stored codec reliable before hdocument object user fresh first)
  have merged := user.holdsMerged object first
  refine ⟨fun keyed hkeyed => removeManaged_orphaned codec reliable hfound merged lost user hkeyed, ?_⟩
  rw [← leftovers_iff]
  refine forall₂_congr fun keyed hkeyed => ?_
  have hnamed := named_elements codec reliable gateway hfound merged lost user second hkeyed
  have hremoved := fun proxy =>
    removeManaged_elements codec reliable gateway hfound merged lost user second proxy hkeyed
  simp only [hnamed, hremoved]
  constructor
  · rintro ⟨hleft, -⟩
    simpa using hleft
  · intro hleft
    simp [hleft]

/-- A `providers.json` with a provider and a model of the user's. -/
def ownProviders : Json where
  value := .object [("models", .array [.object [("id", .string "m"), ("provider", .string "own")]]),
    ("providers", .array [.object [("name", .string "own")]])]
  valid := by decide

def ownWorld : World Contents where
  files path := if path = ["providers.json"] then .file (.json ownProviders) 0o600 else .absent
  registry _ := .empty

def plainModel : CopilotModel where
  extra := .empty
  passedThrough := fun _ _ => rfl

/-- A proxy with models that are passed on as they are. -/
def managedModels (pairing : String) (ids : List String) : CopilotManaged where
  config := ⟨.collect (ids.map fun id => (id, plainModel))⟩
  listen := ⟨.v4 [127, 0, 0, 1], 0, 4000⟩
  pairing := pairing

/-- The first merge stops after the write of the file and before that of the sidecar. -/
def stoppedMerge : World Contents :=
  applyManaged contentsCodec (failsAt 1) ["providers.json"] .failOpen (managedModels "first" ["gpt"]) ownWorld

theorem orphaned_providers_recovered_more_models :
    ModelsCovered (managedModels "first" ["gpt"]).config (managedModels "second" ["gpt", "o"]).config ∧
      ∀ proxy, providersElements contentsCodec ["providers.json"]
          (removeManaged contentsCodec {} ["providers.json"] proxy
            (applyManaged contentsCodec {} ["providers.json"] .failOpen (managedModels "second" ["gpt", "o"])
              stoppedMerge)) keyedModels =
        [.object [("id", .string "m"), ("provider", .string "own")]] := by
  have hcovered : ModelsCovered (managedModels "first" ["gpt"]).config
      (managedModels "second" ["gpt", "o"]).config := by
    intro id model hmodel
    have hmem : (id, model) ∈ [("gpt", plainModel)] := BTreeMap.mem_entries_iff.mpr hmodel
    cases List.mem_singleton.mp hmem
    exact ⟨plainModel, rfl, rfl⟩
  have huser : UserProviders ownProviders.value := ⟨by decide, by decide⟩
  have hrecovered := (orphaned_providers_recovered_iff contentsCodec {} reliable_default ["providers.json"] .failOpen
    .failOpen ownWorld ownProviders rfl rfl huser rfl (managedModels "first" ["gpt"])
    (managedModels "second" ["gpt", "o"]) stoppedMerge rfl rfl).2.mpr hcovered
  exact ⟨hcovered, (hrecovered keyedModels (by simp [providersOptions])).2⟩

/-- A model that the next merge no longer has stays under the managed name and is left by the
removal. -/
theorem dropped_model_stays :
    let after := applyManaged contentsCodec {} ["providers.json"] .failOpen (managedModels "second" ["o"]) stoppedMerge
    stored contentsCodec .json (stoppedMerge.files ["providers.json"]) =
        stored contentsCodec .json ((applyManaged contentsCodec {} ["providers.json"] .failOpen
          (managedModels "first" ["gpt"]) ownWorld).files ["providers.json"]) ∧
      stoppedMerge.files (statePath ["providers.json"]) = .absent ∧
      (providersElements contentsCodec ["providers.json"] after keyedModels).filter (underManagedName "provider") =
        [modelDocument "gpt" plainModel, modelDocument "o" plainModel] ∧
      providersElements contentsCodec ["providers.json"]
          (removeManaged contentsCodec {} ["providers.json"] none after) keyedModels =
        [.object [("id", .string "m"), ("provider", .string "own")], modelDocument "gpt" plainModel] := by
  refine ⟨rfl, rfl, ?_, ?_⟩ <;> rfl

end AgentDesktop
