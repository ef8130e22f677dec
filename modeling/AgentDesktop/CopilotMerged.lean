import AgentDesktop.CopilotPlanned
import AgentDesktop.JsonKeyedState

namespace AgentDesktop

/-- What is managed for the Copilot CLI: the models, and the listener and the pairing of the proxy. -/
structure CopilotManaged where
  config : CopilotConfig
  listen : SocketAddr
  pairing : String

def CopilotManaged.document (managed : CopilotManaged) : Json :=
  managedDocument managed.config managed.listen managed.pairing

/-- No provider has a managed name, and no model is under one. -/
structure UserProviders (document : Value) : Prop where
  providers : ∀ provider ∈ elementsOf keyedProviders document, underManagedName "name" provider = false
  models : ∀ model ∈ elementsOf keyedModels document, underManagedName "provider" model = false

/-- The key under which an element of an array has the name of its provider. -/
def nameKey (keyed : KeyedArray) : String :=
  if keyed.field = "providers" then "name" else "provider"

section

variable (managed : CopilotManaged) {document : Value} {keyed : KeyedArray}

theorem UserProviders.unnamed (h : UserProviders document) (hkeyed : keyed ∈ providersOptions.keyedArrays) :
    ∀ element ∈ elementsOf keyed document, underManagedName (nameKey keyed) element = false := by
  rcases keyedArrays_cases hkeyed with rfl | rfl
  · exact h.providers
  · exact h.models

/-- An element with a managed key is under a managed name. -/
theorem underManagedName_of_owned (hkeyed : keyed ∈ providersOptions.keyedArrays) {element : Value}
    (h : ownedBy providersOptions.keyedArrays keyed managed.document.value element = true) :
    underManagedName (nameKey keyed) element = true := by
  rcases keyedArrays_cases hkeyed with rfl | rfl
  · rw [← h]
    exact (ownedBy_providers managed.config managed.listen managed.pairing element).symm
  · obtain ⟨id, model, _, hprovider, _⟩ := (ownedBy_models managed.config managed.listen managed.pairing element).mp h
    have hname := model.provider.name_mem
    change underManagedName "provider" element = true
    simp [underManagedName, hprovider, hname]

theorem CopilotManaged.keys : ManagedKeys providersOptions.keyedArrays false managed.document.value :=
  managedDocument_keys managed.config managed.listen managed.pairing

theorem CopilotManaged.named (hkeyed : keyed ∈ providersOptions.keyedArrays) :
    ∀ element ∈ elementsOf keyed managed.document.value, underManagedName (nameKey keyed) element = true :=
  fun _ helement => underManagedName_of_owned managed hkeyed (managed.keys.owned hkeyed helement)

theorem UserProviders.free (h : UserProviders document) (hkeyed : keyed ∈ providersOptions.keyedArrays) :
    ∀ element ∈ elementsOf keyed document, providersOptions.free keyed [managed.document] element = true := by
  intro element helement
  rw [MergeOptions.free_iff]
  intro other hother
  obtain rfl := List.mem_singleton.mp hother
  by_contra howned
  have hname := underManagedName_of_owned managed hkeyed (Bool.not_eq_false _ ▸ howned)
  rw [h.unnamed hkeyed element helement] at hname
  cases hname

theorem modifyKeyedArray_self (hfield : keyed.field ≠ "") {keep : Value → Bool} (valid : document.valid = true)
    (h : ∀ element ∈ elementsOf keyed document, keep element = true) :
    modifyKeyedArray keyed (List.filter keep) document = document := by
  unfold modifyKeyedArray
  rw [if_neg hfield]
  split
  next fields =>
    split
    next elements hlookup =>
      have helements : elementsOf keyed (.object fields) = elements := by
        rw [elementsOf_eq, fieldOf_field hfield, Value.get_object, hlookup]
        rfl
      rw [helements] at h
      rw [List.filter_eq_self.mpr h, (valid_object.mp valid).1.insert_self hlookup]
    next => rfl
  next => rfl

theorem removeKeyed_self (hfield : keyed.field ≠ "") {managed : Value} (valid : document.valid = true)
    (h : ∀ element ∈ elementsOf keyed document, hasKeyIn keyed (keyedKeys keyed managed) element = false) :
    removeKeyed keyed managed document = document := by
  unfold removeKeyed
  dsimp only
  split
  next => rfl
  next => exact modifyKeyedArray_self hfield valid fun element helement => by simp [h element helement]

end

section

variable (managed : CopilotManaged) {document : Json} (user : UserProviders document.value)

include user

/-- Without a sidecar all of the user's document is taken as the user's. -/
theorem UserProviders.kept : Json.user providersOptions none false managed.document document = document := by
  have hsame : ∀ keyed ∈ providersOptions.keyedArrays,
      removeKeyed keyed managed.document.value document.value = document.value := by
    intro keyed hkeyed
    have hfield : keyed.field ≠ "" := by
      rcases keyedArrays_cases hkeyed with rfl | rfl <;> decide
    refine removeKeyed_self hfield document.valid fun element helement => not_hasKey_of_free hkeyed ?_
    exact MergeOptions.free_iff.mp (user.free managed hkeyed element helement) managed.document (by simp)
  refine Json.ext ?_
  change removeKeyed keyedModels _ (removeKeyed keyedProviders _ document.value) = document.value
  rw [hsame keyedProviders (by simp [providersOptions]), hsame keyedModels (by simp [providersOptions])]

/-- The managed elements come after those of the user. -/
theorem UserProviders.merged_field (object : document.value.isObject = true) {keyed : KeyedArray}
    (hkeyed : keyed ∈ providersOptions.keyedArrays) :
    fieldOf keyed (Json.merge providersOptions document managed.document).value =
      some (.array (elementsOf keyed document.value ++ elementsOf keyed managed.document.value)) := by
  have hmanaged : fieldOf keyed managed.document.value = some (.array (elementsOf keyed managed.document.value)) := by
    rcases keyedArrays_cases hkeyed with rfl | rfl <;> rfl
  have hdisjoint : ∀ element ∈ elementsOf keyed managed.document.value,
      element ∉ arrayOf (fieldOf keyed document.value) := by
    intro element hnew hold
    rw [← elementsOf_eq] at hold
    have hfree := MergeOptions.free_iff.mp (user.free managed hkeyed element hold) managed.document (by simp)
    rw [managed.keys.owned hkeyed hnew] at hfree
    cases hfree
  have hroot : document.value.rooted false = true := object
  change fieldOf keyed (mergeOverlay document.value managed.document.value) = _
  rw [fieldOf_mergeOverlay keyed hroot managed.keys.root managed.document.valid, hmanaged,
    mergedField_array (managed.keys.nodup hkeyed) hdisjoint, elementsOf_eq keyed document.value]

end

/-- A document holds the user's elements of an array, then the managed ones. -/
structure HoldsMerged (managed : CopilotManaged) (document found : Value) : Prop where
  root : found.isObject = true
  field : ∀ keyed ∈ providersOptions.keyedArrays,
    fieldOf keyed found = some (.array (elementsOf keyed document ++ elementsOf keyed managed.document.value))

section

variable {managed : CopilotManaged} {document found : Value}

theorem UserProviders.holdsMerged {document : Json} (user : UserProviders document.value)
    (object : document.value.isObject = true) (managed : CopilotManaged) :
    HoldsMerged managed document.value (Json.merge providersOptions document managed.document).value := by
  refine ⟨?_, fun keyed hkeyed => user.merged_field managed object hkeyed⟩
  have hroot : managed.document.value.rooted false = true := rfl
  exact mergeOverlay_rooted document.value hroot

/-- A provider of the name carries a pairing. -/
def WrittenName (current : Value) (name : String) : Prop :=
  ∃ provider ∈ elementsOf keyedProviders current, pairingOf provider ≠ .null ∧ strAt "name" provider = some name

/-- No entry is foreign if each managed name in use is that of a provider that carries a pairing. -/
theorem foreignEntry_none (managed : CopilotManaged) {current : Value}
    (providers : ∀ provider ∈ elementsOf keyedProviders current, ∀ name ∈ managedNames,
      strAt "name" provider = some name → WrittenName current name)
    (models : ∀ model ∈ elementsOf keyedModels current, ∀ name ∈ managedNames,
      strAt "provider" model = some name → WrittenName current name) :
    foreignEntry managed.document.value current = none := by
  have hnames : (elementsOf keyedProviders managed.document.value).filterMap (strAt "name") = managedNames := rfl
  have hwritten : ∀ {name}, WrittenName current name →
      name ∈ ((elementsOf keyedProviders current).filter fun provider =>
        decide (pairingOf provider ≠ .null)).filterMap (strAt "name") := by
    rintro name ⟨provider, hprovider, hpaired, hname⟩
    exact List.mem_filterMap.mpr ⟨provider, List.mem_filter.mpr ⟨hprovider, decide_eq_true hpaired⟩, hname⟩
  simp only [foreignEntry, hnames]
  generalize ((elementsOf keyedProviders current).filter fun provider =>
    decide (pairingOf provider ≠ .null)).filterMap (strAt "name") = written at hwritten ⊢
  have hnone : ∀ {found : Option String}, (∀ name ∈ managedNames, found = some name → WrittenName current name) →
      (found.filter fun name => managedNames.contains name && !written.contains name) = none := by
    intro found hfound
    refine Option.filter_eq_none_iff.mpr fun name hname hforeign => ?_
    simp only [Bool.and_eq_true, Bool.not_eq_true', List.contains_eq_mem, decide_eq_true_eq,
      decide_eq_false_iff_not] at hforeign
    exact hforeign.2 (hwritten (hfound name hforeign.1 hname))
  have hproviders : ((elementsOf keyedProviders current).findSome? fun provider => (strAt "name" provider).filter
      fun name => managedNames.contains name && !written.contains name) = none :=
    List.findSome?_eq_none_iff.mpr fun provider hprovider => hnone (providers provider hprovider)
  rw [hproviders]
  refine List.findSome?_eq_none_iff.mpr fun model hmodel => ?_
  rw [hnone (models model hmodel)]

theorem not_underManagedName {key : String} {element : Value} (h : underManagedName key element = false) {name : String}
    (hname : name ∈ managedNames) : strAt key element ≠ some name := by
  intro hstr
  simp [underManagedName, hstr, hname] at h

theorem UserProviders.foreignEntry (user : UserProviders document) (managed : CopilotManaged) :
    foreignEntry managed.document.value document = none :=
  foreignEntry_none managed
    (fun provider hprovider _ hname hstr =>
      absurd hstr (not_underManagedName (user.providers provider hprovider) hname))
    (fun model hmodel _ hname hstr => absurd hstr (not_underManagedName (user.models model hmodel) hname))

theorem UserProviders.unnamed_elements (user : UserProviders document) (managed : CopilotManaged)
    {keyed : KeyedArray} (hkeyed : keyed ∈ providersOptions.keyedArrays) :
    (elementsOf keyed document ++ elementsOf keyed managed.document.value).filter
      (fun element => !underManagedName (nameKey keyed) element) = elementsOf keyed document := by
  have hown : (elementsOf keyed document).filter (fun element => !underManagedName (nameKey keyed) element) =
      elementsOf keyed document :=
    List.filter_eq_self.mpr fun element helement => by simp [user.unnamed hkeyed element helement]
  have hmanaged : (elementsOf keyed managed.document.value).filter
      (fun element => !underManagedName (nameKey keyed) element) = [] :=
    List.filter_eq_nil_iff.mpr fun element helement => by simp [managed.named hkeyed element helement]
  rw [List.filter_append, hown, hmanaged, List.append_nil]

variable (merged : HoldsMerged managed document found)

include merged

theorem HoldsMerged.elements {keyed : KeyedArray} (hkeyed : keyed ∈ providersOptions.keyedArrays) :
    elementsOf keyed found = elementsOf keyed document ++ elementsOf keyed managed.document.value := by
  rw [elementsOf_eq, merged.field keyed hkeyed]
  rfl

theorem HoldsMerged.keyable : Keyable providersOptions.keyedArrays false found := by
  refine ⟨merged.root, fun keyed hkeyed => ?_⟩
  rw [merged.field keyed hkeyed]
  rfl

theorem HoldsMerged.written {name : String} (hname : name ∈ managedNames) : WrittenName found name := by
  have hmanaged : ∃ provider ∈ managedProviders managed.listen managed.pairing,
      pairingOf provider ≠ .null ∧ strAt "name" provider = some name := by
    simp only [managedNames, List.mem_cons, List.not_mem_nil, or_false] at hname
    rcases hname with rfl | rfl
    · exact ⟨_, List.mem_cons_self, Value.noConfusion, rfl⟩
    · exact ⟨_, List.mem_cons_of_mem _ List.mem_cons_self, Value.noConfusion, rfl⟩
  obtain ⟨provider, hprovider, hpaired⟩ := hmanaged
  refine ⟨provider, ?_, hpaired⟩
  rw [merged.elements (by simp [providersOptions])]
  exact List.mem_append_right _ hprovider

/-- All entries of a managed name are taken for written, whatever is managed now. -/
theorem HoldsMerged.foreignEntry (next : CopilotManaged) : foreignEntry next.document.value found = none :=
  foreignEntry_none next (fun _ _ _ hname _ => merged.written hname) (fun _ _ _ hname _ => merged.written hname)

variable (user : UserProviders document)

include user

theorem HoldsMerged.orphanedNames : orphanedNames none found = managedNames := by
  have huser : (elementsOf keyedProviders document).filter (paired · none) = [] := by
    refine List.filter_eq_nil_iff.mpr fun provider hprovider => ?_
    simp [paired, user.providers provider hprovider]
  rw [AgentDesktop.orphanedNames, merged.elements (by simp [providersOptions]), List.filter_append, huser]
  rfl

/-- Without the managed names the elements of the user are left. -/
theorem HoldsMerged.withoutNamed {keyed : KeyedArray} (hkeyed : keyed ∈ providersOptions.keyedArrays) :
    elementsOf keyed (withoutNamed managedNames keyedModels "provider"
      (withoutNamed managedNames keyedProviders "name" found)) = elementsOf keyed document := by
  have hproviders : ∀ other ∈ providersOptions.keyedArrays,
      fieldOf other (AgentDesktop.withoutNamed managedNames keyedProviders "name" found) =
        if other.field = keyedProviders.field then some (.array (elementsOf keyedProviders document))
        else fieldOf other found := by
    intro other hother
    rw [AgentDesktop.withoutNamed, fieldOf_modify keyedProviders other _ (merged.keyable.field other hother)]
    rcases keyedArrays_cases hother with rfl | rfl
    · rw [if_pos rfl, if_pos rfl, merged.field keyedProviders hother]
      exact congrArg (some ∘ Value.array) (user.unnamed_elements managed hother)
    · rfl
  have harray : isNoneOr (fieldOf keyed (AgentDesktop.withoutNamed managedNames keyedProviders "name" found))
      Value.isArray = true := by
    rw [hproviders keyed hkeyed]
    split
    next => rfl
    next => exact merged.keyable.field keyed hkeyed
  rw [elementsOf_eq, AgentDesktop.withoutNamed, fieldOf_modify keyedModels keyed _ harray, hproviders keyed hkeyed]
  rcases keyedArrays_cases hkeyed with rfl | rfl
  · rfl
  · rw [if_pos rfl, if_neg (by decide), merged.field keyedModels hkeyed]
    exact user.unnamed_elements managed hkeyed

end

end AgentDesktop
