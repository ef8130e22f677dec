import AgentDesktop.JsonKeyedMerge
import AgentDesktop.KeyOrder
import AgentDesktop.VsCodeOutcomes
import AgentDesktop.VsCodePlan

namespace AgentDesktop

def asU32 : Value → Option Nat
  | .number (.posInt n) => if n.toNat < 2 ^ 32 then some n.toNat else none
  | _ => none

def asBool : Value → Option Bool
  | .bool b => some b
  | _ => none

def settingsStateFields : List String :=
  ["version", "created", "overrideBefore", "addedIgnored", "ignoredCreated"]

/-- A sidecar of the current form, which has no other fields. -/
def parseSettingsState (fields : Fields) : Option SettingsState :=
  if fields.any fun field => !settingsStateFields.contains field.1 then none
  else do
    let version ← (fields.lookup "version").bind asU32
    let created ← (fields.lookup "created").bind asBool
    let addedIgnored ← ((fields.lookup "addedIgnored").bind Value.asArray).bind (List.mapM Value.asStr)
    let ignoredCreated ← (fields.lookup "ignoredCreated").bind asBool
    return { version, created, overrideBefore := fields.lookup "overrideBefore", addedIgnored, ignoredCreated }

/-- The whole-document state of earlier versions: a struct by field names, or the fields in order. -/
def parseLegacyState : Value → Option (Bool × Value)
  | .object fields => do
    let created ← (fields.lookup "created").bind asBool
    let before ← fields.lookup "before"
    return (created, before)
  | .array [created, before] => (asBool created).map fun created => (created, before)
  | _ => none

/-- Which form a sidecar document has. -/
def sidecarContents (document : Value) : SettingsContents :=
  if (document.get "version").isSome then
    match document.asObject.bind parseSettingsState with
    | some state => .state state
    | none => .other
  else
    match parseLegacyState document with
    | some (created, before) => .merged created before
    | none => .other

/-- How the file and the sidecar are read by the merge of earlier versions, and the file by the
editor of the settings. -/
structure SettingsCodec (β : Type) extends Codec β where
  settingsText : β → SettingsText
  text_print : ∀ (document : Json) (fields : Fields), document.value = .object fields →
    settingsText (print document) = .object fields
  parse_text : ∀ (contents : β) (properties : List Property) (document : Json),
    settingsText contents = .object properties → parse .json contents = some document →
      document.value = .object (BTreeMap.collect properties).entries

/-- `read_state`: the current form, or the earlier one upgraded. -/
def SettingsCodec.readState {β : Type} (codec : SettingsCodec β) (bytes : β) : Option SettingsState :=
  (codec.parse .json bytes).bind fun document => readSettingsState (sidecarContents document.value)

/-- The JSON value of a settings text. -/
def SettingsText.value : SettingsText → Option Value
  | .object properties => some (.object (BTreeMap.collect properties).entries)
  | _ => none

/-- What earlier versions merged into the settings. -/
def earlierSettings (url : String) : Json where
  value := .object [(overrideKey, .string url), (ignoredSettingsKey, .array (managedEntries.map .string))]
  valid := by
    refine valid_object.mpr ⟨?_, ?_⟩
    · simp only [SortedMap.Sorted, List.pairwise_cons, List.mem_cons, List.not_mem_nil, or_false, forall_eq,
        List.Pairwise.nil, and_true, false_implies, implies_true]
      decide
    · intro entry hentry
      simp only [List.mem_cons, List.not_mem_nil, or_false] at hentry
      rcases hentry with rfl | rfl <;> rfl

/-- The fields of a document with the settings of earlier versions merged in. -/
def earlierMerged (url : String) (fields : Fields) : Fields :=
  mergeFields fields [(overrideKey, .string url), (ignoredSettingsKey, .array (managedEntries.map .string))]

theorem merge_earlierSettings {document : Json} {fields : Fields} (h : document.value = .object fields) (url : String) :
    (Json.merge {} document (earlierSettings url)).value = .object (earlierMerged url fields) := by
  change mergeOverlay document.value (earlierSettings url).value = _
  rw [h]
  rfl

theorem readState_stateJson {β : Type} (codec : SettingsCodec β) (state : MergeState) :
    codec.readState (codec.print (stateJson state)) =
      readSettingsState (.merged state.created state.before.value) := by
  rw [SettingsCodec.readState, codec.parse_print]
  rfl

theorem mergeElements_managed (elements : List Value) :
    mergeElements elements (managedEntries.map .string) =
      elements ++ (managedEntries.filter fun entry => !elements.contains (.string entry)).map .string := by
  have hne : Value.string capiAliasKey ≠ .string overrideKey := by decide
  simp only [mergeElements, managedEntries, List.map_cons, List.map_nil, List.foldl_cons, List.foldl_nil, pushMissing]
  by_cases hoverride : Value.string overrideKey ∈ elements
  · by_cases halias : Value.string capiAliasKey ∈ elements
    · simp [hoverride, halias]
    · simp [hoverride, halias]
  · by_cases halias : Value.string capiAliasKey ∈ elements
    · simp [hoverride, halias]
    · simp [hoverride, halias, hne]

theorem lookup_restoredFrom {properties : List Property} (hs : SortedMap.Sorted properties)
    (base : Option (List Property)) (key : String) :
    (restoredFrom base properties).lookup key = (properties.lookup key).bind fun value =>
      (restoredProperty (overrideIn base) (missingEntries base) (ignoredIn base).isNone (key, value)).map Prod.snd :=
  hs.lookup_filterMap (fun _ _ => restoredProperty_key) key

section

variable {fields : Fields} (url : String)

/-- The merge of earlier versions puts in what an edit puts in. -/
theorem lookup_earlierMerged (harray : fields.lookup ignoredSettingsKey ≠ none → ignoredElements fields ≠ none)
    (key : String) :
    (earlierMerged url fields).lookup key =
      if key = overrideKey then some (.string url)
      else if key = ignoredSettingsKey then
        some (.array ((ignoredElements fields).getD [] ++ (appendedEntries fields).map .string))
      else fields.lookup key := by
  have hsorted := (valid_object.mp (earlierSettings url).valid).1
  rw [earlierMerged, mergeFields_lookup key hsorted, SortedMap.lookup_cons_ite, SortedMap.lookup_cons_ite]
  by_cases hoverride : key = overrideKey
  · have hstring : ∀ base, mergeOverlay base (.string url) = .string url := by
      intro base
      cases base <;> rfl
    rw [if_pos hoverride, if_pos hoverride, mergedField, hstring]
  · rw [if_neg hoverride, if_neg hoverride]
    by_cases hignored : key = ignoredSettingsKey
    · rw [if_pos hignored, if_pos hignored, hignored]
      unfold appendedEntries
      cases helements : ignoredElements fields with
      | none =>
        have hnone : fields.lookup ignoredSettingsKey = none := by
          by_contra hfound
          exact harray hfound helements
        rw [hnone]
        rfl
      | some elements =>
        rw [ignoredElements_iff.mp helements]
        exact congrArg (fun merged => some (Value.array merged)) (mergeElements_managed elements)
    · rw [if_neg hignored, if_neg hignored]
      rfl

variable (hs : SortedMap.Sorted fields)
  (harray : fields.lookup ignoredSettingsKey ≠ none → ignoredElements fields ≠ none)

include hs harray

theorem ParsedObject.of_sorted : ParsedObject fields :=
  ⟨hs.countP_le_one overrideKey, hs.countP_le_one ignoredSettingsKey, harray⟩

theorem untouched_self : Untouched fields fields :=
  ⟨.of_sorted hs harray, rfl, rfl, fun _ _ => Iff.rfl⟩

/-- The upgraded sidecar is the one that stands for the document. -/
theorem readSettingsState_merged :
    readSettingsState (.merged false (.object fields)) = some (recordOf (some fields)) := by
  have hlist : (fields.lookup ignoredSettingsKey).bind Value.asArray = ignoredElements fields := by
    unfold ignoredElements
    split
    next elements helements =>
      rw [helements]
      rfl
    next hother =>
      cases hlookup : fields.lookup ignoredSettingsKey with
      | none => rfl
      | some value =>
        obtain ⟨elements, helements⟩ := Option.ne_none_iff_exists'.mp (harray (by simp [hlookup]))
        exact absurd (ignoredElements_iff.mp helements) (hother elements)
  have hcreated : (fields.lookup ignoredSettingsKey).isNone = (ignoredElements fields).isNone := by
    rw [Bool.eq_iff_iff, Option.isNone_iff_eq_none, Option.isNone_iff_eq_none]
    exact (ParsedObject.of_sorted hs harray).ignored_none.symm
  simp only [readSettingsState, Value.get_object, hlist, hcreated]
  rfl

omit hs in
theorem earlierMerged_manages (hmerged : SortedMap.Sorted (earlierMerged url fields)) :
    Manages (some fields) (earlierMerged url fields) := by
  have hlookup := lookup_earlierMerged url harray
  have hignored : ignoredElements (earlierMerged url fields) =
      some ((ignoredElements fields).getD [] ++ (appendedEntries fields).map .string) := by
    rw [ignoredElements_iff, hlookup, if_neg (Ne.symm overrideKey_ne), if_pos rfl]
  exact ⟨.of_sorted hmerged fun _ => by simp [hignored], fun _ => by simp [hlookup], fun _ => by simp [hignored],
    fun entry hentry _ => ⟨_, hignored, managed_mem_edited hentry fields⟩⟩

/-- Without what is managed, the merged settings are those of before. -/
theorem restoredFrom_earlierMerged (hmerged : SortedMap.Sorted (earlierMerged url fields)) :
    restoredFrom (some fields) (earlierMerged url fields) = fields := by
  have hlookup := lookup_earlierMerged url harray
  have hself := (untouched_self hs harray).restored
  refine (hmerged.filterMap_sorted fun _ _ => restoredProperty_key).ext_lookup hs fun key => ?_
  have hkey : (restoredFrom (some fields) fields).lookup key = fields.lookup key := by rw [hself]
  change (restoredFrom (some fields) (earlierMerged url fields)).lookup key = fields.lookup key
  rw [lookup_restoredFrom hs] at hkey
  rw [lookup_restoredFrom hmerged, hlookup]
  by_cases hoverride : key = overrideKey
  · subst hoverride
    have hvalue : ∀ restore : Option Value, (restore.map fun value => (overrideKey, value)).map Prod.snd = restore := by
      intro restore
      cases restore <;> rfl
    rw [if_pos rfl, Option.bind_some, restoredProperty, if_pos rfl, hvalue]
    rfl
  · rw [if_neg hoverride]
    by_cases hignored : key = ignoredSettingsKey
    · subst hignored
      have happended : ∀ entry ∈ appendedEntries fields, entry ∈ missingEntries (some fields) := by
        rw [(untouched_self hs harray).appended]
        exact fun _ h => h
      rw [if_pos rfl, Option.bind_some, restoredProperty_appended happended]
      cases helements : ignoredElements fields with
      | some elements =>
        rw [ignoredElements_iff.mp helements] at hkey ⊢
        exact hkey
      | none =>
        have hnone := (ParsedObject.of_sorted hs harray).ignored_none.mp helements
        have hlist : (ignoredIn (some fields)).isNone = true := by simp [ignoredIn, helements]
        rw [hnone, hlist]
        simp [restoredProperty, Ne.symm overrideKey_ne]
    · rw [if_neg hignored]
      have hsome : ∀ value, restoredProperty (overrideIn (some fields)) (missingEntries (some fields))
          (ignoredIn (some fields)).isNone (key, value) = some (key, value) := by
        intro value
        rw [restoredProperty, if_neg hoverride, if_neg hignored]
      simp [hsome]

end

end AgentDesktop
