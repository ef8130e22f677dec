import AgentDesktop.JsonRemerge
import AgentDesktop.VsCodeLegacy
import AgentDesktop.VsCodeRoundTrip

namespace AgentDesktop

/-- Edits of a settings text, each with the sidecar that the one before it left. -/
def editAll (loopback : String → Bool) (urls : List String) (text : SettingsText) (state : SettingsState) :
    Except SettingsConflict (SettingsText × SettingsState) :=
  urls.foldlM (fun edited url => editSettings loopback (some edited.1) url (some edited.2)) (text, state)

/-- A removal leaves these properties, or no file. -/
def LeavesProperties (loopback : String → Bool) (text : SettingsText) (state : SettingsState)
    (left : Option (List Property)) : Prop :=
  ∀ ownUrl, ∃ removal, removeSettings loopback text (some state) ownUrl = .ok removal ∧
    removal.leaves text = left.map .object

section

variable {loopback : String → Bool} {base : Option (List Property)} {properties : List Property}

/-- What is left of an object is one. -/
theorem removeSettings_object {state : SettingsState} {ownUrl : Option String} {removal : Removal} {left : SettingsText}
    (h : removeSettings loopback (.object properties) (some state) ownUrl = .ok removal)
    (hleft : removal.leaves (.object properties) = some left) : ∃ others, left = .object others := by
  unfold removeSettings at h
  rw [if_neg (by simp)] at h
  split at h
  next => cases h
  next found hfound =>
    dsimp only at h
    split at h
    next =>
      cases h
      cases hleft
    next =>
      split at h
      next =>
        cases h
        cases hleft
        exact ⟨_, rfl⟩
      next =>
        cases h
        cases hleft
        exact ⟨_, rfl⟩

theorem Manages.leaves (h : Manages base properties) :
    LeavesProperties loopback (.object properties) (recordOf base) (leftOf base properties) := by
  intro ownUrl
  have hparsed := parseObject_iff.mpr h.parsed
  obtain ⟨removal, hremoval, hleaves⟩ := removeSettings_managed hparsed h ownUrl
  refine ⟨removal, hremoval, ?_⟩
  cases hkept : removal.leaves (.object properties) with
  | none =>
    rw [hkept, Option.map_none] at hleaves
    rw [Option.map_eq_none_iff.mp hleaves.symm]
    rfl
  | some text =>
    obtain ⟨others, rfl⟩ := removeSettings_object hremoval hkept
    rw [hkept, Option.map_some] at hleaves
    obtain ⟨left, hleft, hparse⟩ := Option.map_eq_some_iff.mp hleaves.symm
    rw [hleft, parseObject_eq hparse.symm]
    rfl

/-- Edits over a document leave its record, and what a removal restores. -/
theorem Manages.editAll (h : Manages base properties) (urls : List String) :
    ∃ others, editAll loopback urls (.object properties) (recordOf base) = .ok (.object others, recordOf base) ∧
      Manages base others ∧ restoredFrom base others = restoredFrom base properties := by
  induction urls generalizing properties with
  | nil => exact ⟨properties, rfl, h, rfl⟩
  | cons url urls ih =>
    obtain ⟨others, hrun, hmanages, hrestored⟩ := ih (h.edited url)
    refine ⟨others, ?_, hmanages, hrestored.trans (h.restored_edited url)⟩
    have hparsed := parseObject_iff.mpr h.parsed
    unfold AgentDesktop.editAll
    rw [List.foldlM_cons]
    dsimp only
    rw [editSettings_again hparsed h]
    exact hrun

/-- After any edits, a removal leaves what the record stands for. -/
theorem Manages.leaves_after_edits (h : Manages base properties) (urls : List String) :
    ∃ others, AgentDesktop.editAll loopback urls (.object properties) (recordOf base) =
        .ok (.object others, recordOf base) ∧
      LeavesProperties loopback (.object others) (recordOf base) (leftOf base properties) := by
  obtain ⟨others, hrun, hmanages, hrestored⟩ := h.editAll urls
  have hleft : leftOf base others = leftOf base properties := by
    unfold leftOf
    rw [hrestored]
  exact ⟨others, hrun, hleft ▸ hmanages.leaves⟩

end

variable {β : Type}

/-- The upgraded sidecar gives the settings of before back, after any number of edits with it. -/
def Migrates (codec : SettingsCodec β) (loopback : String → Bool) (path : Path) (world : World β)
    (original : Option SettingsText) : Prop :=
  ∃ contents bytes state, (world.files path).contents = some contents ∧
    (world.files (statePath path)).contents = some bytes ∧ codec.readState bytes = some state ∧
    ∀ urls, ∃ text, editAll loopback urls (codec.settingsText contents) state = .ok (text, state) ∧
      ∀ ownUrl, ∃ removal, removeSettings loopback text (some state) ownUrl = .ok removal ∧
        (removal.leaves text).map SettingsText.value = original.map SettingsText.value

/-- A removal with the record of a document gives it back. -/
theorem migrates_of_contents {codec : SettingsCodec β} {path : Path} {world : World β} {loopback : String → Bool}
    {base : Option (List Property)} {fields : Fields} {merged state : Json} {url : String}
    (hmerged : merged.value = .object (earlierMerged url fields))
    (hcontents : (world.files path).contents = some (codec.print merged))
    (hsidecar : (world.files (statePath path)).contents = some (codec.print state))
    (hstate : codec.readState (codec.print state) = some (recordOf base))
    (hmanages : Manages base (earlierMerged url fields)) (hleft : leftOf base (earlierMerged url fields) = base)
    {original : Option SettingsText}
    (horiginal : base.map (fun fields => SettingsText.value (.object fields)) = original.map SettingsText.value) :
    Migrates codec loopback path world original := by
  refine ⟨_, _, _, hcontents, hsidecar, hstate, fun urls => ?_⟩
  rw [codec.text_print merged _ hmerged]
  obtain ⟨others, hrun, hleaves⟩ := hmanages.leaves_after_edits urls
  refine ⟨.object others, hrun, fun ownUrl => ?_⟩
  obtain ⟨removal, hremoval, hkept⟩ := hleaves ownUrl
  refine ⟨removal, hremoval, ?_⟩
  rw [hkept, hleft, ← horiginal, Option.map_map]
  rfl

variable [DecidableEq β]

section

variable {codec : SettingsCodec β} {env : ApplyEnv β} (reliable : Reliable env) {path : Path}
  (description displayName url : String) {world : World β} (fresh : world.files (statePath path) = .absent)

include reliable fresh

/-- What the merge of earlier versions leaves in the file and in its sidecar. -/
theorem earlierSettings_merged {original : Stored} (hfile : stored codec.toCodec .json (world.files path) = original)
    (user : original.isUserFile = true) :
    let merged := (mergeInto codec.toCodec env (userTarget path description displayName {}) false
      (earlierSettings url) world).1
    (merged.files path).contents = some (codec.print (Json.merge {} original.base (earlierSettings url))) ∧
      (merged.files (statePath path)).contents = some (codec.print (stateJson
        ⟨decide (original = .absent), original.base, Json.merge {} original.base (earlierSettings url)⟩)) := by
  intro merged
  have hne := statePath_ne path
  have hview : (userTarget path description displayName {}).view codec.toCodec world.files = ⟨original, .ok none⟩ := by
    rw [userTarget_view_fresh codec.toCodec description displayName {} fresh, hfile]
  have hstart : Unedited {} original ((userTarget path description displayName {}).view codec.toCodec world.files) :=
    hview ▸ .fresh
  have hobject : (earlierSettings url).value.isObject = true := rfl
  have hmerge := hstart.merge_eq rfl user hobject
  have hmergeable : ((userTarget path description displayName {}).view codec.toCodec world.files).Mergeable
      (earlierSettings url) := by
    rw [hview]
    exact ⟨⟨none, rfl⟩, _, Stored.existing_object hobject user⟩
  obtain ⟨state, hstate, hcontents, -⟩ := mergeInto_contents codec.toCodec false (earlierSettings url) world hne
    reliable hmergeable
  have hsidecar := mergeInto_sidecar codec.toCodec false (earlierSettings url) world hne reliable hmergeable hstate
  have hsame : state = ⟨decide (original = .absent), original.base,
      Json.merge {} original.base (earlierSettings url)⟩ := by
    have hrecorded := congrArg DocState.sidecar (hstate.symm.trans hmerge)
    exact Option.some.inj (Except.ok.inj hrecorded)
  rw [hsame] at hcontents hsidecar
  exact ⟨hcontents, hsidecar⟩

theorem migrates_created (loopback : String → Bool) (hfile : world.files path = .absent) :
    Migrates codec loopback path (mergeInto codec.toCodec env (userTarget path description displayName {}) false
      (earlierSettings url) world).1 none := by
  have hstored : stored codec.toCodec .json (world.files path) = .absent := by
    rw [hfile]
    rfl
  obtain ⟨hcontents, hsidecar⟩ := earlierSettings_merged reliable description displayName url fresh hstored rfl
  have hvalue : Json.emptyObject.value = .object [] := rfl
  have hmerged := merge_earlierSettings hvalue url
  have hsorted := (valid_object.mp (hmerged ▸ (Json.merge {} Json.emptyObject (earlierSettings url)).valid)).1
  have harray : List.lookup ignoredSettingsKey ([] : Fields) ≠ none → ignoredElements [] ≠ none := by simp
  have hfields := earlierMerged_manages url harray hsorted
  have hmanages : Manages none (earlierMerged url []) :=
    ⟨hfields.parsed, hfields.override, hfields.ignored, hfields.entries⟩
  have hrestored : restoredFrom none (earlierMerged url []) = [] :=
    restoredFrom_earlierMerged url List.Pairwise.nil harray hsorted
  refine migrates_of_contents hmerged hcontents hsidecar (readState_stateJson codec _) hmanages ?_ rfl
  rw [leftOf, hrestored]
  rfl

theorem migrates_merged (loopback : String → Bool) {contents : β} {mode : UInt32} {properties : List Property}
    {document : Json} (hfile : world.files path = .file contents mode)
    (htext : codec.settingsText contents = .object properties)
    (hparsed : parseObject (.object properties) = .ok properties)
    (hstored : stored codec.toCodec .json (world.files path) = .document document) :
    Migrates codec loopback path (mergeInto codec.toCodec env (userTarget path description displayName {}) false
      (earlierSettings url) world).1 (some (.object properties)) := by
  obtain ⟨found, _, hentry, hparse⟩ := stored_document hstored
  cases hfile.symm.trans hentry
  have hvalue := codec.parse_text contents properties document htext hparse
  have hobject : document.value.isObject = true := by
    rw [hvalue]
    rfl
  have hs := (BTreeMap.collect properties).sorted
  have hproperties := parseObject_iff.mp hparsed
  have hlookup := BTreeMap.lookup_collect hproperties.ignored
  have harray : List.lookup ignoredSettingsKey (BTreeMap.collect properties).entries ≠ none →
      ignoredElements (BTreeMap.collect properties).entries ≠ none := by
    rw [hlookup, ignoredElements_congr hlookup]
    exact hproperties.array
  obtain ⟨hcontents, hsidecar⟩ := earlierSettings_merged reliable description displayName url fresh hstored hobject
  have hmerged := merge_earlierSettings hvalue url
  have hsorted := (valid_object.mp (hmerged ▸ (Json.merge {} document (earlierSettings url)).valid)).1
  have hstate : codec.readState (codec.print (stateJson ⟨decide (Stored.document document = .absent), document,
      Json.merge {} document (earlierSettings url)⟩)) =
        some (recordOf (some (BTreeMap.collect properties).entries)) := by
    rw [readState_stateJson, hvalue]
    exact readSettingsState_merged hs harray
  refine migrates_of_contents hmerged hcontents hsidecar hstate (earlierMerged_manages url harray hsorted) ?_ ?_
  · rw [leftOf, restoredFrom_earlierMerged url hs harray hsorted]
    rfl
  · simp [SettingsText.value, BTreeMap.collect_sorted hs]

end

/-- The settings that earlier versions merged go away as if they had been edited in: with the
upgraded sidecar the removal gives back the value of the document, or deletes the file. -/
theorem old_sidecars_migrated (codec : SettingsCodec β) (loopback : String → Bool) (env : ApplyEnv β)
    (reliable : Reliable env) (path : Path) (description displayName url : String) (world : World β)
    (fresh : world.files (statePath path) = .absent) :
    let merged := (mergeInto codec.toCodec env (userTarget path description displayName {}) false
      (earlierSettings url) world).1
    (world.files path = .absent → Migrates codec loopback path merged none) ∧
    ∀ contents mode properties document, world.files path = .file contents mode →
      codec.settingsText contents = .object properties → parseObject (.object properties) = .ok properties →
      stored codec.toCodec .json (world.files path) = .document document →
      Migrates codec loopback path merged (some (.object properties)) := by
  intro merged
  constructor
  · intro hfile
    exact migrates_created reliable description displayName url fresh loopback hfile
  · intro contents mode properties document hfile htext hparsed hstored
    exact migrates_merged reliable description displayName url fresh loopback hfile htext hparsed hstored

/-- File contents as the value that they were printed from, or as the properties in their order. -/
inductive PlainContents where
  | printed (document : Json)
  | typed (properties : List Property)
  deriving DecidableEq

def PlainContents.parse : PlainContents → Option Json
  | .printed document => some document
  | .typed properties =>
    if h : (Value.object (BTreeMap.collect properties).entries).valid = true then some ⟨_, h⟩ else none

def PlainContents.settingsText : PlainContents → SettingsText
  | .printed document =>
    match document.value with
    | .object fields => .object fields
    | _ => .notObject
  | .typed properties => .object properties

def plainCodec : SettingsCodec PlainContents where
  blank _ := false
  parse _ := PlainContents.parse
  print := .printed
  parse_print _ _ := rfl
  print_not_blank _ := rfl
  settingsText := PlainContents.settingsText
  text_print document fields h := by simp [PlainContents.settingsText, h]
  parse_text contents properties document htext hparse := by
    cases contents with
    | printed found =>
      cases hparse
      dsimp only [PlainContents.settingsText] at htext
      split at htext
      next fields hfields =>
        cases htext
        have hsorted := (valid_object.mp (hfields ▸ document.valid)).1
        rw [hfields, BTreeMap.collect_sorted hsorted]
      next => cases htext
    | typed others =>
      cases htext
      dsimp only [PlainContents.parse] at hparse
      split at hparse
      next =>
        cases hparse
        rfl
      next => cases hparse

/-- Settings whose ignore list already holds one of the managed entries. -/
def ignoringSettings : List Property :=
  [("zoom", .number (.posInt 2)), (ignoredSettingsKey, .array [.string "theme", .string overrideKey]),
    (overrideKey, .null)]

def ignoringWorld : World PlainContents where
  files path := if path = ["settings.json"] then .file (.typed ignoringSettings) 0o644 else .absent
  registry _ := .empty

theorem old_sidecars_migrated_ignoring :
    Migrates plainCodec loopbackAddress ["settings.json"]
      (mergeInto plainCodec.toCodec {} (userTarget ["settings.json"] "settings" "VS Code" {}) false
        (earlierSettings "http://127.0.0.1:4100/vscode-copilot-capi/p") ignoringWorld).1
      (some (.object ignoringSettings)) :=
  (old_sidecars_migrated plainCodec loopbackAddress {} reliable_default ["settings.json"] "settings" "VS Code"
    "http://127.0.0.1:4100/vscode-copilot-capi/p" ignoringWorld rfl).2 (.typed ignoringSettings) 0o644 ignoringSettings
    ⟨.object (BTreeMap.collect ignoringSettings).entries, by decide⟩ rfl rfl (by decide) (by decide)

end AgentDesktop
