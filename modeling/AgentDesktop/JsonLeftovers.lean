import AgentDesktop.JsonKeyedMerge
import AgentDesktop.JsonRemergeRuns
import Mathlib.Logic.Relation

namespace AgentDesktop

/-- One field or one element is deleted, somewhere in a document. -/
inductive DeletesOne : Value → Value → Prop where
  | field (front back : Fields) (entry : String × Value) :
      DeletesOne (.object (front ++ entry :: back)) (.object (front ++ back))
  | element (front back : List Value) (element : Value) :
      DeletesOne (.array (front ++ element :: back)) (.array (front ++ back))
  | inField (front back : Fields) (key : String) {value left : Value} (h : DeletesOne value left) :
      DeletesOne (.object (front ++ (key, value) :: back)) (.object (front ++ (key, left) :: back))
  | inElement (front back : List Value) {element left : Value} (h : DeletesOne element left) :
      DeletesOne (.array (front ++ element :: back)) (.array (front ++ left :: back))

/-- Any number of fields and elements is deleted. -/
def Deletes : Value → Value → Prop :=
  Relation.ReflTransGen DeletesOne

theorem Deletes.isObject {value left : Value} (h : Deletes value left) (object : value.isObject = true) :
    left.isObject = true := by
  induction h with
  | refl => exact object
  | tail _ step ih =>
    cases step with
    | field => rfl
    | inField => rfl
    | element => cases ih
    | inElement => cases ih

/-- Every root field that is left is as it was. -/
def rootFieldsWhole (managed left : Value) : Prop :=
  ∀ key value, left.get key = some value → managed.get key = some value

theorem rollbackValue_created (current after : Option Value) :
    rollbackValue current none after = none ↔ ∀ value, current = some value → after = some value := by
  unfold rollbackValue
  split
  next h => simp [h]
  next h =>
    split
    next hnone =>
      subst hnone
      simp [Option.eq_none_iff_forall_ne_some]
    next =>
      cases current with
      | none => simp
      | some value =>
        have hne : after ≠ some value := fun heq => h heq.symm
        simp [hne]

theorem isEmpty_iff_get {document : Json} (object : document.value.isObject = true) :
    document.isEmpty = true ↔ ∀ key, document.value.get key = none := by
  constructor
  · intro h key
    simp only [Json.isEmpty, Bool.or_eq_true, decide_eq_true_eq] at h
    rcases h with h | h <;> rw [h] <;> rfl
  · intro h
    simp [Json.isEmpty, eq_object_nil_of_get object h]

theorem rollback_get_created {left after : Json} (hleft : left.value.isObject = true)
    (hafter : after.value.isObject = true) (key : String) :
    (left.rollback Json.emptyObject after).value.get key = none ↔
      ∀ value, left.value.get key = some value → after.value.get key = some value := by
  change (rollbackOverlay left.value (.object []) after.value).get key = none ↔ _
  rw [rollbackOverlay_eq]
  split
  next h => simp [h, Value.get_object]
  next =>
    split
    next h =>
      rw [← h]
      simp [Option.eq_none_iff_forall_ne_some, Value.get_object]
    next =>
      obtain ⟨value, valid⟩ := left
      cases value with
      | object fields =>
        have hbefore : isNoneOr (some (.object [])) Value.isObject = true := rfl
        have hmanaged : isNoneOr (some after.value) Value.isObject = true := hafter
        rw [rollbackPresent_get key hbefore hmanaged]
        exact rollbackValue_created _ _
      | _ => cases hleft

/-- What a removal leaves of a file that a merge created is empty if its root fields are whole. -/
theorem rollback_created_isEmpty_iff {left after : Json} (hleft : left.value.isObject = true)
    (hafter : after.value.isObject = true) :
    (left.rollback Json.emptyObject after).isEmpty = true ↔ rootFieldsWhole after.value left.value := by
  rw [isEmpty_iff_get (rollback_isObject hleft rfl)]
  exact forall_congr' fun key => rollback_get_created hleft hafter key

/-- A merge into an empty document writes the managed one. -/
theorem Json.merge_emptyObject {managed : Json} (object : managed.value.isObject = true) :
    Json.merge {} Json.emptyObject managed = managed := by
  apply Json.ext
  obtain ⟨value, valid⟩ := managed
  cases value with
  | object fields =>
    have hempty : (Value.object []).valid = true := rfl
    have hmerged : (Value.object (mergeFields [] fields)).valid = true := mergeOverlay_valid hempty valid
    have hfields : mergeFields [] fields = fields := by
      refine (valid_object.mp hmerged).1.ext_lookup (valid_object.mp valid).1 fun key => ?_
      rw [mergeFields_lookup key (valid_object.mp valid).1]
      cases List.lookup key fields with
      | none => rfl
      | some value => exact congrArg some (mergeOverlay_null value)
    change Value.object (mergeFields [] fields) = .object fields
    rw [hfields]
  | _ => cases object

variable {β : Type}

theorem absent_iff_stored {codec : Codec β} {format : JsonFormat} {entry : Entry β} :
    entry = .absent ↔ (stored codec format entry).asDocument = .absent := by
  constructor
  · intro h
    rw [h]
    rfl
  · intro h
    unfold stored at h
    split at h
    next => rfl
    next => cases h
    next =>
      split at h
      next => cases h
      next => split at h <;> cases h

variable [DecidableEq β]

theorem created_view (codec : Codec β) {env : ApplyEnv β} (reliable : Reliable env) {target : MergeTarget}
    (hne : target.statePath ≠ target.path) (hoptions : target.options = {}) {world : World β}
    (nofile : world.files target.path = .absent) (fresh : world.files target.statePath = .absent) {managed : Json}
    (object : managed.value.isObject = true) :
    target.view codec (mergeInto codec env target false managed world).1.files =
      ⟨.document managed, .ok (some ⟨true, Json.emptyObject, managed⟩)⟩ := by
  have hview : target.view codec world.files = ⟨.absent, .ok none⟩ := by
    rw [MergeTarget.view, nofile, fresh]
    rfl
  have hstart : Unedited target.options .absent (target.view codec world.files) := hview ▸ .fresh
  have hunkeyed : target.options.keyedArrays = [] := by rw [hoptions]
  rw [mergeInto_view codec false managed world hne (Or.inl reliable), hstart.merge_eq hunkeyed rfl object, hoptions]
  simp [settledState, Stored.base, Json.merge_emptyObject object]

/-- After deletions by the user in a file that a merge created, and after any further merges,
the removal deletes the file only if what is left of the root fields is whole. -/
theorem created_file_removed_iff (codec : Codec β) (env : ApplyEnv β) (reliable : Reliable env) (path : Path)
    (description displayName : String) (world : World β) (nofile : world.files path = .absent)
    (fresh : world.files (statePath path) = .absent) (managed : Json) (object : managed.value.isObject = true)
    (entry : Entry β) (left : Json) (edited : stored codec .json entry = .document left)
    (deletes : Deletes managed.value left.value) (managedDocuments : List Json)
    (objects : ∀ managed ∈ managedDocuments, managed.value.isObject = true) :
    let target := userTarget path description displayName {}
    let created := (mergeInto codec env target false managed world).1
    let now := mergeAll codec env target managedDocuments (FileEvent.step codec env target created (.edit entry))
    stored codec .json (created.files path) = .document managed ∧
      ((removeFrom codec env target now).1.files path = .absent ↔ rootFieldsWhole managed.value left.value) := by
  intro target created now
  have hne : target.statePath ≠ target.path := statePath_ne path
  have hcreated : target.view codec created.files =
      ⟨.document managed, .ok (some ⟨true, Json.emptyObject, managed⟩)⟩ :=
    created_view codec reliable hne rfl nofile fresh object
  have hleft := deletes.isObject object
  have hedited : target.view codec (FileEvent.step codec env target created (.edit entry)).files =
      ⟨.document left, .ok (some ⟨true, Json.emptyObject, managed⟩)⟩ := by
    rw [FileEvent.edit_view hne, hcreated]
    exact congrArg (DocState.mk · _) edited
  have hstate : Edited target.options
      (target.view codec (FileEvent.step codec env target created (.edit entry)).files) := by
    rw [hedited]
    refine ⟨hleft, ⟨_, rfl⟩, ?_⟩
    intro state hs
    cases hs
    exact ⟨rfl, object, fun _ _ _ => rfl⟩
  have hrecorded : (target.view codec (FileEvent.step codec env target created (.edit entry)).files).sidecar =
      .ok (some ⟨true, Json.emptyObject, managed⟩) := congrArg DocState.sidecar hedited
  obtain ⟨hsame, -, -⟩ :=
    hstate.removals_agree hne rfl reliable hrecorded (Or.inl (by simp [target, userTarget])) objects
  have hshape := sameShape_of_objects hleft object
  have hremoved : ((target.view codec (FileEvent.step codec env target created (.edit entry)).files).remove
      target.options).file = if (left.rollback Json.emptyObject managed).isEmpty then .absent
        else .document (left.rollback Json.emptyObject managed) := by
    have hunkeyed : target.options.keyedArrays = [] := rfl
    rw [hedited]
    simp [DocState.remove, hshape, Json.removed_eq hunkeyed]
  have hfile := (removeFrom_file hne reliable (FileEvent.step codec env target created (.edit entry))).trans hremoved
  rw [hfile] at hsame
  refine ⟨congrArg DocState.file hcreated, ?_⟩
  rw [← rollback_created_isEmpty_iff hleft object]
  refine absent_iff_stored.trans ((Eq.congr_left hsame).trans ?_)
  by_cases hempty : (left.rollback Json.emptyObject managed).isEmpty = true
  · simp [hempty, Stored.asDocument]
  · simp [hempty, Stored.asDocument]

/-- A managed environment of two variables. -/
def managedEnv : Json := ⟨.object [("env", .object [("A", .string "1"), ("B", .string "2")])], by decide⟩

/-- The user has deleted one of the two variables. -/
def oneVariableLeft : Json := ⟨.object [("env", .object [("A", .string "1")])], by decide⟩

def noSettings : World Contents where
  files _ := .absent
  registry _ := .empty

/-- The managed environment and a model. -/
def managedModel : Json :=
  ⟨.object [("env", .object [("A", .string "1"), ("B", .string "2")]), ("model", .string "opus")], by decide⟩

/-- The user deletes the model, and the environment is left whole. -/
theorem created_file_removed_without_model :
    let target := userTarget ["settings.json"] "settings" "Test" {}
    let created := (mergeInto contentsCodec {} target false managedModel noSettings).1
    let edited := FileEvent.step contentsCodec {} target created (.edit (.file (.json managedEnv) 0o600))
    created.files ["settings.json"] = .file (.json managedModel) 0o644 ∧
      DeletesOne managedModel.value managedEnv.value ∧
      (removeFrom contentsCodec {} target (mergeAll contentsCodec {} target [managedProxy] edited)).1.files
        ["settings.json"] = .absent := by
  have hdeletes : DeletesOne managedModel.value managedEnv.value := .field [("env", _)] [] ("model", .string "opus")
  have hwhole : rootFieldsWhole managedModel.value managedEnv.value := by
    intro key value hleft
    by_cases hkey : key = "env"
    · subst hkey
      exact hleft
    · simp [managedEnv, Value.get, Value.asObject, List.lookup_cons, beq_eq_false_iff_ne.mpr hkey] at hleft
  refine ⟨rfl, hdeletes, ?_⟩
  exact (created_file_removed_iff contentsCodec {} reliable_default ["settings.json"] "settings" "Test" noSettings rfl
    rfl managedModel rfl (.file (.json managedEnv) 0o600) managedEnv rfl (.single hdeletes) [managedProxy]
    (by simp [managedProxy, Value.isObject])).2.mpr hwhole

/-- The user deletes a variable of the environment that the merge created. The removal takes
the other one back and leaves the emptied environment in the file. -/
theorem emptied_environment_stays :
    let target := userTarget ["settings.json"] "settings" "Test" {}
    let created := (mergeInto contentsCodec {} target false managedEnv noSettings).1
    let edited := FileEvent.step contentsCodec {} target created (.edit (.file (.json oneVariableLeft) 0o644))
    noSettings.files ["settings.json"] = .absent ∧
      created.files ["settings.json"] = .file (.json managedEnv) 0o644 ∧
      DeletesOne managedEnv.value oneVariableLeft.value ∧
      (removeFrom contentsCodec {} target edited).1.files ["settings.json"] =
        .file (.json ⟨.object [("env", .object [])], rfl⟩) 0o644 := by
  refine ⟨rfl, rfl, ?_, rfl⟩
  exact .inField [] [] "env" (.field [("A", .string "1")] [] ("B", .string "2"))

end AgentDesktop
