import AgentDesktop.JsonApplied

namespace AgentDesktop

def Json.emptyObject : Json := ⟨.object [], rfl⟩

/-- The user's own document in a file; an absent or blank file has none of it. -/
def Stored.base : Stored → Json
  | .document found => found
  | _ => Json.emptyObject

/-- A file a user can have: none, a blank one, or one with an object. -/
def Stored.isUserFile : Stored → Bool
  | .absent => true
  | .blank => true
  | .document found => found.value.isObject
  | .unusable => false

/-- The file at the level of values: a blank one counts as an empty object. -/
def Stored.asDocument : Stored → Stored
  | .blank => .document Json.emptyObject
  | file => file

theorem sameShape_of_objects {a b : Value} (ha : a.isObject = true) (hb : b.isObject = true) :
    sameShape a b = true := by
  cases a <;> simp_all [Value.isObject]
  cases b <;> simp_all [sameShape, Value.isObject, Value.isArray]

theorem mergeOverlay_isObject {base overlay : Value} (h : overlay.isObject = true) :
    (mergeOverlay base overlay).isObject = true := by
  cases overlay <;> simp_all [Value.isObject]
  cases base <;> simp [mergeOverlay]

variable {managed : Json}

theorem Json.merge_isObject (options : MergeOptions) (before : Json) (h : managed.value.isObject = true) :
    (Json.merge options before managed).value.isObject = true :=
  mergeOverlay_isObject h

theorem Json.emptyRoot_object (h : managed.value.isObject = true) :
    managed.emptyRoot = Json.emptyObject := by
  have hvalue : AgentDesktop.emptyRoot managed.value = .object [] := by
    obtain ⟨value, valid⟩ := managed
    cases value <;> simp_all [Value.isObject, AgentDesktop.emptyRoot, Value.isArray]
  exact Json.ext hvalue

theorem Stored.existing_object (h : managed.value.isObject = true) {file : Stored} (hf : file.isUserFile = true) :
    file.existing managed = some file.base := by
  cases file with
  | absent => rw [Stored.existing, Json.emptyRoot_object h]; rfl
  | blank => rw [Stored.existing, Json.emptyRoot_object h]; rfl
  | document found => rw [Stored.existing, if_pos (sameShape_of_objects hf h)]; rfl
  | unusable => cases hf

section

variable {options : MergeOptions} (unkeyed : options.keyedArrays = [])

include unkeyed

theorem Json.user_fresh (managed combined : Json) : Json.user options none false managed combined = combined := by
  apply Json.ext
  simp [Json.user, userDocument, unkeyed, rolledBack]

theorem Json.user_previous (state : MergeState) (legacyOwned : Bool) (managed combined : Json) :
    Json.user options (some state) legacyOwned managed combined = combined.rollback state.before state.after := by
  apply Json.ext
  simp [Json.user, userDocument, unkeyed, rolledBack, Json.rollback]

theorem Json.removed_eq (before after current : Json) :
    Json.removed options before after current = current.rollback before after := by
  apply Json.ext
  simp [Json.removed, removedDocument, unkeyed, Json.rollback]

end

theorem Json.rollback_after (before after : Json) : after.rollback before after = before := by
  apply Json.ext
  simp [Json.rollback]

/-- A file as the last merge into `before` left it. -/
def settledState (options : MergeOptions) (created : Bool) (before managed : Json) : DocState :=
  let after := Json.merge options before managed
  ⟨.document after, .ok (some ⟨created, before, after⟩)⟩

section

variable {options : MergeOptions} (unkeyed : options.keyedArrays = []) (created : Bool) (before : Json)
  {previous managed : Json}

include unkeyed

/-- Merging again replaces what the last merge put there. -/
theorem settledState_merge (hprevious : previous.value.isObject = true) (object : managed.value.isObject = true) :
    (settledState options created before previous).merge options false managed =
      settledState options created before managed := by
  have hfile : (Stored.document (Json.merge options before previous)).isUserFile = true :=
    Json.merge_isObject options before hprevious
  simp only [settledState, DocState.merge, Stored.existing_object object hfile]
  simp [Json.user_previous unkeyed, Stored.base, Json.rollback_after]

/-- The removal leaves what was there before the merge. -/
theorem settledState_remove :
    (settledState options created before previous).remove options =
      ⟨if created && before.isEmpty then .absent else .document before, .ok none⟩ := by
  have hshape : sameShape (Json.merge options before previous).value
      (Json.merge options before previous).value = true := by
    simp [sameShape]
  simp only [settledState, DocState.remove, hshape, if_true, Json.removed_eq unkeyed, Json.rollback_after]

theorem settledState_mergeAll {managedDocuments : List Json} (hprevious : previous.value.isObject = true)
    (objects : ∀ managed ∈ managedDocuments, managed.value.isObject = true) :
    ∃ last, last.value.isObject = true ∧
      managedDocuments.foldl (fun s managed => DocState.merge options false managed s)
        (settledState options created before previous) = settledState options created before last := by
  induction managedDocuments generalizing previous with
  | nil => exact ⟨previous, hprevious, rfl⟩
  | cons managed rest ih =>
    have object := objects managed (by simp)
    rw [List.foldl_cons, settledState_merge unkeyed created before hprevious object]
    exact ih object fun other ho => objects other (List.mem_cons_of_mem _ ho)

end

/-- The states of a run of merges without user edits. -/
inductive Unedited (options : MergeOptions) (original : Stored) : DocState → Prop where
  | fresh : Unedited options original ⟨original, .ok none⟩
  | merged (managed : Json) (object : managed.value.isObject = true) :
      Unedited options original (settledState options (decide (original = .absent)) original.base managed)

namespace Unedited

variable {options : MergeOptions} {original : Stored} {s : DocState}

/-- A merge in such a run depends on the original document and on what it merges only. -/
theorem merge_eq (h : Unedited options original s) (unkeyed : options.keyedArrays = [])
    (user : original.isUserFile = true) (object : managed.value.isObject = true) :
    s.merge options false managed = settledState options (decide (original = .absent)) original.base managed := by
  cases h with
  | fresh =>
    simp [DocState.merge, Stored.existing_object object user, Json.user_fresh unkeyed, settledState]
  | merged previous hprevious => exact settledState_merge unkeyed _ _ hprevious object

/-- The removal gives the original document back. -/
theorem remove_file (h : Unedited options original s) (unkeyed : options.keyedArrays = [])
    (user : original.isUserFile = true) :
    (s.remove options).file.asDocument = original.asDocument ∧ (s.remove options).sidecar = .ok none ∧
      (original ≠ .blank → (s.remove options).file = original) := by
  cases h with
  | fresh => exact ⟨rfl, rfl, fun _ => rfl⟩
  | merged managed object =>
    rw [settledState_remove unkeyed]
    cases original with
    | absent => exact ⟨rfl, rfl, fun _ => rfl⟩
    | blank => exact ⟨rfl, rfl, fun hne => absurd rfl hne⟩
    | document found => exact ⟨rfl, rfl, fun _ => rfl⟩
    | unusable => cases user

end Unedited

end AgentDesktop
