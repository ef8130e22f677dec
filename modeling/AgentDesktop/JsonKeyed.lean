import AgentDesktop.JsonMergeDocument

namespace AgentDesktop

/-- The elements of a keyed array; none where the document does not have it. -/
def elementsOf (keyed : KeyedArray) (document : Value) : List Value :=
  (keyedArray document keyed).getD []

/-- What a document holds where the keyed array belongs. -/
def fieldOf (keyed : KeyedArray) (document : Value) : Option Value :=
  if keyed.field = "" then some document else document.get keyed.field

def arrayOf (v : Option Value) : List Value :=
  (v.bind Value.asArray).getD []

/-- An object or, for documents that are arrays, an array. -/
def Value.rooted (array : Bool) (v : Value) : Bool :=
  if array then v.isArray else v.isObject

theorem elementsOf_eq (keyed : KeyedArray) (document : Value) :
    elementsOf keyed document = arrayOf (fieldOf keyed document) := by
  unfold elementsOf arrayOf fieldOf keyedArray
  split <;> rfl

variable {keyed : KeyedArray}

theorem fieldOf_root (h : keyed.field = "") (document : Value) :
    fieldOf keyed document = some document := by
  simp [fieldOf, h]

theorem fieldOf_field (h : keyed.field ≠ "") (document : Value) :
    fieldOf keyed document = document.get keyed.field := by
  simp [fieldOf, h]

theorem get_of_isArray {v : Value} (h : v.isArray = true) (key : String) : v.get key = none := by
  cases v with
  | array elements => rfl
  | _ => cases h

variable {array : Bool}

theorem rooted_cases {v : Value} (h : v.rooted array = true) :
    (array = true ∧ ∃ elements, v = .array elements) ∨ (array = false ∧ ∃ fields, v = .object fields) := by
  cases array with
  | true =>
    cases v with
    | array elements => exact Or.inl ⟨rfl, elements, rfl⟩
    | _ => cases h
  | false =>
    cases v with
    | object fields => exact Or.inr ⟨rfl, fields, rfl⟩
    | _ => cases h

theorem sameShape_of_rooted {a b : Value} (ha : a.rooted array = true) (hb : b.rooted array = true) :
    sameShape a b = true := by
  rcases rooted_cases ha with ⟨rfl, elements, rfl⟩ | ⟨rfl, fields, rfl⟩
  · obtain ⟨other, rfl⟩ : ∃ other, b = .array other := by simpa using rooted_cases hb
    rfl
  · obtain ⟨other, rfl⟩ : ∃ other, b = .object other := by simpa using rooted_cases hb
    rfl

theorem emptyRoot_rooted {managed : Value} (h : managed.rooted array = true) :
    (emptyRoot managed).rooted array = true := by
  rcases rooted_cases h with ⟨rfl, elements, rfl⟩ | ⟨rfl, fields, rfl⟩ <;> rfl

theorem emptyRoot_field {managed : Value} (hroot : managed.rooted array = true)
    (h : isNoneOr (fieldOf keyed managed) Value.isArray = true) :
    isNoneOr (fieldOf keyed (emptyRoot managed)) Value.isArray = true ∧ elementsOf keyed (emptyRoot managed) = [] := by
  rw [elementsOf_eq]
  by_cases hfield : keyed.field = ""
  · rw [fieldOf_root hfield] at h ⊢
    cases managed with
    | array elements => exact ⟨rfl, rfl⟩
    | _ => cases h
  · rw [fieldOf_field hfield]
    rcases rooted_cases hroot with ⟨rfl, elements, rfl⟩ | ⟨rfl, fields, rfl⟩ <;> exact ⟨rfl, rfl⟩

section Rollback

theorem filter_foldl_erase {p : Value → Bool} {removed : List Value} (h : ∀ v ∈ removed, p v = false)
    (elements : List Value) : (removed.foldl List.erase elements).filter p = elements.filter p := by
  induction removed generalizing elements with
  | nil => rfl
  | cons value rest ih =>
    have hvalue : value ∉ elements.filter p := by simp [h value]
    rw [List.foldl_cons, ih fun v hv => h v (List.mem_cons_of_mem _ hv), ← List.erase_filter,
      List.erase_of_not_mem hvalue]

/-- Rolling back an array that grew by `managed` only takes out elements of `managed`. -/
theorem rollbackElements_filter {p : Value → Bool} {managed : List Value} (h : ∀ v ∈ managed, p v = false)
    (current before : List Value) :
    (rollbackElements current before (before ++ managed)).filter p = current.filter p := by
  rw [rollbackElements, if_pos (List.prefix_append before managed), rollbackAdded]
  refine filter_foldl_erase (fun v hv => h v ?_) current
  obtain ⟨hmem, hnot⟩ := List.mem_filter.mp hv
  exact (List.mem_append.mp hmem).resolve_left (of_decide_eq_true hnot)

theorem rollbackValue_filter {p : Value → Bool} {managed : List Value} (h : ∀ v ∈ managed, p v = false)
    {current before after : Option Value} (hc : isNoneOr current Value.isArray = true)
    (hb : isNoneOr before Value.isArray = true) (ha : isNoneOr after Value.isArray = true)
    (grown : arrayOf after = arrayOf before ++ managed) :
    (arrayOf (rollbackValue current before after)).filter p = (arrayOf current).filter p ∧
      isNoneOr (rollbackValue current before after) Value.isArray = true := by
  have hmanaged : managed.filter p = [] := List.filter_eq_nil_iff.mpr fun v hv => by simp [h v hv]
  unfold rollbackValue
  split
  next heq =>
    rw [heq, grown, List.filter_append, hmanaged, List.append_nil]
    exact ⟨rfl, hb⟩
  next =>
    split
    next => exact ⟨rfl, hc⟩
    next =>
      cases current with
      | none => exact ⟨rfl, rfl⟩
      | some v =>
        cases v with
        | array elements =>
          rw [Option.map_some, rollbackPresent, hb, ha]
          change (rollbackElements elements (arrayOf before) (arrayOf after)).filter p = _ ∧ _
          rw [grown]
          exact ⟨rollbackElements_filter h elements (arrayOf before), rfl⟩
        | _ => cases hc

variable {array : Bool} {current before after : Value}

theorem rollbackPresent_rooted (hc : current.rooted array = true) (b a : Option Value) :
    (rollbackPresent b a current).rooted array = true := by
  rcases rooted_cases hc with ⟨rfl, elements, rfl⟩ | ⟨rfl, fields, rfl⟩
  · rw [rollbackPresent]
    split <;> rfl
  · rw [rollbackPresent]
    split <;> rfl

theorem rollbackOverlay_rooted (hc : current.rooted array = true) (hb : before.rooted array = true) :
    (rollbackOverlay current before after).rooted array = true := by
  rw [rollbackOverlay_eq]
  split
  next => exact hb
  next =>
    split
    next => exact hc
    next => exact rollbackPresent_rooted hc _ _

theorem rollbackOverlay_get (hc : current.rooted array = true) (hb : before.rooted array = true)
    (ha : after.rooted array = true) (key : String) :
    (rollbackOverlay current before after).get key =
      rollbackValue (current.get key) (before.get key) (after.get key) := by
  have hroot : (rollbackOverlay current before after).rooted array = true := rollbackOverlay_rooted hc hb
  cases array with
  | true =>
    rw [get_of_isArray hroot, get_of_isArray hc, get_of_isArray hb, get_of_isArray ha]
    rfl
  | false =>
    rw [rollbackOverlay_eq]
    split
    next heq => simp [heq, rollbackValue]
    next =>
      split
      next heq =>
        rw [heq, rollbackValue]
        split
        next h => exact h
        next => simp
      next =>
        cases current with
        | object fields => exact rollbackPresent_get key hb ha
        | _ => cases hc

theorem fieldOf_rollback (keyed : KeyedArray) (hc : current.rooted array = true) (hb : before.rooted array = true)
    (ha : after.rooted array = true) :
    fieldOf keyed (rollbackOverlay current before after) =
      rollbackValue (fieldOf keyed current) (fieldOf keyed before) (fieldOf keyed after) := by
  by_cases hfield : keyed.field = ""
  · simp only [fieldOf_root hfield, rollbackValue_some]
  · simp only [fieldOf_field hfield]
    exact rollbackOverlay_get hc hb ha keyed.field

end Rollback

section Modify

def Value.onArray (f : List Value → List Value) : Value → Value
  | .array elements => .array (f elements)
  | v => v

variable {document : Value}

theorem modifyKeyedArray_rooted (h : document.rooted array = true) (keyed : KeyedArray) (f : List Value → List Value) :
    (modifyKeyedArray keyed f document).rooted array = true := by
  unfold modifyKeyedArray
  split
  next =>
    split
    next => exact h
    next => exact h
  next =>
    split
    next =>
      split
      next => exact h
      next => exact h
    next => exact h

theorem modify_get {fields : Fields} {key : String} (h : isNoneOr (List.lookup key fields) Value.isArray = true)
    (hfield : keyed.field ≠ "") (f : List Value → List Value) :
    (modifyKeyedArray keyed f (.object fields)).get key =
      if key = keyed.field then (List.lookup key fields).map (Value.onArray f) else List.lookup key fields := by
  simp only [modifyKeyedArray, if_neg hfield]
  by_cases hsame : key = keyed.field
  · subst hsame
    rw [if_pos rfl]
    split
    next elements hl => simp [hl, Value.onArray]
    next hno =>
      cases hl : List.lookup keyed.field fields with
      | none => simp [hl]
      | some v =>
        rw [hl] at h
        cases v with
        | array elements => exact absurd hl (hno elements)
        | _ => cases h
  · rw [if_neg hsame]
    split
    next => rw [Value.get_object, SortedMap.lookup_insert_ne hsame]
    next => rfl

theorem fieldOf_modify (keyed other : KeyedArray) (f : List Value → List Value)
    (h : isNoneOr (fieldOf other document) Value.isArray = true) :
    fieldOf other (modifyKeyedArray keyed f document) =
      if other.field = keyed.field then (fieldOf other document).map (Value.onArray f)
      else fieldOf other document := by
  by_cases hother : other.field = ""
  · rw [fieldOf_root hother] at h
    rw [fieldOf_root hother, fieldOf_root hother, hother]
    cases document with
    | array elements =>
      by_cases hfield : keyed.field = ""
      · simp [modifyKeyedArray, hfield, Value.onArray]
      · simp [modifyKeyedArray, hfield, Ne.symm hfield]
    | _ => cases h
  · rw [fieldOf_field hother] at h
    rw [fieldOf_field hother, fieldOf_field hother]
    by_cases hfield : keyed.field = ""
    · rw [hfield, if_neg hother]
      cases document <;> simp [modifyKeyedArray, hfield, Value.get, Value.asObject]
    · cases document with
      | object fields => exact modify_get h hfield f
      | _ => simp [modifyKeyedArray, hfield, Value.get, Value.asObject]

theorem onArray_field {v : Option Value} (h : isNoneOr v Value.isArray = true) {f : List Value → List Value}
    (hf : f [] = []) : arrayOf (v.map (Value.onArray f)) = f (arrayOf v) ∧
      isNoneOr (v.map (Value.onArray f)) Value.isArray = true := by
  cases v with
  | none => exact ⟨hf.symm, rfl⟩
  | some v =>
    cases v with
    | array elements => exact ⟨rfl, rfl⟩
    | _ => cases h

/-- The element is one of a managed document, by its key. -/
def ownsKey (keyed other : KeyedArray) (managed element : Value) : Bool :=
  decide (other.field = keyed.field) && hasKeyIn keyed (keyedKeys keyed managed) element

theorem removeKeyed_rooted (h : document.rooted array = true) (keyed : KeyedArray) (managed : Value) :
    (removeKeyed keyed managed document).rooted array = true := by
  unfold removeKeyed
  simp only
  split
  next => exact h
  next => exact modifyKeyedArray_rooted h keyed _

theorem removeKeyed_elements (keyed other : KeyedArray) (managed : Value)
    (h : isNoneOr (fieldOf other document) Value.isArray = true) :
    elementsOf other (removeKeyed keyed managed document) =
        (elementsOf other document).filter (fun element => !ownsKey keyed other managed element) ∧
      isNoneOr (fieldOf other (removeKeyed keyed managed document)) Value.isArray = true := by
  simp only [elementsOf_eq, removeKeyed]
  split
  next hempty =>
    have hnone : ∀ element, ownsKey keyed other managed element = false := by
      intro element
      unfold ownsKey hasKeyIn
      rw [List.isEmpty_iff.mp hempty]
      split <;> simp
    exact ⟨by simp [hnone], h⟩
  next =>
    rw [fieldOf_modify keyed other _ h]
    split
    next hsame =>
      obtain ⟨harray, hfield⟩ := onArray_field h (f := List.filter fun element =>
        !hasKeyIn keyed (keyedKeys keyed managed) element) rfl
      exact ⟨by simp [harray, ownsKey, hsame], hfield⟩
    next hne => exact ⟨by simp [ownsKey, hne], h⟩

/-- Dropping an emptied array leaves the elements of every array. -/
theorem dropEmptied_elements (before : Value) (keyed other : KeyedArray) {settings : Value}
    (h : isNoneOr (fieldOf other settings) Value.isArray = true) :
    elementsOf other (dropEmptied before settings keyed) = elementsOf other settings ∧
      isNoneOr (fieldOf other (dropEmptied before settings keyed)) Value.isArray = true := by
  unfold dropEmptied
  split
  next hdrop =>
    split
    next fields =>
      simp only [elementsOf_eq]
      by_cases hother : other.field = ""
      · rw [fieldOf_root hother] at h
        cases h
      · rw [fieldOf_field hother] at h ⊢
        rw [fieldOf_field hother]
        rw [Value.get_object] at h ⊢
        rw [SortedMap.lookup_erase]
        split
        next hsame =>
          have hempty := hdrop.2.2
          rw [Value.get_object, ← hsame] at hempty
          exact ⟨by rw [Value.get_object, hempty]; rfl, rfl⟩
        next => exact ⟨rfl, h⟩
    next => exact ⟨rfl, h⟩
  next => exact ⟨rfl, h⟩

end Modify

end AgentDesktop
