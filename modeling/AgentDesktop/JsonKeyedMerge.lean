import AgentDesktop.JsonKeyedOwned

namespace AgentDesktop

variable {array : Bool}

section Merge

theorem mergeElements_append {base overlay : List Value} (distinct : overlay.Nodup)
    (disjoint : ∀ v ∈ overlay, v ∉ base) : mergeElements base overlay = base ++ overlay := by
  unfold mergeElements
  induction overlay generalizing base with
  | nil => simp
  | cons value rest ih =>
    have hd := List.nodup_cons.mp distinct
    have hpush : pushMissing base value = base ++ [value] := if_neg (disjoint value (by simp))
    rw [List.foldl_cons, hpush, ih hd.2, List.append_assoc, List.singleton_append]
    intro v hv hmem
    rcases List.mem_append.mp hmem with hb | hs
    · exact disjoint v (List.mem_cons_of_mem _ hv) hb
    · exact hd.1 (List.mem_singleton.mp hs ▸ hv)

/-- The merge of one field. -/
def mergedField (base overlay : Option Value) : Option Value :=
  match overlay with
  | none => base
  | some value => some (mergeOverlay (base.getD .null) value)

theorem mergeOverlay_null (value : Value) : mergeOverlay .null value = value := by
  cases value <;> rfl

theorem mergeFields_lookup (key : String) {overlay : Fields} (sorted : SortedMap.Sorted overlay) (base : Fields) :
    List.lookup key (mergeFields base overlay) = mergedField (List.lookup key base) (List.lookup key overlay) := by
  induction overlay generalizing base with
  | nil => rfl
  | cons entry rest ih =>
    obtain ⟨k, v⟩ := entry
    have hs := List.pairwise_cons.mp sorted
    rw [mergeFields, ih hs.2, SortedMap.lookup_cons_ite]
    split
    next heq =>
      subst heq
      rw [sorted.lookup_head_none, SortedMap.lookup_insert_self]
      rfl
    next hne => rw [SortedMap.lookup_insert_ne hne]

theorem mergedField_array {base : Option Value} {elements : List Value} (distinct : elements.Nodup)
    (disjoint : ∀ v ∈ elements, v ∉ arrayOf base) :
    mergedField base (some (.array elements)) = some (.array (arrayOf base ++ elements)) := by
  cases base with
  | none => rfl
  | some v =>
    cases v with
    | array old => exact congrArg (some ∘ Value.array) (mergeElements_append distinct disjoint)
    | _ => rfl

theorem mergedField_elements {base overlay : Option Value} (hb : isNoneOr base Value.isArray = true)
    (ho : isNoneOr overlay Value.isArray = true) (distinct : (arrayOf overlay).Nodup)
    (disjoint : ∀ v ∈ arrayOf overlay, v ∉ arrayOf base) :
    arrayOf (mergedField base overlay) = arrayOf base ++ arrayOf overlay ∧
      isNoneOr (mergedField base overlay) Value.isArray = true := by
  cases overlay with
  | none => exact ⟨(List.append_nil _).symm, hb⟩
  | some value =>
    cases value with
    | array elements =>
      have hmerged : mergedField base (some (.array elements)) = some (.array (arrayOf base ++ elements)) :=
        mergedField_array distinct disjoint
      rw [hmerged]
      exact ⟨rfl, rfl⟩
    | _ => cases ho

theorem fieldOf_mergeOverlay (keyed : KeyedArray) {base managed : Value} (hb : base.rooted array = true)
    (hm : managed.rooted array = true) (valid : managed.valid = true) :
    fieldOf keyed (mergeOverlay base managed) = mergedField (fieldOf keyed base) (fieldOf keyed managed) := by
  by_cases hfield : keyed.field = ""
  · simp only [fieldOf_root hfield]
    rfl
  · simp only [fieldOf_field hfield]
    rcases rooted_cases hm with ⟨rfl, elements, rfl⟩ | ⟨rfl, fields, rfl⟩
    · obtain ⟨other, rfl⟩ : ∃ other, base = .array other := by simpa using rooted_cases hb
      rfl
    · obtain ⟨other, rfl⟩ : ∃ other, base = .object other := by simpa using rooted_cases hb
      exact mergeFields_lookup keyed.field (valid_object.mp valid).1 other

theorem mergeOverlay_rooted (base : Value) {managed : Value} (hm : managed.rooted array = true) :
    (mergeOverlay base managed).rooted array = true := by
  rcases rooted_cases hm with ⟨rfl, elements, rfl⟩ | ⟨rfl, fields, rfl⟩ <;> cases base <;> rfl

end Merge

section Replace

/-- A replaced path is the whole document or goes through the keyed array. -/
def reaches (keyed : KeyedArray) (tokens : List String) : Bool :=
  decide (keyed.field = "") || decide (tokens.head? = none) || decide (tokens.head? = some keyed.field)

/-- No replaced path reaches a keyed array. -/
def MergeOptions.sparesKeyed (options : MergeOptions) : Bool :=
  options.replacePaths.all fun pointer => options.keyedArrays.all fun keyed =>
    match pointerTokens pointer with
    | some tokens => !reaches keyed tokens
    | none => true

variable {keyed : KeyedArray}

theorem assign_spared {tokens : List String} (h : reaches keyed tokens = false) (new v : Value) :
    fieldOf keyed (Value.assign new tokens v) = fieldOf keyed v ∧
      ∀ array, v.rooted array = true → (Value.assign new tokens v).rooted array = true := by
  simp only [reaches, Bool.or_eq_false_iff, decide_eq_false_iff_not] at h
  obtain ⟨⟨hfield, hnil⟩, htoken⟩ := h
  rw [fieldOf_field hfield, fieldOf_field hfield]
  cases tokens with
  | nil => exact absurd rfl hnil
  | cons token rest =>
    have hne : keyed.field ≠ token := fun heq => htoken (by rw [heq]; rfl)
    cases v with
    | object fields =>
      simp only [Value.assign]
      split
      next => exact ⟨SortedMap.lookup_insert_ne hne _ _, fun _ hr => hr⟩
      next => exact ⟨rfl, fun _ hr => hr⟩
    | array elements =>
      simp only [Value.assign]
      split
      next =>
        split
        next => exact ⟨rfl, fun _ hr => hr⟩
        next => exact ⟨rfl, fun _ hr => hr⟩
      next => exact ⟨rfl, fun _ hr => hr⟩
    | _ => exact ⟨rfl, fun _ hr => hr⟩

theorem nullOwned_spared (managed : Value) {pointer : String}
    (h : ∀ tokens, pointerTokens pointer = some tokens → reaches keyed tokens = false) (v : Value) :
    fieldOf keyed (nullOwned managed v pointer) = fieldOf keyed v ∧
      ∀ array, v.rooted array = true → (nullOwned managed v pointer).rooted array = true := by
  unfold nullOwned
  split
  next tokens ht =>
    split
    next => exact assign_spared (h tokens ht) .null v
    next => exact ⟨rfl, fun _ hr => hr⟩
  next => exact ⟨rfl, fun _ hr => hr⟩

theorem replaceOwned_spared (managed : Value) {pointers : List String}
    (h : ∀ pointer ∈ pointers, ∀ tokens, pointerTokens pointer = some tokens → reaches keyed tokens = false)
    (v : Value) : fieldOf keyed (replaceOwned managed pointers v) = fieldOf keyed v ∧
      ∀ array, v.rooted array = true → (replaceOwned managed pointers v).rooted array = true := by
  unfold replaceOwned
  induction pointers generalizing v with
  | nil => exact ⟨rfl, fun _ hr => hr⟩
  | cons pointer rest ih =>
    obtain ⟨hfield, hroot⟩ := nullOwned_spared managed (h pointer (by simp)) v
    obtain ⟨hrest, hresult⟩ := ih (fun other ho => h other (List.mem_cons_of_mem _ ho)) (nullOwned managed v pointer)
    exact ⟨hrest.trans hfield, fun array hr => hresult array (hroot array hr)⟩

theorem MergeOptions.sparesKeyed_spec {options : MergeOptions} (h : options.sparesKeyed = true)
    (hk : keyed ∈ options.keyedArrays) : ∀ pointer ∈ options.replacePaths, ∀ tokens,
      pointerTokens pointer = some tokens → reaches keyed tokens = false := by
  intro pointer hp tokens ht
  have hspares := List.all_eq_true.mp (List.all_eq_true.mp h pointer hp) keyed hk
  simpa [ht] using hspares

/-- Merging into a document free of the managed keys puts the managed elements at the end. -/
theorem mergeManaged_recorded {options : MergeOptions} (spares : options.sparesKeyed = true) {before managed : Value}
    (hb : Keyable options.keyedArrays array before) (hm : ManagedKeys options.keyedArrays array managed)
    (valid : managed.valid = true)
    (free : ∀ keyed ∈ options.keyedArrays, ∀ element ∈ elementsOf keyed before,
      ownedBy options.keyedArrays keyed managed element = false) :
    Recorded options.keyedArrays array before (mergeManaged options before managed) managed := by
  have hfield : ∀ keyed ∈ options.keyedArrays,
      elementsOf keyed (mergeManaged options before managed) =
          elementsOf keyed before ++ elementsOf keyed managed ∧
        isNoneOr (fieldOf keyed (mergeManaged options before managed)) Value.isArray = true := by
    intro keyed hk
    obtain ⟨hsame, hroot⟩ := replaceOwned_spared managed (options.sparesKeyed_spec spares hk) before
    have hnodup := hm.nodup hk
    have hdisjoint : ∀ element ∈ elementsOf keyed managed, element ∉ elementsOf keyed before := by
      intro element he hold
      have howned := hm.owned hk he
      rw [free keyed hk element hold] at howned
      cases howned
    simp only [elementsOf_eq] at hnodup hdisjoint ⊢
    rw [mergeManaged, fieldOf_mergeOverlay keyed (hroot array hb.root) hm.root valid, hsame]
    exact mergedField_elements (hb.field keyed hk) (hm.field keyed hk) hnodup hdisjoint
  exact ⟨hb, ⟨mergeOverlay_rooted _ hm.root, fun keyed hk => (hfield keyed hk).2⟩,
    fun keyed hk => (hfield keyed hk).1, free⟩

end Replace

end AgentDesktop
