import AgentDesktop.JsonKeyedMerge

namespace AgentDesktop

/-- A path at which the value holds no object, or an empty one. -/
def Value.isLeafPath (v : Value) (path : List String) : Prop :=
  ∃ leaf, v.at? path = some leaf ∧ (leaf.isObject = false ∨ leaf = .object [])

/-- The laws of a merge of an overlay into a base. -/
structure OverlayLaws (base overlay merged : Value) : Prop where
  again : mergeOverlay merged overlay = merged
  scalars : ∀ path value, overlay.at? path = some value → value.isContainer = false → merged.at? path = some value
  elements : ∀ path elements, overlay.at? path = some (.array elements) →
    ∃ all, merged.at? path = some (.array all) ∧ ∀ value ∈ elements, value ∈ all
  frame : ∀ path value, base.at? path = some value →
    (∀ leaf, overlay.isLeafPath leaf → ¬ leaf <+: path ∧ ¬ path <+: leaf) → merged.at? path = some value
  arrays : ∀ path old new, base.at? path = some (.array old) → overlay.at? path = some (.array new) →
    merged.at? path = some (.array (old ++ missingElements old new))
  replaced : ∀ path old new, base.at? path = some old → overlay.at? path = some new → new.isContainer = true →
    ¬ (old.isObject = new.isObject ∧ old.isArray = new.isArray) → merged.at? path = some new

section Elements

theorem mem_mergeElements {base overlay : List Value} {value : Value} (h : value ∈ overlay) :
    value ∈ mergeElements base overlay := by
  rw [mergeElements_eq, List.mem_append, mem_missingElements]
  by_cases hmem : value ∈ base
  · exact Or.inl hmem
  · exact Or.inr ⟨h, hmem⟩

theorem mergeElements_of_subset {base overlay : List Value} (h : ∀ value ∈ overlay, value ∈ base) :
    mergeElements base overlay = base := by
  have hnone : (overlay.filter fun value => decide (value ∉ base)) = [] :=
    List.filter_eq_nil_iff.mpr fun value hvalue => by simp [h value hvalue]
  rw [mergeElements_eq, missingElements, hnone, List.eraseDups_nil, List.append_nil]

end Elements

section Paths

variable {base overlay : Value}

/-- Below a key of the overlay the values are merged, where the base has none with a null. -/
theorem get_mergeOverlay {key : String} {child : Value} (valid : overlay.valid = true)
    (h : overlay.get key = some child) :
    (mergeOverlay base overlay).get key = some (mergeOverlay ((base.get key).getD .null) child) := by
  cases overlay with
  | object overlay =>
    cases base with
    | object base =>
      have hlookup := mergeFields_lookup key (valid_object.mp valid).1 base
      rw [Value.get_object] at h
      rw [mergeOverlay, Value.get_object, hlookup, h]
      rfl
    | _ =>
      change List.lookup key overlay = some (mergeOverlay .null child)
      rw [mergeOverlay_null]
      exact h
  | _ => cases h

theorem get_mergeOverlay_none {fields : Fields} {key : String} (valid : (Value.object fields).valid = true)
    (h : List.lookup key fields = none) (object : base.isObject = true) :
    (mergeOverlay base (.object fields)).get key = base.get key := by
  cases base with
  | object base =>
    have hlookup := mergeFields_lookup key (valid_object.mp valid).1 base
    rw [mergeOverlay, Value.get_object, hlookup, h]
    rfl
  | _ => cases object

theorem at?_null (path : List String) : ((Value.null).at? path).getD .null = .null := by
  cases path <;> rfl

/-- At every path of the overlay there are the values merged. -/
theorem at?_mergeOverlay {path : List String} {value : Value} (valid : overlay.valid = true)
    (h : overlay.at? path = some value) :
    (mergeOverlay base overlay).at? path = some (mergeOverlay ((base.at? path).getD .null) value) := by
  induction path generalizing base overlay with
  | nil =>
    cases h
    rfl
  | cons key rest ih =>
    obtain ⟨child, hchild, hrest⟩ := Option.bind_eq_some_iff.mp h
    have hbelow : (((base.get key).getD .null).at? rest).getD .null = (base.at? (key :: rest)).getD .null := by
      rw [Value.at?]
      cases base.get key with
      | none => exact at?_null rest
      | some old => rfl
    rw [Value.at?, get_mergeOverlay valid hchild, Option.bind_some, ih (get_valid valid hchild) hrest, hbelow]

/-- Every value has a leaf. -/
theorem exists_leafPath : ∀ v : Value, ∃ path, v.isLeafPath path
  | .object [] => ⟨[], _, rfl, Or.inr rfl⟩
  | .object ((key, v) :: rest) => by
    obtain ⟨path, leaf, hleaf, hends⟩ := exists_leafPath v
    refine ⟨key :: path, leaf, ?_, hends⟩
    rw [Value.at?, Value.get_object, List.lookup_cons_self, Option.bind_some, hleaf]
  | .array _ => ⟨[], _, rfl, Or.inl rfl⟩
  | .null => ⟨[], _, rfl, Or.inl rfl⟩
  | .bool _ => ⟨[], _, rfl, Or.inl rfl⟩
  | .number _ => ⟨[], _, rfl, Or.inl rfl⟩
  | .string _ => ⟨[], _, rfl, Or.inl rfl⟩

/-- A path apart from the leaves of the overlay keeps its value. -/
theorem mergeOverlay_frame {path : List String} {value : Value} (valid : overlay.valid = true)
    (h : base.at? path = some value)
    (apart : ∀ leaf, overlay.isLeafPath leaf → ¬ leaf <+: path ∧ ¬ path <+: leaf) :
    (mergeOverlay base overlay).at? path = some value := by
  induction path generalizing base overlay with
  | nil =>
    obtain ⟨leaf, hleaf⟩ := exists_leafPath overlay
    exact absurd List.nil_prefix (apart leaf hleaf).2
  | cons key rest ih =>
    obtain ⟨child, hchild, hrest⟩ := Option.bind_eq_some_iff.mp h
    have hroot : ¬ overlay.isLeafPath [] := fun hleaf => (apart [] hleaf).1 List.nil_prefix
    cases overlay with
    | object fields =>
      cases hlookup : List.lookup key fields with
      | none =>
        have hobject : base.isObject = true := by
          cases base with
          | object => rfl
          | _ => cases hchild
        rw [Value.at?, get_mergeOverlay_none valid hlookup hobject]
        exact h
      | some new =>
        have hnew : (Value.object fields).get key = some new := hlookup
        rw [Value.at?, get_mergeOverlay valid hnew, hchild, Option.bind_some]
        refine ih (get_valid valid hnew) hrest fun leaf hleaf => ?_
        obtain ⟨found, hfound, hends⟩ := hleaf
        have hbelow : (Value.object fields).isLeafPath (key :: leaf) := by
          refine ⟨found, ?_, hends⟩
          rw [Value.at?, hnew, Option.bind_some, hfound]
        obtain ⟨hover, hunder⟩ := apart (key :: leaf) hbelow
        rw [List.cons_prefix_cons] at hover hunder
        exact ⟨fun hsome => hover ⟨rfl, hsome⟩, fun hsome => hunder ⟨rfl, hsome⟩⟩
    | _ => exact absurd ⟨_, rfl, Or.inl rfl⟩ hroot

end Paths

/-- Fields that merge with each of the overlay's to themselves are left by the merge. -/
theorem mergeFields_fixed {fields overlay : Fields} (hf : (Value.object fields).valid = true)
    (ho : (Value.object overlay).valid = true)
    (h : ∀ entry ∈ overlay, ∃ v, List.lookup entry.1 fields = some v ∧ mergeOverlay v entry.2 = v) :
    mergeFields fields overlay = fields := by
  have hmerged := (valid_object.mp (mergeFields_valid hf (valid_object.mp ho).2)).1
  refine hmerged.ext_lookup (valid_object.mp hf).1 fun key => ?_
  rw [mergeFields_lookup key (valid_object.mp ho).1]
  cases hnew : List.lookup key overlay with
  | none => rfl
  | some new =>
    obtain ⟨v, hv, hsame⟩ := h (key, new) (SortedMap.lookup_mem hnew)
    rw [hv, mergedField, Option.getD_some, hsame]

mutual
/-- A second merge of the same overlay changes nothing. -/
theorem mergeOverlay_again : ∀ {base overlay : Value}, base.valid = true → overlay.valid = true →
    mergeOverlay (mergeOverlay base overlay) overlay = mergeOverlay base overlay
  | base, .object overlay, hb, ho => by
    have hvalid := valid_object.mp ho
    have hlookup : ∀ entry ∈ overlay, List.lookup entry.1 overlay = some entry.2 :=
      fun entry hentry => (BTreeMap.mem_entries_iff (m := ⟨overlay, hvalid.1⟩)).mp hentry
    cases base with
    | object base =>
      refine congrArg Value.object (mergeFields_fixed (mergeFields_valid hb hvalid.2) ho fun entry hentry => ?_)
      refine ⟨mergeOverlay ((List.lookup entry.1 base).getD .null) entry.2, ?_, ?_⟩
      · rw [mergeFields_lookup entry.1 hvalid.1, hlookup entry hentry]
        rfl
      · exact mergeFields_again hvalid.2 entry hentry (lookup_valid entry.1 hb)
    | _ =>
      refine congrArg Value.object (mergeFields_fixed ho ho fun entry hentry => ⟨entry.2, hlookup entry hentry, ?_⟩)
      have hnull := mergeFields_again hvalid.2 entry hentry (show (Value.null).valid = true from rfl)
      rwa [mergeOverlay_null] at hnull
  | base, .array overlay, hb, ho => by
    cases base with
    | array base =>
      exact congrArg Value.array (mergeElements_of_subset fun _ => mem_mergeElements)
    | _ => exact congrArg Value.array (mergeElements_of_subset fun _ hvalue => hvalue)
  | base, .null, _, _ => by cases base <;> rfl
  | base, .bool _, _, _ => by cases base <;> rfl
  | base, .number _, _, _ => by cases base <;> rfl
  | base, .string _, _, _ => by cases base <;> rfl
theorem mergeFields_again : ∀ {overlay : Fields}, (∀ entry ∈ overlay, entry.2.valid = true) →
    ∀ entry ∈ overlay, ∀ {base : Value}, base.valid = true →
      mergeOverlay (mergeOverlay base entry.2) entry.2 = mergeOverlay base entry.2
  | [], _, _, hentry, _, _ => absurd hentry (List.not_mem_nil)
  | (key, value) :: rest, hvalid, entry, hentry, base, hb => by
    rcases List.mem_cons.mp hentry with rfl | hentry
    · exact mergeOverlay_again hb (hvalid _ List.mem_cons_self)
    · exact mergeFields_again (fun other hother => hvalid other (List.mem_cons_of_mem _ hother)) entry hentry hb
end

theorem mergeOverlay_scalar (base : Value) {value : Value} (h : value.isContainer = false) :
    mergeOverlay base value = value := by
  cases value with
  | array => cases h
  | object => cases h
  | _ => cases base <;> rfl

theorem mergeOverlay_array (base : Value) (elements : List Value) :
    ∃ all, mergeOverlay base (.array elements) = .array all ∧ ∀ value ∈ elements, value ∈ all := by
  cases base with
  | array old => exact ⟨_, rfl, fun _ => mem_mergeElements⟩
  | _ => exact ⟨elements, rfl, fun _ hvalue => hvalue⟩

theorem mergeOverlay_replaced {old new : Value} (container : new.isContainer = true)
    (h : ¬ (old.isObject = new.isObject ∧ old.isArray = new.isArray)) : mergeOverlay old new = new := by
  cases new with
  | object fields =>
    cases old with
    | object old => exact absurd ⟨rfl, rfl⟩ h
    | _ => rfl
  | array elements =>
    cases old with
    | array old => exact absurd ⟨rfl, rfl⟩ h
    | _ => rfl
  | _ => cases container

/-- A merge keeps to its laws, whatever is merged into what. -/
theorem overlay_merge_laws (base overlay : Json) :
    OverlayLaws base.value overlay.value (mergeOverlay base.value overlay.value) where
  again := mergeOverlay_again base.valid overlay.valid
  scalars path value hvalue hscalar := by
    rw [at?_mergeOverlay overlay.valid hvalue, mergeOverlay_scalar _ hscalar]
  elements path elements helements := by
    obtain ⟨all, hall, hmem⟩ := mergeOverlay_array ((base.value.at? path).getD .null) elements
    exact ⟨all, (at?_mergeOverlay overlay.valid helements).trans (congrArg some hall), hmem⟩
  frame path value hvalue apart := mergeOverlay_frame overlay.valid hvalue apart
  arrays path old new hold hnew := by
    rw [at?_mergeOverlay overlay.valid hnew, hold, Option.getD_some, mergeOverlay, mergeElements_eq]
  replaced path old new hold hnew hcontainer hother := by
    rw [at?_mergeOverlay overlay.valid hnew, hold, Option.getD_some, mergeOverlay_replaced hcontainer hother]

end AgentDesktop
