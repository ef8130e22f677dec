import AgentDesktop.JsonKeyed
import Mathlib.Data.List.Nodup

namespace AgentDesktop

/-- The element's key is managed by `managed` in one of the arrays of the field. -/
def ownedBy (keyedArrays : List KeyedArray) (other : KeyedArray) (managed element : Value) : Bool :=
  keyedArrays.any fun keyed => ownsKey keyed other managed element

/-- The element's key is managed by none of the documents. -/
def freeOf (keyedArrays : List KeyedArray) (other : KeyedArray) (documents : List Value) (element : Value) : Bool :=
  documents.all fun managed => !ownedBy keyedArrays other managed element

/-- The documents a keyed merge is about: of one shape, each keyed array there as
an array or not at all. -/
structure Keyable (keyedArrays : List KeyedArray) (array : Bool) (document : Value) : Prop where
  root : document.rooted array = true
  field : ∀ keyed ∈ keyedArrays, isNoneOr (fieldOf keyed document) Value.isArray = true

/-- A managed document: every element of a keyed array has a key, and no key is there twice. -/
structure ManagedKeys (keyedArrays : List KeyedArray) (array : Bool) (managed : Value) : Prop
    extends Keyable keyedArrays array managed where
  keyed : ∀ keyed ∈ keyedArrays, ∀ element ∈ elementsOf keyed managed, (elementKey keyed element).isSome = true
  distinct : ∀ keyed ∈ keyedArrays, (keyedKeys keyed managed).Nodup

variable {keyedArrays : List KeyedArray} {array : Bool}

theorem ManagedKeys.owned {managed : Value} (h : ManagedKeys keyedArrays array managed) {keyed : KeyedArray}
    (hk : keyed ∈ keyedArrays) {element : Value} (he : element ∈ elementsOf keyed managed) :
    ownedBy keyedArrays keyed managed element = true := by
  obtain ⟨key, hkey⟩ := Option.isSome_iff_exists.mp (h.keyed keyed hk element he)
  have hmem : key ∈ keyedKeys keyed managed := List.mem_filterMap.mpr ⟨element, he, hkey⟩
  exact List.any_eq_true.mpr ⟨keyed, hk, by simp [ownsKey, hasKeyIn, hkey, hmem]⟩

theorem ManagedKeys.nodup {managed : Value} (h : ManagedKeys keyedArrays array managed) {keyed : KeyedArray}
    (hk : keyed ∈ keyedArrays) : (elementsOf keyed managed).Nodup := by
  have hall : ∀ element ∈ elementsOf keyed managed,
      elementKey keyed element = some ((elementKey keyed element).getD []) := by
    intro element he
    obtain ⟨key, hkey⟩ := Option.isSome_iff_exists.mp (h.keyed keyed hk element he)
    simp [hkey]
  have hmap : keyedKeys keyed managed =
      (elementsOf keyed managed).map fun element => (elementKey keyed element).getD [] :=
    (List.filterMap_congr hall).trans (congrFun List.filterMap_eq_map _)
  exact List.Nodup.of_map _ (hmap ▸ h.distinct keyed hk)

section Remove

theorem removeKeyed_keyable {document : Value} (h : Keyable keyedArrays array document) (keyed : KeyedArray)
    (managed : Value) : Keyable keyedArrays array (removeKeyed keyed managed document) :=
  ⟨removeKeyed_rooted h.root keyed managed,
    fun other ho => (removeKeyed_elements keyed other managed (h.field other ho)).2⟩

/-- Takes out the elements of several documents. -/
def dropOwned (documents : List Value) (document : Value) (keyed : KeyedArray) : Value :=
  documents.foldl (fun document managed => removeKeyed keyed managed document) document

theorem dropOwned_elements (documents : List Value) (keyed : KeyedArray) {document : Value}
    (h : Keyable keyedArrays array document) :
    Keyable keyedArrays array (dropOwned documents document keyed) ∧
      ∀ other ∈ keyedArrays, elementsOf other (dropOwned documents document keyed) =
        (elementsOf other document).filter fun element =>
          documents.all fun managed => !ownsKey keyed other managed element := by
  unfold dropOwned
  induction documents generalizing document with
  | nil => exact ⟨h, fun other _ => by simp⟩
  | cons managed rest ih =>
    obtain ⟨hkeyable, hrest⟩ := ih (removeKeyed_keyable h keyed managed)
    refine ⟨hkeyable, fun other ho => ?_⟩
    rw [List.foldl_cons, hrest other ho, (removeKeyed_elements keyed other managed (h.field other ho)).1,
      List.filter_filter]
    simp [Bool.and_comm]

theorem dropAll_elements (documents : List Value) (arrays : List KeyedArray) {document : Value}
    (h : Keyable keyedArrays array document) :
    Keyable keyedArrays array (arrays.foldl (dropOwned documents) document) ∧
      ∀ other ∈ keyedArrays, elementsOf other (arrays.foldl (dropOwned documents) document) =
        (elementsOf other document).filter (freeOf arrays other documents) := by
  induction arrays generalizing document with
  | nil =>
    have hfree : ∀ other element, freeOf [] other documents element = true := by simp [freeOf, ownedBy]
    exact ⟨h, fun other _ => (List.filter_eq_self.mpr fun element _ => hfree other element).symm⟩
  | cons keyed rest ih =>
    obtain ⟨hkeyable, hdrop⟩ := dropOwned_elements documents keyed h
    obtain ⟨hresult, hrest⟩ := ih hkeyable
    refine ⟨hresult, fun other ho => ?_⟩
    rw [List.foldl_cons, hrest other ho, hdrop other ho, List.filter_filter]
    refine List.filter_congr fun element _ => ?_
    rw [Bool.eq_iff_iff]
    simp only [freeOf, ownedBy, Bool.and_eq_true, List.all_eq_true, List.any_cons, Bool.not_or, Bool.not_eq_true']
    exact ⟨fun hboth managed hm => ⟨hboth.2 managed hm, hboth.1 managed hm⟩,
      fun hall => ⟨fun managed hm => (hall managed hm).2, fun managed hm => (hall managed hm).1⟩⟩

theorem removeKeyed_congr {keyed : KeyedArray} {a b : Value} (h : keyedKeys keyed a = keyedKeys keyed b)
    (document : Value) : removeKeyed keyed a document = removeKeyed keyed b document := by
  simp [removeKeyed, h]

end Remove

section Record

/-- What the sidecar records of a keyed merge. -/
structure Recorded (keyedArrays : List KeyedArray) (array : Bool) (before after managed : Value) : Prop where
  keyableBefore : Keyable keyedArrays array before
  keyableAfter : Keyable keyedArrays array after
  grown : ∀ keyed ∈ keyedArrays, elementsOf keyed after = elementsOf keyed before ++ elementsOf keyed managed
  free : ∀ keyed ∈ keyedArrays, ∀ element ∈ elementsOf keyed before,
    ownedBy keyedArrays keyed managed element = false

theorem elementsOf_keyedAdded (keyed : KeyedArray) (before after : Value) :
    elementsOf keyed (keyedAdded keyed before after) = (elementsOf keyed after).filter fun element =>
      (elementKey keyed element).isSome && !hasKeyIn keyed (keyedKeys keyed before) element := by
  rw [elementsOf_eq, fieldOf]
  unfold keyedAdded
  simp only
  split
  next => rfl
  next => simp [arrayOf, Value.asArray, elementsOf]

variable {keyed : KeyedArray}

theorem hasKeyIn_iff {keys : List (List String)} {element : Value} :
    hasKeyIn keyed keys element = true ↔ ∃ key ∈ keys, elementKey keyed element = some key := by
  unfold hasKeyIn
  split
  next key hkey => simp [hkey]
  next hnone => simp [hnone]

theorem not_hasKey_of_free (hk : keyed ∈ keyedArrays) {managed element : Value}
    (h : ownedBy keyedArrays keyed managed element = false) :
    hasKeyIn keyed (keyedKeys keyed managed) element = false := by
  have hfree := List.any_eq_false.mp h keyed hk
  simpa [ownsKey] using hfree

variable {before after managed : Value}

theorem Recorded.not_hasKey (h : Recorded keyedArrays array before after managed) (hk : keyed ∈ keyedArrays)
    {element : Value} (he : element ∈ elementsOf keyed before) :
    hasKeyIn keyed (keyedKeys keyed managed) element = false :=
  not_hasKey_of_free hk (h.free keyed hk element he)

/-- By key, what the merge added are the managed elements. -/
theorem Recorded.keys_added (h : Recorded keyedArrays array before after managed)
    (hmanaged : ManagedKeys keyedArrays array managed) (hk : keyed ∈ keyedArrays) :
    keyedKeys keyed (keyedAdded keyed before after) = keyedKeys keyed managed := by
  have hold : (elementsOf keyed before).filter (fun element =>
      (elementKey keyed element).isSome && !hasKeyIn keyed (keyedKeys keyed before) element) = [] := by
    refine List.filter_eq_nil_iff.mpr fun element he => ?_
    cases hkey : elementKey keyed element with
    | none => simp
    | some key =>
      have hmem : key ∈ keyedKeys keyed before := List.mem_filterMap.mpr ⟨element, he, hkey⟩
      simp [hasKeyIn_iff.mpr ⟨key, hmem, hkey⟩]
  have hnew : (elementsOf keyed managed).filter (fun element =>
      (elementKey keyed element).isSome && !hasKeyIn keyed (keyedKeys keyed before) element) =
        elementsOf keyed managed := by
    refine List.filter_eq_self.mpr fun element he => ?_
    rw [hmanaged.keyed keyed hk element he, Bool.true_and, Bool.not_eq_true', ← Bool.not_eq_true]
    intro hin
    obtain ⟨key, hkey, hsome⟩ := hasKeyIn_iff.mp hin
    obtain ⟨old, hold, hsame⟩ := List.mem_filterMap.mp hkey
    have hmem : key ∈ keyedKeys keyed managed := List.mem_filterMap.mpr ⟨element, he, hsome⟩
    have hclash := h.not_hasKey hk hold
    rw [hasKeyIn_iff.mpr ⟨key, hmem, hsame⟩] at hclash
    cases hclash
  have helements := elementsOf_keyedAdded keyed before after
  rw [h.grown keyed hk, List.filter_append, hold, hnew, List.nil_append] at helements
  exact congrArg (List.filterMap (elementKey keyed)) helements

/-- Rolling back a keyed merge keeps the elements the merge does not own. -/
theorem Recorded.rollback (h : Recorded keyedArrays array before after managed)
    (hmanaged : ManagedKeys keyedArrays array managed) {current : Value} (hc : Keyable keyedArrays array current) :
    Keyable keyedArrays array (rollbackOverlay current before after) ∧
      ∀ keyed ∈ keyedArrays, (elementsOf keyed (rollbackOverlay current before after)).filter
          (freeOf keyedArrays keyed [managed]) =
        (elementsOf keyed current).filter (freeOf keyedArrays keyed [managed]) := by
  have hfield : ∀ keyed ∈ keyedArrays,
      (arrayOf (fieldOf keyed (rollbackOverlay current before after))).filter (freeOf keyedArrays keyed [managed]) =
        (arrayOf (fieldOf keyed current)).filter (freeOf keyedArrays keyed [managed]) ∧
      isNoneOr (fieldOf keyed (rollbackOverlay current before after)) Value.isArray = true := by
    intro keyed hk
    rw [fieldOf_rollback keyed hc.root h.keyableBefore.root h.keyableAfter.root]
    have howned : ∀ element ∈ elementsOf keyed managed, freeOf keyedArrays keyed [managed] element = false :=
      fun element he => by simp [freeOf, hmanaged.owned hk he]
    refine rollbackValue_filter howned (hc.field keyed hk) (h.keyableBefore.field keyed hk)
      (h.keyableAfter.field keyed hk) ?_
    simpa only [elementsOf_eq keyed before, elementsOf_eq keyed after] using h.grown keyed hk
  have hrooted : (rollbackOverlay current before after).rooted array = true :=
    rollbackOverlay_rooted hc.root h.keyableBefore.root
  refine ⟨⟨hrooted, fun keyed hk => (hfield keyed hk).2⟩, fun keyed hk => ?_⟩
  rw [elementsOf_eq, elementsOf_eq]
  exact (hfield keyed hk).1

end Record

end AgentDesktop
