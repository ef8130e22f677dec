import AgentDesktop.JsonKeyedMerge
import AgentDesktop.JsonDocument

namespace AgentDesktop

/-- A file a keyed merge is about. -/
def Stored.Keyable (keyedArrays : List KeyedArray) (array : Bool) : Stored → Prop
  | .absent => True
  | .blank => True
  | .document found => AgentDesktop.Keyable keyedArrays array found.value
  | .unusable => False

def Stored.elementsOf (keyed : KeyedArray) : Stored → List Value
  | .document found => AgentDesktop.elementsOf keyed found.value
  | _ => []

/-- The element's key is managed by none of the documents. -/
def MergeOptions.free (options : MergeOptions) (keyed : KeyedArray) (documents : List Json) (element : Value) : Bool :=
  freeOf options.keyedArrays keyed (documents.map Json.value) element

theorem MergeOptions.free_append (options : MergeOptions) (keyed : KeyedArray) (a b : List Json) (element : Value) :
    options.free keyed (a ++ b) element = (options.free keyed a element && options.free keyed b element) := by
  simp [MergeOptions.free, freeOf]

theorem MergeOptions.free_iff {options : MergeOptions} {keyed : KeyedArray} {documents : List Json} {element : Value} :
    options.free keyed documents element = true ↔
      ∀ managed ∈ documents, ownedBy options.keyedArrays keyed managed.value element = false := by
  simp [MergeOptions.free, freeOf]

/-- The sidecar records the last keyed merge, or there was none. -/
inductive KeyedRecord (keyedArrays : List KeyedArray) (array : Bool) : Option Json → Option MergeState → Prop where
  | fresh : KeyedRecord keyedArrays array none none
  | merged {managed : Json} {state : MergeState} (keys : ManagedKeys keyedArrays array managed.value)
      (recorded : Recorded keyedArrays array state.before.value state.after.value managed.value) :
      KeyedRecord keyedArrays array (some managed) (some state)

structure KeyedState (keyedArrays : List KeyedArray) (array : Bool) (last : Option Json) (s : DocState) : Prop where
  file : s.file.Keyable keyedArrays array
  sidecar : ∃ previous, s.sidecar = .ok previous ∧ KeyedRecord keyedArrays array last previous

variable {options : MergeOptions} {array : Bool} {last : Option Json}

/-- The document a merge takes as the user's own is without the elements the
last merge and this one manage. -/
theorem userDocument_keyed {previous : Option MergeState} (h : KeyedRecord options.keyedArrays array last previous)
    (managed : Json) {combined : Value} (hc : Keyable options.keyedArrays array combined) :
    Keyable options.keyedArrays array (userDocument options previous false managed.value combined) ∧
      ∀ keyed ∈ options.keyedArrays,
        elementsOf keyed (userDocument options previous false managed.value combined) =
          (elementsOf keyed combined).filter (options.free keyed (last.toList ++ [managed])) := by
  cases h with
  | fresh => exact dropAll_elements [managed.value] options.keyedArrays hc
  | @merged previous state keys recorded =>
    obtain ⟨hback, hrolled⟩ := recorded.rollback keys hc
    have hdrop : userDocument options (some state) false managed.value combined =
        options.keyedArrays.foldl (dropOwned [previous.value, managed.value])
          (rollbackOverlay combined state.before.value state.after.value) := by
      refine List.foldl_ext _ _ _ fun document keyed hk => ?_
      simp only [dropKeyed, dropOwned, List.foldl_cons, List.foldl_nil]
      rw [removeKeyed_congr (recorded.keys_added keys hk)]
    obtain ⟨hkeyable, helements⟩ := dropAll_elements [previous.value, managed.value] options.keyedArrays hback
    rw [hdrop]
    refine ⟨hkeyable, fun keyed hk => ?_⟩
    have hsplit : freeOf options.keyedArrays keyed [previous.value, managed.value] = fun element =>
        freeOf options.keyedArrays keyed [managed.value] element &&
          freeOf options.keyedArrays keyed [previous.value] element := by
      funext element
      simp [freeOf, Bool.and_comm]
    rw [helements keyed hk, hsplit, ← List.filter_filter, hrolled keyed hk, List.filter_filter, ← hsplit]
    rfl

theorem undoAll_elements {before after : Value} {managed : Value} {arrays : List KeyedArray}
    (keys : ∀ keyed ∈ arrays, keyedKeys keyed (keyedAdded keyed before after) = keyedKeys keyed managed)
    (other : KeyedArray) {settings : Value} (h : isNoneOr (fieldOf other settings) Value.isArray = true) :
    elementsOf other (arrays.foldl (undoKeyed before after) settings) =
      (elementsOf other settings).filter (freeOf arrays other [managed]) := by
  induction arrays generalizing settings with
  | nil =>
    have hfree : ∀ element, freeOf [] other [managed] element = true := by simp [freeOf, ownedBy]
    exact (List.filter_eq_self.mpr fun element _ => hfree element).symm
  | cons keyed rest ih =>
    obtain ⟨hremoved, hfield⟩ := removeKeyed_elements keyed other managed h
    rw [← removeKeyed_congr (keys keyed (by simp))] at hremoved hfield
    obtain ⟨hdropped, hplain⟩ := dropEmptied_elements before keyed other hfield
    rw [List.foldl_cons, undoKeyed, ih (fun next hn => keys next (List.mem_cons_of_mem _ hn)) hplain, hdropped,
      hremoved, List.filter_filter]
    refine List.filter_congr fun element _ => ?_
    simp [freeOf, ownedBy, Bool.and_comm]

/-- Removal takes out the elements the last merge manages. -/
theorem removedDocument_keyed {managed : Json} {state : MergeState}
    (keys : ManagedKeys options.keyedArrays array managed.value)
    (recorded : Recorded options.keyedArrays array state.before.value state.after.value managed.value)
    {current : Value} (hc : Keyable options.keyedArrays array current) {keyed : KeyedArray}
    (hk : keyed ∈ options.keyedArrays) :
    elementsOf keyed (removedDocument options state.before.value state.after.value current) =
      (elementsOf keyed current).filter (options.free keyed [managed]) := by
  obtain ⟨hback, hrolled⟩ := recorded.rollback keys hc
  rw [removedDocument, undoAll_elements (fun other ho => recorded.keys_added keys ho) keyed (hback.field keyed hk),
    hrolled keyed hk]
  rfl

theorem existing_of_keyable {file : Stored} (h : file.Keyable options.keyedArrays array) {managed : Json}
    (keys : ManagedKeys options.keyedArrays array managed.value) :
    ∃ combined, file.existing managed = some combined ∧ Keyable options.keyedArrays array combined.value ∧
      ∀ keyed ∈ options.keyedArrays, elementsOf keyed combined.value = file.elementsOf keyed := by
  have hempty : Keyable options.keyedArrays array managed.emptyRoot.value ∧
      ∀ keyed ∈ options.keyedArrays, elementsOf keyed managed.emptyRoot.value = [] :=
    ⟨⟨emptyRoot_rooted keys.root, fun keyed hk => (emptyRoot_field keys.root (keys.field keyed hk)).1⟩,
      fun keyed hk => (emptyRoot_field keys.root (keys.field keyed hk)).2⟩
  cases file with
  | absent => exact ⟨managed.emptyRoot, rfl, hempty⟩
  | blank => exact ⟨managed.emptyRoot, rfl, hempty⟩
  | document found =>
    exact ⟨found, by simp [Stored.existing, sameShape_of_rooted h.root keys.root], h, fun _ _ => rfl⟩
  | unusable => exact h.elim

/-- A merge leaves the user's elements it does not manage, then the managed ones. -/
theorem KeyedState.merge {s : DocState} (spares : options.sparesKeyed = true)
    (h : KeyedState options.keyedArrays array last s) {managed : Json}
    (keys : ManagedKeys options.keyedArrays array managed.value) :
    KeyedState options.keyedArrays array (some managed) (s.merge options false managed) ∧
      ∀ keyed ∈ options.keyedArrays, (s.merge options false managed).file.elementsOf keyed =
        (s.file.elementsOf keyed).filter (options.free keyed (last.toList ++ [managed])) ++
          elementsOf keyed managed.value := by
  obtain ⟨previous, hside, hrecord⟩ := h.sidecar
  obtain ⟨combined, hexisting, hkeyable, hsame⟩ := existing_of_keyable h.file keys
  obtain ⟨hbefore, helements⟩ := userDocument_keyed hrecord managed hkeyable
  have hfree : ∀ keyed ∈ options.keyedArrays,
      ∀ element ∈ elementsOf keyed (userDocument options previous false managed.value combined.value),
        ownedBy options.keyedArrays keyed managed.value element = false := by
    intro keyed hk element he
    rw [helements keyed hk] at he
    exact MergeOptions.free_iff.mp (List.mem_filter.mp he).2 managed (by simp)
  have hrecorded := mergeManaged_recorded spares hbefore keys managed.valid hfree
  simp only [DocState.merge, hside, hexisting]
  refine ⟨⟨hrecorded.keyableAfter, _, rfl, .merged keys hrecorded⟩, fun keyed hk => ?_⟩
  rw [← hsame keyed hk, ← helements keyed hk]
  exact hrecorded.grown keyed hk

theorem elementsOf_of_isEmpty (keyed : KeyedArray) {document : Json} (h : document.isEmpty = true) :
    elementsOf keyed document.value = [] := by
  simp only [Json.isEmpty, Bool.or_eq_true, decide_eq_true_eq] at h
  unfold elementsOf keyedArray
  rcases h with h | h <;> rw [h] <;> split <;> rfl

/-- Removal leaves the elements the last merge does not manage. -/
theorem KeyedState.remove {s : DocState} (h : KeyedState options.keyedArrays array last s) {keyed : KeyedArray}
    (hk : keyed ∈ options.keyedArrays) :
    (s.remove options).file.elementsOf keyed =
      (s.file.elementsOf keyed).filter (options.free keyed last.toList) := by
  obtain ⟨file, side⟩ := s
  obtain ⟨previous, hside, hrecord⟩ := h.sidecar
  cases hside
  cases hrecord with
  | fresh => exact (List.filter_eq_self.mpr fun _ _ => rfl).symm
  | @merged managed state keys recorded =>
    cases file with
    | absent => rfl
    | blank => cases hc : state.created <;> simp [DocState.remove, hc, Stored.elementsOf]
    | document found =>
      have hshape := sameShape_of_rooted h.file.root recorded.keyableAfter.root
      have helements := removedDocument_keyed keys recorded h.file hk
      simp only [DocState.remove, hshape, if_true]
      refine Eq.trans ?_ helements
      split
      next hempty =>
        simp only [Bool.and_eq_true] at hempty
        exact (elementsOf_of_isEmpty keyed hempty.2).symm
      next => rfl
    | unusable => exact h.file.elim

end AgentDesktop
