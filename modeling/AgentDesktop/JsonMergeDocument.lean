import AgentDesktop.JsonRollback

namespace AgentDesktop

/-- How an existing user file is parsed. -/
inductive JsonFormat where
  | json
  | jsonc
  deriving DecidableEq

/-- An array whose elements are identified by a key; the empty field names the
document root. -/
structure KeyedArray where
  field : String
  keys : List String

structure MergeOptions where
  mode : UInt32 := 0o644
  keyedArrays : List KeyedArray := []
  redactDiff : Bool := false
  format : JsonFormat := .json
  replacePaths : List String := []

/-- What the sidecar records about the last merge. -/
structure MergeState where
  created : Bool
  before : Json
  after : Json
  deriving DecidableEq

def elementKey (keyed : KeyedArray) (element : Value) : Option (List String) :=
  keyed.keys.mapM fun key => (element.get key).bind Value.asStr

def keyedArray (document : Value) (keyed : KeyedArray) : Option (List Value) :=
  if keyed.field = "" then document.asArray else (document.get keyed.field).bind Value.asArray

def keyedKeys (keyed : KeyedArray) (document : Value) : List (List String) :=
  ((keyedArray document keyed).getD []).filterMap (elementKey keyed)

def modifyKeyedArray (keyed : KeyedArray) (f : List Value → List Value) (document : Value) : Value :=
  if keyed.field = "" then
    match document with
    | .array elements => .array (f elements)
    | document => document
  else
    match document with
    | .object fields =>
      match List.lookup keyed.field fields with
      | some (.array elements) => .object (SortedMap.insert keyed.field (.array (f elements)) fields)
      | _ => .object fields
    | document => document

/-- The element has a key and the key is one of `keys`. -/
def hasKeyIn (keyed : KeyedArray) (keys : List (List String)) (element : Value) : Bool :=
  match elementKey keyed element with
  | some key => keys.contains key
  | none => false

/-- Takes out every element whose key is the key of an element in `managed`. -/
def removeKeyed (keyed : KeyedArray) (managed document : Value) : Value :=
  let managedKeys := keyedKeys keyed managed
  if managedKeys.isEmpty then document
  else modifyKeyedArray keyed (List.filter fun element => !hasKeyIn keyed managedKeys element) document

/-- The document holding only the keyed elements the last merge added. -/
def keyedAdded (keyed : KeyedArray) (before after : Value) : Value :=
  let beforeKeys := keyedKeys keyed before
  let added := ((keyedArray after keyed).getD []).filter fun element =>
    (elementKey keyed element).isSome && !hasKeyIn keyed beforeKeys element
  if keyed.field = "" then .array added else .object [(keyed.field, .array added)]

def emptyRoot (managed : Value) : Value :=
  if managed.isArray then .array [] else .object []

def sameShape (a b : Value) : Bool :=
  a.isObject == b.isObject && a.isArray == b.isArray

/-- The existing document without what the previous merge put there. -/
def rolledBack (previous : Option MergeState) (legacyOwned : Bool) (managed combined : Value) : Value :=
  match previous with
  | some state => rollbackOverlay combined state.before.value state.after.value
  | none => if legacyOwned then emptyRoot managed else combined

def dropKeyed (previous : Option MergeState) (managed combined : Value) (keyed : KeyedArray) : Value :=
  removeKeyed keyed managed
    (match previous with
    | some state => removeKeyed keyed (keyedAdded keyed state.before.value state.after.value) combined
    | none => combined)

/-- The document the merge takes as the user's own. -/
def userDocument (options : MergeOptions) (previous : Option MergeState) (legacyOwned : Bool)
    (managed combined : Value) : Value :=
  options.keyedArrays.foldl (dropKeyed previous managed) (rolledBack previous legacyOwned managed combined)

/-- The user's document with the managed one merged in. -/
def mergeManaged (options : MergeOptions) (before managed : Value) : Value :=
  mergeOverlay (replaceOwned managed options.replacePaths before) managed

/-- An array the merge introduced and that is now empty goes with it. -/
def dropEmptied (before settings : Value) (keyed : KeyedArray) : Value :=
  if keyed.field ≠ "" ∧ (before.get keyed.field = none ∨ before.get keyed.field = some (.array [])) ∧
      settings.get keyed.field = some (.array []) then
    match settings with
    | .object fields => .object (SortedMap.erase keyed.field fields)
    | settings => settings
  else settings

def undoKeyed (before after settings : Value) (keyed : KeyedArray) : Value :=
  dropEmptied before (removeKeyed keyed (keyedAdded keyed before after) settings) keyed

/-- The document the removal leaves of the current one. -/
def removedDocument (options : MergeOptions) (before after current : Value) : Value :=
  options.keyedArrays.foldl (undoKeyed before after) (rollbackOverlay current before after)

theorem modifyKeyedArray_valid {keyed : KeyedArray} {f : List Value → List Value} {document : Value}
    (hf : ∀ elements, ∀ v ∈ f elements, v ∈ elements) (hd : document.valid = true) :
    (modifyKeyedArray keyed f document).valid = true := by
  have harray : ∀ {elements : List Value}, (Value.array elements).valid = true →
      (Value.array (f elements)).valid = true :=
    fun he => valid_array.mpr fun v hv => valid_array.mp he v (hf _ v hv)
  unfold modifyKeyedArray
  split
  next =>
    split
    next => exact harray hd
    next => exact hd
  next =>
    split
    next fields =>
      split
      next elements hl =>
        exact insert_valid hd (harray ((valid_object.mp hd).2 _ (SortedMap.lookup_mem hl)))
      next => exact hd
    next => exact hd

theorem removeKeyed_valid {keyed : KeyedArray} {managed document : Value} (hd : document.valid = true) :
    (removeKeyed keyed managed document).valid = true := by
  simp only [removeKeyed]
  split
  next => exact hd
  next => exact modifyKeyedArray_valid (fun _ _ => List.mem_of_mem_filter) hd

theorem emptyRoot_valid (managed : Value) : (emptyRoot managed).valid = true := by
  unfold emptyRoot
  split <;> rfl

theorem userDocument_valid (options : MergeOptions) (previous : Option MergeState) (legacyOwned : Bool)
    (managed : Value) {combined : Value} (hc : combined.valid = true) :
    (userDocument options previous legacyOwned managed combined).valid = true := by
  have hroll : (rolledBack previous legacyOwned managed combined).valid = true := by
    unfold rolledBack
    split
    next state => exact rollbackOverlay_valid hc state.before.valid state.after.valid
    next =>
      split
      next => exact emptyRoot_valid managed
      next => exact hc
  refine List.foldlRecOn (motive := fun v : Value => v.valid = true) _ _ hroll fun document hd keyed _ => ?_
  unfold dropKeyed
  cases previous with
  | none => exact removeKeyed_valid hd
  | some state => exact removeKeyed_valid (removeKeyed_valid hd)

theorem mergeManaged_valid (options : MergeOptions) {before managed : Value} (hb : before.valid = true)
    (hm : managed.valid = true) : (mergeManaged options before managed).valid = true :=
  mergeOverlay_valid (replaceOwned_valid options.replacePaths hb) hm

theorem dropEmptied_valid {before settings : Value} {keyed : KeyedArray} (hs : settings.valid = true) :
    (dropEmptied before settings keyed).valid = true := by
  unfold dropEmptied
  split
  next =>
    split
    next fields =>
      have hf := valid_object.mp hs
      exact valid_object.mpr ⟨SortedMap.erase_sorted hf.1, fun entry he => hf.2 entry (List.mem_of_mem_filter he)⟩
    next => exact hs
  next => exact hs

theorem removedDocument_valid (options : MergeOptions) {before after current : Value} (hb : before.valid = true)
    (ha : after.valid = true) (hc : current.valid = true) :
    (removedDocument options before after current).valid = true :=
  List.foldlRecOn (motive := fun v : Value => v.valid = true) _ _ (rollbackOverlay_valid hc hb ha)
    fun _ hd _ _ => dropEmptied_valid (removeKeyed_valid hd)

namespace Json

def merge (options : MergeOptions) (before managed : Json) : Json :=
  ⟨mergeManaged options before.value managed.value, mergeManaged_valid options before.valid managed.valid⟩

def rollback (current before after : Json) : Json :=
  ⟨rollbackOverlay current.value before.value after.value,
    rollbackOverlay_valid current.valid before.valid after.valid⟩

def emptyRoot (managed : Json) : Json :=
  ⟨AgentDesktop.emptyRoot managed.value, emptyRoot_valid managed.value⟩

def user (options : MergeOptions) (previous : Option MergeState) (legacyOwned : Bool) (managed combined : Json) :
    Json :=
  ⟨userDocument options previous legacyOwned managed.value combined.value,
    userDocument_valid options previous legacyOwned managed.value combined.valid⟩

def removed (options : MergeOptions) (before after current : Json) : Json :=
  ⟨removedDocument options before.value after.value current.value,
    removedDocument_valid options before.valid after.valid current.valid⟩

/-- An object or an array without anything in it. -/
def isEmpty (document : Json) : Bool :=
  decide (document.value = .object []) || decide (document.value = .array [])

end Json

end AgentDesktop
