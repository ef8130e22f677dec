import AgentDesktop.JsonMergeOverlay

namespace AgentDesktop

/-- The three arrays the rollback of a replaced array works on. -/
structure Restoring where
  result : List Value
  restored : List Value
  added : List Value

/-- One element of the array the merge wrote. -/
def Restoring.takeBack (s : Restoring) (value : Value) : Restoring :=
  if value ∈ s.added then
    { s with restored := s.restored.erase value, added := s.added.erase value }
  else
    { s with restored := s.restored.erase value, result := s.result.erase value }

/-- One element of the current array that the merge did not write. -/
def Restoring.keep (s : Restoring) (value : Value) : Restoring :=
  if value ∈ s.restored then { s with restored := s.restored.erase value }
  else { s with result := s.result ++ [value] }

/-- The rollback of an array the merge replaced: the original elements in their
order, then what the user added. -/
def rollbackReplaced (current before after : List Value) : List Value :=
  let taken := after.foldl Restoring.takeBack ⟨before, before, current⟩
  (taken.added.foldl Restoring.keep taken).result

/-- The rollback of an array the merge extended. -/
def rollbackAdded (current before after : List Value) : List Value :=
  (after.filter fun value => decide (value ∉ before)).foldl List.erase current

def rollbackElements (current before after : List Value) : List Value :=
  if before <+: after then rollbackAdded current before after else rollbackReplaced current before after

def isNoneOr (v : Option Value) (p : Value → Bool) : Bool :=
  match v with
  | none => true
  | some v => p v

def keysOf (fields : Option Fields) : List String :=
  (fields.getD []).map Prod.fst

mutual
/-- `rollback_value` past its two early returns, for a value that is present. -/
def rollbackPresent (before after : Option Value) : Value → Value
  | .object fields =>
    if isNoneOr before Value.isObject && isNoneOr after Value.isObject then
      let beforeObject := before.bind Value.asObject
      let afterObject := after.bind Value.asObject
      let keys := SortedMap.insertKeys (keysOf afterObject)
        (SortedMap.insertKeys (keysOf beforeObject) (SortedMap.insertKeys (fields.map Prod.fst) []))
      .object (keys.foldl (fun result key => SortedMap.update key
        (rollbackField (beforeObject.bind (List.lookup key)) (afterObject.bind (List.lookup key)) key fields)
        result) fields)
    else .object fields
  | .array elements =>
    if isNoneOr before Value.isArray && isNoneOr after Value.isArray then
      .array (rollbackElements elements ((before.bind Value.asArray).getD []) ((after.bind Value.asArray).getD []))
    else .array elements
  | current => current
/-- `rollback_value` of the field at `key`; `rollbackField_eq` says so. -/
def rollbackField (before after : Option Value) (key : String) : List (String × Value) → Option Value
  | [] => if none = after then before else none
  | (k, v) :: rest =>
    if key = k then
      if some v = after then before
      else if before = after then some v
      else some (rollbackPresent before after v)
    else rollbackField before after key rest
end

def rollbackValue (current before after : Option Value) : Option Value :=
  if current = after then before
  else if before = after then current
  else current.map (rollbackPresent before after)

def rollbackOverlay (current before after : Value) : Value :=
  (rollbackValue (some current) (some before) (some after)).getD (.object [])

theorem rollbackValue_some (current before after : Value) :
    rollbackValue (some current) (some before) (some after) = some (rollbackOverlay current before after) := by
  unfold rollbackOverlay rollbackValue
  split
  next => rfl
  next => split <;> rfl

theorem rollbackField_eq (before after : Option Value) (key : String) (fields : Fields) :
    rollbackField before after key fields = rollbackValue (List.lookup key fields) before after := by
  induction fields with
  | nil =>
    unfold rollbackField rollbackValue
    split
    next => simp_all
    next h => simp_all
  | cons entry rest ih =>
    obtain ⟨k, v⟩ := entry
    rw [rollbackField, SortedMap.lookup_cons_ite]
    split
    next => rfl
    next => exact ih

theorem rollbackOverlay_eq (current before after : Value) :
    rollbackOverlay current before after =
      if current = after then before else if before = after then current
      else rollbackPresent (some before) (some after) current := by
  unfold rollbackOverlay rollbackValue
  simp only [Option.some.injEq]
  split
  next => rfl
  next =>
    split
    next => rfl
    next => rfl

@[simp] theorem rollbackOverlay_after (before after : Value) : rollbackOverlay after before after = before := by
  simp [rollbackOverlay_eq]

/-- On objects the rollback works key by key. -/
theorem rollbackPresent_get {before after : Option Value} {fields : Fields} (key : String)
    (hb : isNoneOr before Value.isObject = true) (ha : isNoneOr after Value.isObject = true) :
    (rollbackPresent before after (.object fields)).get key =
      rollbackValue (List.lookup key fields) (before.bind fun v => v.get key)
        (after.bind fun v => v.get key) := by
  have hget : ∀ v : Option Value, (v.bind Value.asObject).bind (List.lookup key) = v.bind fun v => v.get key := by
    intro v
    cases v <;> rfl
  have hout : ∀ v : Option Value, key ∉ keysOf (v.bind Value.asObject) → (v.bind fun v => v.get key) = none := by
    intro v hn
    rw [← hget v]
    cases hv : v.bind Value.asObject with
    | none => rfl
    | some m =>
      rw [hv] at hn
      exact SortedMap.lookup_none_of_not_mem hn
  rw [rollbackPresent, hb, ha]
  simp only [Bool.and_self, if_true, Value.get_object,
    SortedMap.lookup_foldl_update (fun key => rollbackField ((before.bind Value.asObject).bind (List.lookup key))
      ((after.bind Value.asObject).bind (List.lookup key)) key fields), SortedMap.mem_insertKeys]
  split
  next => rw [rollbackField_eq, hget, hget]
  next hn =>
    have hl : List.lookup key fields = none := SortedMap.lookup_none_of_not_mem (by tauto)
    rw [hl, hout before (by tauto), hout after (by tauto)]
    rfl

theorem mem_of_mem_foldl_erase {elements removed : List Value} {v : Value}
    (h : v ∈ removed.foldl List.erase elements) : v ∈ elements := by
  induction removed generalizing elements with
  | nil => exact h
  | cons value rest ih => exact List.mem_of_mem_erase (ih h)

theorem takeBack_mem {s : Restoring} {after : List Value} {v : Value} :
    (v ∈ (after.foldl Restoring.takeBack s).result → v ∈ s.result) ∧
      (v ∈ (after.foldl Restoring.takeBack s).added → v ∈ s.added) := by
  induction after generalizing s with
  | nil => exact ⟨id, id⟩
  | cons value rest ih =>
    have hstep : (v ∈ (s.takeBack value).result → v ∈ s.result) ∧
        (v ∈ (s.takeBack value).added → v ∈ s.added) := by
      unfold Restoring.takeBack
      split
      next => exact ⟨id, List.mem_of_mem_erase⟩
      next => exact ⟨List.mem_of_mem_erase, id⟩
    exact ⟨fun h => hstep.1 (ih.1 h), fun h => hstep.2 (ih.2 h)⟩

theorem keep_mem {s : Restoring} {added : List Value} {v : Value}
    (h : v ∈ (added.foldl Restoring.keep s).result) : v ∈ s.result ∨ v ∈ added := by
  induction added generalizing s with
  | nil => exact Or.inl h
  | cons value rest ih =>
    rcases ih h with hs | hr
    · unfold Restoring.keep at hs
      split at hs
      next => exact Or.inl hs
      next =>
        rcases List.mem_append.mp hs with hs | hs
        · exact Or.inl hs
        · exact Or.inr (by simp [List.mem_singleton.mp hs])
    · exact Or.inr (List.mem_cons_of_mem _ hr)

theorem rollbackElements_mem {current before after : List Value} {v : Value}
    (h : v ∈ rollbackElements current before after) : v ∈ current ∨ v ∈ before := by
  unfold rollbackElements at h
  split at h
  next => exact Or.inl (mem_of_mem_foldl_erase h)
  next =>
    rcases keep_mem h with hr | ha
    · exact Or.inr (takeBack_mem.1 hr)
    · exact Or.inl (takeBack_mem.2 ha)

def OptValid (v : Option Value) : Prop :=
  ∀ u ∈ v, u.valid = true

theorem OptValid.lookup {v : Option Value} (hv : OptValid v) (key : String) :
    OptValid ((v.bind Value.asObject).bind (List.lookup key)) := by
  intro u hu
  obtain ⟨fields, hf, hu⟩ := Option.bind_eq_some_iff.mp hu
  obtain ⟨w, hw, hf⟩ := Option.bind_eq_some_iff.mp hf
  exact get_valid (hv w hw) (Option.bind_eq_some_iff.mpr ⟨fields, hf, hu⟩)

theorem OptValid.elements {v : Option Value} (hv : OptValid v) :
    ∀ u ∈ (v.bind Value.asArray).getD [], u.valid = true := by
  intro u hu
  cases v with
  | none => simp at hu
  | some w =>
    cases w with
    | array elements => exact valid_array.mp (hv _ rfl) u hu
    | _ => simp [Value.asArray] at hu

mutual
theorem rollbackPresent_valid {before after : Option Value} (hb : OptValid before) (ha : OptValid after) :
    ∀ {current : Value}, current.valid = true → (rollbackPresent before after current).valid = true
  | .object fields, hc => by
    have hf := valid_object.mp hc
    rw [rollbackPresent]
    split
    next =>
      refine valid_object.mpr ⟨SortedMap.foldl_update_sorted _ _ hf.1, ?_⟩
      intro entry he
      rcases SortedMap.mem_of_mem_foldl_update he with ⟨key, hk⟩ | he
      · exact rollbackField_valid (hb.lookup key) (ha.lookup key) hf.2 entry.2 hk
      · exact hf.2 entry he
    next => exact hc
  | .array elements, hc => by
    rw [rollbackPresent]
    split
    next =>
      refine valid_array.mpr fun v hv => ?_
      rcases rollbackElements_mem hv with hv | hv
      · exact valid_array.mp hc v hv
      · exact hb.elements v hv
    next => exact hc
  | .null, hc | .bool _, hc | .number _, hc | .string _, hc => hc
theorem rollbackField_valid {before after : Option Value} (hb : OptValid before) (ha : OptValid after)
    {key : String} : ∀ {fields : List (String × Value)}, (∀ entry ∈ fields, entry.2.valid = true) →
      OptValid (rollbackField before after key fields)
  | [], _ => by
    rw [rollbackField]
    split
    next => exact hb
    next => intro u hu; simp at hu
  | (k, v) :: rest, hf => by
    have hv : v.valid = true := hf (k, v) (by simp)
    rw [rollbackField]
    split
    next =>
      split
      next => exact hb
      next =>
        split
        next => intro u hu; cases Option.some.inj hu; exact hv
        next => intro u hu; cases Option.some.inj hu; exact rollbackPresent_valid hb ha hv
    next => exact rollbackField_valid hb ha (fun entry he => hf entry (List.mem_cons_of_mem _ he))
end

theorem rollbackOverlay_valid {current before after : Value} (hc : current.valid = true)
    (hb : before.valid = true) (ha : after.valid = true) : (rollbackOverlay current before after).valid = true := by
  rw [rollbackOverlay_eq]
  split
  next => exact hb
  next =>
    split
    next => exact hc
    next =>
      refine rollbackPresent_valid ?_ ?_ hc
      · intro u hu; cases Option.some.inj hu; exact hb
      · intro u hu; cases Option.some.inj hu; exact ha

end AgentDesktop
