import AgentDesktop.JsonValue

namespace AgentDesktop

def pushMissing (base : List Value) (value : Value) : List Value :=
  if value ∈ base then base else base ++ [value]

/-- Appends the overlay's elements that the base does not hold yet. -/
def mergeElements (base overlay : List Value) : List Value :=
  overlay.foldl pushMissing base

mutual
/-- `merge_overlay`: objects merge key by key, arrays additively, and any other
overlay value takes the place of the base. -/
def mergeOverlay : Value → Value → Value
  | .object base, .object overlay => .object (mergeFields base overlay)
  | .array base, .array overlay => .array (mergeElements base overlay)
  | _, overlay => overlay
def mergeFields (base : List (String × Value)) : List (String × Value) → List (String × Value)
  | [] => base
  | (key, value) :: rest =>
    mergeFields (SortedMap.insert key (mergeOverlay ((List.lookup key base).getD .null) value) base) rest
end

def parseIndex (token : String) : Option Nat :=
  match token.toList with
  | [] => none
  | '0' :: _ :: _ => none
  | digits =>
    if digits.all Char.isDigit then
      let index := digits.foldl (fun n c => 10 * n + (c.toNat - '0'.toNat)) 0
      if index < 2 ^ 64 then some index else none
    else none

/-- Replaces every `~` followed by `digit` by `char`. -/
def unescapeTilde (digit char : Char) : List Char → List Char
  | '~' :: c :: rest => if c = digit then char :: unescapeTilde digit char rest
    else '~' :: unescapeTilde digit char (c :: rest)
  | c :: rest => c :: unescapeTilde digit char rest
  | [] => []

def pointerTokens (pointer : String) : Option (List String) :=
  match pointer.toList with
  | [] => some []
  | '/' :: rest =>
    some ((rest.splitOn '/').map fun token =>
      String.ofList (unescapeTilde '0' '~' (unescapeTilde '1' '/' token)))
  | _ => none

namespace Value

def child (target : Value) (token : String) : Option Value :=
  match target with
  | .object fields => List.lookup token fields
  | .array elements => (parseIndex token).bind fun index => elements[index]?
  | _ => none

def pointer (v : Value) (pointer : String) : Option Value :=
  (pointerTokens pointer).bind fun tokens => tokens.foldlM child v

/-- Assigns to the place a token path names; a path that names none changes nothing. -/
def assign (new : Value) : List String → Value → Value
  | [], _ => new
  | token :: rest, .object fields =>
    match List.lookup token fields with
    | some v => .object (SortedMap.insert token (assign new rest v) fields)
    | none => .object fields
  | token :: rest, .array elements =>
    match parseIndex token with
    | some index =>
      match elements[index]? with
      | some v => .array (elements.set index (assign new rest v))
      | none => .array elements
    | none => .array elements
  | _ :: _, v => v

end Value

def nullOwned (managed combined : Value) (pointer : String) : Value :=
  match pointerTokens pointer with
  | some tokens => if (managed.pointer pointer).isSome then Value.assign .null tokens combined else combined
  | none => combined

/-- Nulls the values a managed document owns as a whole, where it has them. -/
def replaceOwned (managed : Value) (replacePaths : List String) (combined : Value) : Value :=
  replacePaths.foldl (nullOwned managed) combined

/-- The overlay's elements that are missing from the base, each once and in their order. -/
def missingElements (base overlay : List Value) : List Value :=
  (overlay.filter fun value => decide (value ∉ base)).eraseDups

theorem mem_missingElements {base overlay : List Value} {v : Value} :
    v ∈ missingElements base overlay ↔ v ∈ overlay ∧ v ∉ base := by
  rw [missingElements, List.mem_eraseDups, List.mem_filter, decide_eq_true_iff]

theorem mergeElements_eq (base overlay : List Value) :
    mergeElements base overlay = base ++ missingElements base overlay := by
  unfold mergeElements missingElements
  induction overlay generalizing base with
  | nil => simp
  | cons value rest ih =>
    rw [List.foldl_cons, ih, pushMissing]
    by_cases hmem : value ∈ base
    · simp [hmem]
    · have hrest : (rest.filter fun other => decide (other ∉ base ++ [value])) =
          (rest.filter fun other => decide (other ∉ base)).filter fun other => !other == value := by
        rw [List.filter_filter]
        refine List.filter_congr fun other _ => ?_
        by_cases heq : other = value <;> simp [heq, hmem]
      rw [if_neg hmem, List.filter_cons_of_pos (by simpa using hmem), List.eraseDups_cons, hrest, List.append_assoc,
        List.singleton_append]

theorem mergeElements_mem {base overlay : List Value} {v : Value} (h : v ∈ mergeElements base overlay) :
    v ∈ base ∨ v ∈ overlay := by
  rw [mergeElements_eq, List.mem_append] at h
  rcases h with hbase | hnew
  · exact Or.inl hbase
  · exact Or.inr (mem_missingElements.mp hnew).1

theorem insert_valid {fields : Fields} {key : String} {v : Value}
    (hf : (Value.object fields).valid = true) (hv : v.valid = true) :
    (Value.object (SortedMap.insert key v fields)).valid = true := by
  have hf' := valid_object.mp hf
  refine valid_object.mpr ⟨SortedMap.insert_sorted hf'.1, ?_⟩
  intro entry he
  rcases SortedMap.mem_of_mem_insert he with he | he
  · subst he; exact hv
  · exact hf'.2 entry he

theorem lookup_valid (key : String) {fields : Fields}
    (hf : (Value.object fields).valid = true) : ((List.lookup key fields).getD .null).valid = true := by
  cases hl : List.lookup key fields with
  | none => rfl
  | some v => exact (valid_object.mp hf).2 _ (SortedMap.lookup_mem hl)

mutual
theorem mergeOverlay_valid : ∀ {base overlay : Value}, base.valid = true → overlay.valid = true →
    (mergeOverlay base overlay).valid = true
  | base, .object overlay, hb, ho => by
    cases base with
    | object base => exact mergeFields_valid hb (valid_object.mp ho).2
    | _ => exact ho
  | base, .array overlay, hb, ho => by
    cases base with
    | array base =>
      refine valid_array.mpr fun v hv => ?_
      rcases mergeElements_mem hv with hv | hv
      · exact valid_array.mp hb v hv
      · exact valid_array.mp ho v hv
    | _ => exact ho
  | base, .null, _, ho => by cases base <;> exact ho
  | base, .bool _, _, ho => by cases base <;> exact ho
  | base, .number _, _, ho => by cases base <;> exact ho
  | base, .string _, _, ho => by cases base <;> exact ho
theorem mergeFields_valid : ∀ {base overlay : Fields}, (Value.object base).valid = true →
    (∀ entry ∈ overlay, entry.2.valid = true) → (Value.object (mergeFields base overlay)).valid = true
  | _, [], hb, _ => hb
  | base, (key, value) :: rest, hb, ho => by
    have hvalue : value.valid = true := ho (key, value) (by simp)
    have hmerged := mergeOverlay_valid (lookup_valid key hb) hvalue
    rw [mergeFields]
    exact mergeFields_valid (insert_valid hb hmerged) (fun entry he => ho entry (List.mem_cons_of_mem _ he))
end

theorem assign_valid {new : Value} (hn : new.valid = true) (tokens : List String) {v : Value}
    (hv : v.valid = true) : (Value.assign new tokens v).valid = true := by
  induction tokens generalizing v with
  | nil => exact hn
  | cons token rest ih =>
    cases v with
    | object fields =>
      simp only [Value.assign]
      split
      next child hl => exact insert_valid hv (ih ((valid_object.mp hv).2 _ (SortedMap.lookup_mem hl)))
      next => exact hv
    | array elements =>
      simp only [Value.assign]
      split
      next index _ =>
        split
        next child hc =>
          have hchild := valid_array.mp hv child (List.mem_of_getElem? hc)
          refine valid_array.mpr fun x hx => ?_
          rcases List.mem_or_eq_of_mem_set hx with hx | hx
          · exact valid_array.mp hv x hx
          · subst hx; exact ih hchild
        next => exact hv
      next => exact hv
    | _ => exact hv

theorem replaceOwned_valid {managed combined : Value} (replacePaths : List String)
    (hc : combined.valid = true) : (replaceOwned managed replacePaths combined).valid = true := by
  unfold replaceOwned
  induction replacePaths generalizing combined with
  | nil => exact hc
  | cons pointer rest ih =>
    apply ih
    unfold nullOwned
    split
    next tokens _ =>
      split
      next => exact assign_valid rfl tokens hc
      next => exact hc
    next => exact hc

end AgentDesktop
