import AgentDesktop.SortedMap
import Mathlib.Algebra.Ring.Rat

namespace AgentDesktop

/-- The rationals that finite doubles denote. -/
def IsDouble (value : ℚ) : Prop :=
  ∃ (significand : Int) (exponent : Fin 2046), significand.natAbs < 2 ^ 53 ∧
    value = mkRat (significand * 2 ^ exponent.val) (2 ^ 1074)

/-- A JSON number: an unsigned or a negative 64-bit integer, or a finite double,
given by the rational it denotes (so that the two zeros are equal). -/
inductive Number where
  | posInt (n : UInt64)
  | negInt (n : Int64) (negative : n < 0)
  | float (value : ℚ) (double : IsDouble value)
  deriving DecidableEq

/-- A JSON value. The fields of an object stand in the order of their keys. -/
inductive Value where
  | null
  | bool (b : Bool)
  | number (n : Number)
  | string (s : String)
  | array (elements : List Value)
  | object (fields : List (String × Value))

abbrev Fields := List (String × Value)

mutual
def Value.beq : Value → Value → Bool
  | .null, .null => true
  | .bool a, .bool b => a == b
  | .number a, .number b => decide (a = b)
  | .string a, .string b => a == b
  | .array a, .array b => beqElements a b
  | .object a, .object b => beqFields a b
  | _, _ => false
def beqElements : List Value → List Value → Bool
  | [], [] => true
  | a :: as, b :: bs => a.beq b && beqElements as bs
  | _, _ => false
def beqFields : List (String × Value) → List (String × Value) → Bool
  | [], [] => true
  | (j, a) :: as, (k, b) :: bs => j == k && (a.beq b && beqFields as bs)
  | _, _ => false
end

mutual
theorem Value.beq_iff : ∀ a b : Value, a.beq b = true ↔ a = b
  | .null, b => by cases b <;> simp [Value.beq]
  | .bool _, b => by cases b <;> simp [Value.beq]
  | .number _, b => by cases b <;> simp [Value.beq]
  | .string _, b => by cases b <;> simp [Value.beq]
  | .array xs, b => by
    cases b with
    | array ys => simpa [Value.beq] using beqElements_iff xs ys
    | _ => simp [Value.beq]
  | .object xs, b => by
    cases b with
    | object ys => simpa [Value.beq] using beqFields_iff xs ys
    | _ => simp [Value.beq]
theorem beqElements_iff : ∀ xs ys : List Value, beqElements xs ys = true ↔ xs = ys
  | [], ys => by cases ys <;> simp [beqElements]
  | x :: xs, ys => by
    cases ys with
    | nil => simp [beqElements]
    | cons y ys => simp [beqElements, x.beq_iff y, beqElements_iff xs ys]
theorem beqFields_iff : ∀ xs ys : List (String × Value), beqFields xs ys = true ↔ xs = ys
  | [], ys => by cases ys <;> simp [beqFields]
  | (j, x) :: xs, ys => by
    cases ys with
    | nil => simp [beqFields]
    | cons entry ys =>
      obtain ⟨k, y⟩ := entry
      simp [beqFields, x.beq_iff y, beqFields_iff xs ys, and_assoc]
end

instance : DecidableEq Value := fun a b => decidable_of_iff _ (a.beq_iff b)

mutual
/-- The keys of every object in the value are distinct and in order. -/
def Value.valid : Value → Bool
  | .array elements => validElements elements
  | .object fields => validFields fields
  | _ => true
def validElements : List Value → Bool
  | [] => true
  | v :: rest => v.valid && validElements rest
def validFields : List (String × Value) → Bool
  | [] => true
  | (key, v) :: rest => rest.all (fun entry => decide (key < entry.1)) && (v.valid && validFields rest)
end

theorem validElements_iff {elements : List Value} :
    validElements elements = true ↔ ∀ v ∈ elements, v.valid = true := by
  induction elements with
  | nil => simp [validElements]
  | cons v rest ih => simp [validElements, ih]

theorem validFields_iff {fields : Fields} :
    validFields fields = true ↔ SortedMap.Sorted fields ∧ ∀ entry ∈ fields, entry.2.valid = true := by
  induction fields with
  | nil => simp [validFields, SortedMap.Sorted]
  | cons entry rest ih =>
    obtain ⟨key, v⟩ := entry
    simp only [validFields, Bool.and_eq_true, List.all_eq_true, decide_eq_true_eq, ih, SortedMap.Sorted,
      List.pairwise_cons, List.forall_mem_cons]
    tauto

theorem valid_array {elements : List Value} :
    (Value.array elements).valid = true ↔ ∀ v ∈ elements, v.valid = true := by
  rw [Value.valid, validElements_iff]

theorem valid_object {fields : Fields} :
    (Value.object fields).valid = true ↔
      SortedMap.Sorted fields ∧ ∀ entry ∈ fields, entry.2.valid = true := by
  rw [Value.valid, validFields_iff]

/-- A document as the parser builds it. -/
structure Json where
  value : Value
  valid : value.valid = true

theorem Json.ext {a b : Json} (h : a.value = b.value) : a = b := by
  cases a; cases b; cases h; rfl

instance : DecidableEq Json := fun a b =>
  decidable_of_iff (a.value = b.value) ⟨Json.ext, fun h => h ▸ rfl⟩

namespace Value

def isObject : Value → Bool
  | .object _ => true
  | _ => false

def isArray : Value → Bool
  | .array _ => true
  | _ => false

def isContainer (v : Value) : Bool :=
  v.isObject || v.isArray

def asObject : Value → Option Fields
  | .object fields => some fields
  | _ => none

def asArray : Value → Option (List Value)
  | .array elements => some elements
  | _ => none

def asStr : Value → Option String
  | .string s => some s
  | _ => none

def get (v : Value) (key : String) : Option Value :=
  v.asObject.bind (List.lookup key)

/-- The value at a path of object keys. -/
def at? (v : Value) : List String → Option Value
  | [] => some v
  | key :: rest => (v.get key).bind fun child => child.at? rest

end Value

@[simp] theorem Value.get_object (fields : Fields) (key : String) :
    (Value.object fields).get key = List.lookup key fields := rfl

theorem Value.get_of_not_object {v : Value} (h : v.isObject = false) (key : String) : v.get key = none := by
  cases v with
  | object fields => cases h
  | _ => rfl

/-- The value at a path of object keys below a value that may be absent. -/
def atPath (v : Option Value) (path : List String) : Option Value :=
  v.bind fun v => v.at? path

@[simp] theorem atPath_nil (v : Option Value) : atPath v [] = v := by
  cases v <;> rfl

@[simp] theorem atPath_none (path : List String) : atPath none path = none := rfl

theorem atPath_cons (v : Option Value) (key : String) (rest : List String) :
    atPath v (key :: rest) = atPath (v.bind fun v => v.get key) rest := by
  cases v with
  | none => rfl
  | some v =>
    change (v.get key).bind _ = (v.get key).bind _
    rfl

theorem get_valid {v child : Value} {key : String} (hv : v.valid = true) (h : v.get key = some child) :
    child.valid = true := by
  cases v with
  | object fields => exact (valid_object.mp hv).2 _ (SortedMap.lookup_mem h)
  | _ => simp [Value.get, Value.asObject] at h

end AgentDesktop
