import Mathlib.Algebra.BigOperators.Group.List.Basic
import Mathlib.Algebra.Group.Hom.Instances

namespace AgentDesktop

section

variable {κ ι α : Type} [DecidableEq κ] [Add α]

/-- Adds to the row of a key, which is made where there is none. -/
def upsert (key : κ) (value : α) : List (κ × α) → List (κ × α)
  | [] => [(key, value)]
  | row :: rest => if row.1 = key then (row.1, row.2 + value) :: rest else row :: upsert key value rest

/-- Adds rows to a table one after another. -/
def upsertAll (rows table : List (κ × α)) : List (κ × α) :=
  rows.foldl (fun table row => upsert row.1 row.2 table) table

/-- The sums of rows by a group of their keys. -/
def groupSums (group : ι → κ) (rows : List (ι × α)) : List (κ × α) :=
  upsertAll (rows.map fun row => (group row.1, row.2)) []

theorem mem_keys_upsert {key other : κ} {value : α} {table : List (κ × α)} :
    other ∈ (upsert key value table).map Prod.fst ↔ other = key ∨ other ∈ table.map Prod.fst := by
  induction table with
  | nil => simp [upsert]
  | cons row rest ih =>
    unfold upsert
    split
    next hkey =>
      subst hkey
      simp
    next =>
      rw [List.map_cons, List.mem_cons, ih, List.map_cons, List.mem_cons]
      exact or_left_comm

variable {rows table : List (κ × α)}

theorem mem_keys_upsertAll {other : κ} :
    other ∈ (upsertAll rows table).map Prod.fst ↔ other ∈ rows.map Prod.fst ∨ other ∈ table.map Prod.fst := by
  induction rows generalizing table with
  | nil => simp [upsertAll]
  | cons row rest ih =>
    have hrest : other ∈ (upsertAll (row :: rest) table).map Prod.fst ↔
        other ∈ rest.map Prod.fst ∨ other ∈ (upsert row.1 row.2 table).map Prod.fst := ih
    rw [hrest, mem_keys_upsert, List.map_cons, List.mem_cons]
    exact ⟨by rintro (h | h | h) <;> simp [h], by rintro ((h | h) | h) <;> simp [h]⟩

/-- What holds of the keys that are added and of those there holds of all. -/
theorem upsertAll_keys (P : κ → Prop) (hrows : ∀ row ∈ rows, P row.1) (htable : ∀ row ∈ table, P row.1) :
    ∀ row ∈ upsertAll rows table, P row.1 := by
  intro row hrow
  rcases mem_keys_upsertAll.mp (List.mem_map_of_mem hrow) with hkey | hkey
  · obtain ⟨new, hnew, hkey⟩ := List.mem_map.mp hkey
    exact hkey ▸ hrows new hnew
  · obtain ⟨old, hold, hkey⟩ := List.mem_map.mp hkey
    exact hkey ▸ htable old hold

theorem exists_key_upsertAll (P : κ → Prop) :
    (∃ row ∈ upsertAll rows table, P row.1) ↔ (∃ row ∈ rows, P row.1) ∨ ∃ row ∈ table, P row.1 := by
  have hkeys : ∀ list : List (κ × α), (∃ row ∈ list, P row.1) ↔ ∃ key ∈ list.map Prod.fst, P key := by simp
  simp only [hkeys, mem_keys_upsertAll, or_and_right, exists_or]

theorem exists_key_groupSums (P : κ → Prop) {group : ι → κ} {rows : List (ι × α)} :
    (∃ row ∈ groupSums group rows, P row.1) ↔ ∃ row ∈ rows, P (group row.1) := by
  rw [groupSums, exists_key_upsertAll P, or_iff_left (by simp)]
  constructor
  · rintro ⟨sum, hsum, hP⟩
    obtain ⟨row, hrow, rfl⟩ := List.mem_map.mp hsum
    exact ⟨row, hrow, hP⟩
  · rintro ⟨row, hrow, hP⟩
    exact ⟨_, List.mem_map_of_mem hrow, hP⟩

end

section

variable {κ ι α β : Type} [AddCommMonoid α] [AddCommMonoid β]

/-- What the rows of a table sum up to, each weighed by its key. -/
def tableSum (weight : κ → α →+ β) (table : List (κ × α)) : β :=
  (table.map fun row => weight row.1 row.2).sum

@[simp] theorem tableSum_nil (weight : κ → α →+ β) : tableSum weight [] = 0 := rfl

@[simp] theorem tableSum_cons (weight : κ → α →+ β) (row : κ × α) (rest : List (κ × α)) :
    tableSum weight (row :: rest) = weight row.1 row.2 + tableSum weight rest :=
  List.sum_cons

@[simp] theorem tableSum_append (weight : κ → α →+ β) (first second : List (κ × α)) :
    tableSum weight (first ++ second) = tableSum weight first + tableSum weight second := by
  simp [tableSum]

theorem tableSum_congr {weight other : κ → α →+ β} {table : List (κ × α)}
    (h : ∀ row ∈ table, weight row.1 = other row.1) : tableSum weight table = tableSum other table := by
  unfold tableSum
  refine congrArg List.sum (List.map_congr_left fun row hrow => ?_)
  rw [h row hrow]

/-- Rows that do not pass a test weigh nothing. -/
theorem tableSum_filter (weight : κ → α →+ β) (p : κ → Bool) (table : List (κ × α)) :
    tableSum weight (table.filter fun row => p row.1) =
      tableSum (fun key => if p key then weight key else 0) table := by
  induction table with
  | nil => rfl
  | cons row rest ih =>
    rw [tableSum_cons, ← ih]
    cases hrow : p row.1 with
    | true =>
      rw [List.filter_cons_of_pos (by simp [hrow]), tableSum_cons]
      rfl
    | false =>
      rw [List.filter_cons_of_neg (by simp [hrow])]
      exact (zero_add _).symm

theorem tableSum_add (weight other : κ → α →+ β) (table : List (κ × α)) :
    tableSum (fun key => weight key + other key) table = tableSum weight table + tableSum other table := by
  induction table with
  | nil => simp
  | cons row rest ih =>
    rw [tableSum_cons, tableSum_cons, tableSum_cons, ih]
    exact add_add_add_comm _ _ _ _

theorem tableSum_map (weight : κ → α →+ β) (group : ι → κ) (table : List (ι × α)) :
    tableSum weight (table.map fun row => (group row.1, row.2)) = tableSum (fun key => weight (group key)) table := by
  simp [tableSum, Function.comp_def]

theorem tableSum_mapValues {γ : Type} [AddCommMonoid γ] (weight : κ → γ →+ β) (value : κ → α →+ γ)
    (table : List (κ × α)) :
    tableSum weight (table.map fun row => (row.1, value row.1 row.2)) =
      tableSum (fun key => (weight key).comp (value key)) table := by
  simp [tableSum, Function.comp_def]

theorem tableSum_perm (weight : κ → α →+ β) {first second : List (κ × α)} (h : first.Perm second) :
    tableSum weight first = tableSum weight second :=
  (h.map _).sum_eq

variable [DecidableEq κ]

theorem tableSum_upsert (weight : κ → α →+ β) (key : κ) (value : α) (table : List (κ × α)) :
    tableSum weight (upsert key value table) = weight key value + tableSum weight table := by
  induction table with
  | nil => simp [upsert]
  | cons row rest ih =>
    unfold upsert
    split
    next hkey =>
      subst hkey
      simp only [tableSum_cons, map_add]
      rw [add_comm (weight row.1 row.2), add_assoc]
    next =>
      rw [tableSum_cons, ih, tableSum_cons]
      exact add_left_comm _ _ _

theorem tableSum_upsertAll (weight : κ → α →+ β) (rows table : List (κ × α)) :
    tableSum weight (upsertAll rows table) = tableSum weight rows + tableSum weight table := by
  induction rows generalizing table with
  | nil => simp [upsertAll]
  | cons row rest ih =>
    have hrest : tableSum weight (upsertAll (row :: rest) table) =
        tableSum weight rest + tableSum weight (upsert row.1 row.2 table) := ih (upsert row.1 row.2 table)
    rw [hrest, tableSum_upsert, tableSum_cons, add_left_comm, add_assoc]

theorem tableSum_groupSums (weight : κ → α →+ β) (group : ι → κ) (rows : List (ι × α)) :
    tableSum weight (groupSums group rows) = tableSum (fun key => weight (group key)) rows := by
  rw [groupSums, tableSum_upsertAll, tableSum_map, tableSum_nil, add_zero]

end

end AgentDesktop
