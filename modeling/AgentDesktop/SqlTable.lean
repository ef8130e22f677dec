import Mathlib.Data.List.Dedup
import Mathlib.Data.List.Nodup
import Mathlib.Data.List.Sort

/-! Tables as lists of rows: inserts under a primary key, updates, left joins and groups. -/

namespace SqlTable

section

variable {ρ κ : Type} [DecidableEq κ] (key : ρ → κ)

def rowsOf (k : κ) (table : List ρ) : List ρ :=
  table.filter fun row => decide (key row = k)

/-- `DELETE … WHERE key = k`. -/
def deleteOf (k : κ) (table : List ρ) : List ρ :=
  table.filter fun row => decide (key row ≠ k)

/-- `UPDATE … WHERE key = k`. -/
def updateOf (k : κ) (update : ρ → ρ) (table : List ρ) : List ρ :=
  table.map fun row => if key row = k then update row else row

/-- `INSERT`: no row of the table may have the key of the new one. -/
def insert (row : ρ) (table : List ρ) : Option (List ρ) :=
  if key row ∈ table.map key then none else some (table ++ [row])

/-- `INSERT … ON CONFLICT (key) DO UPDATE`. -/
def upsert (update : ρ → ρ) (row : ρ) (table : List ρ) : List ρ :=
  if key row ∈ table.map key then updateOf key (key row) update table else table ++ [row]

end

section

variable {ρ κ : Type} [DecidableEq κ] {key : ρ → κ} {k other : κ} {table : List ρ}

@[simp] theorem rowsOf_nil : rowsOf key k [] = [] := rfl

@[simp] theorem rowsOf_append (first second : List ρ) :
    rowsOf key k (first ++ second) = rowsOf key k first ++ rowsOf key k second :=
  List.filter_append _ _

theorem mem_rowsOf {row : ρ} : row ∈ rowsOf key k table ↔ row ∈ table ∧ key row = k := by
  simp [rowsOf]

theorem rowsOf_eq_self {rows : List ρ} (h : ∀ row ∈ rows, key row = k) : rowsOf key k rows = rows :=
  List.filter_eq_self.mpr fun row hrow => decide_eq_true (h row hrow)

theorem rowsOf_eq_nil {rows : List ρ} (h : ∀ row ∈ rows, key row ≠ k) : rowsOf key k rows = [] :=
  List.filter_eq_nil_iff.mpr fun row hrow => by simpa using h row hrow

theorem rowsOf_eq_nil_iff : rowsOf key k table = [] ↔ k ∉ table.map key := by
  simp [rowsOf]

theorem rowsOf_snoc {row : ρ} :
    rowsOf key k (table ++ [row]) = if k = key row then rowsOf key k table ++ [row] else rowsOf key k table := by
  rw [rowsOf_append]
  split
  next h =>
    have hown : rowsOf key k [row] = [row] := rowsOf_eq_self (by simp [h])
    rw [hown]
  next h =>
    have hother : rowsOf key k [row] = [] := rowsOf_eq_nil (by simpa using Ne.symm h)
    rw [hother, List.append_nil]

@[simp] theorem rowsOf_deleteOf_self : rowsOf key k (deleteOf key k table) = [] :=
  rowsOf_eq_nil fun row hrow => by simpa using (List.mem_filter.mp hrow).2

theorem rowsOf_deleteOf_ne (h : other ≠ k) : rowsOf key other (deleteOf key k table) = rowsOf key other table := by
  unfold rowsOf deleteOf
  rw [List.filter_filter]
  refine List.filter_congr fun row _ => ?_
  by_cases hrow : key row = other
  · simp [hrow, h]
  · simp [hrow]

/-- An update that keeps the keys changes the rows of its key and no others. -/
theorem rowsOf_updateOf {update : ρ → ρ} (hkeeps : ∀ row, key (update row) = key row) :
    rowsOf key other (updateOf key k update table) =
      if other = k then (rowsOf key other table).map update else rowsOf key other table := by
  induction table with
  | nil => simp [updateOf]
  | cons row rest ih =>
    have hcons : updateOf key k update (row :: rest) =
        (if key row = k then update row else row) :: updateOf key k update rest := rfl
    unfold rowsOf at ih ⊢
    rw [hcons, List.filter_cons, List.filter_cons, ih]
    by_cases hrow : key row = k
    · by_cases hother : other = k
      · simp [hrow, hother, hkeeps]
      · simp [hrow, hother, hkeeps, Ne.symm hother]
    · by_cases hother : other = k
      · simp [hrow, hother]
      · simp [hrow, hother]

theorem rowsOf_upsert {update : ρ → ρ} {row : ρ} (hkeeps : ∀ row, key (update row) = key row) :
    rowsOf key k (upsert key update row table) =
      if k = key row then
        (if rowsOf key k table = [] then [row] else (rowsOf key k table).map update)
      else rowsOf key k table := by
  unfold upsert
  by_cases hkey : k = key row
  · subst hkey
    by_cases hthere : key row ∈ table.map key
    · rw [if_pos hthere, if_pos rfl, rowsOf_updateOf hkeeps, if_pos rfl, if_neg]
      exact fun hnone => rowsOf_eq_nil_iff.mp hnone hthere
    · have hnone : rowsOf key (key row) table = [] := rowsOf_eq_nil_iff.mpr hthere
      rw [if_neg hthere, if_pos rfl, if_pos hnone, rowsOf_snoc, if_pos rfl, hnone]
      rfl
  · rw [if_neg hkey]
    split
    next => rw [rowsOf_updateOf hkeeps, if_neg hkey]
    next => rw [rowsOf_snoc, if_neg hkey]

theorem nodup_of_rowsOf (h : ∀ k, (rowsOf key k table).length ≤ 1) : (table.map key).Nodup := by
  rw [List.nodup_iff_count_le_one]
  intro k
  have hcount : (table.map key).count k = (rowsOf key k table).length := by
    rw [List.count, List.countP_map, List.countP_eq_length_filter]
    rfl
  rw [hcount]
  exact h k

end

section

variable {ρ κ α ε : Type} [DecidableEq κ]

/-- Inserts the rows that items make, one after another; making a row may fail, and so
may inserting it. -/
def insertAll (key : ρ → κ) (conflict : ε) (make : α → Except ε ρ) : List α → List ρ → Except ε (List ρ)
  | [], table => .ok table
  | item :: rest, table =>
    match make item with
    | .error error => .error error
    | .ok row =>
      match insert key row table with
      | none => .error conflict
      | some next => insertAll key conflict make rest next

/-- The rows that items make, if each makes one. -/
def makeAll (make : α → Except ε ρ) : List α → Option (List ρ)
  | [] => some []
  | item :: rest =>
    match make item with
    | .error _ => none
    | .ok row => (makeAll make rest).map (row :: ·)

variable {key : ρ → κ} {conflict : ε} {make : α → Except ε ρ}

theorem makeAll_forall {P : ρ → Prop}
    (h : ∀ item row, make item = .ok row → P row) {items : List α} {rows : List ρ}
    (hrows : makeAll make items = some rows) : ∀ row ∈ rows, P row := by
  induction items generalizing rows with
  | nil => cases hrows; simp
  | cons item rest ih =>
    rw [makeAll] at hrows
    cases hmake : make item with
    | error error => simp [hmake] at hrows
    | ok row =>
      rw [hmake] at hrows
      obtain ⟨others, hothers, rfl⟩ := Option.map_eq_some_iff.mp hrows
      exact List.forall_mem_cons.mpr ⟨h item row hmake, ih hothers⟩

/-- Rows that are made of other values are the values', each made into its row. -/
theorem makeAll_map {β : Type} {read : α → Except ε β} {row : β → ρ}
    (h : ∀ item, make item = (read item).map row) (items : List α) :
    makeAll make items = (makeAll read items).map (List.map row) := by
  induction items with
  | nil => rfl
  | cons item rest ih =>
    rw [makeAll, makeAll, h, ih]
    cases read item with
    | error error => rfl
    | ok value => cases makeAll read rest <;> rfl

theorem makeAll_ok {row : α → ρ} (h : ∀ item, make item = .ok (row item)) (items : List α) :
    makeAll make items = some (items.map row) := by
  induction items with
  | nil => rfl
  | cons item rest ih =>
    rw [makeAll, h, ih]
    rfl

theorem insertAll_cons_ok {item : α} {rest : List α} {table next : List ρ} :
    insertAll key conflict make (item :: rest) table = .ok next ↔
      ∃ row, make item = .ok row ∧ key row ∉ table.map key ∧
        insertAll key conflict make rest (table ++ [row]) = .ok next := by
  rw [insertAll]
  cases hmake : make item with
  | error error => simp
  | ok row =>
    dsimp only
    unfold insert
    by_cases hkey : key row ∈ table.map key
    · rw [if_pos hkey]
      refine iff_of_false (by simp) ?_
      rintro ⟨_, hrow, hnew, -⟩
      cases hrow
      exact hnew hkey
    · rw [if_neg hkey]
      refine ⟨fun h => ⟨row, rfl, hkey, h⟩, ?_⟩
      rintro ⟨_, hrow, -, h⟩
      cases hrow
      exact h

/-- The rows are all added if they can be made and no two rows have one key. -/
theorem insertAll_ok {items : List α} {table next : List ρ} :
    insertAll key conflict make items table = .ok next ↔
      ∃ rows, makeAll make items = some rows ∧ (rows.map key).Nodup ∧
        (∀ row ∈ rows, key row ∉ table.map key) ∧ next = table ++ rows := by
  induction items generalizing table with
  | nil =>
    simp only [insertAll, makeAll, Except.ok.injEq, Option.some.injEq, exists_eq_left', List.map_nil, List.nodup_nil,
      List.not_mem_nil, false_implies, implies_true, true_and, List.append_nil]
    exact eq_comm
  | cons item rest ih =>
    rw [insertAll_cons_ok]
    constructor
    · rintro ⟨row, hmake, hnew, hrest⟩
      obtain ⟨rows, hrows, hdistinct, hfresh, rfl⟩ := ih.mp hrest
      refine ⟨row :: rows, by rw [makeAll, hmake, hrows]; rfl, ?_, ?_, by simp⟩
      · rw [List.map_cons, List.nodup_cons]
        refine ⟨fun hmem => ?_, hdistinct⟩
        obtain ⟨other, hother, hkey⟩ := List.mem_map.mp hmem
        exact hfresh other hother (by simp [hkey])
      · intro other hother
        rcases List.mem_cons.mp hother with rfl | hother
        · exact hnew
        · exact fun hmem => hfresh other hother (by rw [List.map_append]; exact List.mem_append_left _ hmem)
    · rintro ⟨all, hall, hdistinct, hfresh, rfl⟩
      rw [makeAll] at hall
      cases hmake : make item with
      | error error => simp [hmake] at hall
      | ok row =>
        rw [hmake] at hall
        obtain ⟨rows, hrows, rfl⟩ := Option.map_eq_some_iff.mp hall
        obtain ⟨hrow, hrest⟩ := List.nodup_cons.mp hdistinct
        refine ⟨row, rfl, hfresh row List.mem_cons_self, ih.mpr ⟨rows, hrows, hrest, ?_, by simp⟩⟩
        intro other hother hmem
        rw [List.map_append, List.mem_append] at hmem
        rcases hmem with hmem | hmem
        · exact hfresh other (List.mem_cons_of_mem _ hother) hmem
        · rw [List.map_singleton, List.mem_singleton] at hmem
          exact hrow (hmem ▸ List.mem_map_of_mem hother)

end

section

variable {α β ρ κ : Type} [DecidableEq κ]

/-- A row with the rows it matches, or with none. -/
def joinRow (row : α) : List β → List (α × Option β)
  | [] => [(row, none)]
  | first :: rest => (first :: rest).map fun other => (row, some other)

def leftJoin (on : α → β → Bool) (left : List α) (right : List β) : List (α × Option β) :=
  left.flatMap fun row => joinRow row (right.filter (on row))

theorem joinRow_ne_nil (row : α) (matched : List β) : joinRow row matched ≠ [] := by
  cases matched <;> simp [joinRow]

theorem fst_of_mem_joinRow {row : α} {matched : List β} {joined : α × Option β} (h : joined ∈ joinRow row matched) :
    joined.1 = row := by
  cases matched with
  | nil => rw [List.mem_singleton.mp h]
  | cons first rest =>
    obtain ⟨_, _, rfl⟩ := List.mem_map.mp h
    rfl

/-- `COUNT` of a column of the right table. -/
theorem count_joinRow (row : α) (matched : List β) :
    ((joinRow row matched).filter fun joined => joined.2.isSome).length = matched.length := by
  cases matched with
  | nil => rfl
  | cons first rest =>
    rw [joinRow, List.filter_eq_self.mpr, List.length_map]
    intro joined hjoined
    obtain ⟨_, _, rfl⟩ := List.mem_map.mp hjoined
    rfl

/-- `GROUP BY`: each key with its rows. -/
def groupBy (key : ρ → κ) (rows : List ρ) : List (κ × List ρ) :=
  (rows.map key).dedup.map fun k => (k, rowsOf key k rows)

/-- Rows that come in blocks of one key each are grouped by these blocks. -/
theorem groupBy_flatMap {key : ρ → κ} {group : α → κ} {block : α → List ρ} {items : List α}
    (hdistinct : (items.map group).Nodup) (hblock : ∀ item, block item ≠ [])
    (hkey : ∀ item, ∀ row ∈ block item, key row = group item) :
    groupBy key (items.flatMap block) = items.map fun item => (group item, block item) := by
  induction items with
  | nil => rfl
  | cons item rest ih =>
    obtain ⟨hnew, hrest⟩ := List.nodup_cons.mp hdistinct
    have hapart : ∀ row ∈ rest.flatMap block, key row ≠ group item := by
      intro row hrow heq
      obtain ⟨other, hother, hmem⟩ := List.mem_flatMap.mp hrow
      exact hnew (List.mem_map.mpr ⟨other, hother, (hkey other row hmem).symm.trans heq⟩)
    have hnone : group item ∉ (rest.flatMap block).map key := by
      intro hmem
      obtain ⟨row, hrow, heq⟩ := List.mem_map.mp hmem
      exact hapart row hrow heq
    -- the keys of the first block are one key, which the other blocks do not have
    have hkeys : ((block item).map key ++ (rest.flatMap block).map key).dedup =
        group item :: ((rest.flatMap block).map key).dedup := by
      have hsame : (block item).map key = List.replicate (block item).length (group item) :=
        List.eq_replicate_iff.mpr ⟨List.length_map _, List.forall_mem_map.mpr (hkey item)⟩
      have hdisjoint : List.Disjoint (List.replicate (block item).length (group item)) ((rest.flatMap block).map key) :=
        fun k hk => List.eq_of_mem_replicate hk ▸ hnone
      rw [hsame, hdisjoint.dedup_append, List.replicate_dedup fun h => hblock item (List.length_eq_zero_iff.mp h)]
      rfl
    unfold groupBy at ih ⊢
    rw [List.flatMap_cons, List.map_append, hkeys, List.map_cons, List.map_cons, ← ih hrest]
    congr 1
    · rw [rowsOf_append, rowsOf_eq_self (hkey item), rowsOf_eq_nil hapart, List.append_nil]
    · refine List.map_congr_left fun k hk => ?_
      have hne : group item ≠ k := by
        rintro rfl
        exact hnone (List.mem_dedup.mp hk)
      have hfirst : rowsOf key k (block item) = [] := rowsOf_eq_nil fun row hrow =>
        (hkey item row hrow).symm ▸ hne
      rw [rowsOf_append, hfirst, List.nil_append]

end

section

variable {ρ κ ι : Type} [LinearOrder κ] [LinearOrder ι] (first : ρ → κ) (second : ρ → ι)

/-- `ORDER BY first, second`. -/
def orderedBy (a b : ρ) : Prop :=
  first a < first b ∨ (first a = first b ∧ second a ≤ second b)

instance : DecidableRel (orderedBy first second) := fun _ _ => inferInstanceAs (Decidable (_ ∨ _))

end

end SqlTable
