import Mathlib.Data.String.Basic
import Mathlib.Order.Basic

/-! Finite maps as association lists in increasing key order, and the type of
those lists. -/

namespace SortedMap

variable {κ α : Type*} [LinearOrder κ]

/-- Replaces the entry at `key`, or adds one at its place in the order. -/
def insert (key : κ) (value : α) : List (κ × α) → List (κ × α)
  | [] => [(key, value)]
  | (k, v) :: rest =>
    if key < k then (key, value) :: (k, v) :: rest
    else if key = k then (key, value) :: rest
    else (k, v) :: insert key value rest

def erase (key : κ) (m : List (κ × α)) : List (κ × α) :=
  m.filter fun entry => decide (entry.1 ≠ key)

/-- Stores `value` at `key`, or removes the entry when there is no value. -/
def update (key : κ) (value : Option α) (m : List (κ × α)) : List (κ × α) :=
  match value with
  | some v => insert key v m
  | none => erase key m

/-- Adds `key` to a set kept as an increasing list. -/
def insertKey (key : κ) : List κ → List κ
  | [] => [key]
  | k :: rest => if key < k then key :: k :: rest else if key = k then k :: rest else k :: insertKey key rest

def insertKeys (keys set : List κ) : List κ :=
  keys.foldl (fun set key => insertKey key set) set

def Sorted (m : List (κ × α)) : Prop :=
  m.Pairwise fun a b => a.1 < b.1

theorem lookup_cons_ite (key k : κ) (v : α) (rest : List (κ × α)) :
    List.lookup key ((k, v) :: rest) = if key = k then some v else List.lookup key rest := by
  by_cases h : key = k
  · simp [h]
  · simp [List.lookup_cons, h, beq_eq_false_iff_ne.mpr h]

@[simp] theorem lookup_insert_self (key : κ) (value : α) (m : List (κ × α)) :
    List.lookup key (insert key value m) = some value := by
  induction m with
  | nil => simp [insert]
  | cons entry rest ih =>
    obtain ⟨k, v⟩ := entry
    unfold insert
    split
    next => simp
    next =>
      split
      next => simp
      next hne => rw [lookup_cons_ite, if_neg hne, ih]

theorem lookup_insert_ne {key other : κ} (h : other ≠ key) (value : α) (m : List (κ × α)) :
    List.lookup other (insert key value m) = List.lookup other m := by
  induction m with
  | nil => simp [insert, lookup_cons_ite, h]
  | cons entry rest ih =>
    obtain ⟨k, v⟩ := entry
    unfold insert
    split
    next => rw [lookup_cons_ite, if_neg h]
    next =>
      split
      next heq => subst heq; simp only [lookup_cons_ite, if_neg h]
      next => simp only [lookup_cons_ite, ih]

theorem lookup_erase (key other : κ) (m : List (κ × α)) :
    List.lookup other (erase key m) = if other = key then none else List.lookup other m := by
  induction m with
  | nil => simp [erase]
  | cons entry rest ih =>
    obtain ⟨k, v⟩ := entry
    by_cases hk : k = key
    · subst hk
      have hdrop : erase k ((k, v) :: rest) = erase k rest := by simp [erase]
      rw [hdrop, ih, lookup_cons_ite]
      by_cases ho : other = k
      · simp [ho]
      · simp [ho]
    · have hkeep : erase key ((k, v) :: rest) = (k, v) :: erase key rest := by simp [erase, hk]
      rw [hkeep, lookup_cons_ite, lookup_cons_ite, ih]
      by_cases ho : other = k
      · subst ho; simp [hk]
      · simp [ho]

theorem lookup_update (key other : κ) (value : Option α) (m : List (κ × α)) :
    List.lookup other (update key value m) = if other = key then value else List.lookup other m := by
  cases value with
  | none => exact lookup_erase key other m
  | some v =>
    by_cases h : other = key
    · subst h; simp [update]
    · simp [update, lookup_insert_ne h, h]

/-- A pass that sets every listed key to `f key` leaves `f` on those keys and
the old entries elsewhere. -/
theorem lookup_foldl_update (f : κ → Option α) (keys : List κ) (m : List (κ × α)) (other : κ) :
    List.lookup other (keys.foldl (fun m key => update key (f key) m) m) =
      if other ∈ keys then f other else List.lookup other m := by
  induction keys generalizing m with
  | nil => simp
  | cons key rest ih =>
    rw [List.foldl_cons, ih, lookup_update]
    by_cases hr : other ∈ rest
    · simp [hr]
    · by_cases hk : other = key
      · subst hk; simp [hr]
      · simp [hr, hk]

theorem mem_keys_of_lookup {key : κ} {value : α} {m : List (κ × α)}
    (h : List.lookup key m = some value) : key ∈ m.map Prod.fst := by
  obtain ⟨front, back, hm, _⟩ := List.lookup_eq_some_iff.mp h
  subst hm
  simp

theorem lookup_mem {key : κ} {value : α} {m : List (κ × α)}
    (h : List.lookup key m = some value) : (key, value) ∈ m := by
  obtain ⟨front, back, hm, _⟩ := List.lookup_eq_some_iff.mp h
  subst hm
  simp

theorem lookup_none_of_not_mem {key : κ} {m : List (κ × α)} (h : key ∉ m.map Prod.fst) :
    List.lookup key m = none := by
  cases hl : List.lookup key m with
  | none => rfl
  | some value => exact absurd (mem_keys_of_lookup hl) h

theorem mem_insertKey {key other : κ} {set : List κ} :
    other ∈ insertKey key set ↔ other = key ∨ other ∈ set := by
  induction set with
  | nil => simp [insertKey]
  | cons k rest ih =>
    unfold insertKey
    split
    next => simp
    next =>
      split
      next heq => subst heq; simp
      next => simp only [List.mem_cons, ih]; tauto

theorem mem_insertKeys {keys set : List κ} {other : κ} :
    other ∈ insertKeys keys set ↔ other ∈ keys ∨ other ∈ set := by
  unfold insertKeys
  induction keys generalizing set with
  | nil => simp
  | cons key rest ih =>
    rw [List.foldl_cons, ih, mem_insertKey, List.mem_cons]
    tauto

theorem insertKey_increasing {key : κ} {set : List κ} (h : set.Pairwise (· < ·)) :
    (insertKey key set).Pairwise (· < ·) := by
  induction set with
  | nil => simp [insertKey]
  | cons k rest ih =>
    obtain ⟨hk, hrest⟩ := List.pairwise_cons.mp h
    unfold insertKey
    split
    next hlt =>
      refine List.pairwise_cons.mpr ⟨fun other hother => ?_, h⟩
      rcases List.mem_cons.mp hother with rfl | hother
      · exact hlt
      · exact hlt.trans (hk other hother)
    next hnlt =>
      split
      next => exact h
      next hne =>
        refine List.pairwise_cons.mpr ⟨fun other hother => ?_, ih hrest⟩
        rcases mem_insertKey.mp hother with rfl | hother
        · exact lt_of_le_of_ne (not_lt.mp hnlt) (Ne.symm hne)
        · exact hk other hother

theorem insertKeys_increasing {keys set : List κ} (h : set.Pairwise (· < ·)) :
    (insertKeys keys set).Pairwise (· < ·) := by
  unfold insertKeys
  induction keys generalizing set with
  | nil => exact h
  | cons key rest ih => exact ih (insertKey_increasing h)

theorem mem_of_mem_insert {key : κ} {value : α} {m : List (κ × α)} {entry : κ × α}
    (h : entry ∈ insert key value m) : entry = (key, value) ∨ entry ∈ m := by
  induction m with
  | nil => simpa [insert] using h
  | cons first rest ih =>
    obtain ⟨k, v⟩ := first
    unfold insert at h
    split at h
    next => simpa using h
    next =>
      split at h
      next =>
        rcases List.mem_cons.mp h with h | h
        · exact Or.inl h
        · exact Or.inr (List.mem_cons_of_mem _ h)
      next =>
        rcases List.mem_cons.mp h with h | h
        · exact Or.inr (by simp [h])
        · exact (ih h).imp_right (List.mem_cons_of_mem _)

theorem length_insert_le (key : κ) (value : α) (m : List (κ × α)) : (insert key value m).length ≤ m.length + 1 := by
  induction m with
  | nil => simp [insert]
  | cons entry rest ih =>
    obtain ⟨k, v⟩ := entry
    rw [insert]
    split
    next => simp
    next =>
      split
      next => simp
      next =>
        simp only [List.length_cons]
        omega

theorem insert_sorted {key : κ} {value : α} {m : List (κ × α)} (hs : Sorted m) :
    Sorted (insert key value m) := by
  induction m with
  | nil => simp [insert, Sorted]
  | cons first rest ih =>
    obtain ⟨k, v⟩ := first
    have hs' := List.pairwise_cons.mp hs
    unfold insert
    split
    next hlt =>
      refine List.pairwise_cons.mpr ⟨?_, hs⟩
      intro entry he
      rcases List.mem_cons.mp he with he | he
      · subst he; exact hlt
      · exact hlt.trans (hs'.1 entry he)
    next hnlt =>
      split
      next heq => subst heq; exact List.pairwise_cons.mpr ⟨hs'.1, hs'.2⟩
      next hne =>
        refine List.pairwise_cons.mpr ⟨?_, ih hs'.2⟩
        intro entry he
        rcases mem_of_mem_insert he with he | he
        · subst he; exact lt_of_le_of_ne (not_lt.mp hnlt) (Ne.symm hne)
        · exact hs'.1 entry he

theorem erase_sorted {key : κ} {m : List (κ × α)} (hs : Sorted m) : Sorted (erase key m) :=
  hs.sublist List.filter_sublist

theorem update_sorted {key : κ} {value : Option α} {m : List (κ × α)} (hs : Sorted m) :
    Sorted (update key value m) := by
  cases value with
  | none => exact erase_sorted hs
  | some v => exact insert_sorted hs

theorem mem_of_mem_update {key : κ} {value : Option α} {m : List (κ × α)} {entry : κ × α}
    (h : entry ∈ update key value m) : value = some entry.2 ∨ entry ∈ m := by
  cases value with
  | none => exact Or.inr (List.mem_of_mem_filter h)
  | some v =>
    rcases mem_of_mem_insert h with he | he
    · exact Or.inl (by simp [he])
    · exact Or.inr he

theorem foldl_update_sorted (f : κ → Option α) (keys : List κ) {m : List (κ × α)} (hs : Sorted m) :
    Sorted (keys.foldl (fun m key => update key (f key) m) m) := by
  induction keys generalizing m with
  | nil => exact hs
  | cons key rest ih => exact ih (update_sorted hs)

theorem mem_of_mem_foldl_update {f : κ → Option α} {keys : List κ} {m : List (κ × α)} {entry : κ × α}
    (h : entry ∈ keys.foldl (fun m key => update key (f key) m) m) :
    (∃ key, f key = some entry.2) ∨ entry ∈ m := by
  induction keys generalizing m with
  | nil => exact Or.inr h
  | cons key rest ih =>
    rcases ih h with hf | hm
    · exact Or.inl hf
    · exact (mem_of_mem_update hm).imp_left fun he => ⟨key, he⟩

theorem Sorted.lookup_head_none {entry : κ × α} {rest : List (κ × α)} (hs : Sorted (entry :: rest)) :
    List.lookup entry.1 rest = none := by
  refine lookup_none_of_not_mem fun hmem => ?_
  obtain ⟨other, hother, hkey⟩ := List.mem_map.mp hmem
  exact absurd ((List.pairwise_cons.mp hs).1 other hother) (hkey ▸ lt_irrefl _)

/-- The entries of a map are determined by what is found under its keys. -/
theorem Sorted.ext_lookup {m n : List (κ × α)} (hm : Sorted m) (hn : Sorted n)
    (h : ∀ key, List.lookup key m = List.lookup key n) : m = n := by
  have hle : ∀ {a b : κ × α} {m n : List (κ × α)}, Sorted (b :: n) →
      List.lookup a.1 (a :: m) = List.lookup a.1 (b :: n) → b.1 ≤ a.1 := by
    intro a b m n hs hlookup
    rw [lookup_cons_ite, if_pos rfl] at hlookup
    rcases List.mem_cons.mp (lookup_mem hlookup.symm) with heq | hmem
    · exact le_of_eq (congrArg Prod.fst heq).symm
    · exact le_of_lt ((List.pairwise_cons.mp hs).1 _ hmem)
  induction m generalizing n with
  | nil =>
    cases n with
    | nil => rfl
    | cons b n =>
      have hkey := h b.1
      rw [lookup_cons_ite, if_pos rfl] at hkey
      cases hkey
  | cons a m ih =>
    cases n with
    | nil =>
      have hkey := h a.1
      rw [lookup_cons_ite, if_pos rfl] at hkey
      cases hkey
    | cons b n =>
      have hsame : a.1 = b.1 := le_antisymm (hle hm (h b.1).symm) (hle hn (h a.1))
      obtain ⟨k, v⟩ := a
      obtain ⟨l, w⟩ := b
      obtain rfl : k = l := hsame
      have hvalue := h k
      rw [lookup_cons_ite, lookup_cons_ite, if_pos rfl, if_pos rfl] at hvalue
      obtain rfl := Option.some.inj hvalue
      have hrest : m = n := by
        refine ih (List.pairwise_cons.mp hm).2 (List.pairwise_cons.mp hn).2 fun key => ?_
        by_cases heq : key = k
        · subst heq
          rw [hm.lookup_head_none, hn.lookup_head_none]
        · have hkey := h key
          rwa [lookup_cons_ite, lookup_cons_ite, if_neg heq, if_neg heq] at hkey
      rw [hrest]

theorem Sorted.insert_self {m : List (κ × α)} (hm : Sorted m) {key : κ} {value : α}
    (h : List.lookup key m = some value) : insert key value m = m := by
  refine (insert_sorted hm).ext_lookup hm fun other => ?_
  by_cases heq : other = key
  · rw [heq, lookup_insert_self, h]
  · rw [lookup_insert_ne heq]

end SortedMap

/-- A finite map whose entries stand in increasing key order. -/
structure BTreeMap (κ α : Type*) [LinearOrder κ] where
  entries : List (κ × α)
  sorted : SortedMap.Sorted entries

namespace BTreeMap

variable {κ α : Type*} [LinearOrder κ]

def empty : BTreeMap κ α := ⟨[], List.Pairwise.nil⟩

def get? (m : BTreeMap κ α) (key : κ) : Option α :=
  List.lookup key m.entries

def insert (m : BTreeMap κ α) (key : κ) (value : α) : BTreeMap κ α :=
  ⟨SortedMap.insert key value m.entries, SortedMap.insert_sorted m.sorted⟩

instance [DecidableEq α] : DecidableEq (BTreeMap κ α) := fun a b =>
  decidable_of_iff (a.entries = b.entries)
    ⟨fun h => by cases a; cases b; cases h; rfl, fun h => h ▸ rfl⟩

@[simp] theorem get?_empty (key : κ) : (empty : BTreeMap κ α).get? key = none := rfl

theorem get?_insert (m : BTreeMap κ α) (key other : κ) (value : α) :
    (m.insert key value).get? other = if other = key then some value else m.get? other := by
  by_cases h : other = key
  · subst h; simp [insert, get?]
  · simp [insert, get?, SortedMap.lookup_insert_ne h, h]

theorem mem_entries_iff {m : BTreeMap κ α} {key : κ} {value : α} :
    (key, value) ∈ m.entries ↔ m.get? key = some value := by
  obtain ⟨entries, sorted⟩ := m
  constructor
  · intro h
    induction entries with
    | nil => simp at h
    | cons entry rest ih =>
      obtain ⟨k, v⟩ := entry
      have hs := List.pairwise_cons.mp sorted
      simp only [get?, SortedMap.lookup_cons_ite]
      rcases List.mem_cons.mp h with he | hr
      · simp_all
      · have hlt : k < key := hs.1 _ hr
        rw [if_neg (Ne.symm hlt.ne)]
        exact ih hs.2 hr
  · exact SortedMap.lookup_mem

end BTreeMap
