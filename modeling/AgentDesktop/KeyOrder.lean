import AgentDesktop.SortedMap
import Mathlib.Data.List.Induction
import Mathlib.Data.List.Sort

/-! Entries sorted by their keys, and the map that they are collected into. -/

variable {κ α : Type*} [LinearOrder κ]

namespace SortedMap

def keyLe (a b : κ × α) : Prop :=
  a.1 ≤ b.1

instance : DecidableRel (@keyLe κ α _) := fun a b => inferInstanceAs (Decidable (a.1 ≤ b.1))

instance : Std.Total (@keyLe κ α _) := ⟨fun a b => le_total a.1 b.1⟩

instance : IsTrans (κ × α) keyLe := ⟨fun _ _ _ => le_trans⟩

/-- The stable sort of entries by their keys. -/
def sortByKey (entries : List (κ × α)) : List (κ × α) :=
  entries.insertionSort keyLe

/-- The values under a key, in the order of the entries. -/
def valuesOf (key : κ) (entries : List (κ × α)) : List α :=
  (entries.filter fun entry => decide (entry.1 = key)).map Prod.snd

theorem valuesOf_cons (key k : κ) (value : α) (entries : List (κ × α)) :
    valuesOf key ((k, value) :: entries) = if k = key then value :: valuesOf key entries else valuesOf key entries := by
  by_cases heq : k = key
  · simp [valuesOf, heq]
  · simp [valuesOf, heq]

/-- Entries with one key stay in their order. -/
theorem filter_sortByKey (key : κ) (entries : List (κ × α)) :
    (sortByKey entries).filter (fun entry => decide (entry.1 = key)) =
      entries.filter fun entry => decide (entry.1 = key) := by
  have hsame : (entries.filter fun entry => decide (entry.1 = key)).Pairwise keyLe := by
    refine List.pairwise_filter.mpr (List.pairwise_of_forall fun a b ha hb => ?_)
    exact le_of_eq ((of_decide_eq_true ha).trans (of_decide_eq_true hb).symm)
  have hsub := (List.sublist_insertionSort hsame List.filter_sublist).filter fun entry => decide (entry.1 = key)
  simp only [List.filter_filter, Bool.and_self] at hsub
  have hlength := ((List.perm_insertionSort keyLe entries).filter fun entry => decide (entry.1 = key)).length_eq
  exact (hsub.eq_of_length hlength.symm).symm

theorem valuesOf_sortByKey (key : κ) (entries : List (κ × α)) :
    valuesOf key (sortByKey entries) = valuesOf key entries := by
  unfold valuesOf
  rw [filter_sortByKey]

/-- Entries with distinct keys are sorted in one way. -/
theorem sortByKey_eq_of_perm {entries others : List (κ × α)} (hdistinct : (entries.map Prod.fst).Nodup)
    (hperm : others.Perm entries) : sortByKey others = sortByKey entries := by
  have hsorted : (sortByKey others).Perm (sortByKey entries) :=
    (List.perm_insertionSort keyLe others).trans (hperm.trans (List.perm_insertionSort keyLe entries).symm)
  refine hsorted.eq_of_pairwise ?_ (List.pairwise_insertionSort keyLe others)
    (List.pairwise_insertionSort keyLe entries)
  intro a b ha hb hab hba
  have ha : a ∈ entries := hperm.mem_iff.mp ((List.mem_insertionSort keyLe).mp ha)
  have hb : b ∈ entries := (List.mem_insertionSort keyLe).mp hb
  exact List.inj_on_of_nodup_map hdistinct ha hb (le_antisymm hab hba)

/-- A key with one value has it as its last one. -/
theorem getLast_valuesOf {entries : List (κ × α)} {key : κ} (h : entries.countP (·.1 = key) ≤ 1) :
    (valuesOf key entries).getLast? = List.lookup key entries := by
  induction entries with
  | nil => rfl
  | cons entry rest ih =>
    obtain ⟨k, value⟩ := entry
    rw [valuesOf_cons, lookup_cons_ite]
    by_cases heq : k = key
    · rw [List.countP_cons_of_pos (by simpa using heq)] at h
      have hrest : rest.countP (·.1 = key) = 0 := by omega
      have hnone : valuesOf key rest = [] := by
        rw [valuesOf, List.map_eq_nil_iff, List.filter_eq_nil_iff]
        exact List.countP_eq_zero.mp hrest
      rw [if_pos heq, if_pos heq.symm, hnone]
      rfl
    · rw [List.countP_cons_of_neg (by simpa using heq)] at h
      rw [if_neg heq, if_neg (Ne.symm heq), ih h]

theorem Sorted.countP_le_one {entries : List (κ × α)} (hs : Sorted entries) (key : κ) :
    entries.countP (·.1 = key) ≤ 1 := by
  induction entries with
  | nil => simp
  | cons entry rest ih =>
    by_cases heq : entry.1 = key
    · have hnone : rest.countP (·.1 = key) = 0 := by
        rw [List.countP_eq_zero]
        intro other hother hkey
        have hlt := (List.pairwise_cons.mp hs).1 other hother
        rw [heq, of_decide_eq_true hkey] at hlt
        exact lt_irrefl _ hlt
      rw [List.countP_cons_of_pos (by simpa using heq), hnone]
    · rw [List.countP_cons_of_neg (by simpa using heq)]
      exact ih (List.pairwise_cons.mp hs).2

section

variable {f : κ × α → Option (κ × α)} (hkey : ∀ entry kept, f entry = some kept → kept.1 = entry.1)
  {entries : List (κ × α)} (hs : Sorted entries)

include hkey hs

theorem Sorted.filterMap_sorted : Sorted (entries.filterMap f) := by
  refine List.Pairwise.filterMap f ?_ hs
  intro a b hlt a' ha b' hb
  rw [hkey a a' ha, hkey b b' hb]
  exact hlt

/-- What a map that keeps the keys makes of the value under a key. -/
theorem Sorted.lookup_filterMap (key : κ) : List.lookup key (entries.filterMap f) =
    (List.lookup key entries).bind fun value => (f (key, value)).map Prod.snd := by
  induction entries with
  | nil => rfl
  | cons entry rest ih =>
    have hrest := ih (List.pairwise_cons.mp hs).2
    obtain ⟨k, value⟩ := entry
    rw [lookup_cons_ite]
    by_cases heq : key = k
    · subst heq
      rw [if_pos rfl, Option.bind_some]
      rw [hs.lookup_head_none, Option.bind_none] at hrest
      cases hf : f (key, value) with
      | none => rw [List.filterMap_cons_none hf, hrest, Option.map_none]
      | some kept =>
        have hkept := hkey _ _ hf
        rw [List.filterMap_cons_some hf, lookup_cons_ite, if_pos hkept.symm, Option.map_some]
    · rw [if_neg heq, ← hrest]
      cases hf : f (k, value) with
      | none => rw [List.filterMap_cons_none hf]
      | some kept =>
        have hkept := hkey _ _ hf
        rw [List.filterMap_cons_some hf, lookup_cons_ite, if_neg (fun h => heq (h.trans hkept))]

end

end SortedMap

namespace BTreeMap

/-- The map of the entries; the last one with a key wins. -/
def collect (entries : List (κ × α)) : BTreeMap κ α :=
  entries.foldl (fun m entry => m.insert entry.1 entry.2) empty

theorem get?_collect (entries : List (κ × α)) (key : κ) :
    (collect entries).get? key = (SortedMap.valuesOf key entries).getLast? := by
  induction entries using List.reverseRecOn with
  | nil => rfl
  | append_singleton entries entry ih =>
    have hcollect : collect (entries ++ [entry]) = (collect entries).insert entry.1 entry.2 := by
      simp [collect]
    rw [hcollect, get?_insert, ih]
    by_cases heq : key = entry.1
    · simp [SortedMap.valuesOf, heq]
    · simp [SortedMap.valuesOf, heq, Ne.symm heq]

theorem lookup_collect {entries : List (κ × α)} {key : κ} (h : entries.countP (·.1 = key) ≤ 1) :
    List.lookup key (collect entries).entries = List.lookup key entries :=
  (get?_collect entries key).trans (SortedMap.getLast_valuesOf h)

theorem collect_sorted {entries : List (κ × α)} (hs : SortedMap.Sorted entries) :
    (collect entries).entries = entries :=
  (collect entries).sorted.ext_lookup hs fun key => lookup_collect (hs.countP_le_one key)

end BTreeMap
