import Mathlib.Data.List.Basic

namespace AgentDesktop

variable {α β : Type}

/-- A list around one of its entries. -/
theorem split_at {list : List α} {index : Nat} {x : α} (h : list[index]? = some x) :
    list = list.take index ++ x :: list.drop (index + 1) := by
  obtain ⟨hlength, hx⟩ := List.getElem?_eq_some_iff.mp h
  rw [← hx, ← List.drop_eq_getElem_cons hlength, List.take_append_drop]

theorem set_at {list : List α} {index : Nat} {x : α} (h : list[index]? = some x) (y : α) :
    list.set index y = list.take index ++ y :: list.drop (index + 1) := by
  obtain ⟨hlength, _⟩ := List.getElem?_eq_some_iff.mp h
  rw [List.set_eq_take_append_cons_drop, if_pos hlength]

theorem countP_set_at {list : List α} {index : Nat} {x : α} (h : list[index]? = some x) (y : α) (p : α → Bool) :
    (list.set index y).countP p + (p x).toNat = list.countP p + (p y).toNat := by
  have hlist : list.countP p = (list.take index).countP p + (x :: list.drop (index + 1)).countP p := by
    rw [← List.countP_append, ← split_at h]
  have hone : ∀ z, (if p z = true then 1 else 0) = (p z).toNat := fun z => by cases p z <;> rfl
  rw [set_at h y, hlist, List.countP_append, List.countP_cons, List.countP_cons, hone, hone]
  omega

/-- What is counted over the parts of the entries when one entry is replaced. -/
theorem countP_flatMap_set {list : List α} {index : Nat} {x : α} (h : list[index]? = some x) (y : α)
    (parts : α → List β) (p : β → Bool) :
    ((list.set index y).flatMap parts).countP p + (parts x).countP p =
      (list.flatMap parts).countP p + (parts y).countP p := by
  have hlist : (list.flatMap parts).countP p = ((list.take index).flatMap parts).countP p +
      ((parts x).countP p + ((list.drop (index + 1)).flatMap parts).countP p) := by
    rw [← List.countP_append, ← List.countP_append, ← List.flatMap_cons, ← List.flatMap_append, ← split_at h]
  rw [set_at h y, hlist, List.flatMap_append, List.flatMap_cons, List.countP_append, List.countP_append]
  omega

theorem map_set_at {list : List α} {index : Nat} {x y : α} {f : α → β} (h : list[index]? = some x) (hf : f y = f x) :
    (list.set index y).map f = list.map f := by
  have hlist : list.map f = (list.take index).map f ++ f x :: (list.drop (index + 1)).map f := by
    rw [← List.map_cons, ← List.map_append, ← split_at h]
  rw [set_at h y, hlist, List.map_append, List.map_cons, hf]

/-- One entry that only the weaker test counts. -/
theorem countP_lt_of_mem {list : List α} {x : α} {p q : α → Bool} (himp : ∀ y, p y = true → q y = true)
    (hmem : x ∈ list) (hp : p x = false) (hq : q x = true) : list.countP p < list.countP q := by
  obtain ⟨before, after, rfl⟩ := List.append_of_mem hmem
  have hbefore : before.countP p ≤ before.countP q := List.countP_mono_left fun y _ => himp y
  have hafter : after.countP p ≤ after.countP q := List.countP_mono_left fun y _ => himp y
  simp only [List.countP_append, List.countP_cons, hp, hq, if_true, Bool.false_eq_true, if_false]
  omega

/-- A table of the first numbers with one value changed. -/
theorem modify_range_map (n index : Nat) (g : Nat → α) (f : α → α) :
    ((List.range n).map g).modify index f = (List.range n).map fun i => if i = index then f (g i) else g i := by
  refine List.ext_getElem? fun i => ?_
  rw [List.getElem?_modify]
  by_cases hi : i < n
  · simp [hi, eq_comm]
  · simp [hi]

end AgentDesktop
