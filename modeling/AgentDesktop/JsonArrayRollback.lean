import AgentDesktop.JsonRollback
import Mathlib.Data.List.Perm.Lattice
import Mathlib.Data.List.Count

namespace AgentDesktop

/-- How often a rolled back array has a value that the original, the written and the current
array have so often. -/
def rolledBackCount (before after current : Nat) : Nat :=
  if after ≤ current then if before ≤ after then before + current - after else max before current
  else before - (after - current)

/-- A list without the first occurrences of each value, as many as its quota. -/
def leaveOut (quota : Value → Nat) : List Value → List Value
  | [] => []
  | v :: rest =>
    if 0 < quota v then leaveOut (fun w => quota w - if w = v then 1 else 0) rest else v :: leaveOut quota rest

theorem count_erase_eq (v value : Value) (elements : List Value) :
    (elements.erase value).count v = elements.count v - if v = value then 1 else 0 := by
  by_cases heq : v = value
  · simp [heq]
  · rw [List.count_erase_of_ne heq, if_neg heq, Nat.sub_zero]

theorem count_cons_eq (v value : Value) (elements : List Value) :
    (value :: elements).count v = elements.count v + if v = value then 1 else 0 := by
  by_cases heq : v = value
  · simp [heq]
  · rw [List.count_cons_of_ne (Ne.symm heq), if_neg heq, Nat.add_zero]

theorem count_foldl_erase (v : Value) (elements removed : List Value) :
    (removed.foldl List.erase elements).count v = elements.count v - removed.count v := by
  rw [← List.diff_eq_foldl, List.count_diff]

/-- An additive merge adds nothing that is there. -/
theorem mergeElements_count {base : List Value} {v : Value} (hv : v ∈ base) (overlay : List Value) :
    (mergeElements base overlay).count v = base.count v := by
  have hnone : (missingElements base overlay).count v = 0 :=
    List.count_eq_zero.mpr fun hmem => (mem_missingElements.mp hmem).2 hv
  rw [mergeElements_eq, List.count_append, hnone, Nat.add_zero]

/-- What the written array takes back of each value. -/
theorem takeBack_count (v : Value) (after : List Value) (s : Restoring) :
    (after.foldl Restoring.takeBack s).restored.count v = s.restored.count v - after.count v ∧
      (after.foldl Restoring.takeBack s).added.count v = s.added.count v - after.count v ∧
      (after.foldl Restoring.takeBack s).result.count v =
        s.result.count v - (after.count v - s.added.count v) := by
  induction after generalizing s with
  | nil => simp
  | cons value rest ih =>
    obtain ⟨hrestored, hadded, hresult⟩ := ih (s.takeBack value)
    rw [List.foldl_cons, hrestored, hadded, hresult, count_cons_eq]
    by_cases hmem : value ∈ s.added
    · have hpos := List.count_pos_iff.mpr hmem
      simp only [Restoring.takeBack, if_pos hmem, count_erase_eq]
      by_cases heq : v = value
      · subst heq
        simp only [if_true]
        omega
      · simp only [if_neg heq]
        omega
    · have hzero := List.count_eq_zero_of_not_mem hmem
      simp only [Restoring.takeBack, if_neg hmem, count_erase_eq]
      by_cases heq : v = value
      · subst heq
        simp only [if_true]
        omega
      · simp only [if_neg heq]
        omega

theorem keep_result (added : List Value) (s : Restoring) :
    (added.foldl Restoring.keep s).result = s.result ++ leaveOut (fun v => s.restored.count v) added := by
  induction added generalizing s with
  | nil => simp [leaveOut]
  | cons value rest ih =>
    rw [List.foldl_cons, ih, leaveOut]
    by_cases hmem : value ∈ s.restored
    · rw [if_pos (List.count_pos_iff.mpr hmem)]
      simp only [Restoring.keep, if_pos hmem, count_erase_eq]
    · rw [if_neg (by simpa using hmem)]
      simp only [Restoring.keep, if_neg hmem, List.append_assoc, List.singleton_append]

theorem leaveOut_count (v : Value) (quota : Value → Nat) (elements : List Value) :
    (leaveOut quota elements).count v = elements.count v - quota v := by
  induction elements generalizing quota with
  | nil => simp [leaveOut]
  | cons value rest ih =>
    rw [leaveOut, count_cons_eq]
    split
    next hpos =>
      rw [ih]
      by_cases heq : v = value
      · subst heq
        simp only [if_true]
        omega
      · simp only [if_neg heq]
        omega
    next hnone =>
      rw [count_cons_eq, ih]
      by_cases heq : v = value
      · subst heq
        omega
      · simp only [if_neg heq]
        omega

theorem rollbackReplaced_count (v : Value) (current before after : List Value) :
    (rollbackReplaced current before after).count v =
      rolledBackCount (before.count v) (after.count v) (current.count v) := by
  obtain ⟨hrestored, hadded, hresult⟩ := takeBack_count v after ⟨before, before, current⟩
  rw [rollbackReplaced, keep_result, List.count_append, leaveOut_count, hrestored, hadded, hresult, rolledBackCount]
  dsimp only
  split
  · split <;> omega
  · omega

theorem rollbackAdded_count {current before after : List Value}
    (hkept : ∀ v ∈ before, after.count v = before.count v) (v : Value) :
    (rollbackAdded current before after).count v =
      rolledBackCount (before.count v) (after.count v) (current.count v) := by
  rw [rollbackAdded, count_foldl_erase, rolledBackCount]
  by_cases hmem : v ∈ before
  · have hnone : (after.filter fun value => decide (value ∉ before)).count v = 0 :=
      List.count_eq_zero_of_not_mem (by simp [hmem])
    have hsame := hkept v hmem
    rw [hnone]
    split
    · split <;> omega
    · omega
  · have hall : (after.filter fun value => decide (value ∉ before)).count v = after.count v :=
      List.count_filter (by simpa using hmem)
    have hzero := List.count_eq_zero_of_not_mem hmem
    rw [hall, hzero]
    split
    · split <;> omega
    · omega

theorem rollbackElements_count {current before after : List Value}
    (hafter : (∃ overlay, after = mergeElements before overlay) ∨ after.Nodup) (v : Value) :
    (rollbackElements current before after).count v =
      rolledBackCount (before.count v) (after.count v) (current.count v) := by
  unfold rollbackElements
  split
  next hstart =>
    refine rollbackAdded_count (fun w hw => ?_) v
    rcases hafter with ⟨overlay, rfl⟩ | hdistinct
    · exact mergeElements_count hw overlay
    · rw [hdistinct.count, hdistinct.sublist hstart.sublist |>.count, if_pos hw, if_pos (hstart.subset hw)]
  next => exact rollbackReplaced_count v current before after

/-- What the user appended to a replaced array comes after the original elements. -/
theorem takeBack_append (before after rest restored : List Value) :
    after.foldl Restoring.takeBack ⟨before, restored, after ++ rest⟩ =
      ⟨before, after.foldl List.erase restored, rest⟩ := by
  induction after generalizing restored with
  | nil => rfl
  | cons value after ih =>
    have hstep : Restoring.takeBack ⟨before, restored, value :: after ++ rest⟩ value =
        ⟨before, restored.erase value, after ++ rest⟩ := by
      simp [Restoring.takeBack]
    rw [List.foldl_cons, hstep, ih, List.foldl_cons]

theorem rollbackReplaced_append (before after rest : List Value) :
    rollbackReplaced (after ++ rest) before after =
      before ++ leaveOut (fun v => before.count v - after.count v) rest := by
  simp only [rollbackReplaced, takeBack_append, keep_result, count_foldl_erase]

/-- The rollback of an array has each value as often as the counts of the three arrays say,
and what the user appended to a replacement stands after the original elements. -/
theorem array_rollback_exact {before after current : List Value}
    (hafter : (∃ overlay, after = mergeElements before overlay) ∨ after.Nodup)
    (hcurrent : current ≠ after) (hbefore : before ≠ after) :
    ∃ result, rollbackValue (some (.array current)) (some (.array before)) (some (.array after)) =
        some (.array result) ∧
      (∀ v, result.count v = rolledBackCount (before.count v) (after.count v) (current.count v)) ∧
      ∀ rest, current = after ++ rest → ¬ before <+: after →
        result = before ++ leaveOut (fun v => before.count v - after.count v) rest := by
  refine ⟨rollbackElements current before after, ?_, rollbackElements_count hafter, ?_⟩
  · simp [rollbackValue, hcurrent, hbefore, rollbackPresent, isNoneOr, Value.isArray, Value.asArray]
  · rintro rest rfl hstart
    rw [rollbackElements, if_neg hstart, rollbackReplaced_append]

theorem array_rollback_exact_replaced :
    rollbackValue (some (.array [.bool true, .null, .string "a", .string "b"]))
        (some (.array [.string "a", .string "a", .null])) (some (.array [.bool true, .null])) =
      some (.array [.string "a", .string "a", .null, .string "b"]) := by
  have h := @array_rollback_exact [.string "a", .string "a", .null] [.bool true, .null]
    [.bool true, .null, .string "a", .string "b"] (Or.inr (by decide)) (by decide) (by decide)
  obtain ⟨result, hrollback, _, happended⟩ := h
  rw [hrollback, happended [.string "a", .string "b"] rfl (by decide)]
  decide

end AgentDesktop
