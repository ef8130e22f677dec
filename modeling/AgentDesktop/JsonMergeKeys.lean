import AgentDesktop.JsonUnedited

namespace AgentDesktop

theorem pointerTokens_ne_nil {pointer : String} (h : pointer ≠ "") : pointerTokens pointer ≠ some [] := by
  unfold pointerTokens
  split
  next hnil => exact absurd (String.toList_eq_nil_iff.mp hnil) h
  next rest _ =>
    intro hsome
    exact List.splitOn_ne_nil '/' rest (List.map_eq_nil_iff.mp (Option.some.inj hsome))
  next => simp

/-- The keys of an object are all there in another one. -/
def KeepsKeys (before after : Value) : Prop :=
  ∀ key, after.get key = none → before.get key = none

theorem KeepsKeys.trans {a b c : Value} (hab : KeepsKeys a b) (hbc : KeepsKeys b c) : KeepsKeys a c :=
  fun key h => hab key (hbc key h)

theorem insert_keepsKeys (key : String) (value : Value) (fields : Fields) :
    KeepsKeys (.object fields) (.object (SortedMap.insert key value fields)) := by
  intro other h
  simp only [Value.get_object] at h ⊢
  by_cases heq : other = key
  · subst heq
    simp at h
  · rwa [SortedMap.lookup_insert_ne heq] at h

theorem assign_isObject (new : Value) {tokens : List String} (h : tokens ≠ []) {v : Value}
    (hv : v.isObject = true) : (Value.assign new tokens v).isObject = true := by
  cases tokens with
  | nil => exact absurd rfl h
  | cons token rest =>
    cases v with
    | object fields =>
      simp only [Value.assign]
      split <;> rfl
    | _ => cases hv

theorem assign_keepsKeys (new : Value) {tokens : List String} (h : tokens ≠ []) (v : Value) :
    KeepsKeys v (Value.assign new tokens v) := by
  cases tokens with
  | nil => exact absurd rfl h
  | cons token rest =>
    cases v with
    | object fields =>
      simp only [Value.assign]
      split
      next => exact insert_keepsKeys token _ fields
      next => exact fun _ hn => hn
    | _ => exact fun _ _ => Value.get_of_not_object rfl _

theorem nullOwned_keepsKeys (managed : Value) {pointer : String} (h : pointer ≠ "") {v : Value}
    (hv : v.isObject = true) :
    KeepsKeys v (nullOwned managed v pointer) ∧ (nullOwned managed v pointer).isObject = true := by
  unfold nullOwned
  split
  next tokens ht =>
    have hne : tokens ≠ [] := fun hnil => pointerTokens_ne_nil h (hnil ▸ ht)
    split
    next => exact ⟨assign_keepsKeys .null hne v, assign_isObject .null hne hv⟩
    next => exact ⟨fun _ hn => hn, hv⟩
  next => exact ⟨fun _ hn => hn, hv⟩

theorem replaceOwned_keepsKeys (managed : Value) {pointers : List String} (h : "" ∉ pointers) {v : Value}
    (hv : v.isObject = true) :
    KeepsKeys v (replaceOwned managed pointers v) ∧ (replaceOwned managed pointers v).isObject = true := by
  unfold replaceOwned
  induction pointers generalizing v with
  | nil => exact ⟨fun _ hn => hn, hv⟩
  | cons pointer rest ih =>
    have hne : pointer ≠ "" := fun heq => h (by simp [heq])
    obtain ⟨hkeys, hobject⟩ := nullOwned_keepsKeys managed hne hv
    obtain ⟨hrest, hresult⟩ := ih (fun hm => h (List.mem_cons_of_mem _ hm)) hobject
    exact ⟨hkeys.trans hrest, hresult⟩

theorem mergeFields_keepsKeys (base : Fields) (overlay : List (String × Value)) :
    KeepsKeys (.object base) (.object (mergeFields base overlay)) := by
  induction overlay generalizing base with
  | nil => exact fun _ h => h
  | cons entry rest ih =>
    obtain ⟨key, value⟩ := entry
    rw [mergeFields]
    exact (insert_keepsKeys key _ base).trans (ih _)

/-- A merge that replaces no whole document keeps every key of the user's. -/
theorem Json.merge_keepsKeys {options : MergeOptions} (h : "" ∉ options.replacePaths) {before managed : Json}
    (hb : before.value.isObject = true) (hm : managed.value.isObject = true) :
    KeepsKeys before.value (Json.merge options before managed).value := by
  obtain ⟨hkeys, hobject⟩ := replaceOwned_keepsKeys managed.value h hb
  refine hkeys.trans ?_
  change KeepsKeys _ (mergeOverlay (replaceOwned managed.value options.replacePaths before.value) managed.value)
  cases hbase : replaceOwned managed.value options.replacePaths before.value with
  | object base =>
    cases hover : managed.value with
    | object overlay => exact mergeFields_keepsKeys base overlay
    | _ => rw [hover] at hm; cases hm
  | _ => rw [hbase] at hobject; cases hobject

theorem eq_object_nil_of_get {v : Value} (hv : v.isObject = true) (h : ∀ key, v.get key = none) : v = .object [] := by
  cases v with
  | object fields =>
    cases fields with
    | nil => rfl
    | cons entry rest =>
      have hget := h entry.1
      rw [Value.get_object, SortedMap.lookup_cons_ite, if_pos rfl] at hget
      cases hget
  | _ => cases hv

/-- Nothing comes back into an emptied document. -/
theorem rollback_emptyObject {before after : Json} (hb : before.value.isObject = true)
    (ha : after.value.isObject = true) (hkeys : KeepsKeys before.value after.value) :
    Json.emptyObject.rollback before after = Json.emptyObject := by
  apply Json.ext
  change rollbackOverlay (.object []) before.value after.value = .object []
  rw [rollbackOverlay_eq]
  split
  next h => exact eq_object_nil_of_get hb fun key => hkeys key (by rw [← h]; rfl)
  next =>
    split
    next => rfl
    next =>
      have hresult : (rollbackPresent (some before.value) (some after.value) (.object [])).isObject = true := by
        rw [rollbackPresent]
        split <;> rfl
      refine eq_object_nil_of_get hresult fun key => ?_
      have hbefore : isNoneOr (some before.value) Value.isObject = true := hb
      have hafter : isNoneOr (some after.value) Value.isObject = true := ha
      rw [rollbackPresent_get key hbefore hafter]
      change rollbackValue none (before.value.get key) (after.value.get key) = none
      unfold rollbackValue
      split
      next h => exact hkeys key h.symm
      next => split <;> rfl

end AgentDesktop
