import AgentDesktop.JsonMergeDocument

namespace AgentDesktop

variable {current before after : Option Value}

/-- One step down a path that the two early returns of the rollback leave alone. -/
theorem atPath_rollbackValue_cons (key : String) (rest : List String) (hc : current ≠ after) (hb : before ≠ after) :
    atPath (rollbackValue current before after) (key :: rest) =
      if isNoneOr before Value.isObject = true ∧ isNoneOr after Value.isObject = true ∧
          current.any Value.isObject = true then
        atPath (rollbackValue (current.bind fun v => v.get key) (before.bind fun v => v.get key)
          (after.bind fun v => v.get key)) rest
      else atPath current (key :: rest) := by
  have hroll : rollbackValue current before after = current.map (rollbackPresent before after) := by
    simp [rollbackValue, hc, hb]
  cases current with
  | none => simp [hroll]
  | some c =>
    rw [hroll, Option.map_some, atPath_cons, Option.bind_some]
    cases c with
    | object fields =>
      split
      next h => rw [rollbackPresent_get key h.1 h.2.1, Option.bind_some, Value.get_object]
      next h =>
        have hguard : ¬(isNoneOr before Value.isObject && isNoneOr after Value.isObject) = true := by
          simpa [Value.isObject] using h
        rw [rollbackPresent, if_neg hguard, atPath_cons, Option.bind_some]
    | array elements =>
      have hget : (rollbackPresent before after (.array elements)).get key = none := by
        rw [rollbackPresent]
        split <;> exact Value.get_of_not_object rfl key
      have hcur : (Value.array elements).get key = none := Value.get_of_not_object rfl key
      simp [hget, hcur, Value.isObject, atPath_cons]
    | _ => simp [rollbackPresent, Value.isObject, atPath_cons]

theorem atPath_cons_isObject {v : Option Value} {key : String} {rest : List String} {w : Value}
    (h : atPath v (key :: rest) = some w) : v.any Value.isObject = true := by
  cases v with
  | none => simp at h
  | some v =>
    by_contra hn
    have hno : v.isObject = false := by simpa using hn
    rw [atPath_cons, Option.bind_some, Value.get_of_not_object hno] at h
    cases h

theorem isNoneOr_of_any {v : Option Value} (h : v.any Value.isObject = true) :
    isNoneOr v Value.isObject = true := by
  cases v with
  | none => rfl
  | some v => exact h

theorem atPath_not_object {v : Option Value} (h : ¬isNoneOr v Value.isObject = true) (key : String)
    (rest : List String) : atPath v (key :: rest) = none := by
  cases ha : atPath v (key :: rest) with
  | none => rfl
  | some w => exact absurd (isNoneOr_of_any (atPath_cons_isObject ha)) h

/-- At every proper ancestor of the path the user's document has an object or
nothing, or the user has not touched the ancestor since the merge. -/
def AncestorsPlain (current before after : Option Value) (path : List String) : Prop :=
  ∀ n < path.length, isNoneOr (atPath before (path.take n)) Value.isObject = true ∨
    atPath current (path.take n) = atPath after (path.take n)

theorem ancestorsPlain_nil (current before after : Option Value) : AncestorsPlain current before after [] := by
  intro n hn
  simp at hn

variable {path : List String}

theorem ancestorsPlain_cons {key : String} :
    AncestorsPlain current before after (key :: path) ↔
      (isNoneOr before Value.isObject = true ∨ current = after) ∧
        AncestorsPlain (current.bind fun v => v.get key) (before.bind fun v => v.get key)
          (after.bind fun v => v.get key) path := by
  constructor
  · intro h
    refine ⟨by simpa using h 0 (by simp), ?_⟩
    intro n hn
    simpa only [List.take_succ_cons, atPath_cons] using h (n + 1) (by simpa using hn)
  · rintro ⟨hroot, hbelow⟩ n hn
    cases n with
    | zero => simpa using hroot
    | succ n => simpa only [List.take_succ_cons, atPath_cons] using hbelow n (by simpa using hn)

theorem ancestorsPlain_of_eq (h : current = after) (path : List String) :
    AncestorsPlain current before after path :=
  fun _ _ => Or.inr (by rw [h])

theorem ancestorsPlain_of_present {v : Value} (h : atPath before path = some v) :
    AncestorsPlain current before after path := by
  induction path generalizing current before after with
  | nil => exact ancestorsPlain_nil _ _ _
  | cons key path ih =>
    refine ancestorsPlain_cons.mpr ⟨Or.inl (isNoneOr_of_any (atPath_cons_isObject h)), ih ?_⟩
    rwa [atPath_cons] at h

/-- Where the current document is as the merge left it, the rollback gives back
the user's value exactly when no ancestor of the path had another shape. -/
theorem rollbackValue_restores_iff {v : Value} (hc : atPath current path = some v) (ha : atPath after path = some v) :
    atPath (rollbackValue current before after) path = atPath before path ↔
      AncestorsPlain current before after path := by
  induction path generalizing current before after with
  | nil =>
    have heq : current = after := by simpa using hc.trans ha.symm
    simp [rollbackValue, heq, ancestorsPlain_nil]
  | cons key path ih =>
    by_cases hca : current = after
    · simp [rollbackValue, hca, ancestorsPlain_of_eq]
    by_cases hba : before = after
    · subst hba
      exact ⟨fun _ => ancestorsPlain_of_present ha, fun _ => by simp [rollbackValue, hca, hc, ha]⟩
    rw [atPath_rollbackValue_cons key path hca hba, ancestorsPlain_cons]
    have hcobj := atPath_cons_isObject hc
    have haobj := isNoneOr_of_any (atPath_cons_isObject ha)
    by_cases hbobj : isNoneOr before Value.isObject = true
    · rw [if_pos ⟨hbobj, haobj, hcobj⟩, atPath_cons]
      rw [atPath_cons] at hc ha
      simpa [hbobj] using ih hc ha
    · rw [if_neg fun h => hbobj h.1, hc, atPath_not_object hbobj]
      simp [hbobj, hca]

/-- Where the merge changed nothing, the rollback changes nothing. -/
theorem rollbackValue_frame (h : atPath before path = atPath after path) :
    atPath (rollbackValue current before after) path = atPath current path := by
  induction path generalizing current before after with
  | nil =>
    have heq : before = after := by simpa using h
    subst heq
    unfold rollbackValue
    split
    next hc => rw [hc]
    next => rw [if_pos rfl]
  | cons key path ih =>
    by_cases hca : current = after
    · simp [rollbackValue, hca, h]
    by_cases hba : before = after
    · simp [rollbackValue, hca, hba]
    rw [atPath_rollbackValue_cons key path hca hba]
    split
    next =>
      rw [atPath_cons] at h ⊢
      exact ih (by rwa [atPath_cons] at h)
    next => rfl

/-- A scalar the user changed since the merge stays. -/
theorem rollbackValue_keeps_scalar {v : Value} (hc : atPath current path = some v) (hs : v.isContainer = false)
    (ha : atPath after path ≠ some v) :
    atPath (rollbackValue current before after) path = some v := by
  induction path generalizing current before after with
  | nil =>
    have hcur : current = some v := by simpa using hc
    have haft : after ≠ some v := by simpa using ha
    subst hcur
    have hpresent : rollbackPresent before after v = v := by
      cases v <;> simp_all [rollbackPresent, Value.isContainer, Value.isObject, Value.isArray]
    simp [rollbackValue, Ne.symm haft, hpresent]
  | cons key path ih =>
    have hca : current ≠ after := fun heq => ha (heq ▸ hc)
    by_cases hba : before = after
    · simp [rollbackValue, hca, hba, hc]
    rw [atPath_rollbackValue_cons key path hca hba]
    split
    next =>
      rw [atPath_cons] at hc ha
      exact ih hc ha
    next => exact hc

def Json.at? (document : Json) (path : List String) : Option Value :=
  document.value.at? path

theorem Json.at?_rollback (current before after : Json) (path : List String) :
    (current.rollback before after).at? path =
      atPath (rollbackValue (some current.value) (some before.value) (some after.value)) path := by
  rw [rollbackValue_some]
  rfl

/-- What the user left as the merge wrote it goes back to the user's own value
exactly when every ancestor was an object, absent or itself left alone. -/
theorem rollback_restores_untouched_iff (before managed current : Json) (path : List String)
    (present : current.at? path ≠ none)
    (untouched : current.at? path = (Json.merge {} before managed).at? path) :
    (current.rollback before (Json.merge {} before managed)).at? path = before.at? path ↔
      ∀ n < path.length, isNoneOr (before.at? (path.take n)) Value.isObject = true ∨
        current.at? (path.take n) = (Json.merge {} before managed).at? (path.take n) := by
  obtain ⟨v, hv⟩ := Option.ne_none_iff_exists'.mp present
  rw [Json.at?_rollback]
  exact rollbackValue_restores_iff hv (untouched.symm.trans hv)

theorem rollback_restores_untouched_env :
    let before : Json := ⟨.object [], rfl⟩
    let managed : Json := ⟨.object [("env", .object [("MANAGED", .string "1")])], rfl⟩
    let current : Json := ⟨.object [("env", .object [("MANAGED", .string "1"), ("USER", .string "2")])], rfl⟩
    (current.rollback before (Json.merge {} before managed)).at? ["env", "MANAGED"] = none :=
  (rollback_restores_untouched_iff _ _ _ _ (by decide) (by decide)).mpr (by decide)

/-- A scalar the managed object replaced: after an edit next to it the managed
value outlives the removal. -/
theorem rollback_keeps_managed_value :
    let before : Json := ⟨.object [("env", .bool true)], rfl⟩
    let managed : Json := ⟨.object [("env", .object [("MANAGED", .string "1")])], rfl⟩
    let current : Json := ⟨.object [("env", .object [("MANAGED", .string "1"), ("USER", .string "2")])], rfl⟩
    let after := Json.merge {} before managed
    current.at? ["env", "MANAGED"] = some (.string "1") ∧
      current.at? ["env", "MANAGED"] = after.at? ["env", "MANAGED"] ∧
      before.at? ["env", "MANAGED"] = none ∧
      (current.rollback before after).at? ["env", "MANAGED"] = some (.string "1") := by
  decide

/-- The user's own part of the document is what the removal leaves: every path
the merge did not change, and every scalar the user changed. -/
theorem rollback_keeps_user_edits (options : MergeOptions) (before managed current : Json) (path : List String) :
    (before.at? path = (Json.merge options before managed).at? path →
        (current.rollback before (Json.merge options before managed)).at? path = current.at? path) ∧
      ∀ v, current.at? path = some v → v.isContainer = false →
        (Json.merge options before managed).at? path ≠ some v →
        (current.rollback before (Json.merge options before managed)).at? path = some v := by
  rw [Json.at?_rollback]
  refine ⟨fun h => rollbackValue_frame h, ?_⟩
  intro v hv hs ha
  exact rollbackValue_keeps_scalar hv hs ha

theorem rollback_keeps_user_edits_theme :
    let before : Json := ⟨.object [("theme", .string "dark")], rfl⟩
    let managed : Json := ⟨.object [("proxy", .bool true)], rfl⟩
    let current : Json := ⟨.object [("proxy", .bool true), ("theme", .string "light")], rfl⟩
    (current.rollback before (Json.merge {} before managed)).at? ["theme"] = some (.string "light") :=
  (rollback_keeps_user_edits {} _ _ _ ["theme"]).2 (.string "light") rfl rfl (by decide)

end AgentDesktop
