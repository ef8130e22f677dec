import AgentDesktop.PlanApply

/-- Two sorted maps with the same entries are equal. -/
theorem BTreeMap.ext_entries {κ α : Type*} [LinearOrder κ] {a b : BTreeMap κ α}
    (h : ∀ entry, entry ∈ a.entries ↔ entry ∈ b.entries) : a = b := by
  have hnodup : ∀ m : BTreeMap κ α, m.entries.Nodup := by
    intro m
    exact m.sorted.imp fun hlt heq => absurd (heq ▸ hlt) (lt_irrefl _)
  have hperm : a.entries.Perm b.entries := (List.perm_ext_iff_of_nodup (hnodup a) (hnodup b)).mpr h
  have hentries : a.entries = b.entries :=
    hperm.eq_of_pairwise (fun x y _ _ hxy hyx => absurd (hxy.trans hyx) (lt_irrefl _)) a.sorted b.sorted
  cases a
  cases b
  cases hentries
  rfl

namespace AgentDesktop

/-- The data of a value, found the way the registry matches names. -/
def observedValue (observed : RegistryValues) (name : String) : Option (Option String) :=
  observed.entries.findSome? fun entry => if sameName entry.1 name then some entry.2 else none

def observesName (observed : RegistryValues) (name : String) : Bool :=
  observed.entries.any fun entry => sameName entry.1 name

/-- A key holds one value for all spellings of a name. -/
def NamesDistinct {α : Type} (values : BTreeMap String α) : Prop :=
  ∀ first ∈ values.entries, ∀ second ∈ values.entries, sameName first.1 second.1 = true → first = second

section

variable {a b c : String}

theorem sameName_self (name : String) : sameName name name = true :=
  beq_self_eq_true _

theorem sameName_symm (h : sameName a b = true) : sameName b a = true :=
  beq_iff_eq.mpr (beq_iff_eq.mp h).symm

theorem sameName_trans (hab : sameName a b = true) (hbc : sameName b c = true) : sameName a c = true :=
  beq_iff_eq.mpr ((beq_iff_eq.mp hab).trans (beq_iff_eq.mp hbc))

theorem sameName_comm (a b : String) : sameName a b = sameName b a :=
  Bool.eq_iff_iff.mpr ⟨sameName_symm, sameName_symm⟩

theorem sameName_congr (h : sameName a b = true) (name : String) : sameName name a = sameName name b :=
  Bool.eq_iff_iff.mpr ⟨fun ha => sameName_trans ha h, fun hb => sameName_trans hb (sameName_symm h)⟩

end

section

variable {values : RegistryValues} {name : String}

theorem observedValue_congr {other : String} (h : sameName name other = true) :
    observedValue values name = observedValue values other := by
  simp only [observedValue, sameName_congr h]

theorem observesName_eq (values : RegistryValues) (name : String) :
    observesName values name = (observedValue values name).isSome := by
  rw [Bool.eq_iff_iff, observesName, observedValue, List.any_eq_true, List.findSome?_isSome_iff]
  simp

theorem not_observed_iff :
    observedValue values name = none ↔ ∀ entry ∈ values.entries, sameName entry.1 name = false := by
  simp [observedValue]

variable {data : Option String}

theorem observedValue_mem (h : observedValue values name = some data) :
    ∃ stored, (stored, data) ∈ values.entries ∧ sameName stored name = true := by
  obtain ⟨entry, hentry, hdata⟩ := List.exists_of_findSome?_eq_some h
  split at hdata
  next hname =>
    cases hdata
    exact ⟨entry.1, hentry, hname⟩
  next => cases hdata

theorem observedValue_of_mem (hdistinct : NamesDistinct values) {stored : String}
    (hmem : (stored, data) ∈ values.entries) (hname : sameName stored name = true) :
    observedValue values name = some data := by
  cases hvalue : observedValue values name with
  | none =>
    have hother := not_observed_iff.mp hvalue _ hmem
    rw [hname] at hother
    cases hother
  | some found =>
    obtain ⟨other, hother, hsame⟩ := observedValue_mem hvalue
    have heq := hdistinct _ hmem _ hother (sameName_trans hname (sameName_symm hsame))
    cases heq
    rfl

/-- A value is written under the name it is stored with. -/
def storedName (values : RegistryValues) (name : String) : String :=
  ((values.entries.map Prod.fst).find? fun stored => sameName stored name).getD name

theorem storedName_same (values : RegistryValues) (name : String) : sameName (storedName values name) name = true := by
  unfold storedName
  cases hfound : (values.entries.map Prod.fst).find? fun stored => sameName stored name with
  | none => exact sameName_self name
  | some stored => exact List.find?_some (p := fun stored => sameName stored name) hfound

theorem storedName_of_mem (hdistinct : NamesDistinct values) {entry : String × Option String}
    (hmem : entry ∈ values.entries) (hname : sameName entry.1 name = true) : storedName values name = entry.1 := by
  unfold storedName
  cases hfound : (values.entries.map Prod.fst).find? fun stored => sameName stored name with
  | none =>
    have hother := List.find?_eq_none.mp hfound entry.1 (List.mem_map_of_mem hmem)
    exact absurd hname hother
  | some stored =>
    obtain ⟨other, hother, rfl⟩ := List.mem_map.mp (List.mem_of_find?_eq_some hfound)
    have hsame := List.find?_some hfound
    exact congrArg Prod.fst (hdistinct _ hother _ hmem (sameName_trans hsame (sameName_symm hname)))

/-- One change leaves the values under other names, and the new value if there is one. -/
theorem mem_setRegistryValue (hdistinct : NamesDistinct values) {entry : String × Option String} :
    entry ∈ (setRegistryValue values (name, data)).entries ↔
      (sameName entry.1 name = false ∧ entry ∈ values.entries) ∨
        data ≠ none ∧ entry = (storedName values name, data) := by
  have hsame := storedName_same values name
  cases data with
  | some text =>
    have hset : setRegistryValue values (name, some text) = values.insert (storedName values name) (some text) := rfl
    rw [hset, BTreeMap.mem_entries_iff, BTreeMap.get?_insert]
    by_cases hstored : entry.1 = storedName values name
    · simp [hstored, hsame, Prod.ext_iff, eq_comm]
    · have hne : entry ≠ (storedName values name, some text) := fun heq => hstored (congrArg Prod.fst heq)
      rw [if_neg hstored, ← BTreeMap.mem_entries_iff]
      simp only [hne, and_false, or_false]
      refine ⟨fun hmem => ⟨?_, hmem⟩, And.right⟩
      by_contra hname
      exact hstored (storedName_of_mem hdistinct hmem (Bool.not_eq_false _ ▸ hname)).symm
  | none =>
    have hkeep : entry ∈ (setRegistryValue values (name, none)).entries ↔
        entry ∈ values.entries ∧ sameName entry.1 name = false := by
      unfold setRegistryValue
      cases hfound : (values.entries.map Prod.fst).find? fun stored => sameName stored name with
      | none =>
        have hother := List.find?_eq_none.mp hfound
        refine ⟨fun hmem => ⟨hmem, ?_⟩, And.left⟩
        exact Bool.eq_false_of_not_eq_true (hother entry.1 (List.mem_map_of_mem hmem))
      | some stored =>
        have hname : storedName values name = stored := by simp [storedName, hfound]
        refine List.mem_filter.trans (and_congr_right fun hmem => ?_)
        rw [decide_eq_true_eq, ← hname]
        constructor
        · intro hne
          by_contra hsame
          exact hne (storedName_of_mem hdistinct hmem (Bool.not_eq_false _ ▸ hsame)).symm
        · intro hother heq
          rw [heq, hsame] at hother
          cases hother
    rw [hkeep]
    simp [and_comm]

theorem NamesDistinct.set (hdistinct : NamesDistinct values) (change : String × Option String) :
    NamesDistinct (setRegistryValue values change) := by
  obtain ⟨name, data⟩ := change
  have hnew := storedName_same values name
  intro first hfirst second hsecond hsame
  rcases (mem_setRegistryValue hdistinct).mp hfirst with ⟨hother, hfirst⟩ | ⟨_, rfl⟩
  · rcases (mem_setRegistryValue hdistinct).mp hsecond with ⟨_, hsecond⟩ | ⟨_, rfl⟩
    · exact hdistinct first hfirst second hsecond hsame
    · rw [sameName_trans hsame hnew] at hother
      cases hother
  · rcases (mem_setRegistryValue hdistinct).mp hsecond with ⟨hother, _⟩ | ⟨_, rfl⟩
    · rw [sameName_trans (sameName_symm hsame) hnew] at hother
      cases hother
    · rfl

theorem observedValue_iff (hdistinct : NamesDistinct values) :
    observedValue values name = some data ↔ ∃ stored, (stored, data) ∈ values.entries ∧ sameName stored name = true :=
  ⟨observedValue_mem, fun ⟨_, hmem, hname⟩ => observedValue_of_mem hdistinct hmem hname⟩

theorem observedValue_set (hdistinct : NamesDistinct values) (change : String × Option String) (other : String) :
    observedValue (setRegistryValue values change) other =
      if sameName other change.1 then change.2.map some else observedValue values other := by
  obtain ⟨name, data⟩ := change
  dsimp only
  have hnew := storedName_same values name
  refine Option.ext fun found => ?_
  rw [observedValue_iff (hdistinct.set _)]
  split
  next hsame =>
    have hstored : sameName (storedName values name) other = true := sameName_trans hnew (sameName_symm hsame)
    constructor
    · rintro ⟨stored, hmem, hname⟩
      rcases (mem_setRegistryValue hdistinct).mp hmem with ⟨hother, _⟩ | ⟨hdata, heq⟩
      · rw [sameName_trans hname hsame] at hother
        cases hother
      · cases data with
        | none => exact absurd rfl hdata
        | some text =>
          cases heq
          rfl
    · intro hfound
      obtain ⟨text, rfl, rfl⟩ := Option.map_eq_some_iff.mp hfound
      exact ⟨_, (mem_setRegistryValue hdistinct).mpr (Or.inr ⟨by simp, rfl⟩), hstored⟩
  next hother =>
    rw [observedValue_iff hdistinct]
    refine exists_congr fun stored => and_congr_left fun hname => ?_
    have hdiffers : ∀ {spelling : String}, sameName spelling other = true → sameName spelling name = false := by
      intro spelling hspelling
      by_contra hsame
      exact hother (sameName_trans (sameName_symm hspelling) (Bool.not_eq_false _ ▸ hsame))
    rw [mem_setRegistryValue hdistinct]
    constructor
    · rintro (⟨_, hmem⟩ | ⟨_, heq⟩)
      · exact hmem
      · cases heq
        rw [hdiffers hname] at hnew
        cases hnew
    · exact fun hmem => Or.inl ⟨hdiffers hname, hmem⟩

theorem applyKeyChanges_append (values : RegistryValues) (first second : List (String × Option String)) :
    applyKeyChanges values (first ++ second) = applyKeyChanges (applyKeyChanges values first) second :=
  List.foldl_append

/-- Changes that agree about a name leave what they say of it, or what was there if they
say nothing. -/
theorem observedValue_apply (hdistinct : NamesDistinct values) {changes : List (String × Option String)}
    (hagree : ∀ change ∈ changes, sameName change.1 name = true → change.2 = data) :
    observedValue (applyKeyChanges values changes) name =
      if changes.any (fun change => sameName change.1 name) then data.map some else observedValue values name := by
  induction changes generalizing values with
  | nil => rfl
  | cons change rest ih =>
    have hrest := fun other hother => hagree other (List.mem_cons_of_mem _ hother)
    have hset := observedValue_set hdistinct change name
    have happly : applyKeyChanges values (change :: rest) = applyKeyChanges (setRegistryValue values change) rest := rfl
    rw [happly, ih (hdistinct.set change) hrest, List.any_cons, hset, sameName_comm name]
    cases hname : sameName change.1 name with
    | false => rfl
    | true =>
      have hdata := hagree change List.mem_cons_self hname
      simp [hdata]

end

end AgentDesktop
