import AgentDesktop.RegistryClaims

namespace AgentDesktop

/-- The marker claims these names. -/
def Marked {β : Type} (text : RegistryText β) (names : List String) (values : RegistryValues) : Prop :=
  observedValue values registryOwnerValue = some (some (text.names names))

/-- The key holds the values of others, and what the marker claims. -/
structure PolicyKept {β : Type} (text : RegistryText β) (foreign values : RegistryValues) : Prop where
  claims : Claims foreign (registryOwnedValues text values) values
  marker : observedValue values registryOwnerValue = none ∨ Marked text (registryOwnedValues text values) values

/-- Desired values with accepted names, none of which is the name of a value of others. -/
structure ApartFrom (foreign : RegistryValues) (desired : BTreeMap String String) : Prop where
  accepted : AcceptedNames desired
  apart : ∀ entry ∈ desired.entries, observedValue foreign entry.1 = none

section

variable {β : Type} {text : RegistryText β} {foreign values : RegistryValues} {names : List String}

theorem Marked.owned (h : Marked text names values) (hnames : names.Pairwise (· < ·)) :
    registryOwnedValues text values = names := by
  unfold registryOwnedValues
  rw [h]
  have hparsed : text.parseNames (text.names names) = some names := text.parse_json names hnames
  simp [hparsed]

theorem registryOwnedValues_unmarked (h : observedValue values registryOwnerValue = none) :
    registryOwnedValues text values = [] := by
  simp [registryOwnedValues, h]

theorem Claims.policyKept (h : Claims foreign names values) (hmarked : Marked text names values) :
    PolicyKept text foreign values := by
  have howned := hmarked.owned h.claimable.increasing
  constructor
  · rw [howned]
    exact h
  · rw [howned]
    exact Or.inr hmarked

theorem ForeignValues.policyKept (h : ForeignValues foreign) : PolicyKept text foreign foreign := by
  refine ⟨?_, Or.inl h.unmarked⟩
  rw [registryOwnedValues_unmarked h.unmarked]
  exact h.claims

theorem PolicyKept.eq_foreign (h : PolicyKept text foreign values)
    (hmarker : observedValue values registryOwnerValue = none) : values = foreign := by
  have hclaims := h.claims
  rw [registryOwnedValues_unmarked hmarker] at hclaims
  exact hclaims.eq_foreign hmarker

variable {desired : BTreeMap String String}

theorem ApartFrom.claimable (h : ApartFrom foreign desired) : Claimable foreign (desired.entries.map Prod.fst) := by
  refine ⟨List.pairwise_map.mpr desired.sorted, fun name hname => ?_, fun name hname => ?_⟩
  · obtain ⟨entry, hentry, rfl⟩ := List.mem_map.mp hname
    exact h.apart entry hentry
  · obtain ⟨entry, hentry, rfl⟩ := List.mem_map.mp hname
    exact h.accepted.unreserved entry hentry

/-- The names claimed while the values change. -/
def fullNames (desired : BTreeMap String String) (stale : List String) : List String :=
  SortedMap.insertKeys stale (desired.entries.map Prod.fst)

variable {stale : List String}

theorem mem_fullNames {name : String} :
    name ∈ fullNames desired stale ↔ name ∈ stale ∨ name ∈ desired.entries.map Prod.fst :=
  SortedMap.mem_insertKeys

theorem ApartFrom.claimable_full (h : ApartFrom foreign desired) (hnames : Claimable foreign names) :
    Claimable foreign (fullNames desired (staleNames names desired)) := by
  have hdesired := h.claimable
  have hmem : ∀ name ∈ fullNames desired (staleNames names desired),
      name ∈ names ∨ name ∈ desired.entries.map Prod.fst := by
    intro name hname
    exact (mem_fullNames.mp hname).imp_left List.mem_of_mem_filter
  refine ⟨SortedMap.insertKeys_increasing hdesired.increasing, fun name hname => ?_, fun name hname => ?_⟩
  · exact (hmem name hname).elim (hnames.apart name) (hdesired.apart name)
  · exact (hmem name hname).elim (hnames.unreserved name) (hdesired.unreserved name)

theorem staleNames_or {name : String} (h : name ∈ names) :
    name ∈ staleNames names desired ∨ ∃ entry ∈ desired.entries, sameName entry.1 name = true := by
  by_cases hkept : desired.entries.any (fun entry => sameName entry.1 name) = true
  · exact Or.inr (List.any_eq_true.mp hkept)
  · exact Or.inl (List.mem_filter.mpr ⟨h, by simp [hkept]⟩)

theorem staleNames_apart {stale : String} (h : stale ∈ staleNames names desired) {entry : String × String}
    (hentry : entry ∈ desired.entries) : sameName entry.1 stale = false := by
  obtain ⟨_, hnone⟩ := List.mem_filter.mp h
  have hnone : desired.entries.any (fun entry => sameName entry.1 stale) = false := by simpa using hnone
  exact Bool.eq_false_of_not_eq_true (List.any_eq_false.mp hnone entry hentry)

/-- All that was claimed and the desired names can be claimed together. -/
theorem PolicyKept.claims_full (h : PolicyKept text foreign values) (hdesired : ApartFrom foreign desired) :
    Claims foreign (fullNames desired (staleNames (registryOwnedValues text values) desired)) values := by
  refine h.claims.reclaim (hdesired.claimable_full h.claims.claimable) fun claimed hclaimed _ => ?_
  rcases staleNames_or hclaimed with hstale | ⟨entry, hentry, hsame⟩
  · exact ⟨claimed, mem_fullNames.mpr (Or.inl hstale), sameName_self claimed⟩
  · exact ⟨entry.1, mem_fullNames.mpr (Or.inr (List.mem_map_of_mem hentry)), hsame⟩

theorem PolicyKept.unblocked (h : PolicyKept text foreign values) (hdesired : ApartFrom foreign desired) :
    ∀ entry ∈ desired.entries, ¬ Blocked values (registryOwnedValues text values) entry := by
  rintro entry hentry ⟨existing, hexisting, _, hunclaimed⟩
  obtain ⟨claimed, hclaimed, hsame⟩ := h.claims.claimed entry.1 (by simp [hexisting]) (hdesired.apart entry hentry)
    (hdesired.accepted.unreserved entry hentry)
  rw [hunclaimed claimed hclaimed] at hsame
  cases hsame

/-- The writes and deletions of a plan without its markers. -/
def valueChanges (values : RegistryValues) (desired : BTreeMap String String) (stale : List String) :
    List (String × Option String) :=
  ((desired.entries.filter fun entry => decide (observedValue values entry.1 ≠ some (some entry.2))).map
    fun entry => (entry.1, some entry.2)) ++ (stale.filter (observesName values)).map fun name => (name, none)

theorem mem_valueChanges {change : String × Option String} :
    change ∈ valueChanges values desired stale ↔
      (∃ entry ∈ desired.entries, observedValue values entry.1 ≠ some (some entry.2) ∧
        (entry.1, some entry.2) = change) ∨
      ∃ name ∈ stale, observesName values name = true ∧ (name, none) = change := by
  simp only [valueChanges, List.mem_append, List.mem_map, List.mem_filter, decide_eq_true_eq, and_assoc]

theorem valueChanges_claimed {change : String × Option String} (h : change ∈ valueChanges values desired stale) :
    change.1 ∈ fullNames desired stale := by
  rcases mem_valueChanges.mp h with ⟨entry, hentry, _, rfl⟩ | ⟨name, hname, _, rfl⟩
  · exact mem_fullNames.mpr (Or.inr (List.mem_map_of_mem hentry))
  · exact mem_fullNames.mpr (Or.inl hname)

section

variable {start : RegistryValues} (hstart : NamesDistinct start)

include hstart

theorem valueChanges_written (hdesired : NamesDistinct desired) {entry : String × String}
    (hentry : entry ∈ desired.entries) (hsame : observedValue start entry.1 = observedValue values entry.1) :
    observedValue (applyKeyChanges start (valueChanges values desired (staleNames names desired))) entry.1 =
      some (some entry.2) := by
  have hagree : ∀ change ∈ valueChanges values desired (staleNames names desired),
      sameName change.1 entry.1 = true → change.2 = some entry.2 := by
    intro change hchange hname
    rcases mem_valueChanges.mp hchange with ⟨other, hother, _, rfl⟩ | ⟨name, hstale, _, rfl⟩
    · rw [hdesired other hother entry hentry hname]
    · rw [sameName_comm, staleNames_apart hstale hentry] at hname
      cases hname
  rw [observedValue_apply hstart hagree]
  split
  next => rfl
  next hnone =>
    -- No change names the value, so it was there.
    rw [hsame]
    by_contra hmissing
    have hchange : (entry.1, some entry.2) ∈ valueChanges values desired (staleNames names desired) :=
      mem_valueChanges.mpr (Or.inl ⟨entry, hentry, hmissing, rfl⟩)
    exact hnone (List.any_eq_true.mpr ⟨_, hchange, sameName_self entry.1⟩)

theorem valueChanges_deleted {name : String} (hother : ∀ entry ∈ desired.entries, sameName entry.1 name = false)
    (hstale : observedValue start name ≠ none → ∃ claimed ∈ stale, observesName values claimed = true ∧
      sameName claimed name = true) :
    observedValue (applyKeyChanges start (valueChanges values desired stale)) name = none := by
  have hagree : ∀ change ∈ valueChanges values desired stale, sameName change.1 name = true → change.2 = none := by
    intro change hchange hname
    rcases mem_valueChanges.mp hchange with ⟨entry, hentry, _, rfl⟩ | ⟨deleted, _, _, rfl⟩
    · rw [hother entry hentry] at hname
      cases hname
    · rfl
  rw [observedValue_apply hstart hagree]
  split
  next => rfl
  next hnone =>
    by_contra hobserved
    obtain ⟨claimed, hclaimed, hthere, hname⟩ := hstale hobserved
    have hchange : (claimed, none) ∈ valueChanges values desired stale :=
      mem_valueChanges.mpr (Or.inr ⟨claimed, hclaimed, hthere, rfl⟩)
    exact hnone (List.any_eq_true.mpr ⟨_, hchange, hname⟩)

end

end

end AgentDesktop
