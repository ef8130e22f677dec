import AgentDesktop.RegistrySettings
import AgentDesktop.Transitions

namespace AgentDesktop

/-- Values of others under the key: no two spellings of a name, and no ownership marker. -/
structure ForeignValues (foreign : RegistryValues) : Prop where
  distinct : NamesDistinct foreign
  unmarked : observedValue foreign registryOwnerValue = none

/-- Names that can be claimed beside the values of others. -/
structure Claimable (foreign : RegistryValues) (names : List String) : Prop where
  increasing : names.Pairwise (· < ·)
  apart : ∀ name ∈ names, observedValue foreign name = none
  unreserved : ∀ name ∈ names, sameName name registryOwnerValue = false

/-- The values of others are all there, and beside them only claimed ones and the marker. -/
structure Claims (foreign : RegistryValues) (names : List String) (values : RegistryValues) : Prop where
  distinct : NamesDistinct values
  kept : ∀ entry ∈ foreign.entries, entry ∈ values.entries
  claimable : Claimable foreign names
  claimed : ∀ name, observedValue values name ≠ none → observedValue foreign name = none →
    sameName name registryOwnerValue = false → ∃ claimed ∈ names, sameName claimed name = true

section

variable {foreign values : RegistryValues} {names : List String}

theorem Claimable.spelled (h : Claimable foreign names) {claimed name : String} (hmem : claimed ∈ names)
    (hsame : sameName claimed name = true) :
    observedValue foreign name = none ∧ sameName name registryOwnerValue = false := by
  have hreserved := h.unreserved claimed hmem
  rw [sameName_comm] at hreserved
  refine ⟨(observedValue_congr hsame).symm.trans (h.apart claimed hmem), ?_⟩
  rw [sameName_comm, ← sameName_congr hsame]
  exact hreserved

theorem ForeignValues.claims (h : ForeignValues foreign) : Claims foreign [] foreign where
  distinct := h.distinct
  kept _ hentry := hentry
  claimable := ⟨List.Pairwise.nil, by rintro _ ⟨⟩, by rintro _ ⟨⟩⟩
  claimed _ hobserved hforeign := absurd hforeign hobserved

/-- A value is one of others, the marker or a claimed one. -/
theorem Claims.entry (h : Claims foreign names values) {entry : String × Option String}
    (hentry : entry ∈ values.entries) :
    entry ∈ foreign.entries ∨ sameName entry.1 registryOwnerValue = true ∨
      ∃ claimed ∈ names, sameName claimed entry.1 = true := by
  have hvalue := observedValue_of_mem h.distinct hentry (sameName_self entry.1)
  cases hfound : observedValue foreign entry.1 with
  | some data =>
    obtain ⟨stored, hstored, hsame⟩ := observedValue_mem hfound
    have heq := h.distinct _ (h.kept _ hstored) _ hentry hsame
    exact Or.inl (heq ▸ hstored)
  | none =>
    cases hreserved : sameName entry.1 registryOwnerValue with
    | true => exact Or.inr (Or.inl rfl)
    | false => exact Or.inr (Or.inr (h.claimed entry.1 (by simp [hvalue]) hfound hreserved))

/-- Values that nobody claims are those of others. -/
theorem Claims.eq_foreign (h : Claims foreign [] values)
    (hmarker : observedValue values registryOwnerValue = none) : values = foreign := by
  refine BTreeMap.ext_entries fun entry => ⟨fun hentry => ?_, h.kept entry⟩
  rcases h.entry hentry with hforeign | hreserved | ⟨claimed, hclaimed, _⟩
  · exact hforeign
  · have hother := not_observed_iff.mp hmarker entry hentry
    rw [hreserved] at hother
    cases hother
  · cases hclaimed

theorem Claims.kept_set (h : Claims foreign names values) {change : String × Option String}
    (hapart : observedValue foreign change.1 = none) :
    ∀ entry ∈ foreign.entries, entry ∈ (setRegistryValue values change).entries := by
  intro entry hentry
  have hother := not_observed_iff.mp hapart entry hentry
  exact (mem_setRegistryValue h.distinct).mpr (Or.inl ⟨hother, h.kept entry hentry⟩)

/-- A claimed value can be written or deleted. -/
theorem Claims.touch (h : Claims foreign names values) {change : String × Option String}
    (hclaimed : ∃ claimed ∈ names, sameName claimed change.1 = true) :
    Claims foreign names (setRegistryValue values change) := by
  obtain ⟨claimed, hmem, hsame⟩ := hclaimed
  refine ⟨h.distinct.set change, h.kept_set (h.claimable.spelled hmem hsame).1, h.claimable, ?_⟩
  intro name hobserved hforeign hreserved
  rw [observedValue_set h.distinct] at hobserved
  split at hobserved
  next hname => exact ⟨claimed, hmem, sameName_trans hsame (sameName_symm hname)⟩
  next => exact h.claimed name hobserved hforeign hreserved

/-- Other names can be claimed if every value that was claimed still is. -/
theorem Claims.reclaim (h : Claims foreign names values) {others : List String} (hothers : Claimable foreign others)
    (hcovers : ∀ claimed ∈ names, observedValue values claimed ≠ none →
      ∃ other ∈ others, sameName other claimed = true) : Claims foreign others values := by
  refine ⟨h.distinct, h.kept, hothers, ?_⟩
  intro name hobserved hforeign hreserved
  obtain ⟨claimed, hclaimed, hsame⟩ := h.claimed name hobserved hforeign hreserved
  rw [← observedValue_congr hsame] at hobserved
  obtain ⟨other, hother, hspelled⟩ := hcovers claimed hclaimed hobserved
  exact ⟨other, hother, sameName_trans hspelled hsame⟩

theorem Claims.mark (h : Claims foreign names values) (hforeign : ForeignValues foreign) (data : Option String) :
    Claims foreign names (setRegistryValue values (registryOwnerValue, data)) := by
  refine ⟨h.distinct.set _, h.kept_set hforeign.unmarked, h.claimable, ?_⟩
  intro name hobserved hapart hreserved
  rw [observedValue_set h.distinct, if_neg (by simp [hreserved])] at hobserved
  exact h.claimed name hobserved hapart hreserved

theorem observedValue_mark (h : NamesDistinct values) (data : Option String) :
    observedValue (setRegistryValue values (registryOwnerValue, data)) registryOwnerValue = data.map some := by
  rw [observedValue_set h, if_pos (sameName_self _)]

end

end AgentDesktop
