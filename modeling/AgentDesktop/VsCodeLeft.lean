import AgentDesktop.VsCodeOutcomes

namespace AgentDesktop

/-- A file over a document, or none where there was none. -/
inductive FileOver (base : Option (List Property)) : Option SettingsText → Option (List Property) → Prop where
  | absent (hbase : base = none) : FileOver base none none
  | present {text : SettingsText} {properties : List Property} (htext : parseObject text = .ok properties)
      (hmanages : Manages base properties) : FileOver base (some text) (some properties)

/-- The properties that are not managed, and the ignored settings that are not. -/
def userPart (document : Option (List Property)) : List Property × List Value :=
  ((document.getD []).filter fun property => decide (property.1 ≠ overrideKey ∧ property.1 ≠ ignoredSettingsKey),
    ((ignoredIn document).getD []).filter fun element =>
      !managedEntries.any fun entry => decide (element = .string entry))

/-- What is left of a file: the user's part of it, in its order, with the managed parts of the
document it is over. -/
structure LeftOver (base current left : Option (List Property)) : Prop where
  own : userPart left = userPart current
  order : ((left.getD []).map Prod.fst).Sublist ((current.getD []).map Prod.fst)
  override : overrideIn left = overrideIn base
  entries : ∀ entry ∈ managedEntries,
    Value.string entry ∈ (ignoredIn left).getD [] ↔ Value.string entry ∈ (ignoredIn base).getD []
  file : left = none → base = none
  list : ignoredIn left = none → ignoredIn base = none

section

variable {base document : Option (List Property)} {text : Option SettingsText} {properties : List Property}

theorem manages_none : Manages none [] := by
  refine ⟨⟨by simp, by simp, by simp⟩, fun hoverride => ?_, fun hignored => ?_, fun entry hentry hthere => ?_⟩
  · exact absurd rfl hoverride
  · exact absurd rfl hignored
  · exact absurd (mem_missingEntries.mpr ⟨hentry, by simp [ignoredIn]⟩) hthere

theorem FileOver.manages (h : FileOver base text document) : Manages base (document.getD []) := by
  cases h with
  | absent hbase =>
    rw [hbase]
    exact manages_none
  | present _ hmanages => exact hmanages

theorem filter_restored (base : Option (List Property)) (properties : List Property) :
    (restoredFrom base properties).filter (fun property =>
        decide (property.1 ≠ overrideKey ∧ property.1 ≠ ignoredSettingsKey)) =
      properties.filter fun property => decide (property.1 ≠ overrideKey ∧ property.1 ≠ ignoredSettingsKey) := by
  induction properties with
  | nil => rfl
  | cons property rest ih =>
    unfold restoredFrom at ih ⊢
    by_cases hown : property.1 ≠ overrideKey ∧ property.1 ≠ ignoredSettingsKey
    · have hsame : restoredProperty (overrideIn base) (missingEntries base) (ignoredIn base).isNone property =
          some property := by
        rw [restoredProperty, if_neg hown.1, if_neg hown.2]
      rw [List.filterMap_cons_some hsame, List.filter_cons_of_pos (by simpa using hown),
        List.filter_cons_of_pos (by simpa using hown), ih]
    · rw [List.filter_cons_of_neg (by simpa using hown)]
      cases hkept : restoredProperty (overrideIn base) (missingEntries base) (ignoredIn base).isNone property with
      | none => rw [List.filterMap_cons_none hkept, ih]
      | some kept =>
        rw [← restoredProperty_key hkept] at hown
        rw [List.filterMap_cons_some hkept, List.filter_cons_of_neg (by simpa using hown), ih]

theorem map_restored (base : Option (List Property)) (properties : List Property) :
    ((restoredFrom base properties).map Prod.fst).Sublist (properties.map Prod.fst) := by
  induction properties with
  | nil => exact List.Sublist.refl _
  | cons property rest ih =>
    unfold restoredFrom at ih ⊢
    cases hkept : restoredProperty (overrideIn base) (missingEntries base) (ignoredIn base).isNone property with
    | none =>
      rw [List.filterMap_cons_none hkept]
      exact ih.cons _
    | some kept =>
      rw [List.filterMap_cons_some hkept, List.map_cons, List.map_cons, restoredProperty_key hkept]
      exact ih.cons_cons _

theorem ParsedObject.restored_entries (h : ParsedObject properties) (base : Option (List Property)) :
    (ignoredElements (restoredFrom base properties)).getD [] =
      keptElements base ((ignoredElements properties).getD []) := by
  have hlist : ignoredElements (restoredFrom base properties) = _ := h.restored_ignored
  rw [hlist]
  cases ignoredElements properties with
  | none => rfl
  | some elements =>
    rw [Option.bind_some, Option.getD_some]
    split
    next hdrop =>
      obtain ⟨_, hempty⟩ := Bool.and_eq_true_iff.mp hdrop
      exact (List.isEmpty_iff.mp hempty).symm
    next => rfl

theorem filter_keptElements (base : Option (List Property)) (elements : List Value) :
    (keptElements base elements).filter (fun element =>
        !managedEntries.any fun entry => decide (element = .string entry)) =
      elements.filter fun element => !managedEntries.any fun entry => decide (element = .string entry) := by
  unfold keptElements
  rw [List.filter_filter]
  refine List.filter_congr fun element _ => ?_
  rw [Bool.and_eq_left_iff_imp]
  intro hown
  rw [Bool.not_eq_true', List.any_eq_false] at hown ⊢
  intro entry hentry
  exact hown entry (mem_missingEntries.mp hentry).1

theorem Manages.leftOver (h : Manages base properties) : LeftOver base (some properties) (leftOf base properties) := by
  have hentries := h.parsed.restored_entries base
  have hown : userPart (some (restoredFrom base properties)) = userPart (some properties) := by
    refine Prod.ext (filter_restored base properties) ?_
    have hlist : (ignoredIn (some (restoredFrom base properties))).getD [] =
        keptElements base ((ignoredElements properties).getD []) := hentries
    unfold userPart
    rw [hlist]
    exact filter_keptElements base _
  have hlisted : ∀ entry ∈ managedEntries,
      Value.string entry ∈ (ignoredElements (restoredFrom base properties)).getD [] ↔
        Value.string entry ∈ (ignoredIn base).getD [] := by
    intro entry hentry
    rw [hentries, mem_keptElements]
    constructor
    · rintro ⟨_, hthere⟩
      by_contra hlacks
      exact hthere (mem_missingEntries.mpr ⟨hentry, hlacks⟩)
    · intro hthere
      have hpresent : entry ∉ missingEntries base := fun hmissing => (mem_missingEntries.mp hmissing).2 hthere
      obtain ⟨elements, helements, hmem⟩ := h.entries entry hentry hpresent
      rw [helements]
      exact ⟨hmem, hpresent⟩
  unfold leftOf
  split
  next hgone =>
    obtain ⟨hbase, hempty⟩ := Bool.and_eq_true_iff.mp hgone
    have hnone : base = none := Option.isNone_iff_eq_none.mp hbase
    have hnothing := List.isEmpty_iff.mp hempty
    rw [hnothing] at hown hlisted
    refine ⟨hown, List.nil_sublist _, by rw [hnone], hlisted, fun _ => hnone, fun _ => by rw [hnone]; rfl⟩
  next =>
    refine ⟨hown, map_restored base properties, h.restored_override, hlisted, by simp, fun hnone => ?_⟩
    by_contra hlist
    exact h.restored.ignored hlist hnone

theorem FileOver.leftOver (h : FileOver base text document) : LeftOver base document (document.bind (leftOf base)) := by
  cases h with
  | absent hbase =>
    subst hbase
    exact ⟨rfl, List.Sublist.refl _, rfl, fun _ _ => Iff.rfl, id, id⟩
  | present _ hmanages => exact hmanages.leftOver

end

end AgentDesktop
