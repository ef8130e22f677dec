import AgentDesktop.RegistryPolicy

namespace AgentDesktop

/-- The key holds the values of others, the desired values, a marker that names exactly
those, and nothing else. -/
structure PolicyHolds {β : Type} (text : RegistryText β) (foreign : RegistryValues) (desired : BTreeMap String String)
    (values : RegistryValues) : Prop where
  distinct : NamesDistinct values
  kept : ∀ entry ∈ foreign.entries, entry ∈ values.entries
  written : ∀ entry ∈ desired.entries, observedValue values entry.1 = some (some entry.2)
  marker : Marked text (desired.entries.map Prod.fst) values
  only : ∀ entry ∈ values.entries, entry ∈ foreign.entries ∨ sameName entry.1 registryOwnerValue = true ∨
    ∃ setting ∈ desired.entries, sameName setting.1 entry.1 = true ∧ entry.2 = some setting.2

section

variable {β : Type} {text : RegistryText β} {foreign values : RegistryValues} {names : List String}

theorem Marked.touch (h : Marked text names values) (hdistinct : NamesDistinct values)
    {change : String × Option String} (hunreserved : sameName change.1 registryOwnerValue = false) :
    Marked text names (setRegistryValue values change) := by
  unfold Marked
  rw [observedValue_set hdistinct, sameName_comm, if_neg (by simp [hunreserved])]
  exact h

/-- Claimed values change while the marker claims them. -/
theorem Claims.throughout (h : Claims foreign names values) (hmarked : Marked text names values)
    {changes : List (String × Option String)}
    (hclaimed : ∀ change ∈ changes, ∃ claimed ∈ names, sameName claimed change.1 = true) :
    Throughout setRegistryValue (fun values => Claims foreign names values ∧ Marked text names values) values
      changes := by
  refine throughout_of_step ⟨h, hmarked⟩ fun values change hchange hvalues => ?_
  obtain ⟨claimed, hmem, hsame⟩ := hclaimed change hchange
  have hunreserved := (h.claimable.spelled hmem hsame).2
  exact ⟨hvalues.1.touch ⟨claimed, hmem, hsame⟩, hvalues.2.touch hvalues.1.distinct hunreserved⟩

/-- The marker claims the names, and the other values are as before. -/
structure MarkedOver (text : RegistryText β) (foreign : RegistryValues) (names : List String)
    (before values : RegistryValues) : Prop where
  claims : Claims foreign names values
  marked : Marked text names values
  same : ∀ name, sameName name registryOwnerValue = false → observedValue values name = observedValue before name

theorem Claims.markedOver_write (h : Claims foreign names values) (hforeign : ForeignValues foreign) :
    MarkedOver text foreign names values
      (applyKeyChanges values [(registryOwnerValue, some (text.names names))]) := by
  have happly : applyKeyChanges values [(registryOwnerValue, some (text.names names))] =
      setRegistryValue values (registryOwnerValue, some (text.names names)) := rfl
  rw [happly]
  refine ⟨h.mark hforeign _, observedValue_mark h.distinct _, fun name hname => ?_⟩
  rw [observedValue_set h.distinct, if_neg (by simp [hname])]

theorem Claims.markedOver_first (h : Claims foreign names values) (hforeign : ForeignValues foreign) :
    MarkedOver text foreign names values (applyKeyChanges values (firstMarker text values names)) := by
  unfold firstMarker
  split
  next => exact h.markedOver_write hforeign
  next hsame =>
    have hdata : (observedValue values registryOwnerValue).bind id = some (text.names names) := not_not.mp hsame
    obtain ⟨data, hmarked, rfl⟩ := Option.bind_eq_some_iff.mp hdata
    exact ⟨h, hmarked, fun _ _ => rfl⟩

theorem Claims.markedOver_last {full : List String} (h : Claims foreign names values)
    (hforeign : ForeignValues foreign) (hmarked : Marked text full values) :
    MarkedOver text foreign names values (applyKeyChanges values (lastMarker text names full)) := by
  unfold lastMarker
  split
  next => exact h.markedOver_write hforeign
  next hsame =>
    have htext : text.names names = text.names full := not_not.mp hsame
    unfold Marked at hmarked
    rw [← htext] at hmarked
    exact ⟨h, hmarked, fun _ _ => rfl⟩

end

section

variable {β : Type} {text : RegistryText β} {foreign values : RegistryValues} {desired : BTreeMap String String}

theorem Claims.policyHolds (h : Claims foreign (desired.entries.map Prod.fst) values)
    (hmarked : Marked text (desired.entries.map Prod.fst) values)
    (hwritten : ∀ entry ∈ desired.entries, observedValue values entry.1 = some (some entry.2)) :
    PolicyHolds text foreign desired values := by
  refine ⟨h.distinct, h.kept, hwritten, hmarked, fun entry hentry => ?_⟩
  refine (h.entry hentry).imp_right (Or.imp_right ?_)
  rintro ⟨name, hname, hsame⟩
  obtain ⟨setting, hsetting, rfl⟩ := List.mem_map.mp hname
  have hvalue := observedValue_of_mem h.distinct hentry (sameName_symm hsame)
  rw [hwritten setting hsetting] at hvalue
  exact ⟨setting, hsetting, hsame, (Option.some.inj hvalue).symm⟩

/-- Where the desired values are there, nothing is planned. -/
theorem PolicyHolds.settled (h : PolicyHolds text foreign desired values) :
    policyChanges text values desired = [] := by
  have howned := h.marker.owned (List.pairwise_map.mpr desired.sorted)
  have hstale : staleNames (registryOwnedValues text values) desired = [] := by
    rw [howned]
    refine List.eq_nil_iff_forall_not_mem.mpr fun name hname => ?_
    obtain ⟨entry, hentry, rfl⟩ := List.mem_map.mp (List.mem_of_mem_filter hname)
    have hother := staleNames_apart hname hentry
    rw [sameName_self] at hother
    cases hother
  have hvalues : valueChanges values desired [] = [] := by
    refine List.eq_nil_iff_forall_not_mem.mpr fun change hchange => ?_
    rcases mem_valueChanges.mp hchange with ⟨entry, hentry, hmissing, _⟩ | ⟨_, hstale, _⟩
    · exact hmissing (h.written entry hentry)
    · cases hstale
  have hmarker : (observedValue values registryOwnerValue).bind id =
      some (text.names (desired.entries.map Prod.fst)) := by
    rw [h.marker]
    rfl
  unfold policyChanges
  dsimp only
  have hfull : fullNames desired [] = desired.entries.map Prod.fst := rfl
  rw [hstale, hvalues, hfull, firstMarker, if_neg (not_not.mpr hmarker), lastMarker, if_neg (not_not.mpr rfl)]
  rfl

section

variable (hforeign : ForeignValues foreign) (hdesired : ApartFrom foreign desired)

include hdesired in
/-- Once the values have changed, those beside the values of others are desired. -/
theorem PolicyKept.claims_desired (h : PolicyKept text foreign values) {full : List String} {start : RegistryValues}
    (hstart : MarkedOver text foreign full values start)
    (hchanged : Claims foreign full
      (applyKeyChanges start (valueChanges values desired (staleNames (registryOwnedValues text values) desired)))) :
    Claims foreign (desired.entries.map Prod.fst)
      (applyKeyChanges start (valueChanges values desired (staleNames (registryOwnedValues text values) desired))) := by
  refine hchanged.reclaim hdesired.claimable fun name hname hobserved => ?_
  have hunreserved := hchanged.claimable.unreserved name hname
  by_contra hundesired
  have hother : ∀ entry ∈ desired.entries, sameName entry.1 name = false := by
    intro entry hentry
    exact Bool.eq_false_of_not_eq_true fun hsame => hundesired ⟨entry.1, List.mem_map_of_mem hentry, hsame⟩
  refine hobserved (valueChanges_deleted hstart.claims.distinct hother fun hthere => ?_)
  rw [hstart.same name hunreserved] at hthere
  obtain ⟨claimed, hclaimed, hsame⟩ := h.claims.claimed name hthere (hchanged.claimable.apart name hname) hunreserved
  rcases staleNames_or hclaimed with hstale | ⟨entry, hentry, hspelled⟩
  · refine ⟨claimed, hstale, ?_, hsame⟩
    rw [observesName_eq, observedValue_congr hsame]
    exact Option.isSome_iff_ne_none.mpr hthere
  · have hnot := hother entry hentry
    rw [sameName_trans hspelled hsame] at hnot
    cases hnot

include hforeign hdesired

/-- Wherever the changes for desired values stop, all is claimed, and at their end the
desired values are there. -/
theorem PolicyKept.settings (h : PolicyKept text foreign values) :
    Throughout setRegistryValue (PolicyKept text foreign) values (policyChanges text values desired) ∧
      PolicyHolds text foreign desired (applyKeyChanges values (policyChanges text values desired)) := by
  have hfull := h.claims_full hdesired
  have hfirst : MarkedOver text foreign _ values _ := hfull.markedOver_first hforeign
  have hclaimed : ∀ change ∈ valueChanges values desired (staleNames (registryOwnedValues text values) desired),
      ∃ claimed ∈ fullNames desired (staleNames (registryOwnedValues text values) desired),
        sameName claimed change.1 = true :=
    fun change hchange => ⟨change.1, valueChanges_claimed hchange, sameName_self change.1⟩
  have hmiddle := hfirst.claims.throughout hfirst.marked hclaimed
  obtain ⟨hchanged, hmarked⟩ := hmiddle.full
  have hlast := (h.claims_desired hdesired hfirst hchanged).markedOver_last hforeign hmarked
  constructor
  · refine Throughout.append (Throughout.append ?_ ?_) ?_
    · exact throughout_of_length_le (firstMarker_length text values _) h (hfirst.claims.policyKept hfirst.marked)
    · exact hmiddle.imp fun values hvalues => hvalues.1.policyKept hvalues.2
    · rw [List.foldl_append]
      exact throughout_of_length_le (lastMarker_length text _ _) (hchanged.policyKept hmarked)
        (hlast.claims.policyKept hlast.marked)
  · unfold policyChanges
    rw [applyKeyChanges_append, applyKeyChanges_append]
    refine hlast.claims.policyHolds hlast.marked fun entry hentry => ?_
    have hunreserved := hdesired.accepted.unreserved entry hentry
    rw [hlast.same entry.1 hunreserved]
    exact valueChanges_written hfirst.claims.distinct hdesired.accepted.distinct hentry
      (hfirst.same entry.1 hunreserved)

end

/-- Wherever the changes of a removal stop, all is claimed, and at their end the values
of others are left. -/
theorem PolicyKept.removal (h : PolicyKept text foreign values) (hforeign : ForeignValues foreign) :
    Throughout setRegistryValue (PolicyKept text foreign) values (removalChanges text values) ∧
      applyKeyChanges values (removalChanges text values) = foreign := by
  unfold removalChanges
  rw [observesName_eq]
  cases hmarker : observedValue values registryOwnerValue with
  | none =>
    have heq := h.eq_foreign hmarker
    exact ⟨Throughout.nil h, heq⟩
  | some data =>
    have hmarked : Marked text (registryOwnedValues text values) values :=
      h.marker.resolve_left (by simp [hmarker])
    have hdeletes : ((registryOwnedValues text values).filter (observesName values)).map (fun name => (name, none)) =
        valueChanges values .empty (registryOwnedValues text values) := rfl
    have hclaimed : ∀ change ∈ valueChanges values .empty (registryOwnedValues text values),
        ∃ claimed ∈ registryOwnedValues text values, sameName claimed change.1 = true := by
      intro change hchange
      rcases mem_valueChanges.mp hchange with ⟨_, hentry, _⟩ | ⟨name, hname, _, rfl⟩
      · cases hentry
      · exact ⟨name, hname, sameName_self name⟩
    have hdeleting := h.claims.throughout hmarked hclaimed
    obtain ⟨hdeleted, hstill⟩ := hdeleting.full
    have hnothing : Claims foreign []
        (applyKeyChanges values (valueChanges values .empty (registryOwnedValues text values))) := by
      refine hdeleted.reclaim hforeign.claims.claimable fun name hname hobserved => absurd ?_ hobserved
      refine valueChanges_deleted h.claims.distinct (by rintro _ ⟨⟩) fun hthere => ?_
      refine ⟨name, hname, ?_, sameName_self name⟩
      rw [observesName_eq]
      exact Option.isSome_iff_ne_none.mpr hthere
    have hend := (hnothing.mark hforeign none).eq_foreign (observedValue_mark hnothing.distinct none)
    simp only [Option.isSome_some, if_true, hdeletes]
    constructor
    · refine Throughout.append (hdeleting.imp fun values hvalues => hvalues.1.policyKept hvalues.2) ?_
      have hkept : PolicyKept text foreign (setRegistryValue _ (registryOwnerValue, none)) :=
        hend.symm.subst hforeign.policyKept
      exact throughout_of_length_le (by simp) (hdeleted.policyKept hstill) hkept
    · rw [applyKeyChanges_append]
      exact hend

end

end AgentDesktop
