import AgentDesktop.ApplySettled

namespace AgentDesktop

variable {Config : Type}

namespace Appliers

variable {allowUserChoice : Config → Bool} {s t : Appliers Config}

theorem release_same (applier : Applier Config) (s : Appliers Config) :
    (s.release applier).current = s.current ∧ (s.release applier).pushes = s.pushes ∧
      (s.release applier).applies = s.applies ∧ (s.release applier).sequence = s.sequence ∧
      (s.release applier).loggedOut = s.loggedOut ∧ (s.release applier).locked = s.locked ∧
      (s.release applier).choice = s.choice ∧ (s.release applier).statuses = s.statuses := by
  unfold release
  split
  next => exact ⟨rfl, rfl, rfl, rfl, rfl, rfl, rfl, rfl⟩
  next => exact ⟨rfl, rfl, rfl, rfl, rfl, rfl, rfl, rfl⟩

theorem publish_same (outcome : LockedApply Config) (s : Appliers Config) :
    s.publish outcome = { s with statuses := (s.publish outcome).statuses } := by
  unfold publish
  split
  next => rfl
  next => rfl

/-- The channel never goes back to the outcome of an earlier apply. -/
theorem publish_ordered {outcome : LockedApply Config} (h : InApplyOrder s.applies s.statuses)
    (hmem : outcome ∈ s.applies) : InApplyOrder s.applies (s.publish outcome).statuses := by
  unfold publish
  split
  next => exact h
  next hlatest =>
    refine ⟨fun status hs => ?_, ?_⟩
    · rcases List.mem_append.mp hs with hs | hs
      · exact h.outcomes status hs
      · rw [List.mem_singleton.mp hs]
        exact hmem
    · refine List.pairwise_append.mpr ⟨h.ordered, List.pairwise_singleton _ _, fun earlier he last hl => ?_⟩
      rw [List.mem_singleton.mp hl]
      have hordered := h.ordered
      rcases List.eq_nil_or_concat s.statuses with hnil | ⟨others, current, hcurrent⟩
      · rw [hnil] at he
        cases he
      · rw [hcurrent, List.concat_eq_append] at he hordered hlatest
        rw [List.getLast?_concat] at hlatest
        have hle : current.sequence ≤ outcome.sequence := Nat.le_of_not_lt fun hlt => hlatest (decide_eq_true hlt)
        rcases List.mem_append.mp he with he | he
        · have hbefore := (List.pairwise_append.mp hordered).2.2 earlier he current (List.mem_singleton.mpr rfl)
          exact Nat.le_trans hbefore hle
        · rw [List.mem_singleton.mp he]
          exact hle

namespace Settled

variable {before after : List (Operation Config)} {operation : Operation Config}

/-- The lock is taken by the one operation that holds it. -/
theorem holds_alone (h : Settled s) (hsplit : s.operations = before ++ operation :: after)
    (holds : operation.holdsLock = true) :
    s.locked = true ∧ ∀ other ∈ before ++ after, other.holdsLock = false := by
  have hexclusive := h.exclusive
  rw [hsplit, List.countP_append, List.countP_cons_of_pos holds] at hexclusive
  have hbound := Bool.toNat_le s.locked
  have hnone : (before ++ after).countP Operation.holdsLock = 0 := by
    rw [List.countP_append]
    omega
  refine ⟨?_, fun other ho => Bool.eq_false_iff.mpr (List.countP_eq_zero.mp hnone other ho)⟩
  cases hlocked : s.locked with
  | true => rfl
  | false =>
    rw [hlocked, Bool.toNat_false] at hexclusive
    omega

variable {rest : Option (Operation Config)}

/-- The end of an apply. -/
theorem applied (h : Settled s) {applier : Applier Config} {config : ConfigVersion Config} {choice : ProgramChoice}
    {lockedOut readOut : Bool}
    (hsplit : s.operations = before ++ .applying applier config choice lockedOut readOut :: after)
    (hrest : rest = if applier.pushed.isSome then none
      else some (.publishing applier ⟨config, choice, s.sequence + 1, lockedOut, readOut⟩)) :
    Settled { s with
      locked := false
      sequence := s.sequence + 1
      applies := s.applies ++ [⟨config, choice, s.sequence + 1, lockedOut, readOut⟩]
      operations := before ++ (rest.toList ++ after) } := by
  have hmem : .applying applier config choice lockedOut readOut ∈ s.operations := by
    rw [hsplit]
    exact List.mem_append_right _ List.mem_cons_self
  have hkept : ∀ other ∈ before ++ after, other ∈ s.operations := by
    intro other ho
    rw [hsplit]
    exact ((List.sublist_cons_self _ after).append_left before).subset ho
  have hfits := h.fits _ hmem
  have hothers := (h.holds_alone hsplit rfl).2
  have hpublished : ∀ other ∈ rest,
      other = .publishing applier ⟨config, choice, s.sequence + 1, lockedOut, readOut⟩ := by
    intro other ho
    rw [hrest] at ho
    split at ho
    next => cases ho
    next => exact (Option.some.inj ho).symm
  have hfree : ∀ other ∈ before ++ (rest.toList ++ after), other.holdsLock = false := by
    intro other ho
    simp only [List.mem_append, Option.mem_toList] at ho
    rcases ho with ho | ho | ho
    · exact hothers other (List.mem_append_left _ ho)
    · rw [hpublished other ho]
      rfl
    · exact hothers other (List.mem_append_right _ ho)
  have hmore : ∀ {apply : LockedApply Config}, apply ∈ s.applies →
      apply ∈ s.applies ++ [⟨config, choice, s.sequence + 1, lockedOut, readOut⟩] := List.mem_append_left _
  refine ⟨?_, fun other ho => ?_, fun apply ha => ?_, h.current, h.present, ?_, ?_, fun current hc => ?_⟩
  · exact List.countP_eq_zero.mpr fun other ho => Bool.eq_false_iff.mp (hfree other ho)
  · have hunread : other.read = none := by
      cases hread : other.read with
      | none => rfl
      | some found => exact absurd (Operation.holdsLock_of_read hread) (Bool.eq_false_iff.mp (hfree other ho))
    simp only [List.mem_append, Option.mem_toList] at ho
    rcases ho with ho | ho | ho
    · have hother := h.fits other (hkept other (List.mem_append_left _ ho))
      exact Fits.unread hother.pushed hunread fun outcome houtcome => hmore (hother.outcome outcome houtcome)
    · rw [hpublished other ho]
      refine Fits.unread nofun rfl fun outcome houtcome => ?_
      cases houtcome
      exact List.mem_append_right _ (List.mem_singleton.mpr rfl)
    · have hother := h.fits other (hkept other (List.mem_append_right _ ho))
      exact Fits.unread hother.pushed hunread fun outcome houtcome => hmore (hother.outcome outcome houtcome)
  · rcases List.mem_append.mp ha with ha | ha
    · have hrecorded := h.recorded apply ha
      exact ⟨hrecorded.recent, Nat.le_succ_of_le hrecorded.numbered, hrecorded.present⟩
    · rw [List.mem_singleton.mp ha]
      exact ⟨hfits.recent config readOut rfl, Nat.le_refl _, hfits.present config readOut rfl⟩
  · refine List.pairwise_append.mpr ⟨h.ordered, List.pairwise_singleton _ _, fun earlier he last hl => ?_⟩
    rw [List.mem_singleton.mp hl]
    exact ⟨hfits.forward config readOut rfl earlier he, Nat.lt_succ_of_le (h.recorded earlier he).numbered⟩
  · exact ⟨fun status hs => hmore (h.statuses.outcomes status hs), h.statuses.ordered⟩
  · by_cases hsame : config = current ∧ choice = s.choice
    · refine .inr ⟨⟨_, List.getLast?_concat, hsame.1, hsame.2⟩, fun other ho hstale => ?_⟩
      exact Bool.eq_false_iff.mp (hfree other ho) (Operation.holdsLock_of_stale hstale)
    · rcases h.settled current hc with ⟨other, hother, hwill⟩ | ⟨-, hnone⟩
      · refine .inl ⟨other, ?_, hwill⟩
        rw [hsplit] at hother
        simp only [List.mem_append, List.mem_cons] at hother ⊢
        rcases hother with hother | rfl | hother
        · exact .inl hother
        · exact absurd hwill hsame
        · exact .inr (.inr hother)
      · exact absurd hsame (hnone _ hmem)

/-- An operation that ends without applying anything. -/
theorem ended (h : Settled s) (hsplit : s.operations = before ++ operation :: after)
    (idle : ∀ config, s.current = some config → ¬ operation.WillApply config s.choice) (applier : Applier Config)
    {locked : Bool} (lock : s.locked.toNat = locked.toNat + [operation].countP Operation.holdsLock)
    {statuses : List (LockedApply Config)} (hstatuses : InApplyOrder s.applies statuses) :
    Settled { ({ s with locked, statuses }.release applier) with operations := before ++ after } := by
  obtain ⟨hcurrent, hpushes, happlies, hsequence, hout, hlocked, hchoice, hsame⟩ :=
    release_same applier { s with locked, statuses }
  have hfree : (none : Option (Operation Config)).toList.countP Operation.holdsLock + s.locked.toNat =
      [operation].countP Operation.holdsLock + ({ s with locked, statuses }.release applier).locked.toNat := by
    rw [hlocked, lock, Nat.add_comm locked.toNat]
    exact Nat.zero_add _
  refine h.advanced hsplit ⟨hcurrent, hpushes, happlies, hsequence, hout⟩ hfree ?_ nofun ?_
  · rw [hsame]
    exact hstatuses
  · exact fun config hc => .inr ⟨hchoice, idle config hc, nofun⟩

/-- Under the lock an operation reads the configuration, or ends if there is none. -/
theorem advance_locked (h : Settled s) {applier : Applier Config} {lockedOut : Bool}
    (hsplit : s.operations = before ++ .locked applier lockedOut :: after) {saved : Bool} {next : Appliers Config}
    (hstep : s.advance allowUserChoice saved (.locked applier lockedOut) = some (next, rest)) :
    Settled { next with operations := before ++ (rest.toList ++ after) } := by
  have hmem : .locked applier lockedOut ∈ s.operations := by
    rw [hsplit]
    exact List.mem_append_right _ List.mem_cons_self
  have hfits := h.fits _ hmem
  have hlocked : s.locked = true := (h.holds_alone hsplit rfl).1
  simp only [Appliers.advance] at hstep
  split at hstep
  next hnone =>
    cases hstep
    refine h.ended hsplit (fun config hc => ?_) applier (by rw [hlocked]; rfl) h.statuses
    rw [hc] at hnone
    cases applier <;> cases hnone
  next config hread =>
    cases hstep
    have hcurrent : s.current = some config := by
      cases applier with
      | push pushed => exact hfits.pushed config hread
      | tick => exact hread
      | change => exact hread
    refine h.advanced hsplit ⟨rfl, rfl, rfl, rfl, rfl⟩ rfl h.statuses (fun other ho => ?_) fun found hf => ?_
    · cases ho
      refine ⟨hfits.pushed, fun other readOut ho => ?_, fun other readOut ho apply ha => ?_,
        fun other readOut ho => ?_, ?_⟩
      · cases ho
        refine ⟨h.current config hcurrent, fun latest hlatest => ?_⟩
        cases Option.some.inj (hcurrent.symm.trans hlatest)
        exact Nat.le_refl _
      · cases ho
        exact (h.recorded apply ha).recent.2 config hcurrent
      · cases ho
        refine Bool.eq_false_iff.mpr fun hout => ?_
        exact absurd (hcurrent.symm.trans (h.present hout)) nofun
      · exact nofun
    · exact .inl ⟨_, rfl, Option.some.inj (hcurrent.symm.trans hf)⟩

/-- One step of an operation. -/
theorem advance (h : Settled s) (hsplit : s.operations = before ++ operation :: after) {saved : Bool}
    {next : Appliers Config} (hstep : s.advance allowUserChoice saved operation = some (next, rest)) :
    Settled { next with operations := before ++ (rest.toList ++ after) } := by
  have hmem : operation ∈ s.operations := by
    rw [hsplit]
    exact List.mem_append_right _ List.mem_cons_self
  have hfits := h.fits operation hmem
  cases operation with
  | requested choice =>
    simp only [Appliers.advance] at hstep
    split at hstep
    next => cases hstep
    next =>
      cases hstep
      exact h.advanced hsplit ⟨rfl, rfl, rfl, rfl, rfl⟩ rfl h.statuses
        (fun other ho => by cases ho; exact Fits.unread nofun rfl nofun)
        fun _ _ => .inr ⟨rfl, id, fun other ho => by cases ho; exact id⟩
  | checking choice =>
    simp only [Appliers.advance] at hstep
    split at hstep
    next =>
      cases hstep
      exact h.ended hsplit (fun _ _ => id) .change rfl h.statuses
    next current hcurrent =>
      split at hstep
      next =>
        cases hstep
        exact h.advanced hsplit ⟨rfl, rfl, rfl, rfl, rfl⟩ rfl h.statuses
          (fun other ho => by cases ho; exact Fits.unread nofun rfl nofun)
          fun _ _ => .inr ⟨rfl, id, fun other ho => by cases ho; exact id⟩
      next =>
        cases hstep
        exact h.ended hsplit (fun _ _ => id) .change rfl h.statuses
  | saving choice =>
    simp only [Appliers.advance] at hstep
    split at hstep
    next =>
      cases hstep
      exact h.advanced hsplit ⟨rfl, rfl, rfl, rfl, rfl⟩ rfl h.statuses
        (fun other ho => by cases ho; exact Fits.unread nofun rfl nofun)
        fun _ _ => .inr ⟨rfl, id, fun other ho => by cases ho; exact id⟩
    next =>
      cases hstep
      exact h.ended hsplit (fun _ _ => id) .change rfl h.statuses
  | choosing choice =>
    cases hstep
    exact h.advanced hsplit ⟨rfl, rfl, rfl, rfl, rfl⟩ rfl h.statuses
      (fun other ho => by cases ho; exact Fits.unread nofun rfl nofun) fun _ _ => .inl ⟨_, rfl, trivial⟩
  | waiting applier =>
    simp only [Appliers.advance] at hstep
    split at hstep
    next => cases hstep
    next hfree =>
      cases hstep
      refine h.advanced hsplit ⟨rfl, rfl, rfl, rfl, rfl⟩ ?_ h.statuses
        (fun other ho => by cases ho; exact Fits.unread hfits.pushed rfl nofun) fun _ _ => .inl ⟨_, rfl, trivial⟩
      rw [Bool.eq_false_iff.mpr hfree]
      rfl
  | locked applier lockedOut => exact h.advance_locked hsplit hstep
  | planning applier config lockedOut readOut =>
    cases hstep
    refine h.advanced hsplit ⟨rfl, rfl, rfl, rfl, rfl⟩ rfl h.statuses (fun other ho => ?_) fun current hc => ?_
    · cases ho
      exact ⟨hfits.pushed, hfits.recent, hfits.forward, hfits.present, nofun⟩
    · by_cases hsame : config = current
      · exact .inl ⟨_, rfl, hsame, rfl⟩
      · exact .inr ⟨rfl, hsame, fun _ _ _ => hsame⟩
  | applying applier config choice lockedOut readOut =>
    cases hstep
    exact h.applied hsplit rfl
  | publishing applier outcome =>
    cases hstep
    rw [publish_same]
    exact h.ended hsplit (fun _ _ => id) applier rfl (publish_ordered h.statuses (hfits.outcome outcome rfl))

end Settled

end Appliers

end AgentDesktop
