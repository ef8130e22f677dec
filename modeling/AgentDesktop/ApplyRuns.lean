import AgentDesktop.ApplySteps
import AgentDesktop.ListAt

namespace AgentDesktop

variable {Config : Type}

namespace Appliers

variable {allowUserChoice : Config → Bool} {s t : Appliers Config}

theorem pushed_of_not_pushing (h : ¬ s.pushing = true) {operation : Operation Config}
    (hmem : operation ∈ s.operations) : operation.pushed = none := by
  cases hpushed : operation.pushed with
  | none => rfl
  | some config => exact absurd (List.any_eq_true.mpr ⟨operation, hmem, by rw [hpushed]; rfl⟩) h

namespace Settled

/-- The current configuration changes while no push is in progress. -/
theorem replaced (h : Settled s) (idle : ¬ s.pushing = true) {current : Option (ConfigVersion Config)} {pushes : Nat}
    {loggedOut : Bool} {more : List (Operation Config)} (newer : s.pushes ≤ pushes)
    (version : ∀ config, current = some config → config.version = pushes) (present : loggedOut = true → current = none)
    (free : more.countP Operation.holdsLock = 0)
    (fits : ∀ operation ∈ more, Fits { s with current, pushes, loggedOut } operation)
    (settled : current ≠ none → ∃ operation ∈ more, ∀ config choice, operation.WillApply config choice) :
    Settled { s with current, pushes, loggedOut, operations := s.operations ++ more } := by
  have hrecent : ∀ {used : Nat}, s.Recent used → Recent { s with current, pushes, loggedOut } used := by
    intro used hused
    refine ⟨Nat.le_trans hused.1 newer, fun config hc => ?_⟩
    rw [version config hc]
    exact Nat.le_trans hused.1 newer
  refine ⟨?_, fun operation ho => ?_, fun apply ha => ?_, ?_, present, h.ordered, h.statuses, fun config hc => ?_⟩
  · show (s.operations ++ more).countP Operation.holdsLock = s.locked.toNat
    rw [List.countP_append, free]
    exact h.exclusive
  · rcases List.mem_append.mp ho with ho | ho
    · have hfits := h.fits operation ho
      have hnone := pushed_of_not_pushing idle ho
      refine ⟨fun config hc => ?_, fun config readOut hr => hrecent (hfits.recent config readOut hr), hfits.forward,
        hfits.present, hfits.outcome⟩
      rw [hnone] at hc
      cases hc
    · exact (fits operation ho).mono rfl rfl rfl
  · have hrecorded := h.recorded apply ha
    exact ⟨hrecent hrecorded.recent, hrecorded.numbered, hrecorded.present⟩
  · exact fun config hc => Nat.le_of_eq (version config hc)
  · obtain ⟨operation, ho, hwill⟩ := settled fun hnone => absurd (hc.symm.trans hnone) nofun
    exact .inl ⟨operation, List.mem_append_right _ ho, hwill config s.choice⟩

theorem push {config : Config} (h : Settled s) (hstep : s.push config = some t) : Settled t := by
  unfold Appliers.push at hstep
  split at hstep
  next => cases hstep
  next hidle =>
    cases hstep
    refine h.replaced hidle (Nat.le_succ _) (fun pushed hp => ?_) nofun rfl (fun operation ho => ?_) fun _ => ?_
    · cases hp
      rfl
    · rw [List.mem_singleton.mp ho]
      exact Fits.unread (fun pushed hp => hp) rfl nofun
    · exact ⟨_, List.mem_singleton.mpr rfl, fun _ _ => trivial⟩

theorem logout (h : Settled s) (hstep : s.logout = some t) : Settled t := by
  unfold Appliers.logout at hstep
  split at hstep
  next => cases hstep
  next hidle =>
    cases hstep
    have hreplaced : Settled { s with
        current := none, pushes := s.pushes, loggedOut := true, operations := s.operations ++ [] } :=
      h.replaced hidle (Nat.le_refl _) nofun (fun _ => rfl) rfl nofun fun hnone => absurd rfl hnone
    rw [List.append_nil] at hreplaced
    exact hreplaced

/-- An operation begins. -/
theorem begun (h : Settled s) {operation : Operation Config} (free : operation.holdsLock = false)
    (fits : s.Fits operation) : Settled { s with operations := s.operations ++ [operation] } := by
  have hnew : ∀ other ∈ s.operations ++ [operation], other ∈ s.operations ∨ other = operation := by
    intro other ho
    rw [List.mem_append, List.mem_singleton] at ho
    exact ho
  refine ⟨?_, fun other ho => ?_, fun apply ha => ?_, h.current, h.present, h.ordered, h.statuses, fun config hc => ?_⟩
  · show (s.operations ++ [operation]).countP Operation.holdsLock = s.locked.toNat
    rw [List.countP_append, List.countP_singleton, free]
    exact h.exclusive
  · have hfits : s.Fits other := by
      rcases hnew other ho with hold | rfl
      · exact h.fits other hold
      · exact fits
    exact hfits.mono rfl rfl rfl
  · have hrecorded := h.recorded apply ha
    exact ⟨hrecorded.recent, hrecorded.numbered, hrecorded.present⟩
  · rcases h.settled config hc with ⟨other, hother, hwill⟩ | ⟨hlast, hstale⟩
    · exact .inl ⟨other, List.mem_append_left _ hother, hwill⟩
    · refine .inr ⟨hlast, fun other ho => ?_⟩
      rcases hnew other ho with hold | rfl
      · exact hstale other hold
      · exact fun hother => Bool.eq_false_iff.mp free (Operation.holdsLock_of_stale hother)

theorem step {action : AppliersAction Config} (h : Settled s) (hstep : s.step allowUserChoice action = some t) :
    Settled t := by
  cases action with
  | push config => exact h.push hstep
  | logout => exact h.logout hstep
  | tick =>
    simp only [Appliers.step, Appliers.tick] at hstep
    split at hstep
    next =>
      cases hstep
      exact h
    next =>
      cases hstep
      exact h.begun rfl (Fits.unread nofun rfl nofun)
  | change choice =>
    simp only [Appliers.step, Appliers.change] at hstep
    split at hstep
    next =>
      cases hstep
      exact h.begun rfl (Fits.unread nofun rfl nofun)
    next =>
      cases hstep
      exact h
  | advance index saved =>
    simp only [Appliers.step] at hstep
    split at hstep
    next => cases hstep
    next operation hget =>
      have hsplit := split_at hget
      split at hstep
      next => cases hstep
      next next rest hadvance =>
        cases hstep
        exact h.advance hsplit hadvance

theorem started (current : Option Config) (choice : ProgramChoice) : Settled (Appliers.started current choice) := by
  cases current with
  | none => exact ⟨rfl, nofun, nofun, nofun, fun _ => rfl, .nil, ⟨nofun, .nil⟩, nofun⟩
  | some config =>
    have happly : ∀ apply ∈ (Appliers.started (some config) choice).applies,
        apply = ⟨⟨0, config⟩, choice, 1, false, false⟩ := fun apply ha => List.mem_singleton.mp ha
    refine ⟨rfl, nofun, fun apply ha => ?_, fun found hf => ?_, nofun, List.pairwise_singleton _ _, ⟨nofun, .nil⟩,
      fun found hf => ?_⟩
    · rw [happly apply ha]
      exact ⟨⟨Nat.zero_le _, fun _ _ => Nat.zero_le _⟩, Nat.le_refl _, rfl⟩
    · cases hf
      exact Nat.zero_le _
    · cases hf
      exact .inr ⟨⟨_, rfl, rfl, rfl⟩, nofun⟩

end Settled

end Appliers

end AgentDesktop
