import AgentDesktop.ApplyOrder

namespace AgentDesktop

variable {Config : Type}

namespace Operation

def holdsLock : Operation Config → Bool
  | .locked _ _ => true
  | .planning _ _ _ _ => true
  | .applying _ _ _ _ _ => true
  | _ => false

/-- The configuration the operation has read, with whether the daemon was logged out then. -/
def read : Operation Config → Option (ConfigVersion Config × Bool)
  | .planning _ config _ readOut => some (config, readOut)
  | .applying _ config _ _ readOut => some (config, readOut)
  | _ => none

/-- The outcome the operation is about to publish. -/
def outcome : Operation Config → Option (LockedApply Config)
  | .publishing _ outcome => some outcome
  | _ => none

/-- If nothing else changes, the operation applies the configuration with the choice. -/
def WillApply (config : ConfigVersion Config) (choice : ProgramChoice) : Operation Config → Prop
  | .waiting _ => True
  | .locked _ _ => True
  | .planning _ planned _ _ => planned = config
  | .applying _ planned chosen _ _ => planned = config ∧ chosen = choice
  | _ => False

/-- The operation is about to apply something else. -/
def Stale (config : ConfigVersion Config) (choice : ProgramChoice) : Operation Config → Prop
  | .planning _ planned _ _ => planned ≠ config
  | .applying _ planned chosen _ _ => ¬ (planned = config ∧ chosen = choice)
  | _ => False

theorem holdsLock_of_read {operation : Operation Config} {found : ConfigVersion Config × Bool}
    (h : operation.read = some found) : operation.holdsLock = true := by
  cases operation <;> first | rfl | cases h

theorem holdsLock_of_stale {operation : Operation Config} {config : ConfigVersion Config} {choice : ProgramChoice}
    (h : operation.Stale config choice) : operation.holdsLock = true := by
  cases operation <;> first | rfl | cases h

end Operation

namespace Appliers

variable {s t : Appliers Config}

/-- No configuration that is or was current after it is older. -/
def Recent (s : Appliers Config) (version : Nat) : Prop :=
  version ≤ s.pushes ∧ ∀ config, s.current = some config → version ≤ config.version

/-- The last apply used the configuration and the choice. -/
def LastUsed (s : Appliers Config) (config : ConfigVersion Config) (choice : ProgramChoice) : Prop :=
  ∃ last, s.applies.getLast? = some last ∧ last.config = config ∧ last.choice = choice

/-- What an operation in progress may hold. -/
structure Fits (s : Appliers Config) (operation : Operation Config) : Prop where
  pushed : ∀ config, operation.pushed = some config → s.current = some config
  recent : ∀ config readOut, operation.read = some (config, readOut) → s.Recent config.version
  forward : ∀ config readOut, operation.read = some (config, readOut) →
    ∀ apply ∈ s.applies, apply.config.version ≤ config.version
  present : ∀ config readOut, operation.read = some (config, readOut) → readOut = false
  outcome : ∀ outcome, operation.outcome = some outcome → outcome ∈ s.applies

/-- The statuses are outcomes of applies, in the order of the applies. -/
structure InApplyOrder (applies statuses : List (LockedApply Config)) : Prop where
  outcomes : ∀ status ∈ statuses, status ∈ applies
  ordered : statuses.Pairwise fun a b => a.sequence ≤ b.sequence

/-- What a past apply used. -/
structure Recorded (s : Appliers Config) (apply : LockedApply Config) : Prop where
  recent : s.Recent apply.config.version
  numbered : apply.sequence ≤ s.sequence
  present : apply.readOut = false

/-- Applies go forward, and either something in progress will apply the current
configuration with the current choice, or the last apply did and nothing in
progress will apply anything else. -/
structure Settled (s : Appliers Config) : Prop where
  exclusive : s.operations.countP Operation.holdsLock = s.locked.toNat
  fits : ∀ operation ∈ s.operations, s.Fits operation
  recorded : ∀ apply ∈ s.applies, s.Recorded apply
  current : ∀ config, s.current = some config → config.version ≤ s.pushes
  present : s.loggedOut = true → s.current = none
  ordered : s.applies.Pairwise fun a b => a.config.version ≤ b.config.version ∧ a.sequence < b.sequence
  statuses : InApplyOrder s.applies s.statuses
  settled : ∀ config, s.current = some config →
    (∃ operation ∈ s.operations, operation.WillApply config s.choice) ∨
      (s.LastUsed config s.choice ∧ ∀ operation ∈ s.operations, ¬ operation.Stale config s.choice)

variable {operation : Operation Config}

theorem Fits.unread (pushed : ∀ config, operation.pushed = some config → s.current = some config)
    (unread : operation.read = none) (outcome : ∀ outcome, operation.outcome = some outcome → outcome ∈ s.applies) :
    s.Fits operation := by
  have none_read : ∀ {config : ConfigVersion Config} {readOut : Bool}, operation.read ≠ some (config, readOut) := by
    intro config readOut hread
    rw [unread] at hread
    cases hread
  exact ⟨pushed, fun _ _ hread => absurd hread none_read, fun _ _ hread => absurd hread none_read,
    fun _ _ hread => absurd hread none_read, outcome⟩

/-- What an operation holds stays fit while the configuration and the applies stay. -/
theorem Fits.mono (h : s.Fits operation) (current : t.current = s.current) (pushes : t.pushes = s.pushes)
    (applies : t.applies = s.applies) : t.Fits operation := by
  refine ⟨?_, ?_, ?_, h.present, ?_⟩
  · rw [current]
    exact h.pushed
  · unfold Recent
    rw [current, pushes]
    exact h.recent
  · rw [applies]
    exact h.forward
  · rw [applies]
    exact h.outcome

namespace Settled

/-- A step of an operation that is not the end of an apply. -/
theorem advanced (h : Settled s) {before after : List (Operation Config)}
    (hsplit : s.operations = before ++ operation :: after) {next : Appliers Config} {rest : Option (Operation Config)}
    (same : next.current = s.current ∧ next.pushes = s.pushes ∧ next.applies = s.applies ∧
      next.sequence = s.sequence ∧ next.loggedOut = s.loggedOut)
    (lock : rest.toList.countP Operation.holdsLock + s.locked.toNat =
      [operation].countP Operation.holdsLock + next.locked.toNat) (statuses : InApplyOrder s.applies next.statuses)
    (fits : ∀ other ∈ rest, s.Fits other)
    (settled : ∀ config, s.current = some config →
      (∃ other ∈ rest, other.WillApply config next.choice) ∨
        next.choice = s.choice ∧ ¬ operation.WillApply config s.choice ∧
          ∀ other ∈ rest, other.Stale config s.choice → operation.Stale config s.choice) :
    Settled { next with operations := before ++ (rest.toList ++ after) } := by
  obtain ⟨hcurrent, hpushes, happlies, hsequence, hout⟩ := same
  have hold : ∀ other ∈ before ++ (rest.toList ++ after), other ∈ rest ∨ other ∈ before ++ after := by
    intro other ho
    simp only [List.mem_append, Option.mem_toList] at ho ⊢
    rcases ho with ho | ho | ho
    · exact .inr (.inl ho)
    · exact .inl ho
    · exact .inr (.inr ho)
  have hkept : ∀ other ∈ before ++ after, other ∈ s.operations := by
    intro other ho
    rw [hsplit]
    exact ((List.sublist_cons_self operation after).append_left before).subset ho
  have hmem : operation ∈ s.operations := by
    rw [hsplit]
    exact List.mem_append_right _ List.mem_cons_self
  refine ⟨?_, fun other ho => ?_, fun apply ha => ?_, ?_, ?_, ?_, happlies ▸ statuses, fun config hc => ?_⟩
  · have hexclusive := h.exclusive
    rw [hsplit, List.countP_append, List.countP_cons] at hexclusive
    rw [List.countP_singleton] at lock
    show (before ++ (rest.toList ++ after)).countP Operation.holdsLock = next.locked.toNat
    rw [List.countP_append, List.countP_append]
    omega
  · have hfits : s.Fits other := by
      rcases hold other ho with hnew | hother
      · exact fits other hnew
      · exact h.fits other (hkept other hother)
    exact hfits.mono hcurrent hpushes happlies
  · have hrecorded := h.recorded apply (happlies ▸ ha)
    refine ⟨?_, ?_, hrecorded.present⟩
    · unfold Recent
      rw [hcurrent, hpushes]
      exact hrecorded.recent
    · exact Nat.le_trans hrecorded.numbered (Nat.le_of_eq hsequence.symm)
  · rw [hcurrent, hpushes]
    exact h.current
  · rw [hcurrent, hout]
    exact h.present
  · rw [happlies]
    exact h.ordered
  · have hc' : s.current = some config := hcurrent ▸ hc
    rcases settled config hc' with ⟨other, hother, hwill⟩ | ⟨hchoice, hnot, hstale⟩
    · refine .inl ⟨other, ?_, hwill⟩
      simp only [List.mem_append, Option.mem_toList]
      exact .inr (.inl hother)
    · rcases h.settled config hc' with ⟨other, hother, hwill⟩ | ⟨hlast, hfree⟩
      · refine .inl ⟨other, ?_, hchoice ▸ hwill⟩
        rw [hsplit] at hother
        simp only [List.mem_append, List.mem_cons] at hother ⊢
        rcases hother with hother | rfl | hother
        · exact .inl hother
        · exact absurd hwill hnot
        · exact .inr (.inr hother)
      · refine .inr ⟨?_, fun other ho hother => ?_⟩
        · unfold LastUsed
          rw [happlies, hchoice]
          exact hlast
        · rw [hchoice] at hother
          rcases hold other ho with hnew | hkeep
          · exact hfree operation hmem (hstale other hnew hother)
          · exact hfree other (hkept other hkeep) hother

end Settled

end Appliers

end AgentDesktop
