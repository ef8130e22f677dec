import AgentDesktop.ListAt
import AgentDesktop.SavedConfig
import Mathlib.Data.List.Nodup
import Mathlib.Data.List.Perm.Subperm

namespace AgentDesktop

variable {Config : Type}

def Reapply.sequence (reapply : Reapply Config) : Nat :=
  reapply.status.report.sequence

/-- The sequence numbers of the applies the statuses in the log stem from. -/
def sentSequences (log : List (DaemonEvent Config)) : List Nat :=
  log.filterMap fun
    | .sent _ sequence => sequence
    | _ => none

namespace Daemon

variable {parser : ConfigParser Config} {s t : Daemon Config}

/-- The outcomes of re-applies that are still to be published, or are published. -/
def waiting (s : Daemon Config) : List (Reapply Config) :=
  s.reapplies ++ s.published.toList

/-- No two outcomes have the same sequence number, and the next apply gets a
greater one. -/
structure Numbered (s : Daemon Config) : Prop where
  bounded : ∀ reapply ∈ s.waiting, reapply.sequence ≤ s.sequence
  distinct : (s.waiting.map Reapply.sequence).Nodup
  attached : s.connected = false → s.handling = none

theorem receive_connected {push : DaemonConfig} (h : s.receive parser push = some t) : s.connected = true := by
  unfold receive at h
  split at h
  next hidle => exact (idle_iff.mp hidle).1
  next => cases h

/-- A consumed outcome may be saved, and is sent at most once and only under the
revision of the stream. -/
theorem handleTick_sends (s : Daemon Config) (tick : TickStatus) (saveResult : Except ErrorText Unit) :
    ∃ pendingPersist saved lastSent events,
      s.handleTick tick saveResult = { s with pendingPersist, saved, lastSent, log := s.log ++ events } ∧
      (sentSequences events = [] ∨
        sentSequences events = [tick.report.sequence] ∧ tick.revision = s.streamRevision) := by
  have reported : ∀ (other : Daemon Config) (reported : TickStatus), reported.report = tick.report →
      reported.revision = tick.revision → other.streamRevision = s.streamRevision →
      ∃ lastSent events, other.reportTick reported = { other with lastSent, log := other.log ++ events } ∧
        (sentSequences events = [] ∨
          sentSequences events = [tick.report.sequence] ∧ tick.revision = s.streamRevision) := by
    intro other reported hreport hrevision hstream
    unfold reportTick
    split
    next => exact ⟨_, [], by rw [List.append_nil], .inl rfl⟩
    next status hstatus =>
      refine ⟨_, _, rfl, .inr ⟨by rw [hreport]; rfl, ?_⟩⟩
      unfold tickConfigStatus at hstatus
      split at hstatus
      next => cases hstatus
      next revision hsome =>
        split at hstatus
        next => cases hstatus
        next hsame => rw [← hrevision, ← hstream, hsome, not_not.mp hsame]
  unfold handleTick
  split
  next =>
    obtain ⟨lastSent, events, heq, hsent⟩ := reported s tick rfl rfl rfl
    exact ⟨_, _, lastSent, events, heq, hsent⟩
  next revision yaml hdue =>
    split
    next =>
      obtain ⟨lastSent, events, heq, hsent⟩ :=
        reported ({ s with pendingPersist := none }.persistConfig yaml) tick rfl rfl rfl
      refine ⟨none, some yaml, lastSent, .saved yaml :: events, heq.trans ?_, hsent⟩
      simp only [persistConfig, List.append_assoc, List.singleton_append]
    next error =>
      obtain ⟨lastSent, events, heq, hsent⟩ := reported s { tick with error := some error } rfl rfl rfl
      exact ⟨_, _, lastSent, events, heq, hsent⟩

/-- An outcome to publish, and whether it takes the place of the published one. -/
theorem publish_cases {index : Nat} (h : s.publish index = some t) :
    ∃ before reapply after, s.reapplies = before ++ reapply :: after ∧
      ((∃ current, s.published = some current ∧ reapply.sequence < current.sequence ∧
          t = { s with reapplies := before ++ after }) ∨
        ((∀ current ∈ s.published, current.sequence ≤ reapply.sequence) ∧
          t = { s with reapplies := before ++ after, published := some reapply, unseen := true })) := by
  unfold publish at h
  split at h
  next => cases h
  next reapply hget =>
    cases h
    refine ⟨s.reapplies.take index, reapply, s.reapplies.drop (index + 1), split_at hget, ?_⟩
    rw [publishStatus, List.eraseIdx_eq_take_drop_succ]
    cases hpublished : s.published with
    | none => exact .inr ⟨nofun, rfl⟩
    | some current =>
      by_cases hlater : reapply.sequence < current.sequence
      · refine .inl ⟨current, rfl, hlater, ?_⟩
        exact if_pos (decide_eq_true hlater)
      · refine .inr ⟨fun other ho => ?_, ?_⟩
        · cases ho
          exact Nat.le_of_not_lt hlater
        · exact if_neg fun hany => hlater (of_decide_eq_true hany)

namespace Numbered

/-- Steps that drop outcomes or move them. -/
theorem transfer (h : Numbered s) (waiting : List.Subperm t.waiting s.waiting) (sequence : s.sequence ≤ t.sequence)
    (attached : t.connected = false → t.handling = none) : Numbered t := by
  obtain ⟨kept, hperm, hsub⟩ := waiting
  refine ⟨fun reapply hr => ?_, ?_, attached⟩
  · exact (h.bounded reapply (hsub.subset (hperm.mem_iff.mpr hr))).trans sequence
  · exact (hperm.map _).nodup_iff.mp (h.distinct.sublist (hsub.map _))

theorem publish {index : Nat} (h : Numbered s) (hstep : s.publish index = some t) : Numbered t := by
  obtain ⟨before, reapply, after, hsplit, ⟨current, -, -, rfl⟩ | ⟨-, rfl⟩⟩ := publish_cases hstep
  · refine h.transfer (List.Sublist.subperm ?_) le_rfl h.attached
    simp only [waiting, hsplit]
    exact (((List.sublist_cons_self reapply after).append_left before)).append_right _
  · refine h.transfer ⟨s.reapplies, ?_, List.sublist_append_left _ _⟩ le_rfl h.attached
    simp only [waiting, hsplit, Option.toList_some]
    exact List.perm_middle.trans (List.perm_append_singleton reapply (before ++ after)).symm

theorem reapply {outcome : ApplyOutcome} (h : Numbered s) (hstep : s.reapply outcome = some t) : Numbered t := by
  obtain ⟨current, -, rfl⟩ := reapply_spec hstep
  refine ⟨fun other ho => ?_, ?_, h.attached⟩
  · simp only [waiting, List.mem_append, List.mem_singleton] at ho
    rcases ho with (ho | rfl) | ho
    · exact Nat.le_succ_of_le (h.bounded other (List.mem_append_left _ ho))
    · exact le_rfl
    · exact Nat.le_succ_of_le (h.bounded other (List.mem_append_right _ ho))
  · simp only [waiting, List.append_assoc, List.map_append, List.singleton_append, List.map_cons]
    rw [List.nodup_middle, ← List.map_append, List.nodup_cons]
    refine ⟨fun hmem => ?_, h.distinct⟩
    obtain ⟨other, ho, heq⟩ := List.mem_map.mp hmem
    have hbound := h.bounded other ho
    have hnew : other.sequence = s.sequence + 1 := heq
    omega

/-- What every step of the daemon keeps. -/
theorem step {action : DaemonAction} (h : Numbered s) (hstep : s.step parser action = some t) : Numbered t := by
  cases action with
  | connect =>
    rw [connect_spec hstep]
    exact h.transfer (List.Subperm.refl _) le_rfl nofun
  | disconnect =>
    obtain ⟨hidle, rfl⟩ := disconnect_spec hstep
    exact h.transfer (List.Subperm.refl _) le_rfl fun _ => hidle
  | logout =>
    obtain ⟨hidle, rfl⟩ := logout_spec hstep
    exact h.transfer (List.Subperm.refl _) le_rfl fun _ => hidle
  | receive push =>
    have hconnected := receive_connected hstep
    obtain ⟨hidle, ⟨error, -, rfl⟩ | ⟨config, -, rfl⟩⟩ := receive_spec hstep
    · exact h.transfer (List.Subperm.refl _) le_rfl fun _ => hidle
    · exact h.transfer (List.Subperm.refl _) le_rfl fun hfree => absurd (hconnected.symm.trans hfree) nofun
  | applyPushed outcome =>
    obtain ⟨push, config, hhandling, ⟨-, rfl⟩ | ⟨error, rfl⟩⟩ := applyPushed_spec hstep
    · refine h.transfer (List.Subperm.refl _) (Nat.le_succ _) fun hfree => ?_
      exact absurd (hhandling.symm.trans (h.attached hfree)) nofun
    · exact h.transfer (List.Subperm.refl _) (Nat.le_succ _) fun _ => rfl
  | savePushed result =>
    obtain ⟨push, config, report, -, rfl | ⟨error, rfl⟩⟩ := savePushed_spec hstep
    · exact h.transfer (List.Subperm.refl _) le_rfl fun _ => rfl
    · exact h.transfer (List.Subperm.refl _) le_rfl fun _ => rfl
  | reapply outcome => exact h.reapply hstep
  | publish index => exact h.publish hstep
  | consume saveResult =>
    obtain ⟨reapply, -, -, hidle, rfl⟩ := consume_spec hstep
    obtain ⟨pendingPersist, saved, lastSent, events, heq, -⟩ :=
      handleTick_sends { s with unseen := false } reapply.status saveResult
    rw [heq]
    exact h.transfer (List.Subperm.refl _) le_rfl fun _ => hidle

end Numbered

end Daemon

end AgentDesktop
