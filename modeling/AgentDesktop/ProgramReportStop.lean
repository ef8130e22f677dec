import AgentDesktop.ProgramReport
import Mathlib.Data.List.Nodup

namespace AgentDesktop

variable {β : Type}

theorem exists_mem_zip {α γ : Type} {as : List α} {bs : List γ} (h : as.length = bs.length) {b : γ}
    (hb : b ∈ bs) : ∃ a, (a, b) ∈ as.zip bs := by
  rw [← List.map_snd_zip (Nat.le_of_eq h.symm)] at hb
  obtain ⟨⟨a, _⟩, hab, rfl⟩ := List.mem_map.mp hb
  exact ⟨a, hab⟩

theorem not_splitByStop_of_nothing_written [DecidableEq β] {env : ApplyEnv β} {attributed : AttributedPlan β}
    {world : World β} {stopped : ApplyStop} {entry : ProgramEntry} (h : (writtenBefore stopped).1 = (0 : Nat)) :
    ¬ SplitByStop env attributed world stopped entry := by
  rintro ⟨_, _, _, k, change, _, _, hlt, _⟩
  rw [h, Nat.cast_lt] at hlt
  omega

/-- What was written before a stop, as the report counts it and as the apply does. -/
theorem progress_eq_writtenBefore (plan : ReconcilePlan β) (error : String) (stopped : ApplyStop) :
    (progress plan (.error (error, stopped))).2 = (writtenBefore stopped).2 ∧
      ∀ k change, plan.operations[k]? = some change →
        (k < (progress plan (.error (error, stopped))).1 ↔ (k : ENat) < (writtenBefore stopped).1) := by
  refine ⟨by cases stopped <;> rfl, fun k change hk => ?_⟩
  obtain ⟨hlt, _⟩ := List.getElem?_eq_some_iff.mp hk
  cases stopped with
  | registry index path => simp [progress, writtenBefore, hlt]
  | operation index => simp [progress, writtenBefore]
  | conflict => simp [progress, writtenBefore]
  | observed path => simp [progress, writtenBefore]
  | privateDir path => simp [progress, writtenBefore]

section

variable {attributed : AttributedPlan β} {entry : ProgramEntry}

/-- How the report sees a stopped apply. -/
def stopOf (attributed : AttributedPlan β) (error : String) (stopped : ApplyStop) : Stop :=
  .failed (ownersOf attributed.entries stopped) error (writtenBefore stopped).1 (writtenBefore stopped).2

theorem failedDuring_stopOf {error : String} {stopped : ApplyStop} {program : String} :
    (stopOf attributed error stopped).failedDuring program = true ↔
      program ∈ ownersOf attributed.entries stopped := by
  simp [stopOf, Stop.failedDuring]

theorem written_stopOf {error : String} {stopped : ApplyStop} :
    entry.written (stopOf attributed error stopped) = true ↔
      (entry.operations.stop : ENat) ≤ (writtenBefore stopped).1 ∧
        entry.registryOperations.stop ≤ (writtenBefore stopped).2 := by
  simp [stopOf, ProgramEntry.written]

/-- The program whose range a failed file operation is in is an owner of the stop. -/
theorem operation_owner {k : Nat} (hentry : entry ∈ attributed.entries) (h : entry.operations.contains k = true) :
    entry.program ∈ ownersOf attributed.entries (.operation k) :=
  List.mem_map_of_mem (List.mem_filter.mpr ⟨hentry, h⟩)

end

variable [DecidableEq β] {keyPlan : RegistryKeyPlan}

theorem displayPath_mem_summary_paths {plan : ReconcilePlan β} (h : keyPlan ∈ plan.registry) :
    keyPlan.key.displayPath ∈ plan.summary.paths :=
  List.mem_append_right _ (List.mem_map.mpr ⟨keyPlan, h, rfl⟩)

/-- What is known of the providers' plans once they were all appended. -/
structure Attributed (results : PlanResults β) (attributed : AttributedPlan β) : Prop where
  compatible : Compatible results
  assembled : Assembled results attributed
  firstError : attributed.firstError = none
  changes : List.Forall₂ (fun planned entry => entry.changes = true →
    ∃ own, planned.2 = .ok own ∧ own.summary.changes = true) results attributed.entries

namespace Attributed

variable {env : ApplyEnv β} {results : PlanResults β} {attributed : AttributedPlan β} {world final : World β}
  {planned : String × Except String (ReconcilePlan β)} {entry : ProgramEntry}

theorem distinct (h : Attributed results attributed) : (attributed.plan.operations.map FileChange.path).Nodup :=
  h.assembled.operations ▸ h.compatible.operations

theorem distinctKeys (h : Attributed results attributed) :
    (attributed.plan.registry.map RegistryKeyPlan.key).Nodup :=
  h.assembled.registry ▸ h.compatible.keys

theorem owns (h : Attributed results attributed) (hz : (planned, entry) ∈ results.zip attributed.entries) :
    ∃ own, planned.2 = .ok own ∧ Owns attributed.plan own entry :=
  (List.forall₂_iff_zip.mp h.assembled.entries).2 hz

theorem changed (h : Attributed results attributed) (hz : (planned, entry) ∈ results.zip attributed.entries)
    (hc : entry.changes = true) : ∃ own, planned.2 = .ok own ∧ own.summary.changes = true :=
  (List.forall₂_iff_zip.mp h.changes).2 hz hc

variable {own : ReconcilePlan β}

/-- The program whose range a failed key plan is in is an owner of the stop. -/
theorem key_owner {k : Nat} (hentry : entry ∈ attributed.entries) (howns : Owns attributed.plan own entry)
    (hk : attributed.plan.registry[k]? = some keyPlan) (h : entry.registryOperations.contains k = true) :
    entry.program ∈ ownersOf attributed.entries (.registry k keyPlan.key.displayPath) := by
  refine List.mem_map_of_mem (List.mem_filter.mpr ⟨hentry, decide_eq_true ?_⟩)
  exact howns.paths ▸ displayPath_mem_summary_paths (howns.registry.mem_of_contains hk h)

/-- A blocked program of a stopped apply has no performed file operation, unless
variable {stopped : ApplyStop} {error : String}

the stop split it. -/
theorem not_performs_of_blocked (h : Attributed results attributed)
    (applied : Applied env attributed.plan world.start (final, .error (error, stopped)))
    (hentry : entry ∈ attributed.entries) (howns : Owns attributed.plan own entry)
    (clean : ¬ SplitByStop env attributed world stopped entry)
    (hb : attributed.reported (stopOf attributed error stopped) entry = some .blocked) {change : FileChange β}
    (hc : change ∈ own.operations) : ¬ Performs attributed.plan final change := by
  rintro ⟨k, hk, hlog⟩
  obtain ⟨_, hd, hchanges, hwritten⟩ := reported_blocked hb
  have hnot : entry.program ∉ ownersOf attributed.entries stopped := by
    rw [← failedDuring_stopOf, hd]
    simp
  rcases (applied.operationLog k).mp hlog with hold | ⟨other, hother, hlt, hplace⟩
  · cases hold
  · cases Option.some.inj (hk.symm.trans hother)
    have hcontains := howns.operations.contains_of_mem (List.Nodup.of_map _ h.distinct) hk hc
    have hbefore := ((progress_eq_writtenBefore attributed.plan error stopped).2 k change hk).mp hlt
    by_cases hkeys : (writtenBefore stopped).2 < entry.registryOperations.stop
    · exact clean ⟨hchanges, hnot, hkeys, k, change, hcontains, hk, hbefore, hplace⟩
    · have hfiles : ¬ (entry.operations.stop : ENat) ≤ (writtenBefore stopped).1 := by
        intro hle
        rw [written_stopOf.mpr ⟨hle, Nat.le_of_not_lt hkeys⟩] at hwritten
        cases hwritten
      cases stopped with
      | registry index path => exact hfiles le_top
      | operation index =>
        refine hnot (operation_owner hentry ?_)
        simp only [writtenBefore, Nat.cast_le, Nat.cast_lt] at hfiles hbefore
        rw [IndexRange.contains_iff] at hcontains ⊢
        omega
      | conflict => simp [writtenBefore] at hbefore
      | observed path => simp [writtenBefore] at hbefore
      | privateDir path => simp [writtenBefore] at hbefore

theorem not_performsKey_of_blocked (h : Attributed results attributed)
    (applied : Applied env attributed.plan world.start (final, .error (error, stopped)))
    (hentry : entry ∈ attributed.entries) (howns : Owns attributed.plan own entry)
    (hb : attributed.reported (stopOf attributed error stopped) entry = some .blocked) (hc : keyPlan ∈ own.registry) :
    ¬ PerformsKey attributed.plan final keyPlan := by
  rintro ⟨k, hk, hlog⟩
  obtain ⟨_, hd, _, hwritten⟩ := reported_blocked hb
  rcases (applied.keyLog k).mp hlog with hold | hlt
  · cases hold
  · rw [(progress_eq_writtenBefore attributed.plan error stopped).1] at hlt
    cases stopped with
    | registry index path =>
      obtain ⟨failing, hget, rfl⟩ := applied.keyStop error index path rfl
      have hcontains := howns.registry.contains_of_mem (List.Nodup.of_map _ h.distinctKeys) hk hc
      have hstop : ¬ entry.registryOperations.stop ≤ index := by
        intro hle
        rw [written_stopOf.mpr ⟨le_top, hle⟩] at hwritten
        cases hwritten
      refine absurd (failedDuring_stopOf.mpr (key_owner hentry howns hget ?_)) (by rw [hd]; simp)
      simp only [writtenBefore] at hlt
      rw [IndexRange.contains_iff] at hcontains ⊢
      omega
    | operation index => simp [writtenBefore] at hlt
    | conflict => simp [writtenBefore] at hlt
    | observed path => simp [writtenBefore] at hlt
    | privateDir path => simp [writtenBefore] at hlt

/-- What a program reported as applied or removed planned is in effect. -/
theorem inEffect_of_changed (applied : Applied env attributed.plan world.start (final, .error (error, stopped)))
    (howns : Owns attributed.plan own entry)
    (hr : attributed.reported (stopOf attributed error stopped) entry = some .applied ∨
      attributed.reported (stopOf attributed error stopped) entry = some .removed) :
    (∀ change ∈ own.operations, change.InEffect env.host final.files) ∧
      ∀ keyPlan ∈ own.registry, final.registry keyPlan.key =
        applyKeyChanges (world.registry keyPlan.key) keyPlan.changes := by
  obtain ⟨hkeys, hfiles⟩ := progress_eq_writtenBefore attributed.plan error stopped
  obtain ⟨hops, hregs⟩ := written_stopOf.mp (reported_changed hr).2
  constructor
  · intro change hc
    obtain ⟨k, hget, hcontains⟩ := howns.operations.index_of_mem hc
    have hlt : (k : ENat) < entry.operations.stop := Nat.cast_lt.mpr (IndexRange.contains_iff.mp hcontains).2
    exact applied.effect k change hget ((hfiles k change hget).mpr (lt_of_lt_of_le hlt hops))
  · intro keyPlan hk
    obtain ⟨k, hget, hcontains⟩ := howns.registry.index_of_mem hk
    have hlt := (IndexRange.contains_iff.mp hcontains).2
    refine applied.keyEffect k keyPlan hget ?_
    rw [hkeys]
    omega

/-- The program that planned what failed is an owner of the stop. -/
theorem mem_ownersOf (h : Attributed results attributed)
    (applied : Applied env attributed.plan world.start (final, .error (error, stopped)))
    (hentry : entry ∈ attributed.entries) (howns : Owns attributed.plan own entry)
    (howner : OwnsStop attributed.plan own stopped) : entry.program ∈ ownersOf attributed.entries stopped := by
  cases howner with
  | operation hk hmem =>
    exact operation_owner hentry (howns.operations.contains_of_mem (List.Nodup.of_map _ h.distinct) hk hmem)
  | @registry k path keyPlan hk hmem =>
    obtain ⟨failing, hget, rfl⟩ := applied.keyStop error k path rfl
    cases Option.some.inj (hk.symm.trans hget)
    exact key_owner hentry howns hk (howns.registry.contains_of_mem (List.Nodup.of_map _ h.distinctKeys) hk hmem)

theorem reportTrue_of_stopped (h : Attributed results attributed)
    (happly : applyTracked env attributed.plan world.start = (final, .error (error, stopped)))
    (clean : ∀ entry ∈ attributed.entries, ¬ SplitByStop env attributed world stopped entry) :
    ReportTrue env results attributed world (final, .error error, stopOf attributed error stopped) := by
  have applied := applyTracked_applied env world.start h.distinct h.distinctKeys
  rw [happly] at applied
  constructor
  · intro planned entry hz hr
    obtain ⟨own, hown, howns⟩ := h.owns hz
    exact ⟨own, hown, inEffect_of_changed applied howns hr⟩
  · intro planned entry hz hb
    obtain ⟨own, hown, howns⟩ := h.owns hz
    have hentry := (List.of_mem_zip hz).2
    obtain ⟨same, hsame, hchanges⟩ := h.changed hz (reported_blocked hb).2.2.1
    cases Except.ok.inj (hown.symm.trans hsame)
    exact ⟨own, hown, hchanges,
      fun change hc => not_performs_of_blocked h applied hentry howns (clean entry hentry) hb hc,
      fun keyPlan hc => not_performsKey_of_blocked h applied hentry howns hb hc⟩
  · intro at' hs planned entry own hz hown howner
    have hat : stopped = at' := by
      simpa [AttributedPlan.stoppedAt, h.firstError, happly] using hs
    subst hat
    obtain ⟨same, hsame, howns⟩ := h.owns hz
    cases Except.ok.inj (hown.symm.trans hsame)
    exact reported_failed (failedDuring_stopOf.mpr (mem_ownersOf h applied (List.of_mem_zip hz).2 howns howner))
  · intro hok
    cases hok

/-- A program split by the stop is reported as blocked although it was written to. -/
theorem not_split_of_reportTrue (h : Attributed results attributed)
    (happly : applyTracked env attributed.plan world.start = (final, .error (error, stopped)))
    (conflicts : ∀ entry ∈ attributed.entries, entry.conflicts = [])
    (report : ReportTrue env results attributed world (final, .error error, stopOf attributed error stopped))
    (hentry : entry ∈ attributed.entries) : ¬ SplitByStop env attributed world stopped entry := by
  rintro ⟨hchanges, hnot, hkeys, k, change, hcontains, hk, hlt, hplace⟩
  have applied := applyTracked_applied env world.start h.distinct h.distinctKeys
  rw [happly] at applied
  obtain ⟨planned, hz⟩ := exists_mem_zip h.assembled.entries.length_eq hentry
  obtain ⟨own, hown, howns⟩ := h.owns hz
  have hd : (stopOf attributed error stopped).failedDuring entry.program = false := by
    rw [← Bool.not_eq_true, failedDuring_stopOf]
    exact hnot
  have hwritten : entry.written (stopOf attributed error stopped) = false := by
    rw [← Bool.not_eq_true, written_stopOf]
    omega
  have hb : attributed.reported (stopOf attributed error stopped) entry = some .blocked :=
    reported_blocked_of howns.failed hd (conflicts entry hentry) hchanges hwritten
  obtain ⟨same, hsame, _, hnone, _⟩ := report.blocked planned entry hz hb
  cases Except.ok.inj (hown.symm.trans hsame)
  refine hnone change (howns.operations.mem_of_contains hk hcontains) ⟨k, hk, ?_⟩
  refine (applied.operationLog k).mpr (Or.inr ⟨change, hk, ?_, hplace⟩)
  exact ((progress_eq_writtenBefore attributed.plan error stopped).2 k change hk).mpr hlt

end Attributed

end AgentDesktop
