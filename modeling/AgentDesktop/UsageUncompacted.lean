import AgentDesktop.UsageReports

namespace AgentDesktop

section

variable {Content : Type}

def UsageAction.isExport : UsageAction Content → Bool
  | .exportLogs _ _ _ => true
  | _ => false

variable [DecidableEq Content] {reader : RecordReader Content} {now : Int} {s t : UsageRun Content}

variable (reader now) in
/-- A store with compactions beside one with the same exports alone. -/
structure Beside (s t : UsageRun Content) : Prop where
  counted : Counted reader s
  exported : Counted reader t
  ledger : t.ledger = s.ledger
  clock : t.clock ≤ s.clock
  alike : ∀ start stop, isEdge now start → isEdge now stop → now - dailyRetention ≤ start →
    Alike start stop ⟨s.store, t.store⟩

namespace Beside

variable {action : UsageAction Content}

/-- An export finds the same records new in both stores. -/
theorem newRows_eq (h : Beside reader now s t) (hdigest : Function.Injective reader.recordId)
    {records : List (LogRecord Content)} {time : Int} (hclock : s.clock ≤ time)
    (hresent : ∀ record ∈ records, ∀ entry ∈ s.ledger, entry.record = record →
      time ≤ entry.receivedAt + receiptRetention) :
    s.store.newRows (reader.parseRecords records time) time =
      t.store.newRows (reader.parseRecords records time) time := by
  have hfirst := h.counted.ingesting hclock hresent
  have hsecond := h.exported.ingesting (Int.le_trans h.clock hclock) (h.ledger ▸ hresent)
  rw [h.ledger] at hsecond
  exact congrArg (List.map _) (hfirst.insertAll_rollups hdigest (fun _ => id) hsecond rfl)

theorem exportStep (h : Beside reader now s t) (hdigest : Function.Injective reader.recordId)
    {action : UsageAction Content} {next : UsageRun Content} (hexport : action.isExport = true)
    (hguard : s.resentInTime action = true) (hstep : s.step reader action = some next) :
    ∃ taken, t.resentInTime action = true ∧ t.step reader action = some taken ∧ Beside reader now next taken := by
  obtain ⟨records, time, committed, rfl⟩ : ∃ records time committed, action = .exportLogs records time committed := by
    cases action with
    | exportLogs records time committed => exact ⟨records, time, committed, rfl⟩
    | _ => cases hexport
  obtain ⟨hclock, hresent⟩ := resentInTime_iff.mp hguard
  have hother : t.resentInTime (.exportLogs records time committed) = true :=
    resentInTime_iff.mpr ⟨Int.le_trans h.clock hclock, h.ledger ▸ hresent⟩
  refine ⟨_, hother, rfl, h.counted.step hdigest hguard hstep, h.exported.step hdigest hother rfl, ?_, ?_, ?_⟩
  · cases hstep
    dsimp only
    rw [h.ledger]
  · cases hstep
    have hclocks := h.clock
    dsimp only
    omega
  · intro start stop hstart hstop hunexpired
    have halike := h.alike start stop hstart hstop hunexpired
    cases hstep
    cases committed with
    | false =>
      rw [exportLogs_uncommitted, exportLogs_uncommitted]
      exact halike
    | true =>
      have hnow : 0 ≤ time := Int.le_trans h.counted.clock hclock
      refine halike.ingest (parseRecords_nonneg hnow) ?_
      rw [h.newRows_eq hdigest hclock hresent]
      rfl

theorem compaction (h : Beside reader now s t) (hdigest : Function.Injective reader.recordId)
    {action : UsageAction Content} {next : UsageRun Content} (hcompaction : action.isExport = false)
    (hguard : (s.resentInTime action && action.compactedBy now) = true)
    (hstep : s.step reader action = some next) : Beside reader now next t := by
  obtain ⟨hresent, hnow⟩ := Bool.and_eq_true_iff.mp hguard
  have hmoved : ReportRun.step reader ⟨s.store, t.store⟩ action = some ⟨next.store, t.store⟩ ∧
      next.ledger = s.ledger ∧ s.clock ≤ next.clock := by
    cases action with
    | exportLogs records time committed => cases hcompaction
    | compactHours time =>
      cases hstep
      exact ⟨rfl, rfl, Int.le_max_left _ _⟩
    | expireDays time =>
      cases hstep
      exact ⟨rfl, rfl, Int.le_max_left _ _⟩
    | expireReceipts time =>
      cases hstep
      exact ⟨rfl, rfl, Int.le_max_left _ _⟩
  obtain ⟨hstores, hledger, hclock⟩ := hmoved
  refine ⟨h.counted.step hdigest hresent hstep, h.exported, h.ledger.trans hledger.symm,
    Int.le_trans h.clock hclock, fun start stop hstart hstop hkept => ?_⟩
  exact (h.alike start stop hstart hstop hkept).step hstart hstop hkept hnow hstores

end Beside

/-- With resends in time, reports read the same as from a store that took the exports alone. -/
theorem reports_of_exports (hdigest : Function.Injective reader.recordId) {actions : List (UsageAction Content)}
    (hrun : execute (UsageRun.step reader) (fun s action => s.resentInTime action && action.compactedBy now)
      actions {} = some s) :
    ∃ t, execute (UsageRun.step reader) UsageRun.resentInTime (actions.filter UsageAction.isExport) {} = some t ∧
      ∀ range utcOffsetMinutes filter,
        s.store.reportSummaries range now utcOffsetMinutes filter =
          t.store.reportSummaries range now utcOffsetMinutes filter := by
  have hempty : Beside reader now ({} : UsageRun Content) {} :=
    ⟨.empty reader, .empty reader, rfl, Int.le_refl 0,
      fun _ _ _ _ _ => ⟨fun _ => nofun, fun _ => rfl, fun _ => Iff.rfl⟩⟩
  obtain ⟨t, ht, hbeside⟩ := execute_visible (Beside reader now) hempty hrun
    (fun _ _ _ _ h hexport hguard hstep => h.exportStep hdigest hexport (Bool.and_eq_true_iff.mp hguard).1 hstep)
    (fun _ _ _ _ h hhidden hguard hstep => h.compaction hdigest hhidden hguard hstep)
  refine ⟨t, ht, fun range utcOffsetMinutes filter => ?_⟩
  refine reportSummaries_congr (fun start stop hstart hstop hkept => ?_) range utcOffsetMinutes
  have halike := hbeside.alike start stop hstart hstop hkept
  exact summary_congr halike.sums halike.attributed filter

variable (reader now) in
/-- Compaction is invisible to reports: they read the same from a store that gets the same rows and is never
compacted and, with resends in time, from one that takes the exports alone. -/
theorem compaction_invisible_to_reports :
    (∀ (store : UsageStore) (actions : List (UsageAction Content)) (s : ReportRun),
      (∀ row ∈ store.rollups, 0 ≤ row.1.bucketStart) →
      execute (ReportRun.step reader) (fun _ => UsageAction.compactedBy now) actions ⟨store, store⟩ = some s →
      ∀ range utcOffsetMinutes filter, s.store.reportSummaries range now utcOffsetMinutes filter =
        s.uncompacted.reportSummaries range now utcOffsetMinutes filter) ∧
    (Function.Injective reader.recordId → ∀ (actions : List (UsageAction Content)) (s : UsageRun Content),
      execute (UsageRun.step reader) (fun s action => s.resentInTime action && action.compactedBy now)
        actions {} = some s →
      ∃ t, execute (UsageRun.step reader) UsageRun.resentInTime (actions.filter UsageAction.isExport) {} = some t ∧
        ∀ range utcOffsetMinutes filter, s.store.reportSummaries range now utcOffsetMinutes filter =
          t.store.reportSummaries range now utcOffsetMinutes filter) :=
  ⟨fun _ _ _ hstored hrun => reportSummaries_uncompacted hstored hrun,
    fun hdigest _ _ hrun => reports_of_exports hdigest hrun⟩

end

/-- Two hours of a day that is compacted for the report. -/
def storedHours : UsageStore where
  rollups := [(⟨21 * day + hour, hour, codexUsage⟩, ⟨1, 0, 4, 0, 0, 0, 7, 0⟩),
    (⟨21 * day + 2 * hour, hour, codexUsage⟩, ⟨1, 1, 3, 0, 0, 0, 5, 0⟩)]

/-- The day is compacted, and once more with a late record of it. -/
def lateUsage : List (UsageAction Nat) :=
  [.compactHours (200 * day),
    .expireDays (200 * day),
    .expireReceipts (200 * day),
    .exportLogs [⟨(21 * 86400 + 3 * 3600) * 1000000000, 0, 9⟩] (200 * day + 60) true,
    .compactHours (200 * day + 3600)]

/-- The late record is in the previous window, and so are the records that were sent again. -/
theorem compaction_invisible_to_previous_window :
    (∀ row ∈ storedHours.rollups, 0 ≤ row.1.bucketStart) ∧
      (∃ s, execute (ReportRun.step { tokenReader with recordId := fun _ => "late" })
          (fun _ => UsageAction.compactedBy (200 * day + 5000)) lateUsage ⟨storedHours, storedHours⟩ = some s ∧
        (s.store.reportSummaries "90d" (200 * day + 5000) (-90) [(.user, "user-1")]).toOption.map (·.2) =
          some ⟨⟨3, 1, 16, 0, 0, 0, 12, 0, 0, 1⟩, 1, 0⟩ ∧
        s.store.reportSummaries "90d" (200 * day + 5000) (-90) [(.user, "user-1")] =
          s.uncompacted.reportSummaries "90d" (200 * day + 5000) (-90) [(.user, "user-1")]) ∧
      ∃ s t, execute (UsageRun.step tokenReader)
          (fun s action => s.resentInTime action && action.compactedBy (91 * day)) resentUsage {} = some s ∧
        execute (UsageRun.step tokenReader) UsageRun.resentInTime (resentUsage.filter UsageAction.isExport) {} =
          some t ∧
        (s.store.reportSummaries "90d" (91 * day) 0 []).toOption.map (·.2) =
          some ⟨⟨3, 0, 6, 0, 0, 0, 0, 0, 0, 3⟩, 1, 0⟩ ∧
        s.store.reportSummaries "90d" (91 * day) 0 [] = t.store.reportSummaries "90d" (91 * day) 0 [] := by
  have hstored : ∀ row ∈ storedHours.rollups, 0 ≤ row.1.bucketStart := by decide
  have hlate : execute (ReportRun.step { tokenReader with recordId := fun _ => "late" })
    (fun _ => UsageAction.compactedBy (200 * day + 5000)) lateUsage ⟨storedHours, storedHours⟩ = some _ := rfl
  have hresent : execute (UsageRun.step tokenReader)
    (fun s action => s.resentInTime action && action.compactedBy (91 * day)) resentUsage {} = some _ := rfl
  refine ⟨hstored, ⟨_, hlate, by decide +kernel, ?_⟩, ?_⟩
  · exact (compaction_invisible_to_reports _ _).1 _ _ _ hstored hlate "90d" (-90) [(.user, "user-1")]
  · obtain ⟨t, ht, hreports⟩ := (compaction_invisible_to_reports tokenReader (91 * day)).2 tokenReader_injective _ _
      hresent
    exact ⟨_, t, hresent, ht, by decide +kernel, hreports "90d" 0 []⟩

end AgentDesktop
