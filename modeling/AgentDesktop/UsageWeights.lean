import AgentDesktop.UsageReports

namespace AgentDesktop

/-- A weight of rows that no compaction up to a time changes: it weighs a day as its
hours, and what is expired not at all. -/
structure Respected {β : Type} [AddCommMonoid β] (now : Int) (weight : RowKey → Measures →+ β) : Prop where
  days : ∀ time key, time ≤ now → 0 ≤ key.bucketStart → isCompacted (hourlyBefore time) key = true →
    weight (dayRow key) = weight key
  expired : ∀ time key, time ≤ now → isExpired time key = true → weight key = 0

/-- What only rows of the retention of hours have is respected. -/
theorem respected_of_recent {β : Type} [AddCommMonoid β] {now start : Int} (stop : Int)
    {weight : RowKey → Measures →+ β} (hstart : now - hourlyRetention ≤ start)
    (h : ∀ key, inPeriod start stop key = false → weight key = 0) :
    Respected now weight := by
  have hbefore : ∀ key : RowKey, key.bucketStart < start → weight key = 0 := by
    intro key hkey
    have houtside : ¬ start ≤ key.bucketStart := by omega
    exact h key (by simp [inPeriod, houtside])
  refine ⟨fun time key htime hkey hcompacted => ?_, fun time key htime hexpired => ?_⟩
  · have hhours := hourlyBefore_le htime
    have hlast := of_decide_eq_true (Bool.and_eq_true_iff.mp hcompacted).2
    have hday : (dayRow key).bucketStart ≤ key.bucketStart := by
      rw [dayRow_bucketStart hkey]
      omega
    rw [hbefore key (by omega), hbefore (dayRow key) (by omega)]
  · have hlast := of_decide_eq_true (Bool.and_eq_true_iff.mp hexpired).2
    simp only [hourlyRetention, dailyRetention, day, hour] at hstart hlast
    exact hbefore key (by omega)

section

variable {Content : Type} [DecidableEq Content] {reader : RecordReader Content} {now : Int} {s t : UsageRun Content}

variable (reader now) in
/-- The store and the ledger weigh the same. -/
structure Weighed (s : UsageRun Content) : Prop where
  counted : Counted reader s
  read : ∀ entry ∈ s.ledger, reader.readUsage entry.record entry.receivedAt = some entry.usage
  sums : ∀ {β : Type} [AddCommMonoid β] (weight : RowKey → Measures →+ β), Respected now weight →
    tableSum weight s.store.rollups = tableSum weight (ledgerRows s.ledger)

theorem read_enter {time : Int} {ledger : List (LedgerEntry Content)} {record : LogRecord Content}
    (h : ∀ entry ∈ ledger, reader.readUsage entry.record entry.receivedAt = some entry.usage) :
    ∀ entry ∈ enter reader time ledger record, reader.readUsage entry.record entry.receivedAt = some entry.usage := by
  unfold enter
  split
  next usage hread =>
    split
    next => exact h
    next =>
      intro entry hentry
      rcases List.mem_append.mp hentry with hentry | hentry
      · exact h entry hentry
      · cases List.mem_singleton.mp hentry
        exact hread
  next => exact h

theorem read_enterAll {time : Int} {records : List (LogRecord Content)} {ledger : List (LedgerEntry Content)}
    (h : ∀ entry ∈ ledger, reader.readUsage entry.record entry.receivedAt = some entry.usage) :
    ∀ entry ∈ records.foldl (enter reader time) ledger,
      reader.readUsage entry.record entry.receivedAt = some entry.usage := by
  induction records generalizing ledger with
  | nil => exact h
  | cons record rest ih => exact ih (read_enter h)

namespace Weighed

theorem exportLogs (h : Weighed reader now s) (hdigest : Function.Injective reader.recordId)
    {records : List (LogRecord Content)} {time : Int} {committed : Bool}
    (hguard : s.resentInTime (.exportLogs records time committed) = true)
    (hstep : s.step reader (.exportLogs records time committed) = some t) : Weighed reader now t := by
  have hcounted := h.counted.step hdigest hguard hstep
  obtain ⟨hclock, hresent⟩ := resentInTime_iff.mp hguard
  cases hstep
  cases committed with
  | false =>
    refine ⟨hcounted, h.read, fun weight hrespected => ?_⟩
    rw [exportLogs_uncommitted]
    exact h.sums weight hrespected
  | true =>
    refine ⟨hcounted, read_enterAll h.read, fun weight hrespected => ?_⟩
    exact h.counted.ingest_sum hdigest hclock hresent (h.sums weight hrespected)

theorem step (h : Weighed reader now s) (hdigest : Function.Injective reader.recordId)
    {action : UsageAction Content} (hguard : s.resentInTime action = true)
    (hnow : action.compactedBy now = true) (hstep : s.step reader action = some t) : Weighed reader now t := by
  have hcounted := h.counted.step hdigest hguard hstep
  cases action with
  | exportLogs records time committed => exact h.exportLogs hdigest hguard hstep
  | compactHours time =>
    cases hstep
    have htime := of_decide_eq_true hnow
    refine ⟨hcounted, h.read, fun weight hrespected => ?_⟩
    rw [← h.sums weight hrespected]
    exact compactHours_sum fun row hrow => hrespected.days time row.1 htime (h.counted.rows row hrow)
  | expireDays time =>
    cases hstep
    have htime := of_decide_eq_true hnow
    refine ⟨hcounted, h.read, fun weight hrespected => ?_⟩
    rw [← h.sums weight hrespected]
    exact expireDays_sum fun row _ => hrespected.expired time row.1 htime
  | expireReceipts time =>
    cases hstep
    exact ⟨hcounted, h.read, h.sums⟩

end Weighed

/-- After every run the store weighs what its ledger weighs. -/
theorem weighed_of_run (hdigest : Function.Injective reader.recordId) {actions : List (UsageAction Content)}
    (hrun : execute (UsageRun.step reader) (fun s action => s.resentInTime action && action.compactedBy now)
      actions {} = some s) : Weighed reader now s := by
  have hempty : Weighed reader now ({} : UsageRun Content) :=
    ⟨.empty reader, by rintro entry ⟨⟩, fun _ _ => rfl⟩
  refine execute_invariant (fun s action t h hguard hstep => ?_) hempty hrun
  obtain ⟨hresent, hnow⟩ := Bool.and_eq_true_iff.mp hguard
  exact h.step hdigest hresent hnow hstep

end

end AgentDesktop
