import AgentDesktop.UsageLocalDays

namespace AgentDesktop

/-- One request that is received, and occurs, at a time. -/
def exportedAt (time : Int) : List (UsageAction Nat) :=
  [.exportLogs [⟨0, 0, 1⟩] time true]

def tokenUsage : Measures :=
  ⟨1, 0, 1, 0, 0, 0, 0, 1⟩

/-- The store and the ledger after it. -/
def receivedAt (time : Int) : UsageRun Nat where
  store :=
    { rollups := [(⟨time / hour * hour, hour, codexUsage⟩, tokenUsage)]
      receipts := [(tokenReader.recordId ⟨0, 0, 1⟩, time)] }
  ledger := [⟨⟨0, 0, 1⟩, ⟨tokenReader.recordId ⟨0, 0, 1⟩, ⟨time / hour * hour, codexUsage⟩, tokenUsage⟩, time⟩]
  clock := max 0 time

theorem exportedAt_execute {now time : Int} (htime : 0 ≤ time) :
    execute (UsageRun.step tokenReader) (fun s action => s.resentInTime action && action.compactedBy now)
      (exportedAt time) {} = some (receivedAt time) := by
  have hguard : (UsageRun.resentInTime {} (.exportLogs [⟨0, 0, 1⟩] time true) &&
      UsageAction.compactedBy now (.exportLogs [(⟨0, 0, 1⟩ : LogRecord Nat)] time true)) = true := by
    simp [UsageRun.resentInTime, UsageAction.compactedBy, htime]
  rw [exportedAt, execute, if_pos hguard]
  rfl

/-- A request at the end of a window that is not on the hour is counted in it. -/
theorem not_countedByDay_stop {window : Window} (hstart : window.start ≤ window.stop - day)
    (hstop : window.stop % hour ≠ 0) : ¬ CountedByDay window (receivedAt window.stop) := by
  intro h
  have hfrom : window.start ≤ window.stop / hour * hour := by
    simp only [day, hour] at *
    omega
  have huntil : window.stop / hour * hour < window.stop := by
    simp only [hour] at *
    omega
  have hreported := h.totals []
  have hcounted : ((receivedAt window.stop).store.summary window.start window.stop []).totals =
      rowTotals .api tokenUsage := by
    simp [UsageStore.summary, receivedAt, conditions, inPeriod, Filter.accepts, hfrom, huntil, codexUsage]
  have hoccurred : occurredTotals window.start window.stop [] (receivedAt window.stop).ledger = 0 := by
    simp [occurredTotals, receivedAt, LedgerEntry.occurredIn, occurredAt, LogRecord.nanos]
  rw [hcounted, hoccurred] at hreported
  exact absurd (congrArg Totals.requests hreported) (by decide)

/-- Usage is reported on the local day on which it occurred just for offsets of whole hours. -/
theorem usage_on_local_day_iff (now : Nat) {range : String} {utcOffsetMinutes : Int} {window : Window}
    (hwindow : Window.preset range now utcOffsetMinutes = some window) (hdaily : window.bucketSeconds = day) :
    (∀ index, localDayStart (window.bucketStart index) (utcOffsetMinutes * 60) = window.bucketStart index) ∧
      ((∀ (Content : Type) [DecidableEq Content] (reader : RecordReader Content), Function.Injective reader.recordId →
          ∀ actions s, execute (UsageRun.step reader)
            (fun s action => s.resentInTime action && action.compactedBy now) actions {} = some s →
            CountedByDay window s) ↔
        utcOffsetMinutes % 60 = 0) := by
  have hdays := preset_localDays hwindow hdaily
  obtain ⟨hnow, hstart, _⟩ := preset_spec hwindow
  refine ⟨hdays.bucketStart, fun hreports => ?_, fun hwhole Content _ reader hdigest actions s hrun => ?_⟩
  · have hlater : 0 ≤ window.stop := by omega
    have hcounted := hreports Nat tokenReader tokenReader_injective _ _ (exportedAt_execute hlater)
    by_contra hpart
    refine not_countedByDay_stop ?_ ?_ hcounted
    · obtain ⟨days, hmany, _, hlength⟩ := hdays.start
      simp only [day, hour] at *
      omega
    · have hmidnight := hdays.stop
      simp only [localDayStart, day, hour] at *
      omega
  · have hhours : utcOffsetMinutes * 60 % hour = 0 := by
      simp only [hour]
      omega
    exact (weighed_of_run hdigest hrun).countedByDay hdays (Int.le_of_lt hstart) hhours

theorem usage_on_local_day_new_york :
    ∃ window, Window.preset "7d" (8710800 : Nat) (-300) = some window ∧ window.bucketSeconds = day ∧
      (∀ index, localDayStart (window.bucketStart index) (-300 * 60) = window.bucketStart index) ∧
      ((∀ (Content : Type) [DecidableEq Content] (reader : RecordReader Content), Function.Injective reader.recordId →
          ∀ actions s, execute (UsageRun.step reader)
            (fun s action => s.resentInTime action && action.compactedBy (8710800 : Nat)) actions {} = some s →
            CountedByDay window s) ↔
        (-300 : Int) % 60 = 0) := by
  have hwindow : Window.preset "7d" (8710800 : Nat) (-300) = some ⟨8139600, 8744400, day, -18000⟩ := by decide
  exact ⟨_, hwindow, rfl, usage_on_local_day_iff 8710800 hwindow rfl⟩

/-- Ten minutes past midnight in Kolkata is reported on the day before. -/
theorem usage_before_local_midnight :
    ∃ window s, Window.preset "7d" 8710800 330 = some window ∧
      execute (UsageRun.step tokenReader) (fun s action => s.resentInTime action && action.compactedBy 8710800)
        (exportedAt 8707200) {} = some s ∧
      localDayStart 8707200 (330 * 60) = window.bucketStart 6 ∧
      (s.store.reportBuckets window []).map (fun bucket => bucket.2.requests) = [0, 0, 0, 0, 0, 1, 0] ∧
      ¬ CountedByDay window s := by
  have hwindow : Window.preset "7d" 8710800 330 = some ⟨8188200, 8793000, day, 19800⟩ := by decide
  have hbuckets : ((receivedAt 8707200).store.reportBuckets ⟨8188200, 8793000, day, 19800⟩ []).map
      (fun bucket => bucket.2.requests) = [0, 0, 0, 0, 0, 1, 0] := by decide +kernel
  refine ⟨_, _, hwindow, exportedAt_execute (by decide), by decide, hbuckets, fun h => ?_⟩
  rw [h.buckets []] at hbuckets
  exact absurd hbuckets (by decide +kernel)

end AgentDesktop
