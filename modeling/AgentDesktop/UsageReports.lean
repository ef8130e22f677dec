import AgentDesktop.UsageCounted
import AgentDesktop.UsageSummaries

namespace AgentDesktop

/-- The store beside one that gets the same new rows and is never compacted. -/
structure ReportRun where
  store : UsageStore
  uncompacted : UsageStore

section

variable {Content : Type}

def ReportRun.step (reader : RecordReader Content) (s : ReportRun) : UsageAction Content → Option ReportRun
  | .exportLogs records now committed =>
    let rows := if committed then s.store.newRows (reader.parseRecords records now) now else []
    some {
      store := (s.store.exportLogs reader records now committed).1
      uncompacted := { s.uncompacted with rollups := upsertAll rows s.uncompacted.rollups } }
  | .compactHours now => some { s with store := s.store.compactHours now }
  | .expireDays now => some { s with store := s.store.expireDays now }
  | .expireReceipts now => some { s with store := s.store.expireReceipts now }

/-- Compactions come at or before the time of a report. -/
def UsageAction.compactedBy (now : Int) : UsageAction Content → Bool
  | .exportLogs _ receivedAt _ => decide (0 ≤ receivedAt)
  | .compactHours time => decide (time ≤ now)
  | .expireDays time => decide (time ≤ now)
  | .expireReceipts time => decide (time ≤ now)

end

section

variable {now time start stop : Int} {key : RowKey}

theorem hourlyBefore_le (htime : time ≤ now) : hourlyBefore time ≤ now - hourlyRetention := by
  simp only [hourlyBefore, hourlyRetention, day, hour]
  omega

/-- A period between edges has a day just if it has its hours. -/
theorem inPeriod_dayRow (hstart : isEdge now start) (hstop : isEdge now stop) (htime : time ≤ now)
    (hkey : 0 ≤ key.bucketStart) (hcompacted : isCompacted (hourlyBefore time) key = true) :
    inPeriod start stop (dayRow key) = inPeriod start stop key := by
  have hbefore := hourlyBefore_le htime
  have hlower := dayRow_edge hkey hcompacted (hstart.imp_right (Int.le_trans hbefore))
  have hupper : (dayRow key).bucketStart < stop ↔ key.bucketStart < stop := by
    rw [← Int.not_le, dayRow_edge hkey hcompacted (hstop.imp_right (Int.le_trans hbefore)), Int.not_le]
  rw [inPeriod, inPeriod, decide_eq_decide.mpr hlower, decide_eq_decide.mpr hupper]

theorem inPeriod_expired (hstart : now - dailyRetention ≤ start) (htime : time ≤ now)
    (hexpired : isExpired time key = true) : inPeriod start stop key = false := by
  have hbefore := of_decide_eq_true (Bool.and_eq_true_iff.mp hexpired).2
  have houtside : ¬ start ≤ key.bucketStart := by omega
  simp [inPeriod, houtside]

end

/-- What the two stores have in common in a period. -/
structure Alike (start stop : Int) (s : ReportRun) : Prop where
  rows : ∀ row ∈ s.store.rollups, 0 ≤ row.1.bucketStart
  sums : ∀ weight, tableSum (periodWeight start stop weight) s.store.rollups =
    tableSum (periodWeight start stop weight) s.uncompacted.rollups
  attributed : ∀ attribution, (∃ row ∈ s.store.rollups, attributedIn start stop attribution row.1) ↔
    ∃ row ∈ s.uncompacted.rollups, attributedIn start stop attribution row.1

namespace Alike

variable {now time start stop : Int} {s : ReportRun}

theorem ingest (h : Alike start stop s) {records : List UsageRecord} {other : UsageStore}
    (hrecords : ∀ record ∈ records, 0 ≤ record.key.bucketStart)
    (hother : other.rollups = upsertAll (s.store.newRows records time) s.uncompacted.rollups) :
    Alike start stop ⟨(s.store.ingest records time).1, other⟩ := by
  refine ⟨ingest_nonneg h.rows hrecords, fun weight => ?_, fun attribution => ?_⟩
  · dsimp only [UsageStore.ingest]
    rw [hother, tableSum_upsertAll, tableSum_upsertAll, h.sums]
  · dsimp only [UsageStore.ingest]
    rw [hother, exists_key_upsertAll (attributedIn start stop attribution),
      exists_key_upsertAll (attributedIn start stop attribution), h.attributed]

theorem compactHours (h : Alike start stop s) (hstart : isEdge now start) (hstop : isEdge now stop)
    (htime : time ≤ now) : Alike start stop { s with store := s.store.compactHours time } := by
  have hsame : ∀ row ∈ s.store.rollups, isCompacted (hourlyBefore time) row.1 = true →
      inPeriod start stop (dayRow row.1) = inPeriod start stop row.1 :=
    fun row hrow => inPeriod_dayRow hstart hstop htime (h.rows row hrow)
  refine ⟨compactHours_nonneg h.rows, fun weight => ?_, fun attribution => ?_⟩
  · rw [← h.sums]
    refine compactHours_sum fun row hrow hcompacted => ?_
    rw [periodWeight, hsame row hrow hcompacted]
    rfl
  · rw [← h.attributed]
    refine compactHours_exists (attributedIn start stop attribution) fun row hrow hcompacted => ?_
    rw [attributedIn, hsame row hrow hcompacted]
    rfl

theorem expireDays (h : Alike start stop s) (hstart : now - dailyRetention ≤ start) (htime : time ≤ now) :
    Alike start stop { s with store := s.store.expireDays time } := by
  have houtside : ∀ row ∈ s.store.rollups, isExpired time row.1 = true → inPeriod start stop row.1 = false :=
    fun row _ => inPeriod_expired hstart htime
  refine ⟨fun row hrow => h.rows row (List.mem_filter.mp hrow).1, fun weight => ?_, fun attribution => ?_⟩
  · rw [← h.sums]
    refine expireDays_sum fun row hrow hexpired => ?_
    rw [periodWeight, houtside row hrow hexpired]
    rfl
  · rw [← h.attributed]
    refine expireDays_exists (attributedIn start stop attribution) fun row hrow hexpired hattributed => ?_
    rw [attributedIn, houtside row hrow hexpired] at hattributed
    exact absurd hattributed.1 nofun

theorem step {Content : Type} {reader : RecordReader Content} {action : UsageAction Content} {t : ReportRun}
    (h : Alike start stop s) (hstart : isEdge now start) (hstop : isEdge now stop)
    (hunexpired : now - dailyRetention ≤ start) (hguard : action.compactedBy now = true)
    (hstep : s.step reader action = some t) : Alike start stop t := by
  cases action with
  | exportLogs records receivedAt committed =>
    cases hstep
    cases committed with
    | false =>
      rw [exportLogs_uncommitted]
      exact h
    | true => exact h.ingest (parseRecords_nonneg (of_decide_eq_true hguard)) rfl
  | compactHours time =>
    cases hstep
    exact h.compactHours hstart hstop (of_decide_eq_true hguard)
  | expireDays time =>
    cases hstep
    exact h.expireDays hunexpired (of_decide_eq_true hguard)
  | expireReceipts time =>
    cases hstep
    exact ⟨h.rows, h.sums, h.attributed⟩

end Alike

section

variable {Content : Type} {reader : RecordReader Content} {now : Int} {store : UsageStore}
  {actions : List (UsageAction Content)} {s : ReportRun}

/-- A report reads the same from a store that was compacted and from one that was not. -/
theorem reportSummaries_uncompacted (hstored : ∀ row ∈ store.rollups, 0 ≤ row.1.bucketStart)
    (hrun : execute (ReportRun.step reader) (fun _ => UsageAction.compactedBy now) actions ⟨store, store⟩ = some s)
    (range : String) (utcOffsetMinutes : Int) (filter : Filter) :
    s.store.reportSummaries range now utcOffsetMinutes filter =
      s.uncompacted.reportSummaries range now utcOffsetMinutes filter := by
  refine reportSummaries_congr (fun start stop hstart hstop hkept => ?_) range utcOffsetMinutes
  have hbegin : Alike start stop ⟨store, store⟩ := ⟨hstored, fun _ => rfl, fun _ => Iff.rfl⟩
  have halike := execute_invariant (fun _ _ _ hs hguard hstep => hs.step hstart hstop hkept hguard hstep) hbegin hrun
  exact summary_congr halike.sums halike.attributed filter

end

end AgentDesktop
