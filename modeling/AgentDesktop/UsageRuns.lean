import AgentDesktop.Transitions
import AgentDesktop.UsageLedger

namespace AgentDesktop

/-- The rows of a UTC day for one attribution, hourly and daily ones. -/
def inDay (attribution : Attribution) (start : Int) (key : RowKey) : Bool :=
  key.attribution == attribution && decide (start ≤ key.bucketStart) && decide (key.bucketStart < start + day)

def UsageStore.storedOn (attribution : Attribution) (start : Int) (store : UsageStore) : Measures :=
  ((store.rollups.filter fun row => inDay attribution start row.1).map (·.2)).sum

section

variable {Content : Type}

/-- What the records of the ledger sum up to on a day, by the hours they were entered with. -/
def recordedOn (attribution : Attribution) (start : Int) (ledger : List (LedgerEntry Content)) : Measures :=
  ((ledger.filter fun entry => inDay attribution start (hourRow entry.usage.key)).map (·.usage.measures)).sum

/-- The store beside the ledger, with the latest time so far and the times at which days
were expired. -/
structure UsageRun (Content : Type) where
  store : UsageStore := {}
  ledger : List (LedgerEntry Content) := []
  clock : Int := 0
  expirations : List Int := []

/-- The transactions on the store. A compaction is three of them. -/
inductive UsageAction (Content : Type) where
  | exportLogs (records : List (LogRecord Content)) (now : Int) (committed : Bool)
  | compactHours (now : Int)
  | expireDays (now : Int)
  | expireReceipts (now : Int)

variable [DecidableEq Content]

def UsageRun.step (reader : RecordReader Content) (s : UsageRun Content) :
    UsageAction Content → Option (UsageRun Content)
  | .exportLogs records now committed =>
    some { s with
      store := (s.store.exportLogs reader records now committed).1
      ledger := if committed then records.foldl (enter reader now) s.ledger else s.ledger
      clock := max s.clock now }
  | .compactHours now => some { s with store := s.store.compactHours now, clock := max s.clock now }
  | .expireDays now =>
    some { s with
      store := s.store.expireDays now
      clock := max s.clock now
      expirations := s.expirations ++ [now] }
  | .expireReceipts now => some { s with store := s.store.expireReceipts now, clock := max s.clock now }

/-- Exports come in the order of their times, and a record is sent again within the
retention of its receipt. -/
def UsageRun.resentInTime (s : UsageRun Content) : UsageAction Content → Bool
  | .exportLogs records now _ =>
    decide (s.clock ≤ now) && records.all fun record => s.ledger.all fun entry =>
      !decide (entry.record = record) || decide (now ≤ entry.receivedAt + receiptRetention)
  | _ => true

theorem resentInTime_iff {s : UsageRun Content} {records : List (LogRecord Content)} {now : Int} {committed : Bool} :
    s.resentInTime (.exportLogs records now committed) = true ↔
      s.clock ≤ now ∧ ∀ record ∈ records, ∀ entry ∈ s.ledger, entry.record = record →
        now ≤ entry.receivedAt + receiptRetention := by
  simp [UsageRun.resentInTime, imp_iff_not_or]

/-- A compaction is three steps of a run. -/
theorem compact_execute (reader : RecordReader Content) (s : UsageRun Content) (now : Int) :
    execute (UsageRun.step reader) UsageRun.resentInTime [.compactHours now, .expireDays now, .expireReceipts now] s =
      some { s with
        store := s.store.compact now
        clock := max s.clock now
        expirations := s.expirations ++ [now] } := by
  simp [execute, UsageRun.step, UsageRun.resentInTime, UsageStore.compact]

end

/-- Counts a row if it is one of the day. -/
def dayWeight (attribution : Attribution) (start : Int) (key : RowKey) : Measures →+ Measures :=
  if inDay attribution start key then AddMonoidHom.id Measures else 0

section

variable {attribution : Attribution} {start now : Int} {key : RowKey}

theorem storedOn_eq (attribution : Attribution) (start : Int) (store : UsageStore) :
    store.storedOn attribution start = tableSum (dayWeight attribution start) store.rollups :=
  tableSum_filter (fun _ => AddMonoidHom.id Measures) (inDay attribution start) store.rollups

theorem recordedOn_eq {Content : Type} (attribution : Attribution) (start : Int) (ledger : List (LedgerEntry Content)) :
    recordedOn attribution start ledger = tableSum (dayWeight attribution start) (ledgerRows ledger) := by
  have hfilter := tableSum_filter (fun _ => AddMonoidHom.id Measures) (inDay attribution start) (ledgerRows ledger)
  refine Eq.trans ?_ hfilter
  simp [recordedOn, tableSum, ledgerRows, List.filter_map, Function.comp_def]

/-- A day has the rows of its hours. -/
theorem inDay_dayRow {before : Int} (hstart : start % day = 0) (hkey : 0 ≤ key.bucketStart)
    (hcompacted : isCompacted before key = true) :
    inDay attribution start (dayRow key) = inDay attribution start key := by
  have hstop : (start + day) % day = 0 := by
    rw [Int.add_emod_right]
    exact hstart
  have hlower := dayRow_edge hkey hcompacted (Or.inl hstart)
  have hupper : (dayRow key).bucketStart < start + day ↔ key.bucketStart < start + day := by
    rw [← Int.not_le, dayRow_edge hkey hcompacted (Or.inl hstop), Int.not_le]
  rw [inDay, inDay, decide_eq_decide.mpr hlower, decide_eq_decide.mpr hupper]
  rfl

theorem inDay_expired (hexpired : isExpired now key = true) (hstart : now - dailyRetention ≤ start) :
    inDay attribution start key = false := by
  obtain ⟨_, hbefore⟩ := Bool.and_eq_true_iff.mp hexpired
  have hbefore := of_decide_eq_true hbefore
  have houtside : ¬ start ≤ key.bucketStart := by omega
  simp [inDay, houtside]

end

end AgentDesktop
