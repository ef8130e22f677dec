import AgentDesktop.UsageRuns
import Mathlib.Data.Nat.Pairing

namespace AgentDesktop

section

variable {Content : Type} {reader : RecordReader Content} {s : UsageRun Content} {now : Int}
  {records : List (LogRecord Content)}

variable (reader) in
/-- What the store and the ledger have in common. -/
structure Counted (s : UsageRun Content) : Prop where
  clock : 0 ≤ s.clock
  receipts : ∀ receipt ∈ s.store.receipts, ∃ entry ∈ s.ledger, reader.recordId entry.record = receipt.1
  kept : ∀ entry ∈ s.ledger, (reader.recordId entry.record, entry.receivedAt) ∈ s.store.receipts ∨
    entry.receivedAt + receiptRetention < s.clock
  distinct : (s.ledger.map (·.record)).Nodup
  rows : ∀ row ∈ s.store.rollups, 0 ≤ row.1.bucketStart
  sums : ∀ attribution start, start % day = 0 → (∀ now ∈ s.expirations, now - dailyRetention ≤ start) →
    tableSum (dayWeight attribution start) s.store.rollups =
      tableSum (dayWeight attribution start) (ledgerRows s.ledger)

namespace Counted

theorem empty (reader : RecordReader Content) : Counted reader ({} : UsageRun Content) :=
  ⟨Int.le_refl 0, fun _ => nofun, fun _ => nofun, List.nodup_nil, fun _ => nofun, fun _ _ _ _ => rfl⟩

theorem advance (h : Counted reader s) {clock : Int} (hclock : s.clock ≤ clock) :
    Counted reader { s with clock } :=
  { h with
    clock := Int.le_trans h.clock hclock
    kept := fun entry hentry => (h.kept entry hentry).imp_right fun hold => Int.lt_of_lt_of_le hold hclock }

/-- An export begins with a receipt for every record that is sent again. -/
theorem ingesting (h : Counted reader s) (hclock : s.clock ≤ now)
    (hresent : ∀ record ∈ records, ∀ entry ∈ s.ledger, entry.record = record →
      now ≤ entry.receivedAt + receiptRetention) :
    Ingesting reader records now s.ledger { receipts := s.store.receipts } s.ledger := by
  refine ⟨h.receipts, fun entry hentry hsent => ?_, h.distinct, [], (List.append_nil _).symm,
    fun _ => nofun, fun _ => rfl⟩
  rcases h.kept entry hentry with hreceipt | hold
  · exact ⟨_, hreceipt, rfl⟩
  · have hintime := hresent entry.record hsent entry hentry rfl
    omega

/-- What the store and the ledger weigh alike, they weigh alike after an export. -/
theorem ingest_sum [DecidableEq Content] (h : Counted reader s) (hdigest : Function.Injective reader.recordId)
    (hclock : s.clock ≤ now)
    (hresent : ∀ record ∈ records, ∀ entry ∈ s.ledger, entry.record = record →
      now ≤ entry.receivedAt + receiptRetention)
    {β : Type} [AddCommMonoid β] {weight : RowKey → Measures →+ β}
    (hsame : tableSum weight s.store.rollups = tableSum weight (ledgerRows s.ledger)) :
    tableSum weight (s.store.ingest (reader.parseRecords records now) now).1.rollups =
      tableSum weight (ledgerRows (records.foldl (enter reader now) s.ledger)) := by
  have hdone := (h.ingesting hclock hresent).insertAll hdigest fun _ => id
  obtain ⟨added, hledger, _, hsums⟩ := hdone.added
  have hnew := hsums weight
  rw [← tableSum_map] at hnew
  have hrows : ledgerRows (s.ledger ++ added) = ledgerRows s.ledger ++ ledgerRows added := List.map_append
  rw [hledger, hrows, tableSum_append, ← hnew, ← hsame, add_comm]
  exact tableSum_upsertAll _ _ _

theorem ingest [DecidableEq Content] (h : Counted reader s) (hdigest : Function.Injective reader.recordId)
    (hclock : s.clock ≤ now)
    (hresent : ∀ record ∈ records, ∀ entry ∈ s.ledger, entry.record = record →
      now ≤ entry.receivedAt + receiptRetention) :
    Counted reader { s with
      store := (s.store.ingest (reader.parseRecords records now) now).1
      ledger := records.foldl (enter reader now) s.ledger } := by
  have hdone := (h.ingesting hclock hresent).insertAll hdigest fun _ => id
  have hnow : 0 ≤ now := Int.le_trans h.clock hclock
  refine ⟨h.clock, hdone.receipts, fun entry hentry => ?_, hdone.distinct,
    ingest_nonneg h.rows (parseRecords_nonneg hnow), fun attribution start hstart hunexpired => ?_⟩
  · obtain ⟨added, hledger, hadded, _⟩ := hdone.added
    rw [hledger] at hentry
    rcases List.mem_append.mp hentry with hold | hnew
    · exact (h.kept entry hold).imp_left insert_receipts
    · exact Or.inl (hadded entry hnew)
  · exact h.ingest_sum hdigest hclock hresent (h.sums attribution start hstart hunexpired)

theorem compactHours (h : Counted reader s) (now : Int) :
    Counted reader { s with store := s.store.compactHours now } := by
  refine { h with rows := compactHours_nonneg h.rows, sums := fun attribution start hstart hunexpired => ?_ }
  rw [← h.sums attribution start hstart hunexpired]
  refine compactHours_sum fun row hrow hcompacted => ?_
  rw [dayWeight, inDay_dayRow hstart (h.rows row hrow) hcompacted]
  rfl

theorem expireDays (h : Counted reader s) (now : Int) :
    Counted reader { s with store := s.store.expireDays now, expirations := s.expirations ++ [now] } := by
  refine { h with
    rows := fun row hrow => h.rows row (List.mem_filter.mp hrow).1
    sums := fun attribution start hstart hunexpired => ?_ }
  have hnow := hunexpired now (List.mem_append_right _ (List.mem_singleton_self _))
  rw [← h.sums attribution start hstart fun now hmem => hunexpired now (List.mem_append_left _ hmem)]
  refine expireDays_sum fun row _ hexpired => ?_
  rw [dayWeight, inDay_expired hexpired hnow]
  rfl

theorem expireReceipts (h : Counted reader s) (hclock : now ≤ s.clock) :
    Counted reader { s with store := s.store.expireReceipts now } := by
  refine { h with
    receipts := fun receipt hreceipt => h.receipts receipt (List.mem_filter.mp hreceipt).1
    kept := fun entry hentry => ?_ }
  rcases h.kept entry hentry with hreceipt | hold
  · by_cases hexpired : entry.receivedAt < now - receiptRetention
    · exact Or.inr (by dsimp only; omega)
    · exact Or.inl (List.mem_filter.mpr ⟨hreceipt, by simp [hexpired]⟩)
  · exact Or.inr hold

theorem step [DecidableEq Content] (hdigest : Function.Injective reader.recordId) {t : UsageRun Content}
    {action : UsageAction Content} (h : Counted reader s) (hguard : s.resentInTime action = true)
    (hstep : s.step reader action = some t) : Counted reader t := by
  have hlater : ∀ now : Int, s.clock ≤ max s.clock now := fun now => Int.le_max_left _ _
  cases action with
  | exportLogs records now committed =>
    cases hstep
    cases committed with
    | false =>
      rw [exportLogs_uncommitted]
      exact h.advance (hlater now)
    | true =>
      obtain ⟨hclock, hresent⟩ := resentInTime_iff.mp hguard
      exact (h.ingest hdigest hclock hresent).advance (hlater now)
  | compactHours now =>
    cases hstep
    exact (h.compactHours now).advance (hlater now)
  | expireDays now =>
    cases hstep
    exact (h.expireDays now).advance (hlater now)
  | expireReceipts now =>
    cases hstep
    exact (h.advance (hlater now)).expireReceipts (Int.le_max_right _ _)

end Counted

/-- Every record that was stored counts once on its day, through resends and compactions. -/
theorem usage_counted_once [DecidableEq Content] (hdigest : Function.Injective reader.recordId)
    {actions : List (UsageAction Content)}
    (hrun : execute (UsageRun.step reader) UsageRun.resentInTime actions {} = some s) :
    (s.ledger.map (·.record)).Nodup ∧
      ∀ attribution start, start % day = 0 → (∀ now ∈ s.expirations, now - dailyRetention ≤ start) →
        s.store.storedOn attribution start = recordedOn attribution start s.ledger := by
  have hcounted := execute_invariant (fun _ _ _ hs hguard hstep => hs.step hdigest hguard hstep)
    (Counted.empty reader) hrun
  refine ⟨hcounted.distinct, fun attribution start hday hunexpired => ?_⟩
  rw [storedOn_eq, recordedOn_eq]
  exact hcounted.sums attribution start hday hunexpired

end

def codexUsage : Attribution :=
  ⟨"user-1", "", "codex", "openai", "gpt-5", .api⟩

/-- Reads a request with some input tokens, and numbers its records. -/
def tokenReader : RecordReader Nat where
  recordId record := String.ofList
    (List.replicate (Nat.pair record.timeUnixNano (Nat.pair record.observedTimeUnixNano record.content)) '1')
  usage tokens := .ok (some (codexUsage, .ok ⟨1, 0, tokens, 0, 0, 0, 0, 1⟩))

theorem tokenReader_injective : Function.Injective tokenReader.recordId := by
  rintro ⟨time, observed, content⟩ ⟨time', observed', content'⟩ hid
  have hlength := congrArg List.length (String.ofList_injective hid)
  rw [List.length_replicate, List.length_replicate, Nat.pair_eq_pair, Nat.pair_eq_pair] at hlength
  obtain ⟨rfl, rfl, rfl⟩ := hlength
  rfl

/-- A record is sent twice, once more an hour later with a failed export between, and its
day is compacted before a late record of it arrives. -/
def resentUsage : List (UsageAction Nat) :=
  [.exportLogs [⟨0, 0, 2⟩, ⟨0, 0, 2⟩, ⟨0, 0, 3⟩] 7200 true,
    .exportLogs [⟨0, 0, 2⟩] 9000 false,
    .exportLogs [⟨0, 0, 2⟩] 10800 true,
    .compactHours (91 * day),
    .expireDays (91 * day),
    .expireReceipts (91 * day),
    .exportLogs [⟨0, 1, 1⟩] (91 * day) true,
    .compactHours (91 * day)]

theorem usage_counted_once_resent :
    Function.Injective tokenReader.recordId ∧
      ∃ s, execute (UsageRun.step tokenReader) UsageRun.resentInTime resentUsage {} = some s ∧
        s.store.storedOn codexUsage 0 = ⟨3, 0, 6, 0, 0, 0, 0, 3⟩ ∧ (s.ledger.map (·.record)).Nodup ∧
        ∀ attribution start, start % day = 0 → (∀ now ∈ s.expirations, now - dailyRetention ≤ start) →
          s.store.storedOn attribution start = recordedOn attribution start s.ledger := by
  refine ⟨tokenReader_injective, _, rfl, by decide +kernel, ?_⟩
  have hrun : execute (UsageRun.step tokenReader) UsageRun.resentInTime resentUsage {} = some _ := rfl
  exact usage_counted_once tokenReader_injective hrun

end AgentDesktop
