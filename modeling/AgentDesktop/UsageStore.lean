import AgentDesktop.KeyedTable
import AgentDesktop.UsageRecords

namespace AgentDesktop

/-- The primary key of a stored rollup. -/
structure RowKey where
  bucketStart : Int
  bucketSeconds : Int
  attribution : Attribution
  deriving DecidableEq

/-- The tables `usage_rollups` and `usage_receipts`. -/
structure UsageStore where
  rollups : List (RowKey × Measures) := []
  receipts : List (String × Int) := []

/-- What a transaction of `ingest` has so far: the receipts, the sums of the new records
and their number. -/
structure IngestState where
  receipts : List (String × Int)
  rollups : List (RollupKey × Measures) := []
  stored : Nat := 0

def IngestState.insert (receivedAt : Int) (state : IngestState) (record : UsageRecord) : IngestState :=
  if state.receipts.any (·.1 == record.id) then state
  else
    { receipts := state.receipts ++ [(record.id, receivedAt)]
      rollups := upsert record.key record.measures state.rollups
      stored := state.stored + 1 }

def hourRow (key : RollupKey) : RowKey :=
  ⟨key.bucketStart, hour, key.attribution⟩

/-- The day of a row, as the database computes it. -/
def dayRow (key : RowKey) : RowKey :=
  ⟨key.bucketStart.tdiv 86400 * 86400, 86400, key.attribution⟩

def hourlyBefore (now : Int) : Int :=
  (now - hourlyRetention) / day * day

def isCompacted (before : Int) (key : RowKey) : Bool :=
  key.bucketSeconds == 3600 && decide (key.bucketStart < before)

def isExpired (now : Int) (key : RowKey) : Bool :=
  key.bucketSeconds == 86400 && decide (key.bucketStart < now - dailyRetention)

namespace UsageStore

def insertReceipts (records : List UsageRecord) (receivedAt : Int) (store : UsageStore) : IngestState :=
  records.foldl (IngestState.insert receivedAt) { receipts := store.receipts }

/-- The hourly rows of records not seen before. -/
def newRows (records : List UsageRecord) (receivedAt : Int) (store : UsageStore) : List (RowKey × Measures) :=
  (store.insertReceipts records receivedAt).rollups.map fun row => (hourRow row.1, row.2)

/-- Stores records not seen before and returns how many there were. -/
def ingest (records : List UsageRecord) (receivedAt : Int) (store : UsageStore) : UsageStore × Nat :=
  ({ rollups := upsertAll (store.newRows records receivedAt) store.rollups
     receipts := (store.insertReceipts records receivedAt).receipts },
    (store.insertReceipts records receivedAt).stored)

/-- The transaction of `compact`. -/
def compactHours (now : Int) (store : UsageStore) : UsageStore :=
  let before := hourlyBefore now
  let days := groupSums dayRow (store.rollups.filter fun row => isCompacted before row.1)
  { store with rollups := (upsertAll days store.rollups).filter fun row => !isCompacted before row.1 }

def expireDays (now : Int) (store : UsageStore) : UsageStore :=
  { store with rollups := store.rollups.filter fun row => !isExpired now row.1 }

def expireReceipts (now : Int) (store : UsageStore) : UsageStore :=
  { store with receipts := store.receipts.filter fun receipt => !decide (receipt.2 < now - receiptRetention) }

def compact (now : Int) (store : UsageStore) : UsageStore :=
  expireReceipts now (expireDays now (compactHours now store))

end UsageStore

/-- The records of an export that were rejected, with the first error. -/
structure PartialSuccess where
  rejectedLogRecords : Nat
  errorMessage : String

section

variable {Content : Type} (reader : RecordReader Content)

/-- The usage of a record that is neither ignored nor rejected. -/
def RecordReader.readUsage (record : LogRecord Content) (now : Int) : Option UsageRecord :=
  match reader.parseRecord record now with
  | .ok usage => usage
  | .error _ => none

/-- The usage that an export reads from its records. -/
def RecordReader.parseRecords (records : List (LogRecord Content)) (now : Int) : List UsageRecord :=
  records.filterMap fun record => reader.readUsage record now

def RecordReader.parseErrors (records : List (LogRecord Content)) (now : Int) : List String :=
  records.filterMap fun record =>
    match reader.parseRecord record now with
    | .ok _ => none
    | .error error => some error

/-- An export. A transaction that does not commit leaves the store as it was; an export
without usage has none. -/
def UsageStore.exportLogs (records : List (LogRecord Content)) (now : Int) (committed : Bool) (store : UsageStore) :
    UsageStore × Except String (Option PartialSuccess) :=
  if committed || (reader.parseRecords records now).isEmpty then
    ((store.ingest (reader.parseRecords records now) now).1,
      .ok ((reader.parseErrors records now).head?.map fun error =>
        ⟨(reader.parseErrors records now).length, error⟩))
  else (store, .error "usage storage is unavailable")

end

variable {Content : Type}

theorem exportLogs_uncommitted (reader : RecordReader Content) (records : List (LogRecord Content)) (now : Int)
    (store : UsageStore) : (store.exportLogs reader records now false).1 = store := by
  unfold UsageStore.exportLogs
  split
  next hempty =>
    rw [Bool.false_or, List.isEmpty_iff] at hempty
    rw [hempty]
    rfl
  next => rfl

variable {record : LogRecord Content}

theorem readUsage_spec {reader : RecordReader Content} {now : Int} {usage : UsageRecord}
    (h : reader.readUsage record now = some usage) :
    usage.id = reader.recordId record ∧
      ∃ occurred, occurredAt record now = .ok occurred ∧ usage.key.bucketStart = occurred / hour * hour := by
  unfold RecordReader.readUsage at h
  split at h
  next found hparse =>
    subst h
    exact parseRecord_spec hparse
  next => cases h

/-- The new rows have the hours of the records. -/
theorem newRows_nonneg {records : List UsageRecord} {receivedAt : Int} {store : UsageStore}
    (h : ∀ record ∈ records, 0 ≤ record.key.bucketStart) :
    ∀ row ∈ store.newRows records receivedAt, 0 ≤ row.1.bucketStart := by
  have hinserted : ∀ {state : IngestState}, (∀ row ∈ state.rollups, 0 ≤ row.1.bucketStart) →
      ∀ row ∈ (records.foldl (IngestState.insert receivedAt) state).rollups, 0 ≤ row.1.bucketStart := by
    induction records with
    | nil => exact id
    | cons record rest ih =>
      intro state hstate
      refine ih (fun other hother => h other (List.mem_cons_of_mem _ hother)) ?_
      unfold IngestState.insert
      split
      next => exact hstate
      next =>
        intro row hrow
        rcases mem_keys_upsert.mp (List.mem_map_of_mem hrow) with hkey | hkey
        · rw [hkey]
          exact h record List.mem_cons_self
        · obtain ⟨old, hold, hkey⟩ := List.mem_map.mp hkey
          rw [← hkey]
          exact hstate old hold
  have hstart : ∀ row ∈ ({ receipts := store.receipts } : IngestState).rollups, 0 ≤ row.1.bucketStart := fun _ => nofun
  intro row hrow
  obtain ⟨new, hnew, rfl⟩ := List.mem_map.mp hrow
  exact hinserted hstart new hnew

theorem ingest_nonneg {records : List UsageRecord} {receivedAt : Int} {store : UsageStore}
    (hstore : ∀ row ∈ store.rollups, 0 ≤ row.1.bucketStart) (h : ∀ record ∈ records, 0 ≤ record.key.bucketStart) :
    ∀ row ∈ (store.ingest records receivedAt).1.rollups, 0 ≤ row.1.bucketStart :=
  upsertAll_keys (fun key : RowKey => 0 ≤ key.bucketStart) (newRows_nonneg h) hstore

theorem parseRecords_unread {reader : RecordReader Content} {now : Int} (h : reader.readUsage record now = none)
    (rest : List (LogRecord Content)) :
    reader.parseRecords (record :: rest) now = reader.parseRecords rest now := by
  simp [RecordReader.parseRecords, h]

theorem parseRecords_read {reader : RecordReader Content} {now : Int} {usage : UsageRecord}
    (h : reader.readUsage record now = some usage) (rest : List (LogRecord Content)) :
    reader.parseRecords (record :: rest) now = usage :: reader.parseRecords rest now := by
  simp [RecordReader.parseRecords, h]

theorem parseRecords_nonneg {reader : RecordReader Content} {records : List (LogRecord Content)} {now : Int}
    (hnow : 0 ≤ now) : ∀ usage ∈ reader.parseRecords records now, 0 ≤ usage.key.bucketStart := by
  intro usage husage
  obtain ⟨record, _, hread⟩ := List.mem_filterMap.mp husage
  obtain ⟨_, occurred, hoccurred, hstart⟩ := readUsage_spec hread
  have hnonneg := occurredAt_nonneg hnow hoccurred
  simp only [hour] at hstart
  omega

section

variable {β : Type} [AddCommMonoid β] {weight : RowKey → Measures →+ β} {store : UsageStore} {now : Int}

theorem dayRow_bucketStart {key : RowKey} (h : 0 ≤ key.bucketStart) :
    (dayRow key).bucketStart = key.bucketStart / 86400 * 86400 := by
  rw [dayRow, Int.tdiv_eq_ediv_of_nonneg h]

/-- A day lies on the side of its hours, seen from a midnight or from a time with no
hours to compact after it. -/
theorem dayRow_edge {key : RowKey} {before edge : Int} (hkey : 0 ≤ key.bucketStart)
    (hcompacted : isCompacted before key = true) (hedge : edge % day = 0 ∨ before ≤ edge) :
    edge ≤ (dayRow key).bucketStart ↔ edge ≤ key.bucketStart := by
  have hbefore := of_decide_eq_true (Bool.and_eq_true_iff.mp hcompacted).2
  rw [dayRow_bucketStart hkey]
  simp only [day, hour] at hedge
  omega

/-- A compaction makes no row from before the epoch. -/
theorem compactHours_nonneg (h : ∀ row ∈ store.rollups, 0 ≤ row.1.bucketStart) :
    ∀ row ∈ (store.compactHours now).rollups, 0 ≤ row.1.bucketStart := by
  intro row hrow
  refine upsertAll_keys (0 ≤ ·.bucketStart) (fun sum hsum => ?_) h row (List.mem_filter.mp hrow).1
  obtain ⟨old, hold, hkey⟩ := (exists_key_groupSums (sum.1 = ·)).mp ⟨sum, hsum, rfl⟩
  have hnonneg := h old (List.mem_filter.mp hold).1
  rw [hkey, dayRow_bucketStart hnonneg]
  omega

theorem dayRow_not_compacted (before : Int) (key : RowKey) : isCompacted before (dayRow key) = false := by
  simp [isCompacted, dayRow]

/-- What is summed by something that a row and its day have in common stays. -/
theorem compactHours_sum (h : ∀ row ∈ store.rollups, isCompacted (hourlyBefore now) row.1 = true →
      weight (dayRow row.1) = weight row.1) :
    tableSum weight (store.compactHours now).rollups = tableSum weight store.rollups := by
  have hdays : ∀ row ∈ store.rollups.filter fun row => isCompacted (hourlyBefore now) row.1,
      (if !isCompacted (hourlyBefore now) (dayRow row.1) then weight (dayRow row.1) else 0) = weight row.1 := by
    intro row hrow
    obtain ⟨hmem, hcompacted⟩ := List.mem_filter.mp hrow
    rw [dayRow_not_compacted]
    exact h row hmem hcompacted
  have hsplit : ∀ row ∈ store.rollups,
      (if isCompacted (hourlyBefore now) row.1 then weight row.1 else 0) +
        (if !isCompacted (hourlyBefore now) row.1 then weight row.1 else 0) = weight row.1 := by
    intro row _
    cases isCompacted (hourlyBefore now) row.1 with
    | true => simp
    | false => simp
  rw [UsageStore.compactHours, tableSum_filter weight (fun key => !isCompacted (hourlyBefore now) key),
    tableSum_upsertAll, tableSum_groupSums, tableSum_congr hdays,
    tableSum_filter weight (isCompacted (hourlyBefore now)), ← tableSum_add]
  exact tableSum_congr hsplit

/-- What holds of some row and its day alike still holds of some row. -/
theorem compactHours_exists (P : RowKey → Prop)
    (h : ∀ row ∈ store.rollups, isCompacted (hourlyBefore now) row.1 = true → (P (dayRow row.1) ↔ P row.1)) :
    (∃ row ∈ (store.compactHours now).rollups, P row.1) ↔ ∃ row ∈ store.rollups, P row.1 := by
  have hkept : ∀ rows : List (RowKey × Measures),
      (∃ row ∈ rows.filter fun row => !isCompacted (hourlyBefore now) row.1, P row.1) ↔
        ∃ row ∈ rows, isCompacted (hourlyBefore now) row.1 = false ∧ P row.1 := by
    simp [and_assoc]
  have hdays : (∃ row ∈ groupSums dayRow (store.rollups.filter fun row => isCompacted (hourlyBefore now) row.1),
      isCompacted (hourlyBefore now) row.1 = false ∧ P row.1) ↔
      ∃ row ∈ store.rollups, isCompacted (hourlyBefore now) row.1 = true ∧ P row.1 := by
    rw [exists_key_groupSums fun key => isCompacted (hourlyBefore now) key = false ∧ P key]
    refine exists_congr fun row => ?_
    rw [List.mem_filter, and_assoc]
    refine and_congr_right fun hrow => and_congr_right fun hcompacted => ?_
    rw [h row hrow hcompacted]
    exact and_iff_right (dayRow_not_compacted _ _)
  rw [UsageStore.compactHours, hkept,
    exists_key_upsertAll fun key => isCompacted (hourlyBefore now) key = false ∧ P key, hdays, ← exists_or]
  refine exists_congr fun row => ?_
  rw [← and_or_left, ← or_and_right]
  cases isCompacted (hourlyBefore now) row.1 <;> simp

theorem expireDays_exists (P : RowKey → Prop) (h : ∀ row ∈ store.rollups, isExpired now row.1 = true → ¬ P row.1) :
    (∃ row ∈ (store.expireDays now).rollups, P row.1) ↔ ∃ row ∈ store.rollups, P row.1 := by
  constructor
  · rintro ⟨row, hrow, hP⟩
    exact ⟨row, (List.mem_filter.mp hrow).1, hP⟩
  · rintro ⟨row, hrow, hP⟩
    have hunexpired : isExpired now row.1 = false := by
      rw [← Bool.not_eq_true]
      exact fun hexpired => h row hrow hexpired hP
    exact ⟨row, List.mem_filter.mpr ⟨hrow, by rw [hunexpired]; rfl⟩, hP⟩

theorem expireDays_sum (h : ∀ row ∈ store.rollups, isExpired now row.1 = true → weight row.1 = 0) :
    tableSum weight (store.expireDays now).rollups = tableSum weight store.rollups := by
  rw [UsageStore.expireDays, tableSum_filter weight (fun key => !isExpired now key)]
  refine tableSum_congr fun row hrow => ?_
  cases hexpired : isExpired now row.1 with
  | true => exact (h row hrow hexpired).symm
  | false => rfl

end

end AgentDesktop
