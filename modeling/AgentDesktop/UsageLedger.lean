import AgentDesktop.UsageStore

namespace AgentDesktop

/-- A record with the usage read from it when it was first stored. -/
structure LedgerEntry (Content : Type) where
  record : LogRecord Content
  usage : UsageRecord
  receivedAt : Int

section

variable {Content : Type} [DecidableEq Content] (reader : RecordReader Content)

/-- Enters a record that is not in the ledger. -/
def enter (now : Int) (ledger : List (LedgerEntry Content)) (record : LogRecord Content) :
    List (LedgerEntry Content) :=
  match reader.readUsage record now with
  | some usage =>
    if ledger.any fun entry => decide (entry.record = record) then ledger else ledger ++ [⟨record, usage, now⟩]
  | none => ledger

/-- What the ledger would be as a table of hours. -/
def ledgerRows (ledger : List (LedgerEntry Content)) : List (RowKey × Measures) :=
  ledger.map fun entry => (hourRow entry.usage.key, entry.usage.measures)

/-- The transaction of `ingest` beside the ledger, within one export of records. -/
structure Ingesting (records : List (LogRecord Content)) (now : Int) (before : List (LedgerEntry Content))
    (state : IngestState) (ledger : List (LedgerEntry Content)) : Prop where
  receipts : ∀ receipt ∈ state.receipts, ∃ entry ∈ ledger, reader.recordId entry.record = receipt.1
  resent : ∀ entry ∈ before, entry.record ∈ records →
    ∃ receipt ∈ state.receipts, receipt.1 = reader.recordId entry.record
  distinct : (ledger.map (·.record)).Nodup
  added : ∃ added, ledger = before ++ added ∧
    (∀ entry ∈ added, (reader.recordId entry.record, entry.receivedAt) ∈ state.receipts) ∧
    ∀ {β : Type} [AddCommMonoid β] (weight : RowKey → Measures →+ β),
      tableSum (fun key => weight (hourRow key)) state.rollups = tableSum weight (ledgerRows added)

variable {reader}

variable {records : List (LogRecord Content)} {now : Int} {before ledger : List (LedgerEntry Content)}
  {state : IngestState}

/-- A record is in the ledger just if it has a receipt. -/
theorem Ingesting.known_iff (h : Ingesting reader records now before state ledger)
    (hdigest : Function.Injective reader.recordId) {record : LogRecord Content} (hmem : record ∈ records) :
    (ledger.any fun entry => decide (entry.record = record)) =
      state.receipts.any (·.1 == reader.recordId record) := by
  rw [Bool.eq_iff_iff, List.any_eq_true, List.any_eq_true]
  constructor
  · rintro ⟨entry, hentry, hrecord⟩
    have hrecord := of_decide_eq_true hrecord
    obtain ⟨added, rfl, hadded, _⟩ := h.added
    have hreceipt : ∃ receipt ∈ state.receipts, receipt.1 = reader.recordId entry.record := by
      rcases List.mem_append.mp hentry with hold | hnew
      · exact h.resent entry hold (hrecord ▸ hmem)
      · exact ⟨_, hadded entry hnew, rfl⟩
    obtain ⟨receipt, hreceipt, hid⟩ := hreceipt
    exact ⟨receipt, hreceipt, by rw [hid, hrecord, beq_self_eq_true]⟩
  · rintro ⟨receipt, hreceipt, hid⟩
    obtain ⟨entry, hentry, hentryid⟩ := h.receipts receipt hreceipt
    have hsame := hdigest (hentryid.trans (beq_iff_eq.mp hid))
    exact ⟨entry, hentry, decide_eq_true hsame⟩

/-- One record: it is stored and entered, or it is neither. -/
theorem Ingesting.insert (h : Ingesting reader records now before state ledger)
    (hdigest : Function.Injective reader.recordId) {record : LogRecord Content} (hmem : record ∈ records)
    {usage : UsageRecord} (hread : reader.readUsage record now = some usage) :
    Ingesting reader records now before (state.insert now usage) (enter reader now ledger record) := by
  obtain ⟨hid, _⟩ := readUsage_spec hread
  have hknown := h.known_iff hdigest hmem
  rw [← hid] at hknown
  unfold IngestState.insert enter
  rw [hread]
  dsimp only
  rw [hknown]
  split
  next => exact h
  next hnew =>
    have hfresh : record ∉ ledger.map (·.record) := by
      intro hrecord
      obtain ⟨entry, hentry, hsame⟩ := List.mem_map.mp hrecord
      rw [← hknown] at hnew
      exact hnew (List.any_eq_true.mpr ⟨entry, hentry, decide_eq_true hsame⟩)
    refine ⟨fun receipt hreceipt => ?_, fun entry hentry hsent => ?_, ?_, ?_⟩
    · rcases List.mem_append.mp hreceipt with hold | hreceipt
      · obtain ⟨entry, hentry, hentryid⟩ := h.receipts receipt hold
        exact ⟨entry, List.mem_append_left _ hentry, hentryid⟩
      · cases List.mem_singleton.mp hreceipt
        exact ⟨_, List.mem_append_right _ (List.mem_singleton_self _), hid.symm⟩
    · obtain ⟨receipt, hreceipt, hentryid⟩ := h.resent entry hentry hsent
      exact ⟨receipt, List.mem_append_left _ hreceipt, hentryid⟩
    · rw [List.map_append]
      refine List.nodup_append.mpr ⟨h.distinct, by simp, fun old hold new hrecord heq => hfresh ?_⟩
      cases List.mem_singleton.mp hrecord
      subst heq
      exact hold
    · obtain ⟨added, rfl, hadded, hsums⟩ := h.added
      refine ⟨added ++ [⟨record, usage, now⟩], List.append_assoc _ _ _, fun entry hentry => ?_, fun weight => ?_⟩
      · rcases List.mem_append.mp hentry with hentry | hentry
        · exact List.mem_append_left _ (hadded entry hentry)
        · cases List.mem_singleton.mp hentry
          rw [← hid]
          exact List.mem_append_right _ (List.mem_singleton_self _)
      · rw [tableSum_upsert, hsums, ledgerRows, ledgerRows, List.map_append, tableSum_append, add_comm]
        simp

theorem insert_receipts {receipt : String × Int} {usages : List UsageRecord} (h : receipt ∈ state.receipts) :
    receipt ∈ (usages.foldl (IngestState.insert now) state).receipts := by
  induction usages generalizing state with
  | nil => exact h
  | cons usage rest ih =>
    refine ih ?_
    unfold IngestState.insert
    split
    next => exact h
    next => exact List.mem_append_left _ h

/-- A whole export: the ledger gets what the transaction stores. -/
theorem Ingesting.insertAll (hdigest : Function.Injective reader.recordId) {rest : List (LogRecord Content)}
    (hrest : ∀ record ∈ rest, record ∈ records) (h : Ingesting reader records now before state ledger) :
    Ingesting reader records now before
      ((reader.parseRecords rest now).foldl (IngestState.insert now) state) (rest.foldl (enter reader now) ledger) := by
  induction rest generalizing state ledger with
  | nil => exact h
  | cons record rest ih =>
    have hmem := hrest record List.mem_cons_self
    have hrest : ∀ record ∈ rest, record ∈ records := fun other hother => hrest other (List.mem_cons_of_mem _ hother)
    cases hread : reader.readUsage record now with
    | none =>
      have henter : enter reader now ledger record = ledger := by simp [enter, hread]
      rw [parseRecords_unread hread, List.foldl_cons, henter]
      exact ih hrest h
    | some usage =>
      rw [parseRecords_read hread, List.foldl_cons, List.foldl_cons]
      exact ih hrest (h.insert hdigest hmem hread)

/-- Two stores beside the same ledger find the same records new. -/
theorem Ingesting.insertAll_rollups (hdigest : Function.Injective reader.recordId) {rest : List (LogRecord Content)}
    (hrest : ∀ record ∈ rest, record ∈ records) {other : IngestState}
    (h : Ingesting reader records now before state ledger) (hother : Ingesting reader records now before other ledger)
    (hsame : state.rollups = other.rollups) :
    ((reader.parseRecords rest now).foldl (IngestState.insert now) state).rollups =
      ((reader.parseRecords rest now).foldl (IngestState.insert now) other).rollups := by
  induction rest generalizing state other ledger with
  | nil => exact hsame
  | cons record rest ih =>
    have hmem := hrest record List.mem_cons_self
    have hrest : ∀ record ∈ rest, record ∈ records := fun other hother => hrest other (List.mem_cons_of_mem _ hother)
    cases hread : reader.readUsage record now with
    | none =>
      rw [parseRecords_unread hread]
      exact ih hrest h hother hsame
    | some usage =>
      have hknown := (h.known_iff hdigest hmem).symm.trans (hother.known_iff hdigest hmem)
      rw [← (readUsage_spec hread).1] at hknown
      rw [parseRecords_read hread]
      refine ih hrest (h.insert hdigest hmem hread) (hother.insert hdigest hmem hread) ?_
      unfold IngestState.insert
      rw [hknown]
      split
      next => exact hsame
      next => exact congrArg (upsert usage.key usage.measures) hsame

end

end AgentDesktop
