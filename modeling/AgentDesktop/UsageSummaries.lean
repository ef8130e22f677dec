import AgentDesktop.UsageWindows
import Mathlib.Data.List.Dedup

namespace AgentDesktop

/-- Summed usage, with spend split by billing. -/
@[ext]
structure Totals where
  requests : Int
  errors : Int
  inputTokens : Int
  outputTokens : Int
  cacheReadTokens : Int
  cacheWriteTokens : Int
  costNanos : Int
  subscriptionCostNanos : Int
  subscriptionRequests : Int
  unpricedRequests : Int
  deriving DecidableEq

namespace Totals

def add (a b : Totals) : Totals where
  requests := a.requests + b.requests
  errors := a.errors + b.errors
  inputTokens := a.inputTokens + b.inputTokens
  outputTokens := a.outputTokens + b.outputTokens
  cacheReadTokens := a.cacheReadTokens + b.cacheReadTokens
  cacheWriteTokens := a.cacheWriteTokens + b.cacheWriteTokens
  costNanos := a.costNanos + b.costNanos
  subscriptionCostNanos := a.subscriptionCostNanos + b.subscriptionCostNanos
  subscriptionRequests := a.subscriptionRequests + b.subscriptionRequests
  unpricedRequests := a.unpricedRequests + b.unpricedRequests

instance : Add Totals := ⟨add⟩

instance : Zero Totals := ⟨⟨0, 0, 0, 0, 0, 0, 0, 0, 0, 0⟩⟩

instance : AddCommMonoid Totals where
  add_assoc a b c := by
    ext <;> exact Int.add_assoc _ _ _
  zero_add a := by
    ext <;> exact Int.zero_add _
  add_zero a := by
    ext <;> exact Int.add_zero _
  add_comm a b := by
    ext <;> exact Int.add_comm _ _
  nsmul := nsmulRec

end Totals

/-- What a row adds to the columns of `TOTALS`. -/
def rowTotals (billing : Billing) (measures : Measures) : Totals where
  requests := measures.requests
  errors := measures.errors
  inputTokens := measures.inputTokens
  outputTokens := measures.outputTokens
  cacheReadTokens := measures.cacheReadTokens
  cacheWriteTokens := measures.cacheWriteTokens
  costNanos := if billing = .subscription then 0 else measures.costNanos
  subscriptionCostNanos := if billing = .subscription then measures.costNanos else 0
  subscriptionRequests := if billing = .subscription then measures.requests else 0
  unpricedRequests := measures.unpricedRequests

/-- A rollup column usage can be grouped or filtered by. -/
inductive Dimension where
  | user
  | device
  | tool
  | provider
  | model
  deriving DecidableEq

def Dimension.column (attribution : Attribution) : Dimension → String
  | user => attribution.subject
  | device => attribution.deviceId
  | tool => attribution.clientId
  | provider => attribution.provider
  | model => attribution.model

/-- Exact-match conditions on rollup columns. -/
abbrev Filter := List (Dimension × String)

def Filter.accepts (filter : Filter) (attribution : Attribution) : Bool :=
  filter.all fun condition => condition.1.column attribution == condition.2

def inPeriod (start stop : Int) (key : RowKey) : Bool :=
  decide (start ≤ key.bucketStart) && decide (key.bucketStart < stop)

def conditions (start stop : Int) (filter : Filter) (key : RowKey) : Bool :=
  inPeriod start stop key && filter.accepts key.attribution

@[ext]
structure Summary where
  totals : Totals
  users : Nat
  devices : Nat
  deriving DecidableEq

def countDistinct (values : List String) : Nat :=
  (values.filter fun value => value != "").dedup.length

/-- Totals and distinct known users and devices over a period. -/
def UsageStore.summary (start stop : Int) (filter : Filter) (store : UsageStore) : Summary :=
  let rows := store.rollups.filter fun row => conditions start stop filter row.1
  { totals := (rows.map fun row => rowTotals row.1.attribution.billing row.2).sum
    users := countDistinct (rows.map fun row => row.1.attribution.subject)
    devices := countDistinct (rows.map fun row => row.1.attribution.deviceId) }

/-- The summaries of a report: of its window and of the one before. -/
def UsageStore.reportSummaries (range : String) (now utcOffsetMinutes : Int) (filter : Filter) (store : UsageStore) :
    Except String (Summary × Summary) :=
  match Window.preset range now utcOffsetMinutes with
  | none => .error "unknown usage range or UTC offset"
  | some window =>
    let previousWindow := window.previous now
    .ok (store.summary window.start window.stop filter,
      store.summary previousWindow.start previousWindow.stop filter)

def totalsHom (billing : Billing) : Measures →+ Totals where
  toFun := rowTotals billing
  map_zero' := by cases billing <;> rfl
  map_add' a b := by cases billing <;> rfl

theorem totalsHom_apply (billing : Billing) (measures : Measures) :
    totalsHom billing measures = rowTotals billing measures :=
  rfl

/-- Counts a row of a period for its attribution. -/
def periodWeight (start stop : Int) (weight : Attribution → Measures →+ Totals) (key : RowKey) : Measures →+ Totals :=
  if inPeriod start stop key then weight key.attribution else 0

/-- Whether a table has a row of a period with an attribution. -/
def attributedIn (start stop : Int) (attribution : Attribution) (key : RowKey) : Prop :=
  inPeriod start stop key = true ∧ key.attribution = attribution

theorem countDistinct_congr {first second : List String} (h : ∀ value, value ∈ first ↔ value ∈ second) :
    countDistinct first = countDistinct second := by
  have hperm := List.perm_ext_iff_of_nodup (List.nodup_dedup (first.filter fun value => value != ""))
    (List.nodup_dedup (second.filter fun value => value != ""))
  refine (hperm.mpr fun value => ?_).length_eq
  rw [List.mem_dedup, List.mem_dedup, List.mem_filter, List.mem_filter, h]

section

variable {start stop : Int}

theorem summary_totals_eq (filter : Filter) (store : UsageStore) :
    (store.summary start stop filter).totals =
      tableSum (fun key => if conditions start stop filter key then totalsHom key.attribution.billing else 0)
        store.rollups := by
  have hfilter := tableSum_filter (fun key => totalsHom key.attribution.billing) (conditions start stop filter)
    store.rollups
  exact hfilter

theorem summary_totals (filter : Filter) (store : UsageStore) :
    (store.summary start stop filter).totals =
      tableSum (periodWeight start stop fun attribution =>
        if filter.accepts attribution then totalsHom attribution.billing else 0) store.rollups := by
  refine (summary_totals_eq filter store).trans (tableSum_congr fun row _ => ?_)
  unfold conditions periodWeight
  cases inPeriod start stop row.1 <;> rfl

theorem mem_column {column : Attribution → String} {value : String} {filter : Filter} {store : UsageStore} :
    value ∈ (store.rollups.filter fun row => conditions start stop filter row.1).map
        (fun row => column row.1.attribution) ↔
      ∃ attribution, column attribution = value ∧ filter.accepts attribution = true ∧
        ∃ row ∈ store.rollups, attributedIn start stop attribution row.1 := by
  constructor
  · intro hvalue
    obtain ⟨row, hrow, hvalue⟩ := List.mem_map.mp hvalue
    obtain ⟨hrow, hconditions⟩ := List.mem_filter.mp hrow
    obtain ⟨hperiod, haccepts⟩ := Bool.and_eq_true_iff.mp hconditions
    exact ⟨_, hvalue, haccepts, row, hrow, hperiod, rfl⟩
  · rintro ⟨attribution, hvalue, haccepts, row, hrow, hperiod, rfl⟩
    have hconditions : conditions start stop filter row.1 = true := Bool.and_eq_true_iff.mpr ⟨hperiod, haccepts⟩
    exact List.mem_map.mpr ⟨row, List.mem_filter.mpr ⟨hrow, hconditions⟩, hvalue⟩

/-- What a summary depends on: sums by attribution, and which attributions there are. -/
theorem summary_congr {first second : UsageStore}
    (hsums : ∀ weight, tableSum (periodWeight start stop weight) first.rollups =
      tableSum (periodWeight start stop weight) second.rollups)
    (hrows : ∀ attribution, (∃ row ∈ first.rollups, attributedIn start stop attribution row.1) ↔
      ∃ row ∈ second.rollups, attributedIn start stop attribution row.1) (filter : Filter) :
    first.summary start stop filter = second.summary start stop filter := by
  have htotals : (first.summary start stop filter).totals = (second.summary start stop filter).totals := by
    rw [summary_totals, summary_totals, hsums]
  have hcolumn : ∀ column : Attribution → String,
      countDistinct ((first.rollups.filter fun row => conditions start stop filter row.1).map
        fun row => column row.1.attribution) =
      countDistinct ((second.rollups.filter fun row => conditions start stop filter row.1).map
        fun row => column row.1.attribution) := by
    intro column
    refine countDistinct_congr fun value => ?_
    simp only [mem_column, hrows]
  exact Summary.ext htotals (hcolumn (·.subject)) (hcolumn (·.deviceId))

/-- A report sums up between edges alone. -/
theorem reportSummaries_congr {first second : UsageStore} {now : Int} {filter : Filter}
    (h : ∀ start stop, isEdge now start → isEdge now stop → now - dailyRetention ≤ start →
      first.summary start stop filter = second.summary start stop filter) (range : String) (utcOffsetMinutes : Int) :
    first.reportSummaries range now utcOffsetMinutes filter =
      second.reportSummaries range now utcOffsetMinutes filter := by
  unfold UsageStore.reportSummaries
  split
  next => rfl
  next window hwindow =>
    obtain ⟨hstart, hstop, hkept⟩ := preset_edges hwindow
    obtain ⟨hearlier, hlater, hearlierKept⟩ := previous_edges hwindow
    dsimp only
    rw [h _ _ hstart hstop hkept, h _ _ hearlier hlater hearlierKept]

end

end AgentDesktop
