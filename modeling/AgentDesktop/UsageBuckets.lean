import AgentDesktop.ListAt
import AgentDesktop.UsageSummaries

namespace AgentDesktop

namespace Window

def bucketCount (window : Window) : Nat :=
  ((window.stop - window.start).tdiv window.bucketSeconds).toNat

def bucketStart (window : Window) (index : Nat) : Int :=
  window.start + index * window.bucketSeconds

/-- The bucket holding a stored rollup. -/
def bucketIndex (window : Window) (rollupStart : Int) : Option Nat :=
  let start :=
    if window.bucketSeconds = day then localDayStart rollupStart window.utcOffsetSeconds
    else rollupStart / hour * hour
  if start < window.start ∨ window.stop ≤ start then none
  else some ((start - window.start).tdiv window.bucketSeconds).toNat

def addRollup (window : Window) (buckets : List (Int × Totals)) (rollup : Int × Totals) : List (Int × Totals) :=
  match window.bucketIndex rollup.1 with
  | some index => buckets.modify index fun bucket => (bucket.1, bucket.2 + rollup.2)
  | none => buckets

/-- Every bucket of the window, including empty ones, from stored rollups. -/
def buckets (window : Window) (rollups : List (Int × Totals)) : List (Int × Totals) :=
  rollups.foldl window.addRollup ((List.range window.bucketCount).map fun index => (window.bucketStart index, 0))

end Window

/-- Totals per stored rollup start over a period, oldest first. -/
def UsageStore.series (start stop : Int) (filter : Filter) (store : UsageStore) : List (Int × Totals) :=
  let rows := store.rollups.filter fun row => conditions start stop filter row.1
  (groupSums RowKey.bucketStart (rows.map fun row => (row.1, rowTotals row.1.attribution.billing row.2))).mergeSort
    fun first second => decide (first.1 ≤ second.1)

/-- The buckets of a report. -/
def UsageStore.reportBuckets (window : Window) (filter : Filter) (store : UsageStore) : List (Int × Totals) :=
  window.buckets (store.series window.start window.stop filter)

/-- Counts a rollup for one bucket. -/
def bucketWeight (window : Window) (index : Nat) (rollupStart : Int) : Totals →+ Totals :=
  if window.bucketIndex rollupStart = some index then AddMonoidHom.id Totals else 0

section

variable {window : Window}

theorem addRollup_eq (totals : Nat → Totals) (rollup : Int × Totals) :
    window.addRollup ((List.range window.bucketCount).map fun index => (window.bucketStart index, totals index))
        rollup =
      (List.range window.bucketCount).map fun index =>
        (window.bucketStart index, totals index + bucketWeight window index rollup.1 rollup.2) := by
  unfold Window.addRollup bucketWeight
  cases hindex : window.bucketIndex rollup.1 with
  | none => simp
  | some found =>
    dsimp only
    rw [modify_range_map]
    refine List.map_congr_left fun index _ => ?_
    by_cases hfound : found = index
    · simp [hfound]
    · simp [hfound, Ne.symm hfound]

theorem buckets_eq (rollups : List (Int × Totals)) :
    window.buckets rollups = (List.range window.bucketCount).map fun index =>
      (window.bucketStart index, tableSum (bucketWeight window index) rollups) := by
  have hadded : ∀ totals : Nat → Totals, rollups.foldl window.addRollup
      ((List.range window.bucketCount).map fun index => (window.bucketStart index, totals index)) =
      (List.range window.bucketCount).map fun index =>
        (window.bucketStart index, totals index + tableSum (bucketWeight window index) rollups) := by
    induction rollups with
    | nil => simp
    | cons rollup rest ih =>
      intro totals
      rw [List.foldl_cons, addRollup_eq, ih]
      simp only [tableSum_cons, add_assoc]
  have hzero := hadded fun _ => 0
  simp only [zero_add] at hzero
  exact hzero

end

/-- Counts a stored row for one bucket of a report. -/
def reportWeight (window : Window) (filter : Filter) (index : Nat) (key : RowKey) : Measures →+ Totals :=
  if conditions window.start window.stop filter key then
    (bucketWeight window index key.bucketStart).comp (totalsHom key.attribution.billing)
  else 0

theorem series_sum (weight : Int → Totals →+ Totals) (start stop : Int) (filter : Filter) (store : UsageStore) :
    tableSum weight (store.series start stop filter) =
      tableSum (fun key => if conditions start stop filter key then
        (weight key.bucketStart).comp (totalsHom key.attribution.billing) else 0) store.rollups := by
  have hvalues := tableSum_mapValues (fun key => weight key.bucketStart) (fun key => totalsHom key.attribution.billing)
    (store.rollups.filter fun row => conditions start stop filter row.1)
  rw [UsageStore.series, tableSum_perm weight (List.mergeSort_perm _ _), tableSum_groupSums]
  exact hvalues.trans (tableSum_filter _ (conditions start stop filter) store.rollups)

/-- Each bucket of a report sums up the rows it holds. -/
theorem reportBuckets_eq (window : Window) (filter : Filter) (store : UsageStore) :
    store.reportBuckets window filter = (List.range window.bucketCount).map fun index =>
      (window.bucketStart index, tableSum (reportWeight window filter index) store.rollups) := by
  rw [UsageStore.reportBuckets, buckets_eq]
  refine List.map_congr_left fun index _ => ?_
  rw [series_sum]
  rfl

end AgentDesktop
