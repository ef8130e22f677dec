import AgentDesktop.UsageBuckets
import AgentDesktop.UsageWeights

namespace AgentDesktop

section

variable {Content : Type}

/-- Whether the request of an entry occurred in a period. -/
def LedgerEntry.occurredIn (start stop : Int) (entry : LedgerEntry Content) : Bool :=
  match occurredAt entry.record entry.receivedAt with
  | .ok occurred => decide (start ≤ occurred) && decide (occurred < stop)
  | .error _ => false

/-- The usage of the requests that occurred in a period. -/
def occurredTotals (start stop : Int) (filter : Filter) (ledger : List (LedgerEntry Content)) : Totals :=
  ((ledger.filter fun entry => entry.occurredIn start stop && filter.accepts entry.usage.key.attribution).map
    fun entry => rowTotals entry.usage.key.attribution.billing entry.usage.measures).sum

end

/-- A window of whole local days, up to the day of the report. -/
structure LocalDays (now offset : Int) (window : Window) : Prop where
  bucketSeconds : window.bucketSeconds = day
  utcOffsetSeconds : window.utcOffsetSeconds = offset
  stop : window.stop = localDayStart now offset + day
  start : ∃ days : Int, 0 < days ∧ days ≤ 90 ∧ window.start = window.stop - days * day

section

variable {range : String} {now utcOffsetMinutes offset : Int} {window : Window}

theorem preset_localDays (h : Window.preset range now utcOffsetMinutes = some window)
    (hdaily : window.bucketSeconds = day) : LocalDays now (utcOffsetMinutes * 60) window := by
  unfold Window.preset at h
  split at h
  next => cases h
  next =>
    obtain ⟨⟨bucketSeconds, buckets⟩, hbuckets, rfl⟩ := Option.map_eq_some_iff.mp h
    dsimp only at hdaily
    rcases presetBuckets_spec hbuckets with ⟨rfl, rfl⟩ | ⟨rfl, hfew, hmany⟩
    · exact absurd hdaily (by decide)
    · exact ⟨rfl, rfl, rfl, buckets, hfew, hmany, rfl⟩

theorem LocalDays.bucketStart (h : LocalDays now offset window) (index : Nat) :
    localDayStart (window.bucketStart index) offset = window.bucketStart index := by
  obtain ⟨days, _, _, hstart⟩ := h.start
  have hstop := h.stop
  simp only [Window.bucketStart, h.bucketSeconds]
  simp only [localDayStart, day, hour] at *
  omega

/-- With an offset of whole hours, the hour of a request is in the window with it. -/
theorem LocalDays.inPeriod_hour (h : LocalDays now offset window) (hhours : offset % hour = 0) {key : RowKey}
    {occurred : Int} (hkey : key.bucketStart = occurred / hour * hour) :
    inPeriod window.start window.stop key = (decide (window.start ≤ occurred) && decide (occurred < window.stop)) := by
  obtain ⟨days, _, _, hstart⟩ := h.start
  have hstop := h.stop
  simp only [localDayStart, day, hour] at hstart hstop hhours hkey
  have hlower : window.start ≤ key.bucketStart ↔ window.start ≤ occurred := by omega
  have hupper : key.bucketStart < window.stop ↔ occurred < window.stop := by omega
  rw [inPeriod, decide_eq_decide.mpr hlower, decide_eq_decide.mpr hupper]

/-- And the hour is in the bucket of the day of the request. -/
theorem LocalDays.bucketIndex_hour (h : LocalDays now offset window) (hhours : offset % hour = 0) {occurred : Int}
    (hfrom : window.start ≤ occurred) (huntil : occurred < window.stop) (index : Nat) :
    window.bucketIndex (occurred / hour * hour) = some index ↔
      window.bucketStart index ≤ occurred ∧ occurred < window.bucketStart index + day := by
  obtain ⟨days, _, _, hstart⟩ := h.start
  have hstop := h.stop
  have hmidnight : ∃ midnight, localDayStart (occurred / hour * hour) offset = midnight ∧ window.start ≤ midnight ∧
      midnight < window.stop ∧ midnight ≤ occurred ∧ occurred < midnight + day ∧
      (midnight - window.start) % day = 0 := by
    refine ⟨_, rfl, ?_⟩
    simp only [localDayStart, day, hour] at *
    omega
  obtain ⟨midnight, hsame, hafter, hbefore, hsince, hnext, hwhole⟩ := hmidnight
  have hinside : ¬ (midnight < window.start ∨ window.stop ≤ midnight) := by omega
  simp only [Window.bucketIndex, Window.bucketStart, h.bucketSeconds, h.utcOffsetSeconds, if_true, hsame,
    if_neg hinside, Option.some.injEq]
  rw [Int.tdiv_eq_ediv_of_nonneg (by omega)]
  simp only [day, hour] at *
  omega

/-- The buckets cover the window. -/
theorem LocalDays.bucket_inside (h : LocalDays now offset window) {index : Nat} (hindex : index < window.bucketCount) :
    window.start ≤ window.bucketStart index ∧ window.bucketStart index + day ≤ window.stop := by
  obtain ⟨days, hdays, _, hstart⟩ := h.start
  have hnonneg : 0 ≤ window.stop - window.start := by
    simp only [hstart, day, hour]
    omega
  rw [Window.bucketCount, h.bucketSeconds, Int.tdiv_eq_ediv_of_nonneg hnonneg] at hindex
  simp only [Window.bucketStart, h.bucketSeconds]
  simp only [day, hour] at *
  omega

/-- A row weighs in a bucket just if its request occurred on the day of the bucket. -/
theorem LocalDays.reportWeight_hour (h : LocalDays now offset window) (hhours : offset % hour = 0) {index : Nat}
    (hindex : index < window.bucketCount) {key : RowKey} {occurred : Int}
    (hkey : key.bucketStart = occurred / hour * hour) (filter : Filter) :
    reportWeight window filter index key =
      if decide (window.bucketStart index ≤ occurred) && decide (occurred < window.bucketStart index + day) &&
        filter.accepts key.attribution then totalsHom key.attribution.billing else 0 := by
  obtain ⟨hfirst, hlast⟩ := h.bucket_inside hindex
  rw [reportWeight, conditions, h.inPeriod_hour hhours hkey, hkey]
  by_cases hinside : window.start ≤ occurred ∧ occurred < window.stop
  · have hbucket := h.bucketIndex_hour hhours hinside.1 hinside.2 index
    rw [decide_eq_true hinside.1, decide_eq_true hinside.2, bucketWeight]
    cases filter.accepts key.attribution with
    | false => simp
    | true =>
      by_cases hday : window.bucketStart index ≤ occurred ∧ occurred < window.bucketStart index + day
      · simp [hbucket, hday]
      · simp [hbucket, hday]
  · have hout : ¬ (window.bucketStart index ≤ occurred ∧ occurred < window.bucketStart index + day) := by omega
    rw [← Bool.decide_and, ← Bool.decide_and, decide_eq_false hinside, decide_eq_false hout]
    rfl

end

section

variable {Content : Type}

/-- The entries of a ledger as a table. -/
def entryRows (ledger : List (LedgerEntry Content)) : List (LedgerEntry Content × Measures) :=
  ledger.map fun entry => (entry, entry.usage.measures)

theorem occurredTotals_eq (start stop : Int) (filter : Filter) (ledger : List (LedgerEntry Content)) :
    occurredTotals start stop filter ledger =
      tableSum (fun entry => if entry.occurredIn start stop && filter.accepts entry.usage.key.attribution then
        totalsHom entry.usage.key.attribution.billing else 0) (entryRows ledger) := by
  have hfilter := tableSum_filter (fun entry : LedgerEntry Content => totalsHom entry.usage.key.attribution.billing)
    (fun entry => entry.occurredIn start stop && filter.accepts entry.usage.key.attribution) (entryRows ledger)
  refine Eq.trans ?_ hfilter
  simp [occurredTotals, tableSum, entryRows, List.filter_map, Function.comp_def, totalsHom_apply]

theorem ledgerRows_sum (weight : RowKey → Measures →+ Totals) (ledger : List (LedgerEntry Content)) :
    tableSum weight (ledgerRows ledger) =
      tableSum (fun entry => weight (hourRow entry.usage.key)) (entryRows ledger) := by
  have hmap := tableSum_map weight (fun entry : LedgerEntry Content => hourRow entry.usage.key) (entryRows ledger)
  refine Eq.trans ?_ hmap
  simp [ledgerRows, entryRows, Function.comp_def]

/-- A report that counts each stored request in its window and in the bucket of its day
just as it occurred. -/
structure CountedByDay (window : Window) (s : UsageRun Content) : Prop where
  totals : ∀ filter, (s.store.summary window.start window.stop filter).totals =
    occurredTotals window.start window.stop filter s.ledger
  buckets : ∀ filter, s.store.reportBuckets window filter = (List.range window.bucketCount).map fun index =>
    (window.bucketStart index,
      occurredTotals (window.bucketStart index) (window.bucketStart index + day) filter s.ledger)

variable {reader : RecordReader Content} {now offset : Int} {window : Window}
  {s : UsageRun Content}

/-- A weight that sees requests as they occurred sums up the ledger. -/
theorem Weighed.occurred_sum (h : Weighed reader now s) {weight : RowKey → Measures →+ Totals}
    (hrespected : Respected now weight) {start stop : Int} {filter : Filter}
    (hhour : ∀ key occurred, key.bucketStart = occurred / hour * hour → weight key =
      if decide (start ≤ occurred) && decide (occurred < stop) && filter.accepts key.attribution then
        totalsHom key.attribution.billing else 0) :
    tableSum weight s.store.rollups = occurredTotals start stop filter s.ledger := by
  rw [h.sums weight hrespected, ledgerRows_sum, occurredTotals_eq]
  refine tableSum_congr fun row hrow => ?_
  obtain ⟨entry, hentry, rfl⟩ := List.mem_map.mp hrow
  obtain ⟨_, occurred, hoccurred, hstart⟩ := readUsage_spec (h.read entry hentry)
  rw [hhour (hourRow entry.usage.key) occurred hstart, LedgerEntry.occurredIn, hoccurred]
  rfl

theorem Weighed.countedByDay (h : Weighed reader now s) (hdays : LocalDays now offset window)
    (hrecent : now - hourlyRetention ≤ window.start) (hhours : offset % hour = 0) : CountedByDay window s := by
  refine ⟨fun filter => ?_, fun filter => ?_⟩
  · rw [summary_totals]
    refine h.occurred_sum (respected_of_recent window.stop hrecent fun key hout => ?_) fun key occurred hkey => ?_
    · rw [periodWeight, hout]
      rfl
    · rw [periodWeight, hdays.inPeriod_hour hhours hkey]
      cases decide (window.start ≤ occurred) && decide (occurred < window.stop) with
      | false => rfl
      | true => rfl
  · rw [reportBuckets_eq]
    refine List.map_congr_left fun index hindex => ?_
    have hindex := List.mem_range.mp hindex
    refine congrArg _ (h.occurred_sum (respected_of_recent window.stop hrecent fun key hout => ?_)
      fun key occurred hkey => ?_)
    · rw [reportWeight, conditions, hout]
      rfl
    · exact hdays.reportWeight_hour hhours hindex hkey filter

end

end AgentDesktop
