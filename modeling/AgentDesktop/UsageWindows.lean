import AgentDesktop.UsageStore

namespace AgentDesktop

def maxUtcOffsetMinutes : Int := 14 * 60

/-- A reporting period split into equal hourly or daily buckets. -/
structure Window where
  start : Int
  stop : Int
  bucketSeconds : Int
  utcOffsetSeconds : Int
  deriving DecidableEq

def localDayStart (timestamp utcOffsetSeconds : Int) : Int :=
  (timestamp + utcOffsetSeconds) / day * day - utcOffsetSeconds

namespace Window

/-- The length and the number of the buckets of a range. -/
def presetBuckets (range : String) : Option (Int × Int) :=
  match range with
  | "24h" => some (hour, 24)
  | "7d" => some (day, 7)
  | "30d" => some (day, 30)
  | "90d" => some (day, 90)
  | _ => none

def preset (range : String) (now utcOffsetMinutes : Int) : Option Window :=
  if utcOffsetMinutes < -maxUtcOffsetMinutes ∨ maxUtcOffsetMinutes < utcOffsetMinutes then none
  else
    let utcOffsetSeconds := utcOffsetMinutes * 60
    (presetBuckets range).map fun (bucketSeconds, buckets) =>
      let stop :=
        if bucketSeconds = hour then now / hour * hour + hour else localDayStart now utcOffsetSeconds + day
      { start := stop - buckets * bucketSeconds, stop, bucketSeconds, utcOffsetSeconds }

/-- The equally long period just before, from the nearest UTC midnight where it reaches
further back than the hourly rows. -/
def previous (window : Window) (now : Int) : Window :=
  let start := window.start - (window.stop - window.start)
  { window with
    start := if start < now - hourlyRetention then (start + day / 2) / day * day else start
    stop := window.start }

end Window

/-- A time that splits no day of a compaction at or before a report. -/
def isEdge (now time : Int) : Prop :=
  time % day = 0 ∨ now - hourlyRetention ≤ time

section

variable {range : String} {now utcOffsetMinutes : Int} {window : Window}

theorem localDayStart_spec (timestamp utcOffsetSeconds : Int) :
    localDayStart timestamp utcOffsetSeconds ≤ timestamp ∧
      timestamp < localDayStart timestamp utcOffsetSeconds + day := by
  simp only [localDayStart, day, hour]
  omega

theorem presetBuckets_spec {bucketSeconds buckets : Int}
    (h : Window.presetBuckets range = some (bucketSeconds, buckets)) :
    bucketSeconds = hour ∧ buckets = 24 ∨ bucketSeconds = day ∧ 0 < buckets ∧ buckets ≤ 90 := by
  unfold Window.presetBuckets at h
  split at h <;> cases h
  · exact Or.inl ⟨rfl, rfl⟩
  · exact Or.inr ⟨rfl, by omega, by omega⟩
  · exact Or.inr ⟨rfl, by omega, by omega⟩
  · exact Or.inr ⟨rfl, by omega, by omega⟩

/-- A window has the 24 hours up to that of the report, or local days up to that of the report. -/
theorem preset_eq (h : Window.preset range now utcOffsetMinutes = some window) :
    (∃ stop, stop = now / hour * hour + hour ∧ window = ⟨stop - 24 * hour, stop, hour, utcOffsetMinutes * 60⟩) ∨
      ∃ stop days, stop = localDayStart now (utcOffsetMinutes * 60) + day ∧ 0 < days ∧ days ≤ 90 ∧
        window = ⟨stop - days * day, stop, day, utcOffsetMinutes * 60⟩ := by
  unfold Window.preset at h
  split at h
  next => cases h
  next =>
    obtain ⟨⟨bucketSeconds, buckets⟩, hbuckets, rfl⟩ := Option.map_eq_some_iff.mp h
    rcases presetBuckets_spec hbuckets with ⟨rfl, rfl⟩ | ⟨rfl, hfew, hmany⟩
    · exact Or.inl ⟨_, rfl, rfl⟩
    · exact Or.inr ⟨_, buckets, rfl, hfew, hmany, rfl⟩

/-- A window reaches past the report, and back within the retention of hours. -/
theorem preset_spec (h : Window.preset range now utcOffsetMinutes = some window) :
    now < window.stop ∧ now - hourlyRetention < window.start ∧ window.stop - window.start ≤ hourlyRetention := by
  rcases preset_eq h with ⟨stop, hstop, rfl⟩ | ⟨stop, days, hstop, hfew, hmany, rfl⟩
  · simp only [hourlyRetention, day, hour] at hstop ⊢
    omega
  · have hday := localDayStart_spec now (utcOffsetMinutes * 60)
    simp only [hourlyRetention, day, hour] at hday hstop ⊢
    omega

theorem preset_edges (h : Window.preset range now utcOffsetMinutes = some window) :
    isEdge now window.start ∧ isEdge now window.stop ∧ now - dailyRetention ≤ window.start := by
  obtain ⟨hstop, hstart, hlength⟩ := preset_spec h
  simp only [isEdge, hourlyRetention, dailyRetention, day, hour] at *
  omega

theorem previous_edges (h : Window.preset range now utcOffsetMinutes = some window) :
    isEdge now (window.previous now).start ∧ isEdge now (window.previous now).stop ∧
      now - dailyRetention ≤ (window.previous now).start := by
  obtain ⟨hstop, hstart, hlength⟩ := preset_spec h
  refine ⟨?_, Or.inr (Int.le_of_lt hstart), ?_⟩
  · simp only [Window.previous, isEdge]
    split
    next => exact Or.inl (Int.mul_emod_left _ _)
    next hrecent => exact Or.inr (Int.not_lt.mp hrecent)
  · simp only [Window.previous, hourlyRetention, dailyRetention, day, hour] at *
    omega

end

end AgentDesktop
