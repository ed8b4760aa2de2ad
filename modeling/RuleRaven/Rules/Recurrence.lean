import RuleRaven.Controller.Scenario

namespace RuleRaven.Kube

/-- An Event with the time of its series, which the normalizer does not read. -/
structure RecordedEvent extends Event where
  seriesLastObserved : Option Time := none

namespace RecordedEvent

variable (o : RecordedEvent)

/-- The times at which the object says that it occurred. An unset time says nothing. -/
def occurrences : List Time :=
  ([o.eventTime, o.lastTimestamp] ++ o.seriesLastObserved.toList).filter fun t => !t.isZero

/-- The one that the normalizer takes. -/
def lastObserved : Time := if o.eventTime.isZero then o.lastTimestamp else o.eventTime

end RecordedEvent

end RuleRaven.Kube

namespace RuleRaven.Rules

open Framework Kube

/-- When the engine takes an Event for quiet. -/
theorem eventIsQuiet_iff (e : Engine) (now : Time) (n : Normalizer) (o : RecordedEvent)
    (observedAt : Time) :
    e.eventIsQuiet now (n.normalizeEvent o.toEvent observedAt) = true ↔
      0 < e.options.eventQuietPeriod ∧ o.lastObserved ≠ 0 ∧
        o.lastObserved.add e.options.eventQuietPeriod ≤ now := by
  change (if e.options.eventQuietPeriod ≤ 0 || o.lastObserved.isZero then false
    else !decide (now < o.lastObserved.add e.options.eventQuietPeriod)) = true ↔ _
  by_cases hperiod : e.options.eventQuietPeriod ≤ 0
  · simp [hperiod, Int64.not_lt.mpr hperiod]
  · by_cases hzero : o.lastObserved = 0
    · simp [hzero, Time.isZero]
    · simp [hperiod, hzero, Time.isZero, Int64.not_le.mp hperiod]

/-- A quiet Event has not occurred for the quiet period at any clock exactly when none of its
times is later than the one that the normalizer takes, or it never counts as quiet. -/
theorem quiet_exact_iff (e : Engine) (n : Normalizer) (o : RecordedEvent) (observedAt : Time) :
    (∀ now, e.eventIsQuiet now (n.normalizeEvent o.toEvent observedAt) = true →
      ∀ t ∈ o.occurrences, t.add e.options.eventQuietPeriod ≤ now) ↔
    e.options.eventQuietPeriod ≤ 0 ∨ o.lastObserved = 0 ∨
      ∀ t ∈ o.occurrences, t ≤ o.lastObserved := by
  simp only [eventIsQuiet_iff]
  constructor
  · intro h
    by_cases hperiod : e.options.eventQuietPeriod ≤ 0
    · exact .inl hperiod
    · by_cases hzero : o.lastObserved = 0
      · exact .inr (.inl hzero)
      · -- the first clock at which the engine takes the Event for quiet
        refine .inr (.inr fun t ht => ?_)
        have hnow := h (o.lastObserved.add e.options.eventQuietPeriod)
          ⟨Int64.not_le.mp hperiod, hzero, le_refl _⟩ t ht
        exact le_of_add_le_add_right hnow
  · rintro h now ⟨hperiod, hzero, hnow⟩ t ht
    rcases h with h | h | h
    · exact absurd hperiod (Int64.not_lt.mpr h)
    · exact absurd h hzero
    · exact le_trans (add_le_add_left (h t ht) _) hnow

section Example

open Controller.Scenario

/-- A Warning that first occurred at noon and has gone on for an hour, as its series tells. -/
def recurring : RecordedEvent where
  metadata := metadata
  type := "Warning"
  reason := "FailedMount"
  count := 60
  eventTime := noon
  seriesLastObserved := some (noon + 3599000000000)

def halfHourEngine : Engine := newEngine
  { crashLoopRestartThreshold := 3, crashLoopCriticalThreshold := 10, minimumAge := 0,
    eventQuietPeriod := 1800000000000 }

/-- Its open incident. -/
def openIncident : Incident :=
  { id := "i", key := "k", clusterID := "c",
    source := { clusterID := "c", kind := "Event", «namespace» := "ns", name := "n", uid := "u" },
    status := .open, openedAt := noon, updatedAt := noon, version := 1 }

/-- The Event as it is seen an hour after noon. -/
def recurringSnapshot : Snapshot :=
  Normalizer.normalizeEvent { clusterID := "c", allowedLabels := [], maxBytes := 4096 }
    recurring.toEvent (noon + 3600000000000)

/-- The incident is resolved a second after the Event last occurred. -/
theorem recurring_resolved :
    recurring.type = "Warning" ∧ recurring.reason ∈ semanticWarningReasons ∧
      halfHourEngine.eventIsQuiet (noon + 3600000000000) recurringSnapshot = true ∧
      halfHourEngine.evaluate (noon + 3600000000000) recurringSnapshot (some openIncident) =
        Engine.recoveredResult ∧
      noon + 3599000000000 ∈ recurring.occurrences ∧
      ¬Time.add (noon + 3599000000000) halfHourEngine.options.eventQuietPeriod ≤
        noon + 3600000000000 := by
  decide +kernel

end Example

end RuleRaven.Rules
