import Pm2Manager.MetricsTimers
import Pm2Manager.ServerDates
import Pm2Manager.SweepTimestamps

/-!
# What retention keeps and removes over a run

Hourly ticks delete rows while the settings change, the clock moves and
sweeps and updates add rows.  Between any two states of a run a row which is
still young is kept, and what a tick has removed leaves no row as old behind,
however long the run goes on.
-/

namespace Pm2Manager

open Calendar

variable {config : MetricsConfig} {state next mid last : MetricsState}
variable {action : MetricsAction} {word : List MetricsAction}

/-- The second of an entry, as the client reads its timestamp. -/
def ActivityRecord.second (row : ActivityRecord) : ℤ :=
  (parseServerDate (fun _ => none) (.text row.createdAt.toList)).getD 0 / 1000

theorem RecordedAt.second_eq {row : ActivityRecord} {second : ℤ}
    (hrecorded : RecordedAt row second) : row.second = second := by
  rw [ActivityRecord.second, hrecorded.createdAt, String.toList_ofList,
    parse_datetimeText hrecorded.fourDigits, Option.getD_some]
  omega

/-- 10000-01-01, in milliseconds. -/
def yearTenThousand : ℤ := 253402300800000

/-- Each entry carries the time of a moment up to now. -/
def Dated (state : MetricsState) : Prop :=
  0 ≤ state.clock ∧ (state.clock < yearTenThousand → ∀ row ∈ state.activity,
    RecordedAt row row.second ∧ row.second * 1000 ≤ state.clock)

/-! ## The tables in one step -/

/-- Rows of this moment are added to the tables, or a tick sweeps them. -/
inductive TablesStep (config : MetricsConfig) (state next : MetricsState) : Prop
  | added (samples : MetricsTable) (entries : ActivityLog)
      (hmetrics : next.metrics = state.metrics ++ samples)
      (hactivity : next.activity = state.activity ++ entries)
      (hsamples : ∀ row ∈ samples, row.timestamp = state.clock)
      (hentries : ∀ row ∈ entries,
        row.createdAt = String.ofList (datetimeText (state.clock / 1000)))
      (hclock : state.clock ≤ next.clock)
  | swept (hnext : next = state.retain config)

def RecordsNow (stage : MetricsState.Stage) : Prop :=
  ∀ state, (stage state).clock = state.clock ∧
    ∃ added, (stage state).activity = state.activity ++ added ∧ ∀ row ∈ added,
      row.createdAt = String.ofList (datetimeText (state.clock / 1000))

theorem recordsNow_of_same {stage : MetricsState.Stage}
    (hsame : ∀ state, (stage state).clock = state.clock ∧
      (stage state).activity = state.activity) : RecordsNow stage :=
  fun state => ⟨(hsame state).1, [], by simp [(hsame state).2], by simp⟩

theorem stages_recordNow (config : MetricsConfig) (state : MetricsState)
    (call : MetricsCall) :
    ∀ stage ∈ state.stages config call, RecordsNow stage := by
  have hreschedule : ∀ stage ∈ state.rescheduleStages config, RecordsNow stage := by
    intro stage hstage
    unfold MetricsState.rescheduleStages at hstage
    split at hstage
    · rcases List.mem_pair.mp hstage with rfl | rfl <;>
        exact recordsNow_of_same fun _ => ⟨rfl, rfl⟩
    · simp at hstage
  intro stage hstage
  cases call with
  | start =>
      simp only [MetricsState.stages, MetricsState.startStages] at hstage
      split at hstage
      · simp at hstage
      · simp only [List.mem_cons, List.not_mem_nil, or_false] at hstage
        rcases hstage with rfl | rfl | rfl <;>
          exact recordsNow_of_same fun _ => ⟨rfl, rfl⟩
  | stop =>
      simp only [MetricsState.stages, MetricsState.stopStages] at hstage
      rcases List.mem_append.mp hstage with hcollect | hretention
      · split at hcollect
        · rcases List.mem_pair.mp hcollect with rfl | rfl <;>
            exact recordsNow_of_same fun _ => ⟨rfl, rfl⟩
        · simp at hcollect
      · split at hretention
        · rcases List.mem_pair.mp hretention with rfl | rfl <;>
            exact recordsNow_of_same fun _ => ⟨rfl, rfl⟩
        · simp at hretention
  | reschedule => exact hreschedule stage hstage
  | updateSettings interval retention faults username ipAddress =>
      simp only [MetricsState.stages] at hstage
      split at hstage
      · rcases MetricsState.mem_updateStages hstage with
          ⟨key, value, rfl⟩ | ⟨changes, rfl⟩ | hmem
        · exact recordsNow_of_same fun _ => ⟨rfl, rfl⟩
        · exact fun state => ⟨rfl, _, rfl, fun row hrow => by
            rw [List.mem_singleton.mp hrow]⟩
        · exact hreschedule stage hmem
      · simp at hstage

theorem runStages_recordNow {stages : List MetricsState.Stage}
    (hstages : ∀ stage ∈ stages, RecordsNow stage) :
    RecordsNow fun state => state.runStages stages := by
  intro state
  induction stages generalizing state with
  | nil => exact ⟨rfl, [], by simp [MetricsState.runStages], by simp⟩
  | cons stage rest ih =>
      obtain ⟨hclock, added, hactivity, hadded⟩ :=
        hstages stage List.mem_cons_self state
      obtain ⟨hrestClock, more, hmore, hlater⟩ := ih
        (fun other hother => hstages other (List.mem_cons_of_mem _ hother)) (stage state)
      refine ⟨hrestClock.trans hclock, added ++ more, ?_, ?_⟩
      · rw [← List.append_assoc, ← hactivity]
        exact hmore
      · intro row hrow
        rcases List.mem_append.mp hrow with hfirst | hsecond
        · exact hadded row hfirst
        · rw [hlater row hsecond, hclock]

theorem tables_step (hstep : (metricsMachine config).step state action = some next) :
    TablesStep config state next := by
  cases action with
  | call call =>
      simp only [metricsMachine, MetricsState.step, Option.some.injEq] at hstep
      subst next
      obtain ⟨hclock, entries, hactivity, hentries⟩ :=
        runStages_recordNow (stages_recordNow config state call) state
      have hmetrics := (runStages_rows state (stages_keepRows config state call)).1
      exact .added [] entries (by simpa using hmetrics) hactivity (by simp) hentries
        hclock.ge
  | tick id =>
      simp only [metricsMachine, MetricsState.step] at hstep
      obtain ⟨live, _, rfl⟩ := Option.map_eq_some_iff.mp hstep
      cases live.kind with
      | collect =>
          exact .added [] [] (by simp [MetricsState.collectOnce])
            (by simp [MetricsState.collectOnce]) (by simp) (by simp) le_rfl
      | retention => exact .swept rfl
  | listed sweep result inserted =>
      simp only [metricsMachine, MetricsState.step] at hstep
      split at hstep
      · rw [Option.some.injEq] at hstep
        subst next
        cases result with
        | error error =>
            exact .added [] [] (by simp [MetricsState.finishSweep])
              (by simp [MetricsState.finishSweep]) (by simp) (by simp) le_rfl
        | ok procs =>
            simp only [MetricsState.finishSweep]
            split
            · refine .added (procs.map fun proc => proc.record state.clock) [] rfl
                (by simp) (fun row hrow => ?_) (by simp) le_rfl
              obtain ⟨proc, _, rfl⟩ := List.mem_map.mp hrow
              rfl
            · exact .added [] [] (by simp) (by simp) (by simp) (by simp) le_rfl
      · simp at hstep
  | advance ms =>
      simp only [metricsMachine, MetricsState.step, Option.some.injEq] at hstep
      subst next
      exact .added [] [] (by simp) (by simp) (by simp) (by simp) (by simp)

theorem TablesStep.clock_le (htables : TablesStep config state next) :
    state.clock ≤ next.clock := by
  cases htables with
  | added samples entries hmetrics hactivity hsamples hentries hclock => exact hclock
  | swept hnext => exact hnext ▸ le_rfl

/-- The samples a sweep leaves. -/
theorem retain_metrics (config : MetricsConfig) (state : MetricsState) :
    (state.retain config).metrics = state.metrics.deleteOlderThan
      (state.clock - effectiveRetentionDays config state.settings * 86400000) := by
  simp only [MetricsState.retain, runRetention]
  split <;> rfl

/-- The entries a sweep leaves; no date is old enough for some settings, and the
sweep then throws. -/
theorem retain_activity (hdated : Dated state) (hclock : state.clock < yearTenThousand) :
    (state.retain config).activity =
      if max (4 * (effectiveRetentionDays config state.settings : ℤ)) 30 * 86400000 ≤
          state.clock + 8640000000000000 then
        state.activity.filter fun row => ¬ row.second <
          (state.clock -
            max (4 * (effectiveRetentionDays config state.settings : ℤ)) 30 *
              86400000) / 1000
      else state.activity := by
  have hrecorded : ∀ row ∈ state.activity, RecordedAt row row.second :=
    fun row hrow => (hdated.2 hclock row hrow).1
  simp only [MetricsState.retain]
  set days := effectiveRetentionDays config state.settings with hdaysEq
  have hdays : ((max (days * 4) minActivityRetentionDays : ℕ) : ℤ) =
      max (4 * (days : ℤ)) 30 := by
    simp [minActivityRetentionDays, mul_comm]
  split
  next hrange =>
    have hprune := prune_eq (max (days * 4) minActivityRetentionDays) hclock hrecorded
      (by rwa [hdays])
    rw [hdays] at hprune
    simp only [runRetention, ← hdaysEq, hprune]
  next hrange =>
    have hthrows := prune_throws state.activity
      (max (days * 4) minActivityRetentionDays) (by rwa [hdays])
    simp only [runRetention, ← hdaysEq, hthrows]

theorem dated_preserved :
    (metricsMachine config).Preserves Machine.anyAction Dated := by
  intro state action next hdated _ hstep
  have htables := tables_step hstep
  have hmoved := htables.clock_le
  refine ⟨hdated.1.trans hmoved, fun hnext row hrow => ?_⟩
  have hclock : state.clock < yearTenThousand := hmoved.trans_lt hnext
  cases htables with
  | added samples entries _ hactivity _ hentries _ =>
      rw [hactivity, List.mem_append] at hrow
      rcases hrow with hold | hnew
      · obtain ⟨hrecorded, hage⟩ := hdated.2 hclock row hold
        exact ⟨hrecorded, hage.trans hmoved⟩
      · have hnonneg := hdated.1
        have hrecorded : RecordedAt row (state.clock / 1000) := by
          refine ⟨hentries row hnew, by omega, ?_⟩
          unfold yearTenThousand at hclock
          omega
        rw [hrecorded.second_eq]
        exact ⟨hrecorded, by omega⟩
  | swept hswept =>
      subst next
      rw [retain_activity hdated hclock] at hrow
      split at hrow
      · exact hdated.2 hclock row (List.mem_filter.mp hrow).1
      · exact hdated.2 hclock row hrow

theorem initial_dated (settings : SettingsTable) {clock : ℤ} (hclock : 0 ≤ clock) :
    Dated (.initial settings clock) :=
  ⟨hclock, fun _ row hrow => by simp [MetricsState.initial] at hrow⟩

/-! ## Young rows -/

/-- What is younger at the moment `now` than the days it is kept; entries are
kept four times as long as samples, and never less than 30 days. -/
structure YoungKept (days : ℕ) (now : ℤ) (state last : MetricsState) : Prop where
  metrics : ∀ row ∈ state.metrics, now - days * 86400000 ≤ row.timestamp →
    row ∈ last.metrics
  activity : ∀ row ∈ state.activity,
    now - max (4 * (days : ℤ)) 30 * 86400000 ≤ row.second * 1000 → row ∈ last.activity

variable {days : ℕ} {now : ℤ}

theorem youngKept_step (hdated : Dated state)
    (hdays : days ≤ effectiveRetentionDays config state.settings)
    (hstep : (metricsMachine config).step state action = some next)
    (hnow : next.clock ≤ now) (hyear : now < yearTenThousand) :
    YoungKept days now state next := by
  cases tables_step hstep with
  | added samples entries hmetrics hactivity _ _ _ =>
      exact ⟨fun row hrow _ => hmetrics ▸ List.mem_append_left _ hrow,
        fun row hrow _ => hactivity ▸ List.mem_append_left _ hrow⟩
  | swept hswept =>
      subst next
      have hclock : state.clock ≤ now := hnow
      constructor
      · intro row hrow hyoung
        rw [retain_metrics]
        refine List.mem_filter.mpr ⟨hrow, decide_eq_true ?_⟩
        omega
      · intro row hrow hyoung
        rw [retain_activity hdated (hclock.trans_lt hyear)]
        split
        · refine List.mem_filter.mpr ⟨hrow, decide_eq_true ?_⟩
          omega
        · exact hrow

theorem clock_le_exec (hexec : (metricsMachine config).exec state word = some last) :
    state.clock ≤ last.clock := by
  have hpreserved : (metricsMachine config).Preserves Machine.anyAction
      fun other => state.clock ≤ other.clock := by
    intro other action next hle _ hstep
    exact hle.trans (tables_step hstep).clock_le
  exact hpreserved.exec_any le_rfl hexec

theorem youngKept_exec (hdated : Dated state)
    (hdays : (metricsMachine config).Along
      (fun state => days ≤ effectiveRetentionDays config state.settings) state word)
    (hexec : (metricsMachine config).exec state word = some last)
    (hnow : last.clock ≤ now) (hyear : now < yearTenThousand) :
    YoungKept days now state last := by
  induction word generalizing state with
  | nil =>
      obtain rfl := Option.some.inj hexec
      exact ⟨fun row hrow _ => hrow, fun row hrow _ => hrow⟩
  | cons action rest ih =>
      obtain ⟨next, hstep, hrest⟩ := Machine.exec_cons_inv hexec
      have hfirst := youngKept_step hdated hdays.head hstep
        ((clock_le_exec hrest).trans hnow) hyear
      have hlater := ih (dated_preserved state action next hdated trivial hstep)
        (hdays.tail hstep) hrest
      exact ⟨fun row hrow hyoung => hlater.metrics row (hfirst.metrics row hrow hyoung)
          hyoung,
        fun row hrow hyoung => hlater.activity row (hfirst.activity row hrow hyoung)
          hyoung⟩

/-- Whatever happens in between, a row of any state of a run is in every later
state for which it is younger than the retention of all these days; an entry
of the activity log is kept for 30 days under every setting. -/
theorem young_rows_kept (config : MetricsConfig) (settings : SettingsTable)
    {clock : ℤ} {before after : List MetricsAction} (days : ℕ) (hclock : 0 ≤ clock)
    (hbefore : (metricsMachine config).exec (.initial settings clock) before = some mid)
    (hafter : (metricsMachine config).exec mid after = some last)
    (hdays : (metricsMachine config).Along
      (fun state => days ≤ effectiveRetentionDays config state.settings) mid after)
    (hyear : last.clock < yearTenThousand) : YoungKept days last.clock mid last :=
  youngKept_exec (dated_preserved.exec_any (initial_dated settings hclock) hbefore)
    hdays hafter le_rfl hyear

/-- A sample is stored, the settings are updated, and an hour passes. -/
def firstHour : List MetricsAction :=
  [.call .start, .listed 0 (.ok [webSample]) true,
    .call (.updateSettings (some 60) none { interval := false, retention := false }
      (some "root") none)]

theorem young_rows_kept_firstHour :
    ∃ mid last, (metricsMachine .byDefault).exec (.initial .empty 0) firstHour =
        some mid ∧
      (metricsMachine .byDefault).exec mid [.advance 3600000, .tick 1] = some last ∧
      mid.metrics ≠ [] ∧ mid.activity ≠ [] ∧ YoungKept 7 last.clock mid last := by
  obtain ⟨mid, hbefore, htest⟩ := Machine.exists_of_exec_map
    (metricsMachine .byDefault) (.initial .empty 0) firstHour
    (fun mid => mid.metrics ≠ [] ∧ mid.activity ≠ [] ∧
      mid.settings.get keyRetention = none ∧
      ((metricsMachine .byDefault).exec mid [.advance 3600000, .tick 1]).map
        (fun last => decide (last.clock < yearTenThousand)) = some true)
    (by decide +kernel)
  obtain ⟨hmetrics, hactivity, hunset, hrun⟩ := of_decide_eq_true htest
  obtain ⟨last, hafter, hyear⟩ := Machine.exists_of_exec_map
    (metricsMachine .byDefault) mid _ _ hrun
  refine ⟨mid, last, hbefore, hafter, hmetrics, hactivity,
    young_rows_kept .byDefault .empty 7 le_rfl hbefore hafter ?_
      (of_decide_eq_true hyear)⟩
  have hquiet : (metricsMachine .byDefault).Preserves
      (fun _ action => ∀ call, action ≠ .call call)
      fun state => state.settings.get keyRetention = none := by
    intro state action next hsettings hcall hstep
    rw [(step_frame hstep hcall).2.2.2.2.1]
    exact hsettings
  have halong : Machine.Along (metricsMachine .byDefault) _ mid
      [.advance 3600000, .tick 1] :=
    hquiet.along hunset ⟨by simp, fun _ _ => ⟨by simp, fun _ _ => trivial⟩⟩
  intro first rest state hsplit hexec
  have hsettings := halong first rest state hsplit hexec
  simp only [effectiveRetentionDays, numberSetting, hsettings, toNumberOr]
  decide

/-! ## Swept rows -/

/-- No row of the tables is older than a sweep at the moment `now` leaves. -/
structure SweptAt (days : ℕ) (now : ℤ) (state : MetricsState) : Prop where
  clock : now ≤ state.clock
  metrics : ∀ row ∈ state.metrics, now - days * 86400000 ≤ row.timestamp
  activity : max (4 * (days : ℤ)) 30 * 86400000 ≤ now + 8640000000000000 →
    state.clock < yearTenThousand → ∀ row ∈ state.activity,
      (now - max (4 * (days : ℤ)) 30 * 86400000) / 1000 ≤ row.second

theorem sweptAt_retain (hdated : Dated state) :
    SweptAt (effectiveRetentionDays config state.settings) state.clock
      (state.retain config) where
  clock := le_rfl
  metrics := by
    intro row hrow
    rw [retain_metrics] at hrow
    simpa using (List.mem_filter.mp hrow).2
  activity := by
    intro hrange hclock row hrow
    rw [retain_activity hdated hclock, if_pos hrange] at hrow
    simpa using (List.mem_filter.mp hrow).2

theorem sweptAt_preserved (days : ℕ) (now : ℤ) :
    (metricsMachine config).Preserves Machine.anyAction
      fun state => Dated state ∧ SweptAt days now state := by
  rintro state action next ⟨hdated, hswept⟩ _ hstep
  have hnext := dated_preserved state action next hdated trivial hstep
  have htables := tables_step hstep
  have hmoved := htables.clock_le
  refine ⟨hnext, hswept.clock.trans hmoved, ?_, ?_⟩
  · intro row hrow
    cases htables with
    | added samples entries hmetrics _ hsamples _ _ =>
        rw [hmetrics, List.mem_append] at hrow
        rcases hrow with hold | hnew
        · exact hswept.metrics row hold
        · have hclock := hswept.clock
          rw [hsamples row hnew]
          omega
    | swept hretain =>
        rw [hretain, retain_metrics] at hrow
        exact hswept.metrics row (List.mem_filter.mp hrow).1
  · intro hrange hyear row hrow
    have hstateYear : state.clock < yearTenThousand := hmoved.trans_lt hyear
    have hold := hswept.activity hrange hstateYear
    cases htables with
    | added samples entries _ hactivity _ hentries _ =>
        have hrecorded := (hnext.2 hyear row hrow).1
        rw [hactivity, List.mem_append] at hrow
        rcases hrow with hkept | hnew
        · exact hold row hkept
        · have hclock := hswept.clock
          have hnonneg := hdated.1
          have hsecond : RecordedAt row (state.clock / 1000) := by
            refine ⟨hentries row hnew, by omega, ?_⟩
            unfold yearTenThousand at hstateYear
            omega
          rw [hsecond.second_eq]
          omega
    | swept hretain =>
        subst next
        rw [retain_activity hdated hstateYear] at hrow
        split at hrow
        · exact hold row (List.mem_filter.mp hrow).1
        · exact hold row hrow

/-- After a tick of the retention interval no state of the run has a row older
than what this tick leaves. -/
theorem swept_rows_stay_out (config : MetricsConfig) (settings : SettingsTable)
    {clock : ℤ} {before after : List MetricsAction} {id : TimerId} {delay : ℕ}
    (hclock : 0 ≤ clock)
    (hbefore : (metricsMachine config).exec (.initial settings clock) before = some mid)
    (hlive : mid.intervals.find? (fun live => live.id = id) =
      some { id, kind := .retention, delay })
    (hafter : (metricsMachine config).exec mid (.tick id :: after) = some last) :
    SweptAt (effectiveRetentionDays config mid.settings) mid.clock last := by
  obtain ⟨next, hstep, hrest⟩ := Machine.exec_cons_inv hafter
  have hdated := dated_preserved.exec_any (initial_dated settings hclock) hbefore
  have hretain : next = mid.retain config := by
    simp only [metricsMachine, MetricsState.step, hlive, Option.map_some,
      Option.some.injEq] at hstep
    exact hstep.symm
  have hnext := dated_preserved mid (.tick id) next hdated trivial hstep
  subst next
  exact ((sweptAt_preserved _ _).exec_any ⟨hnext, sweptAt_retain hdated⟩ hrest).2

/-- The tick comes 40 days after the sample and the settings update, whose rows
it removes; a sweep stores another sample after it. -/
theorem swept_rows_stay_out_firstHour :
    ∃ mid last, (metricsMachine .byDefault).exec (.initial .empty 0)
        (firstHour ++ [.advance 3456000000]) = some mid ∧
      mid.metrics.map MetricRecord.timestamp = [0] ∧ mid.activity.length = 1 ∧
      (metricsMachine .byDefault).exec mid
        [.tick 1, .tick 2, .listed 1 (.ok [webSample]) true] = some last ∧
      last.metrics.map MetricRecord.timestamp = [3456000000] ∧ last.activity = [] ∧
      SweptAt 7 mid.clock last := by
  obtain ⟨mid, hbefore, htest⟩ := Machine.exists_of_exec_map
    (metricsMachine .byDefault) (.initial .empty 0) (firstHour ++ [.advance 3456000000])
    (fun mid => (effectiveRetentionDays .byDefault mid.settings = 7 ∧
      mid.intervals.find? (fun live => live.id = 1) =
        some { id := 1, kind := .retention, delay := 3600000 }) ∧
      (mid.metrics.map MetricRecord.timestamp = [0] ∧ mid.activity.length = 1) ∧
      ((metricsMachine .byDefault).exec mid
        [.tick 1, .tick 2, .listed 1 (.ok [webSample]) true]).any fun last =>
          last.metrics.map MetricRecord.timestamp = [3456000000] ∧ last.activity = [])
    (by decide +kernel)
  obtain ⟨⟨hdays, hlive⟩, ⟨hmetrics, hactivity⟩, hrun⟩ := of_decide_eq_true htest
  obtain ⟨last, hafter, hlast⟩ := (Option.any_eq_true _ _).mp hrun
  obtain ⟨hstored, hgone⟩ := of_decide_eq_true hlast
  refine ⟨mid, last, hbefore, hmetrics, hactivity, hafter, hstored, hgone, ?_⟩
  rw [← hdays]
  exact swept_rows_stay_out .byDefault .empty le_rfl hbefore hlive hafter

end Pm2Manager
