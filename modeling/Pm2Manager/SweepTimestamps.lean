import Pm2Manager.MetricsService

/-!
# Timestamps of sweeps

The aggregate query takes a timestamp for a sweep.  A sweep reads the clock
after its await, so two outstanding sweeps may write rows in one millisecond;
as long as they do not, each inner group of the query is one sweep.
-/

namespace Pm2Manager

open Grouping

variable {config : MetricsConfig} {state next start last : MetricsState}
variable {action : MetricsAction} {word : List MetricsAction}
variable {stored : List StoredSweep} {sweep : StoredSweep}

namespace StoredSweep

def cpu (sweep : StoredSweep) : ℚ :=
  (sweep.rows.map MetricRecord.cpu).sum

def memory (sweep : StoredSweep) : ℚ :=
  (sweep.rows.map fun row => (row.memory : ℚ)).sum

/-- The sweep lies in a bucket of a window. -/
def InBucket (sweep : StoredSweep) (since upper key : ℤ) : Prop :=
  since ≤ sweep.timestamp ∧ sweep.timestamp ≤ upper ∧
    bucketOf (bucketMsFor since upper) sweep.timestamp = key

end StoredSweep

/-- A timestamp names one sweep, and the aggregate counts each sweep once. -/
structure SweepsApart (state : MetricsState) : Prop where
  distinct : state.stored.Pairwise fun sweep other =>
    sweep.timestamp ≠ other.timestamp
  oneSweep : ∀ since upper, ∀ total ∈ state.metrics.sampleTotals since upper,
    ∃ sweep ∈ state.stored, total = (sweep.timestamp, sweep.cpu, sweep.memory)
  bounded : ∀ since upper, ∀ entry ∈ state.metrics.aggregateBuckets since upper,
    (∃ sweep ∈ state.stored, sweep.InBucket since upper entry.1 ∧
      entry.2.cpu ≤ sweep.cpu) ∧
    ∃ sweep ∈ state.stored, sweep.InBucket since upper entry.1 ∧
      entry.2.memory ≤ sweep.memory

/-- A sweep is about to write rows in a millisecond in which another one has. -/
def SharesTimestamp (state : MetricsState) : MetricsAction → Prop
  | .listed _ (.ok procs) inserted =>
      inserted = true ∧ procs ≠ [] ∧
        ∃ sweep ∈ state.stored, sweep.timestamp = state.clock
  | _ => False

instance (state : MetricsState) (action : MetricsAction) :
    Decidable (SharesTimestamp state action) :=
  match action with
  | .listed _ (.ok procs) inserted =>
      inferInstanceAs (Decidable (inserted = true ∧ procs ≠ [] ∧
        ∃ sweep ∈ state.stored, sweep.timestamp = state.clock))
  | .listed _ (.error _) _ | .call _ | .tick _ | .advance _ =>
      inferInstanceAs (Decidable False)

/-- The table holds the rows of the recorded sweeps, the old ones deleted. -/
structure SweepsRecorded (state : MetricsState) : Prop where
  sameTimestamp : ∀ sweep ∈ state.stored, ∀ row ∈ sweep.rows,
    row.timestamp = sweep.timestamp
  table : ∃ floor ≤ state.clock, state.metrics =
    (state.stored.flatMap StoredSweep.rows).filter fun row => floor ≤ row.timestamp

/-! ## Sums of one sweep -/

theorem rows_at_timestamp (hrows : ∀ sweep ∈ stored, ∀ row ∈ sweep.rows,
      row.timestamp = sweep.timestamp)
    (hdistinct : stored.Pairwise fun sweep other =>
      sweep.timestamp ≠ other.timestamp) (hsweep : sweep ∈ stored) :
    (stored.flatMap StoredSweep.rows).filter
      (fun row => row.timestamp = sweep.timestamp) = sweep.rows := by
  induction stored with
  | nil => simp at hsweep
  | cons first rest ih =>
      rw [List.pairwise_cons] at hdistinct
      have hfirst := hrows first List.mem_cons_self
      have hrest : ∀ other ∈ rest, ∀ row ∈ other.rows,
          row.timestamp = other.timestamp := fun other hother =>
        hrows other (List.mem_cons_of_mem _ hother)
      rw [List.flatMap_cons, List.filter_append]
      rcases List.mem_cons.mp hsweep with rfl | hlater
      · have hall : sweep.rows.filter
            (fun row => row.timestamp = sweep.timestamp) = sweep.rows :=
          List.filter_eq_self.mpr (by simpa using hfirst)
        have hnone : (rest.flatMap StoredSweep.rows).filter
            (fun row => row.timestamp = sweep.timestamp) = [] := by
          refine List.filter_eq_nil_iff.mpr fun row hrow => ?_
          obtain ⟨other, hother, hmem⟩ := List.mem_flatMap.mp hrow
          rw [decide_eq_true_eq, hrest other hother row hmem]
          exact (hdistinct.1 other hother).symm
        rw [hall, hnone, List.append_nil]
      · have hnone : first.rows.filter
            (fun row => row.timestamp = sweep.timestamp) = [] := by
          refine List.filter_eq_nil_iff.mpr fun row hrow => ?_
          rw [decide_eq_true_eq, hfirst row hrow]
          exact hdistinct.1 sweep hlater
        rw [hnone, List.nil_append]
        exact ih hrest hdistinct.2 hlater

/-- The rows of the window with one timestamp are those of one sweep. -/
theorem group_eq_sweep (hrecorded : SweepsRecorded state)
    (hdistinct : state.stored.Pairwise fun sweep other =>
      sweep.timestamp ≠ other.timestamp) {since upper timestamp : ℤ}
    (hkey : timestamp ∈ keys MetricRecord.timestamp (state.metrics.window since upper)) :
    ∃ sweep ∈ state.stored, sweep.timestamp = timestamp ∧
      since ≤ timestamp ∧ timestamp ≤ upper ∧
      group MetricRecord.timestamp (state.metrics.window since upper) timestamp =
        sweep.rows := by
  obtain ⟨floor, _, htable⟩ := hrecorded.table
  obtain ⟨row, hrow, rfl⟩ := mem_keys.mp hkey
  rw [MetricsTable.window, htable] at hrow
  simp only [List.mem_filter, decide_eq_true_eq] at hrow
  obtain ⟨⟨hstored, hfloor⟩, hsince, hupper⟩ := hrow
  obtain ⟨sweep, hsweep, hmem⟩ := List.mem_flatMap.mp hstored
  have htimestamp := hrecorded.sameTimestamp sweep hsweep row hmem
  rw [htimestamp] at hfloor hsince hupper ⊢
  refine ⟨sweep, hsweep, rfl, hsince, hupper, ?_⟩
  have hchecks : ∀ other : MetricRecord,
      (decide (other.timestamp = sweep.timestamp) &&
        decide (since ≤ other.timestamp ∧ other.timestamp ≤ upper) &&
          decide (floor ≤ other.timestamp)) =
        decide (other.timestamp = sweep.timestamp) := by
    intro other
    by_cases hsame : other.timestamp = sweep.timestamp
    · simp [hsame, hfloor, hsince, hupper]
    · simp [hsame]
  rw [group, MetricsTable.window, htable, List.filter_filter, List.filter_filter]
  simp only [hchecks]
  exact rows_at_timestamp hrecorded.sameTimestamp hdistinct hsweep

theorem total_eq_sweep (hrecorded : SweepsRecorded state)
    (hdistinct : state.stored.Pairwise fun sweep other =>
      sweep.timestamp ≠ other.timestamp) {since upper : ℤ} {total : ℤ × ℚ × ℚ}
    (htotal : total ∈ state.metrics.sampleTotals since upper) :
    ∃ sweep ∈ state.stored, since ≤ sweep.timestamp ∧ sweep.timestamp ≤ upper ∧
      total = (sweep.timestamp, sweep.cpu, sweep.memory) := by
  obtain ⟨entry, hentry, rfl⟩ := List.mem_map.mp htotal
  obtain ⟨hkey, hgroup⟩ := mem_groupBy.mp hentry
  obtain ⟨sweep, hsweep, htimestamp, hsince, hupper, hrows⟩ :=
    group_eq_sweep hrecorded hdistinct hkey
  refine ⟨sweep, hsweep, htimestamp ▸ hsince, htimestamp ▸ hupper, ?_⟩
  rw [hgroup, hrows, htimestamp]
  rfl

/-- An average of sums is at most one of them. -/
theorem bucket_le_sweep (hrecorded : SweepsRecorded state)
    (hdistinct : state.stored.Pairwise fun sweep other =>
      sweep.timestamp ≠ other.timestamp) {since upper : ℤ}
    (value : ℤ × ℚ × ℚ → ℚ) {key : ℤ}
    (hkey : key ∈ keys (fun total : ℤ × ℚ × ℚ =>
      bucketOf (bucketMsFor since upper) total.1)
        (state.metrics.sampleTotals since upper)) :
    ∃ sweep ∈ state.stored, sweep.InBucket since upper key ∧
      average ((group (fun total : ℤ × ℚ × ℚ =>
        bucketOf (bucketMsFor since upper) total.1)
          (state.metrics.sampleTotals since upper) key).map value) ≤
        value (sweep.timestamp, sweep.cpu, sweep.memory) := by
  have hne := (List.map_eq_nil_iff (f := value)).not.mpr (group_ne_nil hkey)
  obtain ⟨_, hvalue, hle⟩ := exists_average_le hne
  obtain ⟨total, htotal, rfl⟩ := List.mem_map.mp hvalue
  obtain ⟨hmem, hbucket⟩ := mem_group.mp htotal
  obtain ⟨sweep, hsweep, hsince, hupper, rfl⟩ := total_eq_sweep hrecorded hdistinct hmem
  exact ⟨sweep, hsweep, ⟨hsince, hupper, hbucket⟩, hle⟩

theorem sweepsApart_iff_distinct (hrecorded : SweepsRecorded state) :
    SweepsApart state ↔ state.stored.Pairwise fun sweep other =>
      sweep.timestamp ≠ other.timestamp := by
  refine ⟨SweepsApart.distinct, fun hdistinct => ⟨hdistinct, ?_, ?_⟩⟩
  · intro since upper total htotal
    obtain ⟨sweep, hsweep, _, _, heq⟩ := total_eq_sweep hrecorded hdistinct htotal
    exact ⟨sweep, hsweep, heq⟩
  · intro since upper entry hentry
    obtain ⟨bucket, hbucket, rfl⟩ := List.mem_map.mp hentry
    obtain ⟨hkey, hgroup⟩ := mem_groupBy.mp hbucket
    simp only [MetricsTable.aggregatePoint, hgroup]
    exact ⟨bucket_le_sweep hrecorded hdistinct (fun total => total.2.1) hkey,
      bucket_le_sweep hrecorded hdistinct (fun total => total.2.2) hkey⟩

/-! ## Steps -/

/-- A step with respect to the rows: a sweep is stored, old rows are deleted,
or nothing happens to them. -/
inductive RowsStep (state : MetricsState) (action : MetricsAction)
    (next : MetricsState) : Prop
  | same (hmetrics : next.metrics = state.metrics) (hstored : next.stored = state.stored)
      (hclock : state.clock ≤ next.clock) (hfree : ¬ SharesTimestamp state action)
  | deleted (cutoff : ℤ) (hcutoff : cutoff ≤ state.clock)
      (hmetrics : next.metrics = state.metrics.deleteOlderThan cutoff)
      (hstored : next.stored = state.stored) (hclock : state.clock ≤ next.clock)
      (hfree : ¬ SharesTimestamp state action)
  | stored (id : SweepId) (procs : List ProcessSample)
      (hmetrics : next.metrics =
        state.metrics ++ procs.map fun proc => proc.record state.clock)
      (hstored : next.stored = state.stored ++ [{
        id := id
        timestamp := state.clock
        rows := procs.map fun proc => proc.record state.clock }])
      (hclock : next.clock = state.clock)
      (hshares : SharesTimestamp state action ↔
        ∃ sweep ∈ state.stored, sweep.timestamp = state.clock)

def KeepsRows (stage : MetricsState.Stage) : Prop :=
  ∀ state, (stage state).metrics = state.metrics ∧
    (stage state).stored = state.stored ∧ (stage state).clock = state.clock

theorem runStages_rows {stages : List MetricsState.Stage} (state : MetricsState)
    (hkeep : ∀ stage ∈ stages, KeepsRows stage) :
    (state.runStages stages).metrics = state.metrics ∧
      (state.runStages stages).stored = state.stored ∧
      (state.runStages stages).clock = state.clock := by
  induction stages generalizing state with
  | nil => exact ⟨rfl, rfl, rfl⟩
  | cons stage rest ih =>
      obtain ⟨hmetrics, hstored, hclock⟩ := hkeep stage List.mem_cons_self state
      obtain ⟨hrestMetrics, hrestStored, hrestClock⟩ := ih (stage state)
        fun other hother => hkeep other (List.mem_cons_of_mem _ hother)
      exact ⟨hrestMetrics.trans hmetrics, hrestStored.trans hstored,
        hrestClock.trans hclock⟩

/-- No stage of a call touches the rows or the clock. -/
theorem stages_keepRows (config : MetricsConfig) (state : MetricsState)
    (call : MetricsCall) :
    ∀ stage ∈ state.stages config call, KeepsRows stage := by
  have hreschedule : ∀ stage ∈ state.rescheduleStages config, KeepsRows stage := by
    intro stage hstage
    unfold MetricsState.rescheduleStages at hstage
    split at hstage
    · rcases List.mem_pair.mp hstage with rfl | rfl <;> exact fun _ => ⟨rfl, rfl, rfl⟩
    · simp at hstage
  intro stage hstage
  cases call with
  | start =>
      simp only [MetricsState.stages, MetricsState.startStages] at hstage
      split at hstage
      · simp at hstage
      · simp only [List.mem_cons, List.not_mem_nil, or_false] at hstage
        rcases hstage with rfl | rfl | rfl <;> exact fun _ => ⟨rfl, rfl, rfl⟩
  | stop =>
      simp only [MetricsState.stages, MetricsState.stopStages] at hstage
      rcases List.mem_append.mp hstage with hcollect | hretention
      · split at hcollect
        · rcases List.mem_pair.mp hcollect with rfl | rfl <;>
            exact fun _ => ⟨rfl, rfl, rfl⟩
        · simp at hcollect
      · split at hretention
        · rcases List.mem_pair.mp hretention with rfl | rfl <;>
            exact fun _ => ⟨rfl, rfl, rfl⟩
        · simp at hretention
  | reschedule => exact hreschedule stage hstage
  | updateSettings interval retention faults username ipAddress =>
      simp only [MetricsState.stages] at hstage
      split at hstage
      · rcases MetricsState.mem_updateStages hstage with
          ⟨key, value, rfl⟩ | ⟨changes, rfl⟩ | hmem
        · exact fun _ => ⟨rfl, rfl, rfl⟩
        · exact fun _ => ⟨rfl, rfl, rfl⟩
        · exact hreschedule stage hmem
      · simp at hstage

theorem metricRows_step (hstep : state.step config action = some next) :
    RowsStep state action next := by
  cases action with
  | call call =>
      simp only [MetricsState.step, Option.some.injEq] at hstep
      subst next
      obtain ⟨hmetrics, hstored, hclock⟩ :=
        runStages_rows state (stages_keepRows config state call)
      exact .same hmetrics hstored hclock.ge (by simp [SharesTimestamp])
  | tick id =>
      simp only [MetricsState.step] at hstep
      obtain ⟨live, _, rfl⟩ := Option.map_eq_some_iff.mp hstep
      cases live.kind with
      | collect => exact .same rfl rfl le_rfl (by simp [SharesTimestamp])
      | retention =>
          refine .deleted (state.clock -
            effectiveRetentionDays config state.settings * dayMs) ?_ ?_ rfl le_rfl
            (by simp [SharesTimestamp])
          · have hnonneg : (0 : ℤ) ≤
                effectiveRetentionDays config state.settings * dayMs := by positivity
            omega
          · simp only [MetricsState.retain, runRetention]
            split <;> rfl
  | listed sweep result inserted =>
      simp only [MetricsState.step] at hstep
      split at hstep
      · rw [Option.some.injEq] at hstep
        subst next
        cases result with
        | error _ => exact .same rfl rfl le_rfl (by simp [SharesTimestamp])
        | ok procs =>
            simp only [MetricsState.finishSweep]
            split
            next hinserted =>
              have hprocs : procs ≠ [] := by simpa using hinserted.2
              exact .stored sweep procs rfl rfl rfl
                (by simp [SharesTimestamp, hinserted.1, hprocs])
            next hnot =>
              refine .same rfl rfl le_rfl ?_
              rintro ⟨hinserted, hprocs, _⟩
              exact hnot ⟨hinserted, by simpa using hprocs⟩
      · simp at hstep
  | advance ms =>
      simp only [MetricsState.step, Option.some.injEq] at hstep
      subst next
      exact .same rfl rfl (by simp) (by simp [SharesTimestamp])

theorem SweepsRecorded.deleted (hrecorded : SweepsRecorded state) {cutoff : ℤ}
    (hcutoff : cutoff ≤ state.clock)
    (hmetrics : next.metrics = state.metrics.deleteOlderThan cutoff)
    (hstored : next.stored = state.stored) (hclock : state.clock ≤ next.clock) :
    SweepsRecorded next where
  sameTimestamp := hstored ▸ hrecorded.sameTimestamp
  table := by
    obtain ⟨floor, hfloor, htable⟩ := hrecorded.table
    refine ⟨max cutoff floor, (max_le hcutoff hfloor).trans hclock, ?_⟩
    rw [hmetrics, hstored, htable, MetricsTable.deleteOlderThan, List.filter_filter]
    simp [not_lt, Bool.decide_and]

theorem SweepsRecorded.inserted (hrecorded : SweepsRecorded state) {id : SweepId}
    {procs : List ProcessSample}
    (hmetrics : next.metrics =
      state.metrics ++ procs.map fun proc => proc.record state.clock)
    (hstored : next.stored = state.stored ++ [{
      id := id
      timestamp := state.clock
      rows := procs.map fun proc => proc.record state.clock }])
    (hclock : next.clock = state.clock) : SweepsRecorded next where
  sameTimestamp := by
    intro sweep hsweep row hrow
    rw [hstored, List.mem_append, List.mem_singleton] at hsweep
    rcases hsweep with hold | rfl
    · exact hrecorded.sameTimestamp sweep hold row hrow
    · obtain ⟨proc, _, rfl⟩ := List.mem_map.mp hrow
      rfl
  table := by
    obtain ⟨floor, hfloor, htable⟩ := hrecorded.table
    refine ⟨floor, hclock ▸ hfloor, ?_⟩
    have hnew : (procs.map fun proc => proc.record state.clock).filter
        (fun row => floor ≤ row.timestamp) =
          procs.map fun proc => proc.record state.clock := by
      refine List.filter_eq_self.mpr fun row hrow => ?_
      obtain ⟨proc, _, rfl⟩ := List.mem_map.mp hrow
      exact decide_eq_true hfloor
    rw [hmetrics, hstored, htable, List.flatMap_append, List.filter_append]
    simp only [List.flatMap_cons, List.flatMap_nil, List.append_nil, hnew]

theorem sweepsRecorded_preserved :
    (metricsMachine config).Preserves Machine.anyAction SweepsRecorded := by
  intro state action next hrecorded _ hstep
  cases metricRows_step hstep with
  | same hmetrics hstored hclock _ =>
      obtain ⟨floor, hfloor, htable⟩ := hrecorded.table
      refine ⟨hstored ▸ hrecorded.sameTimestamp, floor, hfloor.trans hclock, ?_⟩
      rw [hmetrics, hstored, htable]
  | deleted cutoff hcutoff hmetrics hstored hclock _ =>
      exact hrecorded.deleted hcutoff hmetrics hstored hclock
  | stored id procs hmetrics hstored hclock _ =>
      exact hrecorded.inserted hmetrics hstored hclock

/-- A step keeps the sweeps apart exactly when it shares no timestamp. -/
theorem sweepsApart_step (hrecorded : SweepsRecorded state)
    (hapart : SweepsApart state)
    (hstep : (metricsMachine config).step state action = some next) :
    SweepsApart next ↔ ¬ SharesTimestamp state action := by
  have hnext := sweepsRecorded_preserved state action next hrecorded trivial hstep
  rw [sweepsApart_iff_distinct hnext]
  cases metricRows_step hstep with
  | same _ hstored _ hfree =>
      rw [hstored]
      exact iff_of_true hapart.distinct hfree
  | deleted _ _ _ hstored _ hfree =>
      rw [hstored]
      exact iff_of_true hapart.distinct hfree
  | stored id procs _ hstored _ hshares =>
      rw [hshares, hstored, List.pairwise_append]
      simp [hapart.distinct]

/-- Between any two states of a run, started with a table of whole sweeps. -/
theorem sweepsApart_iff_clock_moved (config : MetricsConfig)
    (start last : MetricsState) (word : List MetricsAction)
    (hrecorded : SweepsRecorded start)
    (hdistinct : start.stored.Pairwise fun sweep other =>
      sweep.timestamp ≠ other.timestamp)
    (hexec : (metricsMachine config).exec start word = some last) :
    (metricsMachine config).Along SweepsApart start word ↔
      (metricsMachine config).Admits
        (fun state action => ¬ SharesTimestamp state action) start word :=
  Machine.along_iff_admits sweepsRecorded_preserved
    (fun _ _ _ hrecorded hapart _ hok hstep =>
      (sweepsApart_step hrecorded hapart hstep).mpr hok)
    (fun _ _ _ hrecorded hapart _ hshares hstep hstill =>
      hshares ((sweepsApart_step hrecorded hapart hstep).mp hstill))
    hrecorded ((sweepsApart_iff_distinct hrecorded).mpr hdistinct)
    (Machine.admits_anyAction _ _) hexec

def webSample : ProcessSample where
  pmId := 0
  name := "web"
  status := "online"
  cpu := 40
  memory := 1024
  uptime := 0
  restartCount := 0

/-- A second sweep begins while the first one waits for the list, and is
answered the given time after it. -/
def overlappingSweeps (between : ℕ) : List MetricsAction :=
  [.call .start, .advance 15000, .tick 0, .listed 0 (.ok [webSample]) true,
    .advance between, .listed 1 (.ok [webSample]) true]

theorem initial_sweepsRecorded (settings : SettingsTable) (clock : ℤ) :
    SweepsRecorded (.initial settings clock) where
  sameTimestamp := by simp [MetricsState.initial]
  table := ⟨clock, le_rfl, rfl⟩

theorem sweepsApart_one_ms_later :
    (metricsMachine .byDefault).Along SweepsApart (.initial .empty 0)
      (overlappingSweeps 1) := by
  obtain ⟨last, hexec, _⟩ := Machine.exists_of_exec_map (metricsMachine .byDefault)
    (.initial .empty 0) (overlappingSweeps 1) (fun _ => true) (by decide +kernel)
  refine (sweepsApart_iff_clock_moved .byDefault (.initial .empty 0) last
    (overlappingSweeps 1) (initial_sweepsRecorded _ _) .nil hexec).mpr ?_
  exact Machine.admits_of_checks sweepsRecorded_preserved
    (fun _ _ _ (hcheck : decide (¬ SharesTimestamp _ _) = true) =>
      of_decide_eq_true hcheck) (initial_sweepsRecorded _ _)
    (by decide +kernel)

/-- Both sweeps are answered in one millisecond, and the chart shows 80 for a
process which used 40. -/
theorem sweeps_share_timestamp :
    ∃ last, (metricsMachine .byDefault).exec (.initial .empty 0)
        (overlappingSweeps 0) = some last ∧
      last.stored.map StoredSweep.timestamp = [15000, 15000] ∧
      last.stored.map StoredSweep.cpu = [40, 40] ∧
      (last.metrics.aggregateSeries 0 (some 20000) 20000).map AggregatePoint.cpu =
        [80] ∧
      ¬ SweepsApart last := by
  obtain ⟨last, hexec, htest⟩ := Machine.exists_of_exec_map
    (metricsMachine .byDefault) (.initial .empty 0) (overlappingSweeps 0)
    (fun last => last.stored.map StoredSweep.timestamp = [15000, 15000] ∧
      last.stored.map StoredSweep.cpu = [40, 40] ∧
      (last.metrics.aggregateSeries 0 (some 20000) 20000).map AggregatePoint.cpu =
        [80]) (by decide +kernel)
  obtain ⟨htimestamps, hcpu, hchart⟩ := of_decide_eq_true htest
  refine ⟨last, hexec, htimestamps, hcpu, hchart, fun hapart => ?_⟩
  have hdistinct : (last.stored.map StoredSweep.timestamp).Pairwise (· ≠ ·) :=
    List.pairwise_map.mpr hapart.distinct
  rw [htimestamps] at hdistinct
  simp at hdistinct

end Pm2Manager
