import Pm2Manager.Machine
import Pm2Manager.Retention

/-!
# The metrics service

The collector with its two intervals, the sweeps which wait for the process
list, and the settings update which reschedules it.  A call is a list of
stages, the statements which change the state; what runs between two calls
are the ticks of the intervals, the answers to sweeps and the clock.
-/

namespace Pm2Manager

open Calendar

abbrev TimerId := ℕ
abbrev SweepId := ℕ

inductive IntervalKind
  | collect
  | retention
deriving DecidableEq, Repr

/-- An interval which has been set and not been cleared. -/
structure LiveInterval where
  id : TimerId
  kind : IntervalKind
  delay : ℕ
deriving DecidableEq, Repr

/-- What a sweep takes from the summary of a process. -/
structure ProcessSample where
  pmId : ℤ
  name : String
  status : String
  cpu : ℚ
  memory : ℤ
  uptime : ℤ
  restartCount : ℤ
deriving DecidableEq, Repr

def ProcessSample.record (sample : ProcessSample) (timestamp : ℤ) :
    MetricRecord where
  pmId := sample.pmId
  name := sample.name
  status := sample.status
  cpu := sample.cpu
  memory := sample.memory
  uptime := sample.uptime
  restartCount := sample.restartCount
  timestamp := timestamp

/-- A sweep which has written rows. -/
structure StoredSweep where
  id : SweepId
  timestamp : ℤ
  rows : List MetricRecord
deriving DecidableEq, Repr

/-- The last two fields are a record of the run: whether the latest of `start`
and `stop` was a `start`, and the sweeps which have written rows. -/
structure MetricsState where
  settings : SettingsTable
  metrics : MetricsTable
  activity : ActivityLog
  clock : ℤ
  intervals : List LiveInterval
  nextTimer : TimerId
  collectTimer : Option TimerId
  retentionTimer : Option TimerId
  sweeps : List SweepId
  nextSweep : SweepId
  started : Bool
  stored : List StoredSweep

/-- Which of the two writes of an update throws. -/
structure WriteFaults where
  interval : Bool
  retention : Bool
deriving DecidableEq, Repr

inductive MetricsCall
  | start
  | stop
  | reschedule
  /-- `PUT /api/settings`, with the author of the request. -/
  | updateSettings (interval retention : Option ℤ) (faults : WriteFaults)
      (username ipAddress : Option String)
deriving DecidableEq, Repr

inductive MetricsAction
  | call (call : MetricsCall)
  | tick (id : TimerId)
  /-- `pm2Service.list` settles, and `insertMany` succeeds or throws. -/
  | listed (sweep : SweepId) (result : Except AppError (List ProcessSample))
      (inserted : Bool)
  | advance (ms : ℕ)

namespace MetricsState

def initial (settings : SettingsTable) (clock : ℤ) : MetricsState where
  settings := settings
  metrics := []
  activity := []
  clock := clock
  intervals := []
  nextTimer := 0
  collectTimer := none
  retentionTimer := none
  sweeps := []
  nextSweep := 0
  started := false
  stored := []

/-! ## Sweeps -/

/-- `collectOnce` up to its await. -/
def collectOnce (state : MetricsState) : MetricsState :=
  { state with
    sweeps := state.sweeps ++ [state.nextSweep]
    nextSweep := state.nextSweep + 1 }

/-- The rest of `collectOnce`; every failure is logged and swallowed. -/
def finishSweep (state : MetricsState) (sweep : SweepId)
    (result : Except AppError (List ProcessSample)) (inserted : Bool) :
    MetricsState :=
  let state := { state with sweeps := state.sweeps.filter (· ≠ sweep) }
  match result with
  | .error _ => state
  | .ok procs =>
      let rows := procs.map fun proc => proc.record state.clock
      if inserted ∧ rows ≠ [] then
        { state with
          metrics := state.metrics.insertMany rows
          stored := state.stored ++
            [{ id := sweep, timestamp := state.clock, rows }] }
      else
        state

def retain (config : MetricsConfig) (state : MetricsState) : MetricsState :=
  let sweep :=
    runRetention config state.settings state.clock state.metrics state.activity
  { state with metrics := sweep.metrics, activity := sweep.activity }

/-! ## Stages -/

def setInterval (state : MetricsState) (kind : IntervalKind) (delay : ℕ) :
    MetricsState :=
  { state with
    intervals := state.intervals ++ [{ id := state.nextTimer, kind, delay }]
    nextTimer := state.nextTimer + 1 }

def clearInterval (state : MetricsState) (timer : Option TimerId) : MetricsState :=
  { state with
    intervals := state.intervals.filter fun live => some live.id ≠ timer }

def setCollect (config : MetricsConfig) (state : MetricsState) : MetricsState :=
  { state.setInterval .collect (effectiveIntervalMs config state.settings) with
    collectTimer := some state.nextTimer }

def retentionIntervalMs : ℕ := 3600000

def setRetention (state : MetricsState) : MetricsState :=
  { state.setInterval .retention retentionIntervalMs with
    retentionTimer := some state.nextTimer }

def clearCollect (state : MetricsState) : MetricsState :=
  state.clearInterval state.collectTimer

def clearRetention (state : MetricsState) : MetricsState :=
  state.clearInterval state.retentionTimer

def dropCollect (state : MetricsState) : MetricsState :=
  { state with collectTimer := none }

def dropRetention (state : MetricsState) : MetricsState :=
  { state with retentionTimer := none }

def writeSetting (key : String) (value : ℕ) (state : MetricsState) : MetricsState :=
  { state with settings := state.settings.set key (toString value) }

/-- The audit entry of a settings update. -/
def recordChange (changes : List (String × ℕ)) (username ipAddress : Option String)
    (state : MetricsState) : MetricsState :=
  { state with
    activity := state.activity.record {
        type := .settingsChanged
        message := "Updated application settings"
        username := username
        ipAddress := ipAddress
        metadata := some
          (changes.map fun change => (change.1, .number change.2)) }
      (String.ofList (datetimeText (state.clock / 1000))) }

abbrev Stage := MetricsState → MetricsState

/-! ## Calls -/

def startStages (config : MetricsConfig) (state : MetricsState) : List Stage :=
  if state.collectTimer.isSome then []
  else [collectOnce, setCollect config, setRetention]

def rescheduleStages (config : MetricsConfig) (state : MetricsState) : List Stage :=
  if state.collectTimer.isSome then [clearCollect, setCollect config] else []

def stopStages (state : MetricsState) : List Stage :=
  (if state.collectTimer.isSome then [clearCollect, dropCollect] else []) ++
    if state.retentionTimer.isSome then [clearRetention, dropRetention] else []

/-- `updateSettings` after validation: a write which throws ends the request. -/
def updateStages (config : MetricsConfig) (state : MetricsState)
    (interval retention : Option ℕ) (faults : WriteFaults)
    (username ipAddress : Option String) : List Stage :=
  let changes :=
    (interval.map fun value => (keyInterval, value)).toList ++
      (retention.map fun value => (keyRetention, value)).toList
  let finish :=
    (if interval.isSome then rescheduleStages config state else []) ++
      [recordChange changes username ipAddress]
  let writeRetention :=
    match retention with
    | none => finish
    | some value =>
        if faults.retention then [] else writeSetting keyRetention value :: finish
  match interval with
  | none => writeRetention
  | some value =>
      if faults.interval then []
      else writeSetting keyInterval value :: writeRetention

def stages (config : MetricsConfig) (state : MetricsState) :
    MetricsCall → List Stage
  | .start => startStages config state
  | .stop => stopStages state
  | .reschedule => rescheduleStages config state
  | .updateSettings interval retention faults username ipAddress =>
      match updateSettingsSchema interval retention with
      | .ok input =>
          updateStages config state input.metricsIntervalSeconds
            input.metricsRetentionDays faults username ipAddress
      | .error _ => []

/-- The state after some stages of a call. -/
def runStages (state : MetricsState) (stages : List Stage) : MetricsState :=
  stages.foldl (fun state stage => stage state) state

/-- Every state some stages of a call go through, both ends included. -/
def visits (state : MetricsState) : List Stage → List MetricsState
  | [] => [state]
  | stage :: rest => state :: visits (stage state) rest

def startedAfter (state : MetricsState) : MetricsCall → Bool
  | .start => true
  | .stop => false
  | .reschedule | .updateSettings _ _ _ _ _ => state.started

def step (config : MetricsConfig) (state : MetricsState) :
    MetricsAction → Option MetricsState
  | .call call =>
      some { state.runStages (state.stages config call) with
        started := state.startedAfter call }
  | .tick id =>
      (state.intervals.find? fun live => live.id = id).map fun live =>
        match live.kind with
        | .collect => state.collectOnce
        | .retention => state.retain config
  | .listed sweep result inserted =>
      if sweep ∈ state.sweeps then some (state.finishSweep sweep result inserted)
      else none
  | .advance ms => some { state with clock := state.clock + ms }

end MetricsState

/-! ## The stages of an update -/

/-- An update writes settings, may reschedule, and records the change. -/
theorem MetricsState.mem_updateStages {config : MetricsConfig} {state : MetricsState}
    {interval retention : Option ℕ} {faults : WriteFaults}
    {username ipAddress : Option String} {stage : MetricsState.Stage}
    (hstage : stage ∈
      state.updateStages config interval retention faults username ipAddress) :
    (∃ key value, stage = MetricsState.writeSetting key value) ∨
      (∃ changes, stage = MetricsState.recordChange changes username ipAddress) ∨
      stage ∈ state.rescheduleStages config := by
  have hfinish : ∀ changes, stage ∈
      (if interval.isSome then state.rescheduleStages config else []) ++
        [MetricsState.recordChange changes username ipAddress] →
      (∃ changes, stage = MetricsState.recordChange changes username ipAddress) ∨
        stage ∈ state.rescheduleStages config := by
    intro changes hmem
    rcases List.mem_append.mp hmem with hreschedule | hrecord
    · split at hreschedule
      · exact .inr hreschedule
      · simp at hreschedule
    · exact .inl ⟨changes, List.mem_singleton.mp hrecord⟩
  have hretention : ∀ changes, stage ∈
      (match retention with
        | none => (if interval.isSome then state.rescheduleStages config else []) ++
            [MetricsState.recordChange changes username ipAddress]
        | some value =>
            if faults.retention then []
            else MetricsState.writeSetting keyRetention value ::
              ((if interval.isSome then state.rescheduleStages config else []) ++
                [MetricsState.recordChange changes username ipAddress])) →
      (∃ key value, stage = MetricsState.writeSetting key value) ∨
        (∃ changes, stage = MetricsState.recordChange changes username ipAddress) ∨
        stage ∈ state.rescheduleStages config := by
    intro changes hmem
    split at hmem
    · exact .inr (hfinish changes hmem)
    · split at hmem
      · simp at hmem
      · rcases List.mem_cons.mp hmem with rfl | hrest
        · exact .inl ⟨_, _, rfl⟩
        · exact .inr (hfinish changes hrest)
  simp only [MetricsState.updateStages] at hstage
  split at hstage
  · exact hretention _ hstage
  · split at hstage
    · simp at hstage
    · rcases List.mem_cons.mp hstage with rfl | hrest
      · exact .inl ⟨_, _, rfl⟩
      · exact hretention _ hrest

def metricsMachine (config : MetricsConfig) : Machine MetricsState MetricsAction where
  step := MetricsState.step config

end Pm2Manager
