import Pm2Manager.MetricsService

/-!
# The intervals of the metrics service

At most one interval of each kind is live, and both are live exactly while the
service is started.  The delay of the live collection interval is the setting
in force as long as no update writes a new interval and then fails at its
second write: the failed request leaves before the rescheduling.
-/

namespace Pm2Manager

open List (Perm)

variable {config : MetricsConfig} {state next last : MetricsState}
variable {action : MetricsAction} {word : List MetricsAction}
variable {collect retention : TimerId} {delay : ℕ}

namespace MetricsState

def live (state : MetricsState) (kind : IntervalKind) : List LiveInterval :=
  state.intervals.filter fun live => live.kind = kind

def AtMostOneLive (state : MetricsState) : Prop :=
  ∀ kind, (state.live kind).length ≤ 1

end MetricsState

/-- `GET /api/settings` reports the effective settings. -/
def reportedIntervalSeconds (config : MetricsConfig) (settings : SettingsTable) : ℕ :=
  (readSettings config.defaults settings).metricsIntervalSeconds

/-- What is expected of the timers between two calls, and within a call. -/
structure TimersAgree (config : MetricsConfig) (state : MetricsState) : Prop where
  atMostOne : ∀ call, ∀ mid ∈ state.visits (state.stages config call),
    mid.AtMostOneLive
  liveIffStarted : ∀ kind, state.live kind ≠ [] ↔ state.started = true
  delay : ∀ live ∈ state.live .collect,
    live.delay = reportedIntervalSeconds config state.settings * 1000

/-- The update changes the interval in force, and its second write throws. -/
def LeavesTimerBehind (config : MetricsConfig) (state : MetricsState) :
    MetricsAction → Prop
  | .call (.updateSettings interval retention faults _ _) =>
      state.started = true ∧
        ∃ input value, updateSettingsSchema interval retention = .ok input ∧
          input.metricsIntervalSeconds = some value ∧ faults.interval = false ∧
          input.metricsRetentionDays.isSome ∧ faults.retention = true ∧
          value ≠ reportedIntervalSeconds config state.settings
  | _ => False

/-! ## The two shapes of the timers -/

structure Stopped (state : MetricsState) : Prop where
  collectTimer : state.collectTimer = none
  retentionTimer : state.retentionTimer = none
  intervals : state.intervals = []

structure Running (state : MetricsState) (collect retention : TimerId)
    (delay : ℕ) : Prop where
  collectTimer : state.collectTimer = some collect
  retentionTimer : state.retentionTimer = some retention
  distinct : collect ≠ retention
  collectOld : collect < state.nextTimer
  retentionOld : retention < state.nextTimer
  intervals : Perm state.intervals
    [⟨collect, .collect, delay⟩,
      ⟨retention, .retention, MetricsState.retentionIntervalMs⟩]

/-- The timers are in the shape which the latest `start` or `stop` has left. -/
inductive TimersInShape (state : MetricsState) : Prop
  | stopped (hstarted : state.started = false) (hstopped : Stopped state)
  | running (collect retention : TimerId) (delay : ℕ)
      (hstarted : state.started = true)
      (hrunning : Running state collect retention delay)

theorem Running.live_collect (hrunning : Running state collect retention delay) :
    state.live .collect = [⟨collect, .collect, delay⟩] := by
  have hperm := hrunning.intervals.filter fun live => live.kind = .collect
  simpa [MetricsState.live] using hperm

theorem Running.live_retention (hrunning : Running state collect retention delay) :
    state.live .retention =
      [⟨retention, .retention, MetricsState.retentionIntervalMs⟩] := by
  have hperm := hrunning.intervals.filter fun live => live.kind = .retention
  simpa [MetricsState.live] using hperm

theorem Running.atMostOneLive (hrunning : Running state collect retention delay) :
    state.AtMostOneLive := by
  intro kind
  cases kind with
  | collect => simp [hrunning.live_collect]
  | retention => simp [hrunning.live_retention]

theorem Stopped.atMostOneLive (hstopped : Stopped state) : state.AtMostOneLive := by
  intro kind
  simp [MetricsState.live, hstopped.intervals]

/-! ## Stages -/

/-- The parts of the state which a stage without timers keeps. -/
theorem Running.frame (hrunning : Running state collect retention delay)
    (hcollect : next.collectTimer = state.collectTimer)
    (hretention : next.retentionTimer = state.retentionTimer)
    (hnext : next.nextTimer = state.nextTimer)
    (hintervals : next.intervals = state.intervals) :
    Running next collect retention delay where
  collectTimer := hcollect.trans hrunning.collectTimer
  retentionTimer := hretention.trans hrunning.retentionTimer
  distinct := hrunning.distinct
  collectOld := hnext ▸ hrunning.collectOld
  retentionOld := hnext ▸ hrunning.retentionOld
  intervals := hintervals ▸ hrunning.intervals

theorem Stopped.frame (hstopped : Stopped state)
    (hcollect : next.collectTimer = state.collectTimer)
    (hretention : next.retentionTimer = state.retentionTimer)
    (hintervals : next.intervals = state.intervals) : Stopped next where
  collectTimer := hcollect.trans hstopped.collectTimer
  retentionTimer := hretention.trans hstopped.retentionTimer
  intervals := hintervals.trans hstopped.intervals

theorem atMostOneLive_clearInterval (timer : Option TimerId)
    (hone : state.AtMostOneLive) : (state.clearInterval timer).AtMostOneLive := by
  intro kind
  refine le_trans (List.Sublist.length_le ?_) (hone kind)
  exact List.filter_sublist.filter _

/-- Clearing the collection interval and setting it anew. -/
theorem Running.reset (hrunning : Running state collect retention delay)
    (config : MetricsConfig) :
    Running (MetricsState.setCollect config state.clearCollect) state.nextTimer
      retention (effectiveIntervalMs config state.settings) where
  collectTimer := rfl
  retentionTimer := hrunning.retentionTimer
  distinct := hrunning.retentionOld.ne'
  collectOld := Nat.lt_succ_self _
  retentionOld := Nat.lt_succ_of_lt hrunning.retentionOld
  intervals := by
    have hkept := hrunning.intervals.filter fun live =>
      some live.id ≠ state.collectTimer
    simp only [hrunning.collectTimer, ne_eq, Option.some.injEq,
      decide_not] at hkept
    have hcleared : Perm state.clearCollect.intervals
        [⟨retention, .retention, MetricsState.retentionIntervalMs⟩] := by
      simpa [MetricsState.clearCollect, MetricsState.clearInterval,
        hrunning.collectTimer, hrunning.distinct.symm] using hkept
    exact (hcleared.append_right _).trans (Perm.swap _ _ _)

/-- Within a list of stages at most one interval of a kind is live. -/
def Steady (state : MetricsState) (stages : List MetricsState.Stage) : Prop :=
  ∀ mid ∈ state.visits stages, mid.AtMostOneLive

theorem steady_nil (hone : state.AtMostOneLive) : Steady state [] := by
  intro mid hmid
  rw [List.mem_singleton.mp hmid]
  exact hone

theorem steady_cons {stage : MetricsState.Stage} {rest : List MetricsState.Stage}
    (hone : state.AtMostOneLive) (hrest : Steady (stage state) rest) :
    Steady state (stage :: rest) := by
  intro mid hmid
  rcases List.mem_cons.mp hmid with rfl | hlater
  · exact hone
  · exact hrest mid hlater

/-! ## Calls -/

theorem effectiveIntervalMs_eq (config : MetricsConfig) (settings : SettingsTable) :
    effectiveIntervalMs config settings =
      reportedIntervalSeconds config settings * 1000 := rfl

/-- The timers run with the delay in force, or run on as they were while the
setting has not changed. -/
inductive InForce (config : MetricsConfig) (state : MetricsState) (delay : ℕ)
    (next : MetricsState) : Prop
  | kept (collect retention : TimerId)
      (hrunning : Running next collect retention delay)
      (hsetting : effectiveIntervalMs config next.settings =
        effectiveIntervalMs config state.settings)
  | reset (collect retention : TimerId)
      (hrunning : Running next collect retention
        (effectiveIntervalMs config next.settings))

variable {interval days : Option ℕ} {faults : WriteFaults}
variable {username ipAddress : Option String} {value : ℕ}

/-- The first write has changed the table, and the second one throws. -/
def Torn (interval days : Option ℕ) (faults : WriteFaults) (value : ℕ) : Prop :=
  interval = some value ∧ faults.interval = false ∧ days.isSome ∧
    faults.retention = true

open MetricsState

theorem Running.writeSetting (hrunning : Running state collect retention delay)
    (key : String) (value : ℕ) :
    Running (state.writeSetting key value) collect retention delay :=
  hrunning.frame rfl rfl rfl rfl

theorem Running.recordChange (hrunning : Running state collect retention delay)
    (changes : List (String × ℕ)) (username ipAddress : Option String) :
    Running (state.recordChange changes username ipAddress) collect retention delay :=
  hrunning.frame rfl rfl rfl rfl

/-- The end of an update which has written a new interval. -/
theorem Running.finish (hrunning : Running state collect retention delay)
    (config : MetricsConfig) (changes : List (String × ℕ))
    (username ipAddress : Option String) :
    Steady state [clearCollect, setCollect config,
        MetricsState.recordChange changes username ipAddress] ∧
      ∃ fresh, Running (state.runStages [clearCollect, setCollect config,
          MetricsState.recordChange changes username ipAddress]) fresh retention
        (effectiveIntervalMs config state.settings) := by
  have hreset := hrunning.reset config
  constructor
  · refine steady_cons hrunning.atMostOneLive (steady_cons ?_ (steady_cons ?_
      (steady_nil ?_)))
    · exact atMostOneLive_clearInterval _ hrunning.atMostOneLive
    · exact hreset.atMostOneLive
    · exact (hreset.recordChange changes username ipAddress).atMostOneLive
  · exact ⟨_, hreset.recordChange changes username ipAddress⟩

theorem Running.update_steady (hrunning : Running state collect retention delay) :
    Steady state (state.updateStages config interval days faults username ipAddress) := by
  have hone := hrunning.atMostOneLive
  have hrecord : ∀ changes,
      Steady state [MetricsState.recordChange changes username ipAddress] := fun changes =>
    steady_cons hone (steady_nil (hrunning.recordChange changes _ _).atMostOneLive)
  cases interval with
  | none =>
      cases days with
      | none => simpa [updateStages] using hrecord _
      | some days =>
          have hwritten := hrunning.writeSetting keyRetention days
          cases hfault : faults.retention with
          | true => simpa [updateStages, hfault] using steady_nil hone
          | false =>
              simp only [updateStages, hfault]
              exact steady_cons hone (steady_cons hwritten.atMostOneLive
                (steady_nil (hwritten.recordChange _ _ _).atMostOneLive))
  | some value =>
      have hfirst := hrunning.writeSetting keyInterval value
      cases hinterval : faults.interval with
      | true => simpa [updateStages, hinterval] using steady_nil hone
      | false =>
          cases days with
          | none =>
              simp only [updateStages, hinterval, rescheduleStages,
                hrunning.collectTimer]
              exact steady_cons hone (hfirst.finish config _ _ _).1
          | some days =>
              cases hretention : faults.retention with
              | true =>
                  simp only [updateStages, hinterval, hretention]
                  exact steady_cons hone (steady_nil hfirst.atMostOneLive)
              | false =>
                  have hsecond := hfirst.writeSetting keyRetention days
                  simp only [updateStages, hinterval, hretention, rescheduleStages,
                    hrunning.collectTimer]
                  exact steady_cons hone
                    (steady_cons hfirst.atMostOneLive (hsecond.finish config _ _ _).1)

theorem Running.update_torn (hrunning : Running state collect retention delay)
    (config : MetricsConfig) (username ipAddress : Option String)
    (htorn : Torn interval days faults value) (hvalue : value < 2 ^ 53) :
    ∃ next, state.runStages
        (state.updateStages config interval days faults username ipAddress) = next ∧
      Running next collect retention delay ∧
      effectiveIntervalMs config next.settings = value * 1000 := by
  obtain ⟨rfl, hinterval, hdays, hretention⟩ := htorn
  obtain ⟨days, rfl⟩ := Option.isSome_iff_exists.mp hdays
  refine ⟨state.writeSetting keyInterval value, ?_, hrunning.writeSetting _ _, ?_⟩
  · simp [updateStages, hinterval, hretention, runStages]
  · rw [effectiveIntervalMs, MetricsState.writeSetting, numberSetting_set hvalue]

theorem Running.update_whole (hrunning : Running state collect retention delay)
    (hwhole : ∀ value, ¬ Torn interval days faults value) :
    InForce config state delay (state.runStages
      (state.updateStages config interval days faults username ipAddress)) := by
  have hkeep : ∀ days, effectiveIntervalMs config
      (state.writeSetting keyRetention days).settings =
        effectiveIntervalMs config state.settings := by
    intro days
    rw [effectiveIntervalMs, MetricsState.writeSetting,
      numberSetting_set_of_ne (by decide), effectiveIntervalMs]
  cases interval with
  | none =>
      cases days with
      | none =>
          simp only [updateStages]
          exact .kept collect retention (hrunning.recordChange _ _ _) rfl
      | some days =>
          cases hfault : faults.retention with
          | true =>
              simp only [updateStages, hfault]
              exact .kept collect retention hrunning rfl
          | false =>
              simp only [updateStages, hfault]
              exact .kept collect retention
                ((hrunning.writeSetting keyRetention days).recordChange _ _ _)
                (hkeep days)
  | some value =>
      have hfirst := hrunning.writeSetting keyInterval value
      cases hinterval : faults.interval with
      | true =>
          simp only [updateStages, hinterval]
          exact .kept collect retention hrunning rfl
      | false =>
          cases days with
          | none =>
              simp only [updateStages, hinterval, rescheduleStages,
                hrunning.collectTimer]
              obtain ⟨fresh, hfresh⟩ := (hfirst.finish config
                [(keyInterval, value)] username ipAddress).2
              exact .reset fresh retention hfresh
          | some days =>
              cases hretention : faults.retention with
              | true => exact absurd ⟨rfl, hinterval, rfl, hretention⟩ (hwhole value)
              | false =>
                  simp only [updateStages, hinterval, hretention, rescheduleStages,
                    hrunning.collectTimer]
                  obtain ⟨fresh, hfresh⟩ := ((hfirst.writeSetting keyRetention days).finish
                    config [(keyInterval, value), (keyRetention, days)]
                    username ipAddress).2
                  exact .reset fresh retention hfresh

theorem Stopped.stages {stages : List MetricsState.Stage} (hstopped : Stopped state)
    (hkeep : ∀ stage ∈ stages, ∀ state, Stopped state → Stopped (stage state)) :
    Steady state stages ∧ Stopped (state.runStages stages) := by
  induction stages generalizing state with
  | nil => exact ⟨steady_nil hstopped.atMostOneLive, hstopped⟩
  | cons stage rest ih =>
      have hnext := hkeep stage List.mem_cons_self state hstopped
      have hrest := ih hnext fun other hother => hkeep other (List.mem_cons_of_mem _ hother)
      exact ⟨steady_cons hstopped.atMostOneLive hrest.1, hrest.2⟩

theorem Stopped.update (hstopped : Stopped state) :
    Steady state (state.updateStages config interval days faults username ipAddress) ∧
      Stopped (state.runStages
        (state.updateStages config interval days faults username ipAddress)) := by
  refine hstopped.stages fun stage hstage other hother => ?_
  rcases MetricsState.mem_updateStages hstage with
    ⟨key, value, rfl⟩ | ⟨changes, rfl⟩ | hreschedule
  · exact hother.frame rfl rfl rfl
  · exact hother.frame rfl rfl rfl
  · simp [rescheduleStages, hstopped.collectTimer] at hreschedule

theorem Stopped.start (hstopped : Stopped state) (config : MetricsConfig) :
    Steady state (state.startStages config) ∧
      ∃ collect retention, Running (state.runStages (state.startStages config))
        collect retention (effectiveIntervalMs config state.settings) := by
  have hrunning : Running
      (MetricsState.setRetention (MetricsState.setCollect config state.collectOnce))
      state.nextTimer (state.nextTimer + 1)
      (effectiveIntervalMs config state.settings) := {
    collectTimer := rfl
    retentionTimer := rfl
    distinct := (Nat.lt_succ_self _).ne
    collectOld := Nat.lt_succ_of_lt (Nat.lt_succ_self _)
    retentionOld := Nat.lt_succ_self _
    intervals := by
      simp [MetricsState.setRetention, MetricsState.setCollect,
        MetricsState.setInterval, MetricsState.collectOnce, hstopped.intervals] }
  have hstages : state.startStages config =
      [collectOnce, setCollect config, MetricsState.setRetention] := by
    simp [startStages, hstopped.collectTimer]
  rw [hstages]
  constructor
  · have hbegun : Stopped state.collectOnce := hstopped.frame rfl rfl rfl
    refine steady_cons hstopped.atMostOneLive (steady_cons hbegun.atMostOneLive
      (steady_cons ?_ (steady_nil hrunning.atMostOneLive)))
    intro kind
    simp only [MetricsState.live, MetricsState.setCollect, MetricsState.setInterval,
      hbegun.intervals, List.nil_append]
    exact List.length_filter_le _ _
  · exact ⟨_, _, hrunning⟩

theorem Running.stop (hrunning : Running state collect retention delay) :
    Steady state state.stopStages ∧ Stopped (state.runStages state.stopStages) := by
  have hstages : state.stopStages =
      [clearCollect, dropCollect, clearRetention, dropRetention] := by
    simp [stopStages, hrunning.collectTimer, hrunning.retentionTimer]
  have hfirst := atMostOneLive_clearInterval state.collectTimer hrunning.atMostOneLive
  have hsecond := atMostOneLive_clearInterval state.retentionTimer hfirst
  rw [hstages]
  constructor
  · exact steady_cons hrunning.atMostOneLive (steady_cons hfirst
      (steady_cons hfirst (steady_cons hsecond (steady_nil hsecond))))
  · refine ⟨rfl, rfl, ?_⟩
    have hempty := (hrunning.intervals.filter fun live =>
      some live.id ≠ state.collectTimer).filter fun live =>
        some live.id ≠ state.retentionTimer
    simpa [runStages, MetricsState.dropRetention, MetricsState.clearRetention,
      MetricsState.dropCollect, MetricsState.clearCollect, MetricsState.clearInterval,
      hrunning.collectTimer, hrunning.retentionTimer, hrunning.distinct.symm]
      using hempty

/-! ## Steps -/

theorem updateSettingsSchema_interval {interval retention : Option ℤ}
    {input : UpdateSettingsInput}
    (hinput : updateSettingsSchema interval retention = .ok input)
    (hvalue : input.metricsIntervalSeconds = some value) :
    5 ≤ value ∧ value ≤ 3600 := by
  obtain ⟨hissues, rfl⟩ := FieldCheck.parsed_eq_ok hinput
  cases interval with
  | none => simp at hvalue
  | some interval =>
      simp only [Option.map_some, Option.some.injEq] at hvalue
      simp only [Option.toList_some, List.flatMap_singleton, List.append_eq_nil_iff,
        FieldCheck.rangeIssues] at hissues
      have hlower : 5 ≤ interval := by
        by_contra hsmall
        simp [hsmall] at hissues
      have hupper : interval ≤ 3600 := by
        by_contra hlarge
        simp [hlarge] at hissues
      omega

theorem updateSettingsSchema_bound {interval retention : Option ℤ}
    {input : UpdateSettingsInput}
    (hinput : updateSettingsSchema interval retention = .ok input)
    (hvalue : input.metricsIntervalSeconds = some value) : value < 2 ^ 53 := by
  have hinterval := updateSettingsSchema_interval hinput hvalue
  omega

theorem call_steady (hshape : TimersInShape state) (call : MetricsCall) :
    Steady state (state.stages config call) := by
  cases hshape with
  | stopped hstarted hstopped =>
      cases call with
      | start => exact (hstopped.start config).1
      | stop =>
          simpa [MetricsState.stages, stopStages, hstopped.collectTimer,
            hstopped.retentionTimer] using steady_nil hstopped.atMostOneLive
      | reschedule =>
          simpa [MetricsState.stages, rescheduleStages, hstopped.collectTimer]
            using steady_nil hstopped.atMostOneLive
      | updateSettings interval retention faults username ipAddress =>
          simp only [MetricsState.stages]
          split
          · exact hstopped.update.1
          · exact steady_nil hstopped.atMostOneLive
  | running collect retention delay hstarted hrunning =>
      cases call with
      | start =>
          simpa [MetricsState.stages, startStages, hrunning.collectTimer]
            using steady_nil hrunning.atMostOneLive
      | stop => exact hrunning.stop.1
      | reschedule =>
          simp only [MetricsState.stages, rescheduleStages, hrunning.collectTimer]
          refine steady_cons hrunning.atMostOneLive (steady_cons ?_ (steady_nil ?_))
          · exact atMostOneLive_clearInterval _ hrunning.atMostOneLive
          · exact (hrunning.reset config).atMostOneLive
      | updateSettings interval retention faults username ipAddress =>
          simp only [MetricsState.stages]
          split
          · exact hrunning.update_steady
          · exact steady_nil hrunning.atMostOneLive

/-- Outside the calls nothing touches the timers or the settings. -/
theorem step_frame (hstep : state.step config action = some next)
    (hcall : ∀ call, action ≠ .call call) :
    next.collectTimer = state.collectTimer ∧
      next.retentionTimer = state.retentionTimer ∧
      next.nextTimer = state.nextTimer ∧ next.intervals = state.intervals ∧
      next.settings = state.settings ∧ next.started = state.started := by
  cases action with
  | call call => exact absurd rfl (hcall call)
  | tick id =>
      simp only [MetricsState.step] at hstep
      obtain ⟨live, _, rfl⟩ := Option.map_eq_some_iff.mp hstep
      cases live.kind with
      | collect => exact ⟨rfl, rfl, rfl, rfl, rfl, rfl⟩
      | retention => exact ⟨rfl, rfl, rfl, rfl, rfl, rfl⟩
  | listed sweep result inserted =>
      simp only [MetricsState.step] at hstep
      split at hstep
      · rw [Option.some.injEq] at hstep
        subst next
        cases result with
        | error _ => exact ⟨rfl, rfl, rfl, rfl, rfl, rfl⟩
        | ok procs =>
            simp only [finishSweep]
            split <;> exact ⟨rfl, rfl, rfl, rfl, rfl, rfl⟩
      · simp at hstep
  | advance ms =>
      simp only [MetricsState.step, Option.some.injEq] at hstep
      subst next
      exact ⟨rfl, rfl, rfl, rfl, rfl, rfl⟩

theorem stopped_step (hstopped : Stopped state) (hstarted : state.started = false)
    (hstep : state.step config action = some next) :
    (next.started = false ∧ Stopped next) ∨
      (next.started = true ∧ ∃ collect retention,
        Running next collect retention (effectiveIntervalMs config next.settings)) := by
  by_cases hcall : ∃ call, action = .call call
  · obtain ⟨call, rfl⟩ := hcall
    simp only [MetricsState.step, Option.some.injEq] at hstep
    subst next
    cases call with
    | start =>
        obtain ⟨collect, retention, hrunning⟩ := (hstopped.start config).2
        have hsettings : (state.runStages (state.startStages config)).settings =
            state.settings := by
          simp [startStages, hstopped.collectTimer, runStages, setCollect, setRetention,
            setInterval, collectOnce]
        refine .inr ⟨rfl, collect, retention, ?_⟩
        simp only [MetricsState.stages, hsettings]
        exact hrunning.frame rfl rfl rfl rfl
    | stop =>
        refine .inl ⟨rfl, ?_⟩
        simp only [MetricsState.stages, stopStages, hstopped.collectTimer,
          hstopped.retentionTimer]
        exact hstopped.frame rfl rfl rfl
    | reschedule =>
        refine .inl ⟨hstarted, ?_⟩
        simp only [MetricsState.stages, rescheduleStages, hstopped.collectTimer]
        exact hstopped.frame rfl rfl rfl
    | updateSettings interval retention faults username ipAddress =>
        refine .inl ⟨hstarted, ?_⟩
        simp only [MetricsState.stages]
        split
        · exact hstopped.update.2.frame rfl rfl rfl
        · exact hstopped.frame rfl rfl rfl
  · push Not at hcall
    obtain ⟨hcollect, hretention, _, hintervals, _, hkept⟩ := step_frame hstep hcall
    exact .inl ⟨hkept.trans hstarted, hstopped.frame hcollect hretention hintervals⟩

theorem InForce.withStarted {started : Bool} (hinForce : InForce config state delay next) :
    InForce config state delay { next with started := started } := by
  cases hinForce with
  | kept collect retention hrunning hsetting =>
      exact .kept collect retention (hrunning.frame rfl rfl rfl rfl) hsetting
  | reset collect retention hrunning =>
      exact .reset collect retention (hrunning.frame rfl rfl rfl rfl)

theorem running_step (hrunning : Running state collect retention delay)
    (hstarted : state.started = true) (hstep : state.step config action = some next) :
    (next.started = false ∧ Stopped next) ∨
      (next.started = true ∧ InForce config state delay next) ∨
      (next.started = true ∧ ∃ value, Running next collect retention delay ∧
        effectiveIntervalMs config next.settings = value * 1000 ∧
        (value ≠ reportedIntervalSeconds config state.settings →
          LeavesTimerBehind config state action)) := by
  by_cases hcall : ∃ call, action = .call call
  · obtain ⟨call, rfl⟩ := hcall
    simp only [MetricsState.step, Option.some.injEq] at hstep
    subst next
    cases call with
    | start =>
        refine .inr (.inl ⟨rfl, ?_⟩)
        simp only [MetricsState.stages, startStages, hrunning.collectTimer]
        exact .kept collect retention (hrunning.frame rfl rfl rfl rfl) rfl
    | stop => exact .inl ⟨rfl, hrunning.stop.2.frame rfl rfl rfl⟩
    | reschedule =>
        refine .inr (.inl ⟨hstarted, ?_⟩)
        simp only [MetricsState.stages, rescheduleStages, hrunning.collectTimer]
        exact .reset _ retention ((hrunning.reset config).frame rfl rfl rfl rfl)
    | updateSettings interval retention faults username ipAddress =>
        simp only [MetricsState.stages]
        split
        next input hinput =>
          by_cases htorn : ∃ value, Torn input.metricsIntervalSeconds
              input.metricsRetentionDays faults value
          · obtain ⟨value, htorn⟩ := htorn
            have hbound := updateSettingsSchema_bound hinput htorn.1
            obtain ⟨next, hnext, hkept, hsetting⟩ := hrunning.update_torn
              config username ipAddress htorn hbound
            rw [hnext]
            refine .inr (.inr ⟨hstarted, value, hkept.frame rfl rfl rfl rfl, hsetting, ?_⟩)
            intro hnew
            exact ⟨hstarted, input, value, hinput, htorn.1, htorn.2.1, htorn.2.2.1,
              htorn.2.2.2, hnew⟩
          · push Not at htorn
            exact .inr (.inl ⟨hstarted, (hrunning.update_whole htorn).withStarted⟩)
        · exact .inr (.inl ⟨hstarted,
            .kept collect _ (hrunning.frame rfl rfl rfl rfl) rfl⟩)
  · push Not at hcall
    obtain ⟨hcollect, hretention, hnext, hintervals, hsettings, hkept⟩ :=
      step_frame hstep hcall
    refine .inr (.inl ⟨hkept.trans hstarted, .kept collect retention
      (hrunning.frame hcollect hretention hnext hintervals) ?_⟩)
    rw [hsettings]

/-! ## Runs -/

theorem timersInShape_preserved :
    (metricsMachine config).Preserves Machine.anyAction TimersInShape := by
  intro state action next hshape _ hstep
  cases hshape with
  | stopped hstarted hstopped =>
      rcases stopped_step hstopped hstarted hstep with
        ⟨hnext, hstays⟩ | ⟨hnext, collect, retention, hrunning⟩
      · exact .stopped hnext hstays
      · exact .running collect retention _ hnext hrunning
  | running collect retention delay hstarted hrunning =>
      rcases running_step hrunning hstarted hstep with
        ⟨hnext, hstops⟩ | ⟨hnext, hinForce⟩ | ⟨hnext, value, hkept, _⟩
      · exact .stopped hnext hstops
      · cases hinForce with
        | kept collect retention hrunning _ =>
            exact .running collect retention _ hnext hrunning
        | reset collect retention hrunning =>
            exact .running collect retention _ hnext hrunning
      · exact .running collect retention _ hnext hkept

theorem Stopped.timersAgree (hstopped : Stopped state)
    (hstarted : state.started = false) : TimersAgree config state where
  atMostOne := call_steady (.stopped hstarted hstopped)
  liveIffStarted kind := by simp [MetricsState.live, hstopped.intervals, hstarted]
  delay live hlive := by simp [MetricsState.live, hstopped.intervals] at hlive

theorem Running.timersAgree_iff (hrunning : Running state collect retention delay)
    (hstarted : state.started = true) :
    TimersAgree config state ↔ delay = effectiveIntervalMs config state.settings := by
  constructor
  · intro hagree
    exact hagree.delay ⟨collect, .collect, delay⟩ (by simp [hrunning.live_collect])
  · intro hdelay
    refine ⟨call_steady (.running _ _ _ hstarted hrunning), ?_, ?_⟩
    · intro kind
      cases kind with
      | collect => simp [hrunning.live_collect, hstarted]
      | retention => simp [hrunning.live_retention, hstarted]
    · intro live hlive
      rw [hrunning.live_collect, List.mem_singleton] at hlive
      rw [hlive]
      exact hdelay

theorem timersAgree_step (hshape : TimersInShape state)
    (hagree : TimersAgree config state)
    (hok : ¬ LeavesTimerBehind config state action)
    (hstep : (metricsMachine config).step state action = some next) :
    TimersAgree config next := by
  cases hshape with
  | stopped hstarted hstopped =>
      rcases stopped_step hstopped hstarted hstep with
        ⟨hnext, hstays⟩ | ⟨hnext, collect, retention, hrunning⟩
      · exact hstays.timersAgree hnext
      · exact (hrunning.timersAgree_iff hnext).mpr rfl
  | running collect retention delay hstarted hrunning =>
      have hdelay := (hrunning.timersAgree_iff hstarted).mp hagree
      rcases running_step hrunning hstarted hstep with
        ⟨hnext, hstops⟩ | ⟨hnext, hinForce⟩ | ⟨hnext, value, hkept, hsetting, hbehind⟩
      · exact hstops.timersAgree hnext
      · cases hinForce with
        | kept collect retention hkept hsetting =>
            exact (hkept.timersAgree_iff hnext).mpr (hdelay.trans hsetting.symm)
        | reset collect retention hreset =>
            exact (hreset.timersAgree_iff hnext).mpr rfl
      · have hsame : value = reportedIntervalSeconds config state.settings := by
          by_contra hne
          exact hok (hbehind hne)
        rw [hkept.timersAgree_iff hnext, hsetting, hsame, hdelay, effectiveIntervalMs_eq]

theorem not_timersAgree_of_behind (hshape : TimersInShape state)
    (hagree : TimersAgree config state)
    (hbehind : LeavesTimerBehind config state action)
    (hstep : (metricsMachine config).step state action = some next) :
    ¬ TimersAgree config next := by
  match action with
  | .call (.updateSettings interval retention faults username ipAddress) =>
      obtain ⟨hstarted, input, value, hinput, hvalue, hfirst, hdays, hsecond, hnew⟩ :=
        hbehind
      cases hshape with
      | stopped hstopped _ => simp [hstopped] at hstarted
      | running collect retention delay _ hrunning =>
          have hdelay := (hrunning.timersAgree_iff hstarted).mp hagree
          obtain ⟨reached, hreached, hkept, hsetting⟩ := hrunning.update_torn
            config username ipAddress ⟨hvalue, hfirst, hdays, hsecond⟩
            (updateSettingsSchema_bound hinput hvalue)
          simp only [metricsMachine, MetricsState.step, MetricsState.stages, hinput,
            hreached, Option.some.injEq] at hstep
          subst next
          have hrun : Running { reached with started := state.started } collect
            retention delay := hkept.frame rfl rfl rfl rfl
          intro hstill
          have hsame := (hrun.timersAgree_iff hstarted).mp hstill
          rw [hdelay, hsetting, effectiveIntervalMs_eq] at hsame
          omega

theorem metricsTimers_agree_iff (config : MetricsConfig) (settings : SettingsTable)
    (clock : ℤ) (word : List MetricsAction) (last : MetricsState)
    (hexec : (metricsMachine config).exec (.initial settings clock) word = some last) :
    (metricsMachine config).Along (TimersAgree config) (.initial settings clock) word ↔
      (metricsMachine config).Admits
        (fun state action => ¬ LeavesTimerBehind config state action)
        (.initial settings clock) word := by
  have hinitial : Stopped (.initial settings clock) := ⟨rfl, rfl, rfl⟩
  exact Machine.along_iff_admits timersInShape_preserved
    (fun _ _ _ hshape hagree _ hok hstep => timersAgree_step hshape hagree hok hstep)
    (fun _ _ _ hshape hagree _ hnot hstep =>
      not_timersAgree_of_behind hshape hagree (not_not.mp hnot) hstep)
    (.stopped rfl hinitial) (hinitial.timersAgree rfl)
    (Machine.admits_anyAction _ _) hexec

/-- Both settings change while the service is started. -/
def updateBoth (faults : WriteFaults) : List MetricsAction :=
  [.call .start,
    .call (.updateSettings (some 60) (some 14) faults (some "root") none)]

theorem metricsTimers_agree_after_update :
    (metricsMachine .byDefault).Along (TimersAgree .byDefault)
      (.initial .empty 0) (updateBoth ⟨false, false⟩) := by
  refine (metricsTimers_agree_iff .byDefault .empty 0 (updateBoth ⟨false, false⟩)
    _ rfl).mpr ?_
  refine ⟨by simp [LeavesTimerBehind], fun _ _ => ⟨?_, fun _ _ => trivial⟩⟩
  simp [LeavesTimerBehind]

/-- The second write throws: the table says 60 seconds, and samples are taken
every 15. -/
theorem metricsTimers_disagree_after_torn_update :
    ∃ last, (metricsMachine .byDefault).exec (.initial .empty 0)
        (updateBoth ⟨false, true⟩) = some last ∧
      (last.live .collect).map LiveInterval.delay = [15000] ∧
      reportedIntervalSeconds .byDefault last.settings = 60 ∧
      ¬ TimersAgree .byDefault last := by
  obtain ⟨last, hexec, htest⟩ := Machine.exists_of_exec_map
    (metricsMachine .byDefault) (.initial .empty 0) (updateBoth ⟨false, true⟩)
    (fun last => (last.live .collect).map LiveInterval.delay = [15000] ∧
      reportedIntervalSeconds .byDefault last.settings = 60) (by decide +kernel)
  obtain ⟨hdelay, hreported⟩ := of_decide_eq_true htest
  refine ⟨last, hexec, hdelay, hreported, fun hagree => ?_⟩
  obtain ⟨live, hlive⟩ := List.exists_mem_of_ne_nil (last.live .collect)
    (fun hempty => by simp [hempty] at hdelay)
  have hmem := List.mem_map_of_mem (f := LiveInterval.delay) hlive
  rw [hdelay, List.mem_singleton, hagree.delay live hlive, hreported] at hmem
  simp at hmem

end Pm2Manager
