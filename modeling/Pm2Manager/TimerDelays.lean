import Pm2Manager.Binary64
import Pm2Manager.MetricsTimers

/-!
# The delay of the collection interval

The delay handed to `setInterval`, in doubles as the service computes it: the
seconds of the environment become milliseconds and seconds again, a stored
setting takes their place, and the outcome becomes milliseconds.  The runtime
knows no delay above `2 ^ 31 - 1`; such an interval fires every millisecond.
-/

namespace Pm2Manager

open FieldCheck ScriptText

inductive Double
  | finite (value : ℚ)
  | infinity
deriving DecidableEq, Repr

namespace Double

def ofRat (x : ℚ) : Double :=
  if Binary64.round x < 2 ^ 1024 then .finite (Binary64.round x) else .infinity

def ofNat (n : ℕ) : Double := ofRat n

def mul : Double → ℕ → Double
  | .finite x, n => ofRat (x * n)
  | .infinity, _ => .infinity

def div : Double → ℕ → Double
  | .finite x, n => ofRat (x / n)
  | .infinity, _ => .infinity

theorem ofRat_natCast {n : ℕ} (hn : n < 2 ^ 53) : ofRat n = .finite n := by
  have hbound : (n : ℚ) < 2 ^ 1024 := by
    calc
      (n : ℚ) < 2 ^ 53 := by exact_mod_cast hn
      _ ≤ 2 ^ 1024 := pow_le_pow_right₀ (by norm_num) (by norm_num)
  rw [ofRat, Binary64.round_natCast hn, if_pos hbound]

theorem mul_finite_natCast {n m : ℕ} (hproduct : n * m < 2 ^ 53) :
    (Double.finite n).mul m = .finite (n * m : ℕ) := by
  rw [mul, ← Nat.cast_mul, ofRat_natCast hproduct]

theorem mul_eq_finite {x : Double} {n : ℕ} {value : ℚ}
    (hvalue : x.mul n = .finite value) :
    ∃ y, x = .finite y ∧ ofRat (y * n) = .finite value := by
  cases x with
  | finite y => exact ⟨y, rfl, hvalue⟩
  | infinity => simp [mul] at hvalue

theorem div_eq_finite {x : Double} {n : ℕ} {value : ℚ}
    (hvalue : x.div n = .finite value) :
    ∃ y, x = .finite y ∧ ofRat (y / n) = .finite value := by
  cases x with
  | finite y => exact ⟨y, rfl, hvalue⟩
  | infinity => simp [div] at hvalue

/-- Rounding loses at most one part in `2 ^ 53`. -/
theorem le_of_ofRat_eq {x value : ℚ} (hx : 1 ≤ x) (hvalue : ofRat x = .finite value) :
    x - x / 2 ^ 53 ≤ value := by
  unfold ofRat at hvalue
  split at hvalue
  · rw [Double.finite.injEq] at hvalue
    rw [← hvalue]
    exact Binary64.sub_le_round hx
  · simp at hvalue

end Double

/-! ## The delay -/

namespace MetricsConfig

/-- `config.metrics.intervalMs`. -/
def intervalMsDouble (config : MetricsConfig) : Double :=
  (Double.ofNat config.intervalSeconds).mul 1000

end MetricsConfig

/-- `numberSetting`, its result as a double. -/
def numberSettingDouble (settings : SettingsTable) (key : String)
    (fallback : Double) : Double :=
  match settings.get key with
  | none => fallback
  | some text => if isNumeral text then .ofNat (toNumber text) else fallback

/-- `effectiveIntervalMs`, as it is handed to `setInterval`. -/
def collectDelay (config : MetricsConfig) (settings : SettingsTable) : Double :=
  (numberSettingDouble settings keyInterval (config.intervalMsDouble.div 1000)).mul 1000

def timeoutMax : ℕ := 2 ^ 31 - 1

/-- The period of an interval: a delay out of range is replaced by 1. -/
def timerPeriod : Double → ℚ
  | .finite x => if 1 ≤ x ∧ x ≤ timeoutMax then x else 1
  | .infinity => 1

/-- The delay is a number of milliseconds the timers take as it is, and it is
the configured one. -/
structure SampledAsConfigured (config : MetricsConfig) (settings : SettingsTable)
    (live : LiveInterval) : Prop where
  delay : collectDelay config settings = .finite live.delay
  low : 1000 ≤ live.delay
  high : live.delay ≤ timeoutMax
  period : timerPeriod (collectDelay config settings) =
    (reportedIntervalSeconds config settings * 1000 : ℕ)

/-- What `PUT /api/settings` can leave in the table, from a table which nothing
else has written; a write which throws leaves the writes before it. -/
inductive WrittenByPut : SettingsTable → Prop
  | empty : WrittenByPut .empty
  | put {state : MetricsState} (config : MetricsConfig) (interval retention : Option ℤ)
      (faults : WriteFaults) (username ipAddress : Option String)
      (hwritten : WrittenByPut state.settings) :
      WrittenByPut (state.runStages (state.stages config
        (.updateSettings interval retention faults username ipAddress))).settings

def collectorsSet (state next : MetricsState) : List LiveInterval :=
  next.intervals.filter fun live => live.kind = .collect ∧ state.nextTimer ≤ live.id

/-- Every delay which the step passes to `setInterval` for the collector. -/
def DelaysFit (config : MetricsConfig) (state : MetricsState) (_ : MetricsAction)
    (next : MetricsState) : Prop :=
  ∀ live ∈ collectorsSet state next, SampledAsConfigured config next.settings live

/-- The interval in force is a stored one, or few enough seconds. -/
def IntervalFits (config : MetricsConfig) (settings : SettingsTable) : Prop :=
  config.intervalSeconds ≤ 2147483 ∨ (settings.get keyInterval).isSome

/-- A call which sets the interval without writing the setting finds an
interval which fits. -/
def FindsFittingInterval (config : MetricsConfig) (state : MetricsState) :
    MetricsAction → Prop
  | .call .start => state.collectTimer.isSome ∨ IntervalFits config state.settings
  | .call .reschedule => state.collectTimer.isNone ∨ IntervalFits config state.settings
  | _ => True

/-! ## Stored intervals -/

/-- The interval is not stored, or it is the text of an accepted number. -/
def IntervalAccepted (settings : SettingsTable) : Prop :=
  ∀ text, settings.get keyInterval = some text →
    ∃ value, 5 ≤ value ∧ value ≤ 3600 ∧ text = toString value

variable {config : MetricsConfig} {settings : SettingsTable}
variable {state next last : MetricsState} {action : MetricsAction}
variable {interval days : Option ℕ} {faults : WriteFaults}
variable {username ipAddress : Option String} {value : ℕ}

theorem intervalAccepted_of_get_eq {other : SettingsTable}
    (hget : other.get keyInterval = settings.get keyInterval)
    (haccepted : IntervalAccepted settings) : IntervalAccepted other := by
  intro text htext
  exact haccepted text (hget ▸ htext)

theorem intervalAccepted_of_get_toString (hlow : 5 ≤ value) (hhigh : value ≤ 3600)
    (hget : settings.get keyInterval = some (toString value)) :
    IntervalAccepted settings := by
  intro text htext
  rw [hget, Option.some.injEq] at htext
  exact ⟨value, hlow, hhigh, htext.symm⟩

/-! ## Which delays fit -/

theorem collectDelay_of_unset (hunset : settings.get keyInterval = none) :
    collectDelay config settings = (config.intervalMsDouble.div 1000).mul 1000 := by
  simp [collectDelay, numberSettingDouble, hunset]

theorem collectDelay_of_set (hlow : value ≤ 3600)
    (hset : settings.get keyInterval = some (toString value)) :
    collectDelay config settings = .finite (value * 1000 : ℕ) := by
  have hvalue : value < 2 ^ 53 := by omega
  rw [collectDelay, numberSettingDouble, hset]
  simp only [isNumeral_toString, if_true, toNumber_toString hvalue, Double.ofNat]
  rw [Double.ofRat_natCast hvalue, Double.mul_finite_natCast (by omega)]

/-- The seconds survive the way to milliseconds and back. -/
theorem collectDelay_of_small (hunset : settings.get keyInterval = none)
    (hsmall : config.intervalSeconds * 1000 < 2 ^ 53) :
    collectDelay config settings = .finite (config.intervalSeconds * 1000 : ℕ) := by
  have hms : config.intervalMsDouble = .finite (config.intervalSeconds * 1000 : ℕ) := by
    rw [MetricsConfig.intervalMsDouble, Double.ofNat, Double.ofRat_natCast (by omega),
      Double.mul_finite_natCast (by omega)]
  have hseconds : config.intervalMsDouble.div 1000 = .finite config.intervalSeconds := by
    have hquotient : ((config.intervalSeconds * 1000 : ℕ) : ℚ) / (1000 : ℕ) =
        config.intervalSeconds := by
      push_cast
      field_simp
    rw [hms, Double.div, hquotient, Double.ofRat_natCast (by omega)]
  rw [collectDelay_of_unset hunset, hseconds, Double.mul_finite_natCast (by omega)]

/-- Each of the four roundings keeps the delay beyond the range of timers. -/
theorem timeoutMax_lt_collectDelay {delay : ℚ}
    (hunset : settings.get keyInterval = none)
    (hlarge : 2147484 ≤ config.intervalSeconds)
    (hdelay : collectDelay config settings = .finite delay) : timeoutMax < delay := by
  have hseconds : (2147484 : ℚ) ≤ config.intervalSeconds := by exact_mod_cast hlarge
  rw [collectDelay_of_unset hunset, MetricsConfig.intervalMsDouble] at hdelay
  obtain ⟨again, hthird, hdelay⟩ := Double.mul_eq_finite hdelay
  obtain ⟨ms, hsecond, hthird⟩ := Double.div_eq_finite hthird
  obtain ⟨seconds, hfirst, hsecond⟩ := Double.mul_eq_finite hsecond
  push_cast at hdelay hthird hsecond
  have hlowSeconds := Double.le_of_ofRat_eq (by linarith) hfirst
  have hlowMs := Double.le_of_ofRat_eq (by linarith) hsecond
  have hlowAgain := Double.le_of_ofRat_eq (by linarith) hthird
  have hlowDelay := Double.le_of_ofRat_eq (by linarith) hdelay
  have hmax : (timeoutMax : ℚ) = 2147483647 := by norm_num [timeoutMax]
  rw [hmax]
  linarith

theorem reportedIntervalSeconds_of_unset (hunset : settings.get keyInterval = none) :
    reportedIntervalSeconds config settings = config.intervalSeconds := by
  simp [reportedIntervalSeconds, readSettings, hunset, toNumberOr,
    MetricsConfig.defaults, MetricsConfig.intervalMs]

theorem reportedIntervalSeconds_of_set (hvalue : value ≤ 3600)
    (hset : settings.get keyInterval = some (toString value)) :
    reportedIntervalSeconds config settings = value := by
  simp only [reportedIntervalSeconds, readSettings, hset]
  exact toNumberOr_toString (by omega)

theorem sampledAsConfigured_of_delay {live : LiveInterval} {seconds : ℕ}
    (hlive : live.delay = effectiveIntervalMs config settings)
    (hreported : reportedIntervalSeconds config settings = seconds)
    (hdelay : collectDelay config settings = .finite (seconds * 1000 : ℕ))
    (hlow : 1 ≤ seconds) (hhigh : seconds ≤ 2147483) :
    SampledAsConfigured config settings live := by
  have hms : live.delay = seconds * 1000 := by
    rw [hlive, effectiveIntervalMs_eq, hreported]
  refine ⟨by rw [hdelay, hms], by omega, by rw [timeoutMax]; omega, ?_⟩
  have hone : (1 : ℚ) ≤ (seconds * 1000 : ℕ) := by exact_mod_cast (by omega)
  have hmax : ((seconds * 1000 : ℕ) : ℚ) ≤ timeoutMax := by
    rw [timeoutMax]
    exact_mod_cast (by omega)
  rw [hdelay, hreported, timerPeriod, if_pos ⟨hone, hmax⟩]

theorem sampledAsConfigured_iff {live : LiveInterval}
    (haccepted : IntervalAccepted settings)
    (hlive : live.delay = effectiveIntervalMs config settings) :
    SampledAsConfigured config settings live ↔ IntervalFits config settings := by
  have hpositive := config.intervalPositive
  cases hget : settings.get keyInterval with
  | some text =>
      obtain ⟨value, hlow, hhigh, rfl⟩ := haccepted text hget
      refine iff_of_true ?_ (.inr (by simp [hget]))
      exact sampledAsConfigured_of_delay hlive
        (reportedIntervalSeconds_of_set hhigh hget) (collectDelay_of_set hhigh hget)
        (by omega) (by omega)
  | none =>
      simp only [IntervalFits, hget, Option.isSome_none, Bool.false_eq_true, or_false]
      constructor
      · intro hsampled
        by_contra hlarge
        have hbeyond := timeoutMax_lt_collectDelay hget (by omega) hsampled.delay
        exact absurd hsampled.high (not_le.mpr (by exact_mod_cast hbeyond))
      · intro hsmall
        exact sampledAsConfigured_of_delay hlive
          (reportedIntervalSeconds_of_unset hget)
          (collectDelay_of_small hget (by omega)) (by omega) hsmall

/-! ## What the calls set and store -/

open MetricsState

theorem TimersInShape.id_lt (hshape : TimersInShape state) {live : LiveInterval}
    (hlive : live ∈ state.intervals) : live.id < state.nextTimer := by
  cases hshape with
  | stopped _ hstopped => simp [hstopped.intervals] at hlive
  | running collect retention delay _ hrunning =>
      have hcollect := hrunning.collectOld
      have hretention := hrunning.retentionOld
      rw [hrunning.intervals.mem_iff, List.mem_cons, List.mem_singleton] at hlive
      rcases hlive with rfl | rfl
      · exact hcollect
      · exact hretention

theorem collectorsSet_of_subset (hshape : TimersInShape state)
    (hsubset : ∀ live ∈ next.intervals, live ∈ state.intervals) :
    collectorsSet state next = [] := by
  rw [collectorsSet, List.filter_eq_nil_iff]
  intro live hlive hnew
  simp only [decide_eq_true_eq] at hnew
  exact absurd hnew.2 (not_le.mpr (hshape.id_lt (hsubset live hlive)))

theorem collectorsSet_of_append (hshape : TimersInShape state) {delay : ℕ}
    {kept others : List LiveInterval} (hkept : ∀ live ∈ kept, live ∈ state.intervals)
    (hothers : ∀ live ∈ others, live.kind = .retention)
    (hnext : next.intervals = kept ++ ⟨state.nextTimer, .collect, delay⟩ :: others) :
    collectorsSet state next = [⟨state.nextTimer, .collect, delay⟩] := by
  have hold : (kept.filter fun live =>
      live.kind = .collect ∧ state.nextTimer ≤ live.id) = [] := by
    rw [List.filter_eq_nil_iff]
    intro live hlive hnew
    simp only [decide_eq_true_eq] at hnew
    exact absurd hnew.2 (not_le.mpr (hshape.id_lt (hkept live hlive)))
  have hretention : (others.filter fun live =>
      live.kind = .collect ∧ state.nextTimer ≤ live.id) = [] := by
    rw [List.filter_eq_nil_iff]
    intro live hlive
    simp [hothers live hlive]
  rw [collectorsSet, hnext, List.filter_append, List.filter_cons, hold, hretention]
  simp

theorem mem_of_mem_clearCollect {live : LiveInterval}
    (hlive : live ∈ state.clearCollect.intervals) : live ∈ state.intervals :=
  List.mem_of_mem_filter hlive

theorem update_outcome (config : MetricsConfig) (state : MetricsState)
    (interval days : Option ℕ) (faults : WriteFaults) (username ipAddress : Option String)
    (next : MetricsState) (hnext : next = state.runStages
      (state.updateStages config interval days faults username ipAddress)) :
    (next.settings.get keyInterval = state.settings.get keyInterval ∧
        next.intervals = state.intervals) ∨
      ∃ value, interval = some value ∧
        next.settings.get keyInterval = some (toString value) ∧
        (next.intervals = state.intervals ∨
          next.intervals = state.clearCollect.intervals ++
            [⟨state.nextTimer, .collect, effectiveIntervalMs config next.settings⟩]) := by
  have hother : keyInterval ≠ keyRetention := by decide
  subst hnext
  cases interval with
  | none =>
      left
      cases days with
      | none => exact ⟨rfl, rfl⟩
      | some days =>
          cases hfault : faults.retention with
          | true => simp [updateStages, hfault, runStages]
          | false =>
              simp [updateStages, hfault, runStages, recordChange,
                MetricsState.writeSetting, SettingsTable.get_set_of_ne hother]
  | some value =>
      cases hinterval : faults.interval with
      | true => simp [updateStages, hinterval, runStages]
      | false =>
          right
          refine ⟨value, rfl, ?_⟩
          cases days with
          | none =>
              cases htimer : state.collectTimer <;>
                simp [updateStages, hinterval, runStages, rescheduleStages, htimer,
                  recordChange, MetricsState.writeSetting, clearCollect, clearInterval,
                  setCollect, setInterval]
          | some days =>
              cases hretention : faults.retention with
              | true =>
                  simp [updateStages, hinterval, hretention, runStages,
                    MetricsState.writeSetting]
              | false =>
                  cases htimer : state.collectTimer <;>
                    simp [updateStages, hinterval, hretention, runStages,
                      rescheduleStages, htimer, recordChange,
                      MetricsState.writeSetting, clearCollect, clearInterval,
                      setCollect, setInterval, SettingsTable.get_set_of_ne hother]

/-- An update which is refused changes nothing; one which is accepted stores an
accepted interval or leaves the stored one. -/
theorem updateSettings_outcome (config : MetricsConfig) (state : MetricsState)
    (interval retention : Option ℤ) (faults : WriteFaults)
    (username ipAddress : Option String) (next : MetricsState)
    (hnext : next = state.runStages (state.stages config
      (.updateSettings interval retention faults username ipAddress))) :
    (next.settings.get keyInterval = state.settings.get keyInterval ∧
        next.intervals = state.intervals) ∨
      ∃ value, 5 ≤ value ∧ value ≤ 3600 ∧
        next.settings.get keyInterval = some (toString value) ∧
        (next.intervals = state.intervals ∨
          next.intervals = state.clearCollect.intervals ++
            [⟨state.nextTimer, .collect, effectiveIntervalMs config next.settings⟩]) := by
  simp only [MetricsState.stages] at hnext
  split at hnext
  next input hinput =>
    rcases update_outcome config state input.metricsIntervalSeconds
        input.metricsRetentionDays faults username ipAddress next hnext with
      hkept | ⟨value, hvalue, hstored, hintervals⟩
    · exact .inl hkept
    · obtain ⟨hlow, hhigh⟩ := updateSettingsSchema_interval hinput hvalue
      exact .inr ⟨value, hlow, hhigh, hstored, hintervals⟩
  · subst hnext
    exact .inl ⟨rfl, rfl⟩

theorem WrittenByPut.accepted (hwritten : WrittenByPut settings) :
    IntervalAccepted settings := by
  induction hwritten with
  | empty =>
      intro text htext
      simp [SettingsTable.get, SettingsTable.empty] at htext
  | put config interval retention faults username ipAddress _ ih =>
      rcases updateSettings_outcome config _ interval retention faults username
          ipAddress _ rfl with ⟨hkept, _⟩ | ⟨value, hlow, hhigh, hstored, _⟩
      · exact intervalAccepted_of_get_eq hkept ih
      · exact intervalAccepted_of_get_toString hlow hhigh hstored

/-! ## Steps -/

theorem start_intervals (hfree : state.collectTimer = none) :
    (state.runStages (state.startStages config)).intervals = state.intervals ++
      [⟨state.nextTimer, .collect, effectiveIntervalMs config state.settings⟩,
        ⟨state.nextTimer + 1, .retention, retentionIntervalMs⟩] ∧
      (state.runStages (state.startStages config)).settings = state.settings := by
  simp [startStages, hfree, runStages, MetricsState.setRetention, setCollect,
    setInterval, collectOnce]

theorem reschedule_intervals (config : MetricsConfig) (hset : state.collectTimer.isSome) :
    (state.runStages (state.rescheduleStages config)).intervals =
      state.clearCollect.intervals ++
        [⟨state.nextTimer, .collect, effectiveIntervalMs config state.settings⟩] ∧
      (state.runStages (state.rescheduleStages config)).settings = state.settings := by
  simp [rescheduleStages, hset, runStages, setCollect, setInterval, clearCollect,
    clearInterval]

theorem stop_intervals (state : MetricsState) :
    (∀ live ∈ (state.runStages state.stopStages).intervals, live ∈ state.intervals) ∧
      (state.runStages state.stopStages).settings = state.settings := by
  cases hcollect : state.collectTimer <;> cases hretention : state.retentionTimer <;>
    simp +contextual [stopStages, hcollect, hretention, runStages, clearCollect,
      dropCollect, clearRetention, dropRetention, clearInterval]

theorem delaysFit_of_nil (hset : collectorsSet state next = []) :
    DelaysFit config state action next := by
  simp [DelaysFit, hset]

theorem delaysFit_iff_of_singleton (haccepted : IntervalAccepted next.settings)
    (hset : collectorsSet state next =
      [⟨state.nextTimer, .collect, effectiveIntervalMs config next.settings⟩]) :
    DelaysFit config state action next ↔ IntervalFits config next.settings := by
  rw [DelaysFit, hset, List.forall_mem_singleton]
  exact sampledAsConfigured_iff haccepted rfl

theorem step_settings (haccepted : IntervalAccepted state.settings)
    (hstep : state.step config action = some next) :
    IntervalAccepted next.settings := by
  cases action with
  | call call =>
      simp only [MetricsState.step, Option.some.injEq] at hstep
      subst next
      cases call with
      | start =>
          cases hfree : state.collectTimer with
          | none =>
              exact intervalAccepted_of_get_eq
                (congrArg (·.get keyInterval) (start_intervals hfree).2) haccepted
          | some timer => simpa [MetricsState.stages, startStages, hfree, runStages]
      | stop =>
          exact intervalAccepted_of_get_eq
            (congrArg (·.get keyInterval) (stop_intervals state).2) haccepted
      | reschedule =>
          cases hfree : state.collectTimer with
          | none => simpa [MetricsState.stages, rescheduleStages, hfree, runStages]
          | some timer =>
              have hset : state.collectTimer.isSome := by simp [hfree]
              exact intervalAccepted_of_get_eq
                (congrArg (·.get keyInterval) (reschedule_intervals config hset).2)
                haccepted
      | updateSettings interval retention faults username ipAddress =>
          rcases updateSettings_outcome config state interval retention faults username
              ipAddress _ rfl with ⟨hkept, _⟩ | ⟨value, hlow, hhigh, hstored, _⟩
          · exact intervalAccepted_of_get_eq hkept haccepted
          · exact intervalAccepted_of_get_toString hlow hhigh hstored
  | tick | listed | advance =>
      have hframe := step_frame hstep (by simp)
      rw [hframe.2.2.2.2.1]
      exact haccepted

/-- Only a `start` or a `reschedule` which takes effect can set a delay out of
range: the interval of an update has been checked. -/
theorem delaysFit_iff (hshape : TimersInShape state)
    (haccepted : IntervalAccepted state.settings)
    (hstep : state.step config action = some next) :
    DelaysFit config state action next ↔ FindsFittingInterval config state action := by
  have hnextAccepted := step_settings haccepted hstep
  cases action with
  | call call =>
      simp only [MetricsState.step, Option.some.injEq] at hstep
      subst next
      cases call with
      | start =>
          cases hfree : state.collectTimer with
          | none =>
              obtain ⟨hintervals, hsettings⟩ := start_intervals hfree
              simp only [FindsFittingInterval, hfree, Option.isSome_none,
                Bool.false_eq_true, false_or]
              rw [← hsettings] at hintervals ⊢
              exact delaysFit_iff_of_singleton hnextAccepted
                (collectorsSet_of_append hshape (fun live hlive => hlive) (by simp)
                  hintervals)
          | some timer =>
              refine iff_of_true (delaysFit_of_nil (collectorsSet_of_subset hshape ?_)) ?_
              · simp [MetricsState.stages, startStages, hfree, runStages]
              · simp [FindsFittingInterval, hfree]
      | stop =>
          refine iff_of_true (delaysFit_of_nil (collectorsSet_of_subset hshape ?_)) trivial
          exact (stop_intervals state).1
      | reschedule =>
          cases hfree : state.collectTimer with
          | none =>
              refine iff_of_true (delaysFit_of_nil (collectorsSet_of_subset hshape ?_)) ?_
              · simp [MetricsState.stages, rescheduleStages, hfree, runStages]
              · simp [FindsFittingInterval, hfree]
          | some timer =>
              have hset : state.collectTimer.isSome := by simp [hfree]
              obtain ⟨hintervals, hsettings⟩ := reschedule_intervals config hset
              simp only [FindsFittingInterval, hfree, Option.isNone_some,
                Bool.false_eq_true, false_or]
              rw [← hsettings] at hintervals ⊢
              exact delaysFit_iff_of_singleton hnextAccepted
                (collectorsSet_of_append hshape (fun _ => mem_of_mem_clearCollect)
                  (by simp) hintervals)
      | updateSettings interval retention faults username ipAddress =>
          refine iff_of_true ?_ trivial
          rcases updateSettings_outcome config state interval retention faults username
              ipAddress _ rfl with
            ⟨_, hkept⟩ | ⟨value, _, _, hstored, hkept | hintervals⟩
          · exact delaysFit_of_nil (collectorsSet_of_subset hshape fun live hlive =>
              hkept ▸ hlive)
          · exact delaysFit_of_nil (collectorsSet_of_subset hshape fun live hlive =>
              hkept ▸ hlive)
          · refine (delaysFit_iff_of_singleton hnextAccepted (collectorsSet_of_append
              hshape (fun _ => mem_of_mem_clearCollect) (by simp) hintervals)).mpr ?_
            exact .inr (Option.isSome_iff_exists.mpr ⟨_, hstored⟩)
  | tick | listed | advance =>
      have hframe := step_frame hstep (by simp)
      refine iff_of_true (delaysFit_of_nil (collectorsSet_of_subset hshape ?_)) trivial
      rw [hframe.2.2.2.1]
      exact fun live hlive => hlive

/-! ## Runs -/

theorem delays_shape_preserved :
    (metricsMachine config).Preserves Machine.anyAction fun state =>
      TimersInShape state ∧ IntervalAccepted state.settings := by
  intro state action next ⟨hshape, haccepted⟩ _ hstep
  exact ⟨timersInShape_preserved state action next hshape trivial hstep,
    step_settings haccepted hstep⟩

theorem initial_shape (hwritten : WrittenByPut settings) (clock : ℤ) :
    TimersInShape (.initial settings clock) ∧
      IntervalAccepted (MetricsState.initial settings clock).settings :=
  ⟨.stopped rfl ⟨rfl, rfl, rfl⟩, hwritten.accepted⟩

/-- The configurations are those of the accepted environments. -/
theorem envSchema_config (config : MetricsConfig) :
    envSchema (some config.intervalSeconds) (some config.retentionDays) = .ok config := by
  have hinterval := config.intervalPositive
  have hretention := config.retentionPositive
  simp [envSchema, hinterval, hretention]

/-- In every run over a table which the updates have written, the delays fit
exactly as long as every interval which is set without being written fits. -/
theorem delays_fit_iff {clock : ℤ} {word : List MetricsAction}
    (hwritten : WrittenByPut settings)
    (hexec : (metricsMachine config).exec (.initial settings clock) word = some last) :
    (metricsMachine config).Steps (DelaysFit config) (.initial settings clock) word ↔
      (metricsMachine config).Admits (FindsFittingInterval config)
        (.initial settings clock) word := by
  refine Machine.steps_iff_admits delays_shape_preserved ?_
    (initial_shape hwritten clock) hexec
  intro state action next ⟨hshape, haccepted⟩ hstep
  exact delaysFit_iff hshape haccepted hstep

/-- An accepted configuration whose delay is too long for a timer. -/
def longInterval : MetricsConfig where
  intervalSeconds := 2147484
  retentionDays := 7
  intervalPositive := Nat.succ_pos _
  retentionPositive := Nat.succ_pos _

def storeInterval (value : ℤ) : MetricsCall :=
  .updateSettings (some value) none { interval := false, retention := false }
    (some "root") none

/-- An administrator has stored an interval of a minute. -/
def minuteStored : SettingsTable :=
  ((MetricsState.initial .empty 0).runStages
    ((MetricsState.initial .empty 0).stages longInterval (storeInterval 60))).settings

def findsStored (state : MetricsState) : MetricsAction → Bool
  | .call .start | .call .reschedule => (state.settings.get keyInterval).isSome
  | _ => true

/-- The stored interval is in force, and then an hour, however long the
configured one. -/
theorem delays_fit_storedInterval :
    (metricsMachine longInterval).Steps (DelaysFit longInterval) (.initial minuteStored 0)
      [.call .start, .call .reschedule, .call (storeInterval 3600), .call .reschedule] := by
  have hwritten : WrittenByPut minuteStored :=
    .put longInterval (some 60) none _ (some "root") none .empty
  refine (delays_fit_iff hwritten rfl).mpr ?_
  have hchecks : (metricsMachine longInterval).checks findsStored
      (.initial minuteStored 0) [.call .start, .call .reschedule,
        .call (storeInterval 3600), .call .reschedule] = true := by decide +kernel
  have hany : (metricsMachine longInterval).Preserves Machine.anyAction fun _ => True :=
    fun _ _ _ _ _ _ => trivial
  refine Machine.admits_of_checks hany ?_ trivial hchecks
  intro state action _ hfinds
  unfold findsStored at hfinds
  split at hfinds
  · exact .inr (.inr hfinds)
  · exact .inr (.inr hfinds)
  next hother hother' =>
    unfold FindsFittingInterval
    split
    · exact absurd rfl hother
    · exact absurd rfl hother'
    · trivial

/-- 2147484 seconds are accepted, and sampled every millisecond. -/
theorem longInterval_sampled_every_ms :
    envSchema (some 2147484) (some 7) = .ok longInterval ∧ WrittenByPut .empty ∧
      timerPeriod (collectDelay longInterval .empty) = 1 ∧
      ¬ (metricsMachine longInterval).Steps (DelaysFit longInterval)
        (.initial .empty 0) [.call .start] := by
  have hdelay : collectDelay longInterval .empty = .finite (2147484 * 1000 : ℕ) :=
    collectDelay_of_small rfl (by decide)
  refine ⟨envSchema_config longInterval, .empty, ?_, ?_⟩
  · rw [hdelay]
    norm_num [timerPeriod, timeoutMax]
  · intro hsteps
    have hset := hsteps.head rfl
    have hlive := hset ⟨0, .collect, 2147484000⟩ (by decide)
    exact absurd hlive.high (by decide)

end Pm2Manager
