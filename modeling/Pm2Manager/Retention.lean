import Pm2Manager.ActivityLog
import Pm2Manager.Calendar
import Pm2Manager.MetricsTable
import Pm2Manager.SettingsTable

/-!
# Retention

The configuration of the collector, the effective settings, and the hourly
sweep which deletes old samples and old activity.  The activity log is cut by
comparing texts: its `created_at` with an ISO cutoff in the same format.
-/

namespace Pm2Manager

open Calendar FieldCheck ScriptText

/-! ## Configuration and settings -/

/-- `config.metrics`; both variables of the environment are positive. -/
structure MetricsConfig where
  intervalSeconds : ℕ
  retentionDays : ℕ
  intervalPositive : 0 < intervalSeconds
  retentionPositive : 0 < retentionDays

/-- `METRICS_INTERVAL_SECONDS` and `METRICS_RETENTION_DAYS` of `envSchema`,
once they are coerced to integers; there is no upper bound. -/
def envSchema (interval retention : Option ℤ) :
    Except (List (String × String)) MetricsConfig :=
  let interval := interval.getD 15
  let retention := retention.getD 7
  if hpositive : 0 < interval ∧ 0 < retention then
    .ok {
      intervalSeconds := interval.toNat
      retentionDays := retention.toNat
      intervalPositive := by omega
      retentionPositive := by omega }
  else
    .error
      ((if 0 < interval then [] else
          [("METRICS_INTERVAL_SECONDS", "Number must be greater than 0")]) ++
        if 0 < retention then [] else
          [("METRICS_RETENTION_DAYS", "Number must be greater than 0")])

namespace MetricsConfig

/-- The configuration when neither variable is set. -/
def byDefault : MetricsConfig where
  intervalSeconds := 15
  retentionDays := 7
  intervalPositive := by decide
  retentionPositive := by decide

example : envSchema none none = .ok byDefault := by
  simp [envSchema, byDefault]

def intervalMs (config : MetricsConfig) : ℕ :=
  config.intervalSeconds * 1000

/-- What the settings controller reports for keys which are not set. -/
def defaults (config : MetricsConfig) : SettingsView where
  metricsIntervalSeconds := config.intervalMs / 1000
  metricsRetentionDays := config.retentionDays

end MetricsConfig

def dayMs : ℕ := 86400000

def minActivityRetentionDays : ℕ := 30

def numberSetting (settings : SettingsTable) (key : String) (fallback : ℕ) : ℕ :=
  toNumberOr (settings.get key) fallback

def effectiveIntervalMs (config : MetricsConfig) (settings : SettingsTable) : ℕ :=
  numberSetting settings keyInterval (config.intervalMs / 1000) * 1000

def effectiveRetentionDays (config : MetricsConfig) (settings : SettingsTable) :
    ℕ :=
  numberSetting settings keyRetention config.retentionDays

/-! ## The sweep -/

/-- `DELETE FROM activity_log WHERE created_at < ?`. -/
def ActivityLog.deleteOlderThan (log : ActivityLog) (isoTimestamp : String) :
    ActivityLog :=
  log.filter fun row => ¬ row.createdAt < isoTimestamp

/-- `text.replace(old, new)` of a text of one character. -/
def replaceFirst (old new : Char) : List Char → List Char
  | [] => []
  | c :: rest => if c = old then new :: rest else c :: replaceFirst old new rest

/-- `activityService.prune`; `toISOString` throws outside the range of dates. -/
def ActivityLog.prune (log : ActivityLog) (days : ℕ) (now : ℤ) :
    Except String ActivityLog :=
  match toISOString (now - days * 24 * 60 * 60 * 1000) with
  | some cutoff =>
      .ok (log.deleteOlderThan
        (String.ofList ((replaceFirst 'T' ' ' cutoff).take 19)))
  | none => .error "Invalid time value"

/-- The two tables after a sweep, and the error it has thrown. -/
structure RetentionSweep where
  metrics : MetricsTable
  activity : ActivityLog
  thrown : Option String
deriving DecidableEq, Repr

def runRetention (config : MetricsConfig) (settings : SettingsTable) (now : ℤ)
    (metrics : MetricsTable) (activity : ActivityLog) : RetentionSweep :=
  let retentionDays := effectiveRetentionDays config settings
  let kept := metrics.deleteOlderThan (now - retentionDays * dayMs)
  let activityDays := max (retentionDays * 4) minActivityRetentionDays
  match activity.prune activityDays now with
  | .ok activity => { metrics := kept, activity, thrown := none }
  | .error error => { metrics := kept, activity, thrown := some error }

/-! ## Settings in force -/

theorem toNumberOr_toString {value fallback : ℕ} (hvalue : value < 2 ^ 53) :
    toNumberOr (some (toString value)) fallback = value := by
  simp only [toNumberOr, isNumeral_toString, if_true, toNumber_toString hvalue]

/-- A written setting is the one in force. -/
theorem numberSetting_set {settings : SettingsTable} {key : String}
    {value fallback : ℕ} (hvalue : value < 2 ^ 53) :
    numberSetting (settings.set key (toString value)) key fallback = value := by
  rw [numberSetting, SettingsTable.get_set_self, toNumberOr_toString hvalue]

theorem numberSetting_set_of_ne {settings : SettingsTable}
    {key other value : String} {fallback : ℕ} (hne : other ≠ key) :
    numberSetting (settings.set key value) other fallback =
      numberSetting settings other fallback := by
  rw [numberSetting, SettingsTable.get_set_of_ne hne, numberSetting]

/-! ## The cutoff of the activity log -/

variable {config : MetricsConfig} {settings : SettingsTable} {now : ℤ}
variable {metrics : MetricsTable} {activity : ActivityLog}

theorem replaceFirst_append {old new : Char} {before after : List Char}
    (hbefore : old ∉ before) :
    replaceFirst old new (before ++ old :: after) = before ++ new :: after := by
  induction before with
  | nil => simp [replaceFirst]
  | cons c rest ih =>
      rw [List.mem_cons, not_or] at hbefore
      simp [replaceFirst, Ne.symm hbefore.1, ih hbefore.2]

theorem not_mem_pad {width n : ℕ} {c : Char} (hn : n < 10 ^ width)
    (hc : c.isDigit = false) : c ∉ pad width n := by
  intro hmem
  rw [isDigit_of_mem_pad width n hn c hmem] at hc
  simp at hc

theorem not_mem_dateText {day : ℤ} (hday : (dateOf day).FourDigits) :
    'T' ∉ dateText (dateOf day) := by
  have hbounds := dateOf_bounds day
  rw [dateText_eq hday]
  obtain ⟨hlow, hhigh⟩ := hday
  simp only [List.mem_append, List.mem_cons, not_or]
  refine ⟨not_mem_pad (by omega) rfl, ⟨by decide, not_mem_pad (by omega) rfl⟩,
    by decide, not_mem_pad (by omega) rfl⟩

theorem toISOString_eq_some {timeValue : ℤ} {cutoff : List Char}
    (hcutoff : toISOString timeValue = some cutoff) :
    ∃ rest, cutoff = dateText (dateOf (timeValue / 86400000)) ++
      'T' :: (timeText (timeValue / 1000 % 86400).natAbs ++ rest) := by
  unfold toISOString at hcutoff
  split at hcutoff
  · refine ⟨'.' :: pad 3 (timeValue % 1000).natAbs ++ ['Z'], ?_⟩
    rw [← Option.some.inj hcutoff]
    simp
  · simp at hcutoff

/-- Where the year has four digits, the reformatted cutoff is the text of the
second which contains it. -/
theorem cutoffText_eq {timeValue : ℤ} {cutoff : List Char}
    (hday : (dateOf (timeValue / 86400000)).FourDigits)
    (hcutoff : toISOString timeValue = some cutoff) :
    (replaceFirst 'T' ' ' cutoff).take 19 = datetimeText (timeValue / 1000) := by
  obtain ⟨rest, rfl⟩ := toISOString_eq_some hcutoff
  have hdivision : timeValue / 1000 / 86400 = timeValue / 86400000 := by omega
  rw [replaceFirst_append (not_mem_dateText hday), datetimeText, hdivision,
    ← List.cons_append, ← List.append_assoc]
  exact List.take_left' (by simp [length_dateText hday])

/-- A cutoff before the year 0 starts with a sign, which comes before every
digit. -/
theorem cutoffText_before_year_zero {timeValue : ℤ} {cutoff : List Char}
    (hday : timeValue / 86400000 < dayFromYear 0)
    (hcutoff : toISOString timeValue = some cutoff) :
    ∃ rest, (replaceFirst 'T' ' ' cutoff).take 19 = '-' :: rest := by
  obtain ⟨rest, rfl⟩ := toISOString_eq_some hcutoff
  have hyear := year_neg_of_day hday
  simp [dateText, hyear, replaceFirst]

theorem not_digit_lt_sign {c : Char} (hc : c.isDigit = true) :
    ¬ c < '-' ∧ c ≠ '-' := by
  simp only [Char.isDigit, Bool.and_eq_true, decide_eq_true_eq] at hc
  constructor
  · intro hlt
    exact absurd (UInt32.lt_of_le_of_lt hc.1 hlt) (by decide)
  · rintro rfl
    exact absurd hc.1 (by decide)

theorem not_datetimeText_lt_sign {second : ℤ} {rest : List Char}
    (hday : (dateOf (second / 86400)).FourDigits) :
    ¬ datetimeText second < '-' :: rest := by
  obtain ⟨hlow, hhigh⟩ := hday
  have hdigit := isDigit_of_mem_pad 4 (dateOf (second / 86400)).year.natAbs
    (by omega) _ List.mem_cons_self
  rw [datetimeText, dateText_eq ⟨hlow, hhigh⟩, pad, List.cons_append,
    List.cons_append, List.cons_lt_cons_iff]
  rintro (hless | ⟨heq, _⟩)
  · exact (not_digit_lt_sign hdigit).1 hless
  · exact (not_digit_lt_sign hdigit).2 heq

/-- The comparison of the texts is the comparison of the seconds, for every
cutoff which `toISOString` can write and which is not after the year 9999. -/
theorem datetimeText_lt_cutoff_iff {second timeValue : ℤ} {cutoff : List Char}
    (hsecond : (dateOf (second / 86400)).FourDigits)
    (hcutoff : toISOString timeValue = some cutoff)
    (hyear : timeValue / 86400000 < dayFromYear 10000) :
    datetimeText second < (replaceFirst 'T' ' ' cutoff).take 19 ↔
      second < timeValue / 1000 := by
  rcases lt_or_ge (timeValue / 86400000) (dayFromYear 0) with hbefore | hafter
  · obtain ⟨rest, htext⟩ := cutoffText_before_year_zero hbefore hcutoff
    rw [htext]
    have hstart : dayFromYear 0 ≤ second / 86400 := by
      by_contra hnot
      exact absurd hsecond.1 (not_le.mpr (year_neg_of_day (not_le.mp hnot)))
    constructor
    · exact fun hless => absurd hless (not_datetimeText_lt_sign hsecond)
    · intro hless
      omega
  · have hday := fourDigits_of_day hafter hyear
    rw [cutoffText_eq hday hcutoff]
    refine datetimeText_lt_iff hsecond ?_
    have hdivision : timeValue / 1000 / 86400 = timeValue / 86400000 := by omega
    rwa [hdivision]

/-! ## What a sweep removes -/

/-- `created_at` of an entry recorded in the years 1970 to 9999. -/
structure RecordedAt (row : ActivityRecord) (second : ℤ) : Prop where
  createdAt : row.createdAt = String.ofList (datetimeText second)
  low : 0 ≤ second
  high : second < 253402300800

theorem RecordedAt.fourDigits {row : ActivityRecord} {second : ℤ}
    (hrecorded : RecordedAt row second) :
    (dateOf (second / 86400)).FourDigits := by
  have hlow := hrecorded.low
  have hhigh := hrecorded.high
  apply fourDigits_of_day
  · have hyear : dayFromYear 0 = -719528 := by decide
    omega
  · have hyear : dayFromYear 10000 = 2932897 := by decide
    omega

/-- The sweep completes, and each table loses exactly its old rows. -/
structure SweepExact (days : ℕ) (now : ℤ) (metrics : MetricsTable)
    (activity : ActivityLog) (secondOf : ActivityRecord → ℤ)
    (sweep : RetentionSweep) : Prop where
  completes : sweep.thrown = none
  metrics : sweep.metrics =
    metrics.filter fun row => ¬ row.timestamp < now - days * 86400000
  activity : sweep.activity = activity.filter fun row =>
    ¬ secondOf row < (now - max (4 * days) 30 * 86400000) / 1000

theorem prune_eq (days : ℕ) {secondOf : ActivityRecord → ℤ}
    (hnow : now < 253402300800000)
    (hactivity : ∀ row ∈ activity, RecordedAt row (secondOf row))
    (hrange : days * 86400000 ≤ now + 8640000000000000) :
    activity.prune days now = .ok (activity.filter fun row =>
      ¬ secondOf row < (now - days * 86400000) / 1000) := by
  have hvalue : now - days * 24 * 60 * 60 * 1000 = now - days * 86400000 := by ring
  obtain ⟨cutoff, hcutoff⟩ :
      ∃ cutoff, toISOString (now - days * 86400000) = some cutoff := by
    unfold toISOString
    rw [if_pos (by omega)]
    exact ⟨_, rfl⟩
  have hyear : (now - days * 86400000) / 86400000 < dayFromYear 10000 := by
    have hstart : dayFromYear 10000 = 2932897 := by decide
    omega
  unfold ActivityLog.prune
  rw [hvalue, hcutoff]
  simp only [ActivityLog.deleteOlderThan]
  congr 1
  apply List.filter_congr
  intro row hrow
  have hrecorded := hactivity row hrow
  have htext := datetimeText_lt_cutoff_iff hrecorded.fourDigits hcutoff hyear
  simp only [hrecorded.createdAt, String.lt_iff, String.toList_ofList, htext]

theorem prune_throws (activity : ActivityLog) (days : ℕ)
    (hrange : ¬ days * 86400000 ≤ now + 8640000000000000) :
    activity.prune days now = .error "Invalid time value" := by
  have hvalue : now - days * 24 * 60 * 60 * 1000 = now - days * 86400000 := by ring
  unfold ActivityLog.prune toISOString
  rw [hvalue, if_neg (by omega)]

theorem runRetention_exact_iff (config : MetricsConfig) (settings : SettingsTable)
    (now : ℤ) (metrics : MetricsTable) (activity : ActivityLog)
    (secondOf : ActivityRecord → ℤ) (hnow : now < 253402300800000)
    (hactivity : ∀ row ∈ activity, RecordedAt row (secondOf row)) :
    SweepExact (effectiveRetentionDays config settings) now metrics activity secondOf
        (runRetention config settings now metrics activity) ↔
      max (4 * (effectiveRetentionDays config settings : ℤ)) 30 * 86400000 ≤
        now + 8640000000000000 := by
  set days := effectiveRetentionDays config settings
  have hdays : ((max (days * 4) minActivityRetentionDays : ℕ) : ℤ) =
      max (4 * (days : ℤ)) 30 := by
    simp [minActivityRetentionDays, mul_comm]
  by_cases hrange : max (4 * (days : ℤ)) 30 * 86400000 ≤ now + 8640000000000000
  · have hprune := prune_eq (max (days * 4) minActivityRetentionDays) hnow
      hactivity (by rwa [hdays])
    rw [hdays] at hprune
    refine iff_of_true ?_ hrange
    constructor <;> simp [runRetention, hprune, days, MetricsTable.deleteOlderThan, dayMs]
  · have hthrows := prune_throws activity
      (max (days * 4) minActivityRetentionDays) (by rwa [hdays])
    refine iff_of_false (fun hexact => ?_) hrange
    have hcompletes := hexact.completes
    simp [runRetention, hthrows, days] at hcompletes

def sampleAt (timestamp : ℤ) : MetricRecord where
  pmId := 0
  name := "web"
  status := "online"
  cpu := 1
  memory := 1024
  uptime := 0
  restartCount := 0
  timestamp := timestamp

/-- An entry recorded in the second which its id names. -/
def entryAt (second : ℕ) : ActivityRecord where
  type := .processEvent
  message := "Process \"web\" event: online"
  username := none
  ipAddress := none
  id := second
  createdAt := String.ofList (datetimeText second)

theorem entryAt_recordedAt {second : ℕ} (hsecond : second < 253402300800) :
    RecordedAt (entryAt second) (entryAt second).id :=
  ⟨rfl, Int.natCast_nonneg second, by simpa [entryAt] using by exact_mod_cast hsecond⟩

theorem runRetention_exact_by_default :
    SweepExact 7 1709210096789 [sampleAt 0, sampleAt 1709210000000]
      [entryAt 0, entryAt 1709210000] (fun row => row.id)
      (runRetention .byDefault .empty 1709210096789
        [sampleAt 0, sampleAt 1709210000000] [entryAt 0, entryAt 1709210000]) := by
  refine (runRetention_exact_iff .byDefault .empty 1709210096789
    [sampleAt 0, sampleAt 1709210000000] [entryAt 0, entryAt 1709210000]
    (fun row => row.id) (by decide) ?_).mpr (by decide)
  intro row hrow
  simp only [List.mem_cons, List.not_mem_nil, or_false] at hrow
  rcases hrow with rfl | rfl
  · exact entryAt_recordedAt (by decide)
  · exact entryAt_recordedAt (by decide)

/-- `METRICS_RETENTION_DAYS=99999999` is accepted, and every sweep throws. -/
theorem runRetention_throws_for_accepted_days :
    ∃ config, envSchema none (some 99999999) = .ok config ∧
      runRetention config .empty 1709210096789 [] [entryAt 0] =
        { metrics := [], activity := [entryAt 0]
          thrown := some "Invalid time value" } ∧
      ¬ SweepExact 99999999 1709210096789 [] [entryAt 0] (fun row => row.id)
        (runRetention config .empty 1709210096789 [] [entryAt 0]) := by
  refine ⟨⟨15, 99999999, by decide, by decide⟩, by simp [envSchema], ?_⟩
  have hsweep : runRetention ⟨15, 99999999, by decide, by decide⟩ .empty
      1709210096789 [] [entryAt 0] =
        { metrics := [], activity := [entryAt 0]
          thrown := some "Invalid time value" } := by decide +kernel
  refine ⟨hsweep, fun hexact => ?_⟩
  have hcompletes := hexact.completes
  rw [hsweep] at hcompletes
  simp at hcompletes

end Pm2Manager
