import Mathlib.Data.List.Dedup
import Pm2Manager.FieldChecks
import Pm2Manager.Retention
import Pm2Manager.SeriesBuckets

/-!
# The history API

`GET /api/history/names` offers the names of the samples within the retention,
and `GET /api/history` answers with the series of a name.  The names are those
PM2 reported; the query has to pass a schema which trims and bounds them.
-/

namespace Pm2Manager

open FieldCheck ScriptText

/-! ## The query -/

namespace HistoryRange

def all : List HistoryRange := [.m15, .m30, .h1, .h6, .h12, .h24, .d7, .d30]

def text : HistoryRange → String
  | .m15 => "15m"
  | .m30 => "30m"
  | .h1 => "1h"
  | .h6 => "6h"
  | .h12 => "12h"
  | .h24 => "24h"
  | .d7 => "7d"
  | .d30 => "30d"

def ofText (text : String) : Option HistoryRange :=
  all.find? fun range => range.text = text

def expected : String :=
  " | ".intercalate (all.map fun range => s!"'{range.text}'")

end HistoryRange

def nameChecks : List FieldCheck :=
  [minLength 1 "String must contain at least 1 character(s)", maxLength 200]

/-- The two bounds are the query parameters once they are coerced. -/
def historyQuerySchema (name range : Option String) (since untilMs : Option ℤ) :
    Except AppError HistoryQuery :=
  let name := name.map trim
  let rangeIssues := match range with
    | some text =>
        if (HistoryRange.ofText text).isSome then []
        else
          [("range",
            s!"Invalid enum value. Expected {HistoryRange.expected}, received '{text}'")]
    | none => []
  parsed
    (name.toList.flatMap (issues "name" nameChecks) ++ rangeIssues ++
      since.toList.flatMap (FieldCheck.rangeIssues "since" 0 none) ++
      untilMs.toList.flatMap (FieldCheck.rangeIssues "until" 0 none))
    { name
      range := (range.bind HistoryRange.ofText).getD .h6
      since := since.map Int.toNat
      untilMs := untilMs.map Int.toNat }

/-! ## `historyController` -/

/-- `SELECT DISTINCT name ... ORDER BY name`. -/
def MetricsTable.distinctNames (table : MetricsTable) (since : ℤ) : List String :=
  ((table.filter fun row => since ≤ row.timestamp).map
    MetricRecord.name).dedup.insertionSort (· ≤ ·)

/-- `GET /api/history/names`. -/
def historyNames (config : MetricsConfig) (settings : SettingsTable)
    (table : MetricsTable) (now : ℤ) : List String :=
  table.distinctNames (now - effectiveRetentionDays config settings * dayMs)

/-- `GET /api/history`. -/
def history (table : MetricsTable) (now : ℤ) (name range : Option String)
    (since untilMs : Option ℤ) : Except AppError HistoryView :=
  (historyQuerySchema name range since untilMs).map fun query =>
    historySeries table query now

variable {config : MetricsConfig} {settings : SettingsTable} {table : MetricsTable}
variable {now since : ℤ} {name : String}

/-! ## Names -/

theorem mem_distinctNames :
    name ∈ table.distinctNames since ↔
      ∃ row ∈ table, since ≤ row.timestamp ∧ row.name = name := by
  simp [MetricsTable.distinctNames, and_assoc]

theorem nodup_distinctNames (table : MetricsTable) (since : ℤ) :
    (table.distinctNames since).Nodup :=
  (List.perm_insertionSort _ _).nodup_iff.mpr (List.nodup_dedup _)

/-! ## The series of a name -/

/-- The schema takes the name as it is. -/
structure Requestable (name : String) : Prop where
  trimmed : trim name = name
  low : 1 ≤ utf16Length name
  high : utf16Length name ≤ 200

theorem rangeIssues_nonneg {field : String} {value : ℤ} (hvalue : 0 ≤ value) :
    FieldCheck.rangeIssues field 0 none value = [] := by
  simp [FieldCheck.rangeIssues, hvalue]

theorem nameIssues_iff {text : String} :
    issues "name" nameChecks text = [] ↔
      1 ≤ utf16Length text ∧ utf16Length text ≤ 200 := by
  simp [issues_eq_nil_iff, nameChecks, minLength, maxLength]

theorem historyQuery_name {query : HistoryQuery} {range : Option String}
    {first last : Option ℤ}
    (hquery : historyQuerySchema (some name) range first last = .ok query) :
    query.name = some (trim name) ∧ 1 ≤ utf16Length (trim name) ∧
      utf16Length (trim name) ≤ 200 := by
  obtain ⟨hissues, rfl⟩ := parsed_eq_ok hquery
  simp only [Option.map_some, Option.toList_some, List.flatMap_cons, List.flatMap_nil,
    List.append_eq_nil_iff, List.append_nil] at hissues
  exact ⟨rfl, nameIssues_iff.mp hissues.1.1.1⟩

theorem history_eq {upper : ℤ} (hname : Requestable name)
    (hsince : 0 ≤ since) (hupper : 0 ≤ upper) :
    history table now (some name) none (some since) (some upper) = .ok {
      since := since
      untilMs := upper
      points := .process name (table.seriesForProcess name since (some upper) now) } := by
  have hissues := nameIssues_iff.mpr ⟨hname.low, hname.high⟩
  have hsinceNat := Int.toNat_of_nonneg hsince
  have hupperNat := Int.toNat_of_nonneg hupper
  simp [history, historyQuerySchema, historySeries, hname.trimmed, hissues,
    rangeIssues_nonneg hsince, rangeIssues_nonneg hupper, parsed, Except.map,
    hsinceNat, hupperNat]

theorem seriesForProcess_ne_nil {row : MetricRecord} (hrow : row ∈ table)
    (hname : row.name = name) :
    table.seriesForProcess name row.timestamp (some row.timestamp) now ≠ [] := by
  have hmem : row ∈ (table.window row.timestamp row.timestamp).named name := by
    simp [MetricsTable.window, MetricsTable.named, hrow, hname]
  intro hnil
  have hlength := congrArg List.length hnil
  simp only [MetricsTable.seriesForProcess, MetricsTable.seriesBuckets,
    Grouping.groupBy, List.length_insertionSort, List.length_map, List.length_nil,
    Option.getD_some, List.length_eq_zero_iff] at hlength
  have hkey : bucketOf (bucketMsFor row.timestamp row.timestamp) row.timestamp ∈
      Grouping.keys (fun other => bucketOf
        (bucketMsFor row.timestamp row.timestamp) other.timestamp)
        ((table.window row.timestamp row.timestamp).named name) :=
    Grouping.mem_keys.mpr ⟨row, hmem, rfl⟩
  rw [hlength] at hkey
  exact List.not_mem_nil hkey

/-- A query with the name is answered, under this name, by points of its samples. -/
def Viewable (table : MetricsTable) (now : ℤ) (name : String) : Prop :=
  ∃ range since untilMs reply points,
    history table now (some name) range since untilMs = .ok reply ∧
      reply.points = .process name points ∧ points ≠ []

theorem history_points {range : Option String} {first last : Option ℤ}
    {reply : HistoryView}
    (hreply : history table now (some name) range first last = .ok reply) :
    reply.points = .process (trim name)
      (table.seriesForProcess (trim name) reply.since (some reply.untilMs) now) ∧
      1 ≤ utf16Length (trim name) ∧ utf16Length (trim name) ≤ 200 := by
  obtain ⟨query, hquery, rfl⟩ := except_map_ok hreply
  obtain ⟨hqueryName, hlow, hhigh⟩ := historyQuery_name hquery
  simp only [historySeries, hqueryName]
  exact ⟨trivial, hlow, hhigh⟩

theorem viewable_iff (hstored : ∃ row ∈ table, row.name = name ∧ 0 ≤ row.timestamp) :
    Viewable table now name ↔ Requestable name := by
  constructor
  · rintro ⟨range, since, untilMs, reply, points, hreply, hpoints, -⟩
    obtain ⟨hserved, hlow, hhigh⟩ := history_points hreply
    have htrimmed : trim name = name :=
      (HistoryPoints.process.inj (hserved.symm.trans hpoints)).1
    rw [htrimmed] at hlow hhigh
    exact ⟨htrimmed, hlow, hhigh⟩
  · intro hname
    obtain ⟨row, hrow, hrowName, htimestamp⟩ := hstored
    exact ⟨none, some row.timestamp, some row.timestamp, _, _,
      history_eq hname htimestamp htimestamp, rfl,
      seriesForProcess_ne_nil hrow hrowName⟩

/-- The names of the retention are offered, each once, and all of them can be
viewed exactly when PM2 reported no name with blanks at an end, none without a
character and none of more than 200 units.  A name with blanks which is
answered shows the samples of another one. -/
theorem history_names_viewable_iff (config : MetricsConfig) (settings : SettingsTable)
    (table : MetricsTable) (now : ℤ) (htimestamps : ∀ row ∈ table, 0 ≤ row.timestamp) :
    (historyNames config settings table now).Nodup ∧
      (∀ name, name ∈ historyNames config settings table now ↔
        ∃ row ∈ table,
          now - effectiveRetentionDays config settings * dayMs ≤ row.timestamp ∧
            row.name = name) ∧
      ((∀ name ∈ historyNames config settings table now, Viewable table now name) ↔
        ∀ row ∈ table,
          now - effectiveRetentionDays config settings * dayMs ≤ row.timestamp →
            Requestable row.name) ∧
      ∀ name range since untilMs reply,
        history table now (some name) range since untilMs = .ok reply →
          reply.points = .process (trim name)
            (table.seriesForProcess (trim name) reply.since (some reply.untilMs) now) := by
  refine ⟨nodup_distinctNames _ _, fun name => mem_distinctNames,
    ⟨fun hall row hrow hrecent => ?_, fun hall name hname => ?_⟩,
    fun name range since untilMs reply hreply => ?_⟩
  · have hoffered := mem_distinctNames.mpr ⟨row, hrow, hrecent, rfl⟩
    exact (viewable_iff ⟨row, hrow, rfl, htimestamps row hrow⟩).mp
      (hall row.name hoffered)
  · obtain ⟨row, hrow, hrecent, rfl⟩ := mem_distinctNames.mp hname
    exact (viewable_iff ⟨row, hrow, rfl, htimestamps row hrow⟩).mpr
      (hall row hrow hrecent)
  · exact (history_points hreply).1

/-- The samples of `" web"` are offered and cannot be viewed. -/
theorem history_names_viewable_blank :
    ¬ ∀ name ∈ historyNames .byDefault .empty
        [{ sampleAt 5 with name := " web" }] 5,
      Viewable [{ sampleAt 5 with name := " web" }] 5 name := by
  have hiff := (history_names_viewable_iff .byDefault .empty
    [{ sampleAt 5 with name := " web" }] 5 (by simp [sampleAt])).2.2.1
  rw [hiff]
  intro hall
  have hname := (hall _ List.mem_cons_self (by decide)).trimmed
  exact absurd hname (by decide +kernel)

end Pm2Manager
