import Mathlib.Data.List.Nodup
import Pm2Manager.FieldChecks

/-!
# The `settings` table

Two of its keys are in use, each with a number as its text; a key which is not
set has the value of the configuration.
-/

namespace Pm2Manager

open FieldCheck ScriptText

structure SettingsTable where
  rows : List (String × String)
  keyUnique : (rows.map Prod.fst).Nodup

namespace SettingsTable

def empty : SettingsTable where
  rows := []
  keyUnique := by simp

variable (table : SettingsTable)

def get (key : String) : Option String :=
  (table.rows.find? fun row => row.1 = key).map Prod.snd

/-- `INSERT ... ON CONFLICT(key) DO UPDATE`. -/
def set (key value : String) : SettingsTable where
  rows := table.rows.filter (fun row => row.1 ≠ key) ++ [(key, value)]
  keyUnique := by
    rw [List.map_append, List.nodup_append]
    have hkept : ((table.rows.filter fun row => row.1 ≠ key).map Prod.fst).Nodup :=
      table.keyUnique.sublist (List.filter_sublist.map _)
    refine ⟨hkept, by simp, ?_⟩
    intro a ha b hb heq
    obtain ⟨row, hrow, rfl⟩ := List.mem_map.mp ha
    simp only [List.map_cons, List.map_nil, List.mem_singleton] at hb
    simp [heq, hb] at hrow

variable {table} {key other value : String}

@[simp] theorem get_set_self : (table.set key value).get key = some value := by
  simp only [get, set, List.find?_append]
  rw [List.find?_eq_none.mpr (by simp)]
  simp

theorem get_set_of_ne (hne : other ≠ key) :
    (table.set key value).get other = table.get other := by
  have hsame : (fun row : String × String =>
      decide (decide (row.1 ≠ key) = true ∧ decide (row.1 = other) = true)) =
        fun row => decide (row.1 = other) := by
    funext row
    by_cases hrow : row.1 = other
    · simp [hrow, hne]
    · simp [hrow]
  simp only [get, set, List.find?_append, List.find?_filter, hsame]
  cases table.rows.find? fun row => decide (row.1 = other) with
  | none => simp [Ne.symm hne]
  | some row => rfl

end SettingsTable

structure SettingsView where
  metricsIntervalSeconds : ℕ
  metricsRetentionDays : ℕ
deriving DecidableEq, Repr

/-- Nothing but `PUT /api/settings` writes the table, and it stores numerals
only; of other texts, some of which `Number()` would also read ("1e3", " 5 "),
none is ever stored. -/
def toNumberOr (raw : Option String) (fallback : ℕ) : ℕ :=
  match raw with
  | none => fallback
  | some text => if isNumeral text then toNumber text else fallback

def keyInterval : String := "metricsIntervalSeconds"

def keyRetention : String := "metricsRetentionDays"

def readSettings (defaults : SettingsView) (table : SettingsTable) :
    SettingsView where
  metricsIntervalSeconds :=
    toNumberOr (table.get keyInterval) defaults.metricsIntervalSeconds
  metricsRetentionDays :=
    toNumberOr (table.get keyRetention) defaults.metricsRetentionDays

structure UpdateSettingsInput where
  metricsIntervalSeconds : Option ℕ
  metricsRetentionDays : Option ℕ
deriving DecidableEq, Repr

/-- The two fields of the body, once they are coerced to integers. -/
def updateSettingsSchema (interval retention : Option ℤ) :
    Except AppError UpdateSettingsInput :=
  parsed
    (interval.toList.flatMap (rangeIssues keyInterval 5 (some 3600)) ++
      retention.toList.flatMap (rangeIssues keyRetention 1 (some 365)))
    { metricsIntervalSeconds := interval.map Int.toNat
      metricsRetentionDays := retention.map Int.toNat }

example : readSettings { metricsIntervalSeconds := 15, metricsRetentionDays := 7 }
    (SettingsTable.empty.set keyInterval "60") =
      { metricsIntervalSeconds := 60, metricsRetentionDays := 7 } := by
  decide +kernel

end Pm2Manager
