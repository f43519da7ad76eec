import Pm2Manager.FieldChecks

/-!
# The activity log

The rows of `activity_log` as `activityService` records them, and the queries
behind `GET /api/activity`.  The rows are kept in the order of their ids.
-/

namespace Pm2Manager

open FieldCheck

inductive ActivityType
  | loginSuccess | loginFailed | logout | twofaEnabled | twofaDisabled
  | passwordChanged | userCreated | userDeleted | settingsChanged
  | processStart | processStop | processRestart | processReload
  | processDelete | processStartAll | processStopAll | processRestartAll
  | processReloadAll | processEvent
deriving DecidableEq, Repr

inductive MetadataValue
  | text (value : String)
  | flag (value : Bool)
  | number (value : ℕ)
deriving DecidableEq, Repr

structure ActivityInput where
  type : ActivityType
  message : String
  username : Option String
  ipAddress : Option String
  metadata : Option (List (String × MetadataValue)) := none
deriving DecidableEq, Repr

structure ActivityRecord extends ActivityInput where
  id : ℕ
  createdAt : String
deriving DecidableEq, Repr

/-! ## The query parameters -/

namespace ActivityType

def all : List ActivityType :=
  [.loginSuccess, .loginFailed, .logout, .twofaEnabled, .twofaDisabled,
    .passwordChanged, .userCreated, .userDeleted, .settingsChanged,
    .processStart, .processStop, .processRestart, .processReload,
    .processDelete, .processStartAll, .processStopAll, .processRestartAll,
    .processReloadAll, .processEvent]

def text : ActivityType → String
  | .loginSuccess => "login_success"
  | .loginFailed => "login_failed"
  | .logout => "logout"
  | .twofaEnabled => "twofa_enabled"
  | .twofaDisabled => "twofa_disabled"
  | .passwordChanged => "password_changed"
  | .userCreated => "user_created"
  | .userDeleted => "user_deleted"
  | .settingsChanged => "settings_changed"
  | .processStart => "process_start"
  | .processStop => "process_stop"
  | .processRestart => "process_restart"
  | .processReload => "process_reload"
  | .processDelete => "process_delete"
  | .processStartAll => "process_start_all"
  | .processStopAll => "process_stop_all"
  | .processRestartAll => "process_restart_all"
  | .processReloadAll => "process_reload_all"
  | .processEvent => "process_event"

def ofText (text : String) : Option ActivityType :=
  all.find? fun type => type.text = text

/-- How the enumeration is spelled out in a validation message. -/
def expected : String :=
  " | ".intercalate (all.map fun type => s!"'{type.text}'")

end ActivityType

structure ActivityQuery where
  limit : ℕ
  offset : ℕ
  type : Option ActivityType
deriving DecidableEq, Repr

/-- The two numbers are the query parameters once they are coerced. -/
def activityQuerySchema (limit offset : Option ℤ) (type : Option String) :
    Except AppError ActivityQuery :=
  let typeIssues := match type with
    | some text =>
        if (ActivityType.ofText text).isSome then []
        else [("type", s!"Invalid enum value. Expected {ActivityType.expected}, received '{text}'")]
    | none => []
  parsed
    (rangeIssues "limit" 1 (some 500) (limit.getD 50) ++
      rangeIssues "offset" 0 none (offset.getD 0) ++ typeIssues)
    { limit := (limit.getD 50).toNat
      offset := (offset.getD 0).toNat
      type := type.bind ActivityType.ofText }

/-! ## The rows -/

abbrev ActivityLog := List ActivityRecord

namespace ActivityLog

/-- `activityService.record`; the insertion succeeds.  The ids are those of a log
from which nothing has been pruned: after a prune `AUTOINCREMENT` would go on
from the last id that was given. -/
def record (log : ActivityLog) (input : ActivityInput) (now : String) :
    ActivityLog :=
  log ++ [{ input with id := log.length + 1, createdAt := now }]

def ofType (log : ActivityLog) (type : Option ActivityType) : ActivityLog :=
  log.filter fun row => type.all fun type => row.type = type

/-- `ORDER BY id DESC LIMIT ? OFFSET ?`. -/
def list (log : ActivityLog) (query : ActivityQuery) : List ActivityRecord :=
  ((log.ofType query.type).reverse.drop query.offset).take
    (min (max query.limit 1) 500)

def count (log : ActivityLog) (type : Option ActivityType) : ℕ :=
  (log.ofType type).length

end ActivityLog

end Pm2Manager
