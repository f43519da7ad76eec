import Pm2Manager.ActivityLog
import Pm2Manager.Pm2Calls

/-!
# The process requests

`POST /:idOrName/:action`, `DELETE /:idOrName` and `POST /actions/:action` on
top of the PM2 service.  A handler awaits the service, writes its row of the
activity log and answers; a bulk action waits for the process list first, and
then for the commands it has issued, together.
-/

namespace Pm2Manager

open Function

/-! ## What a request asks for -/

inductive BulkAction
  | startAll | stopAll | restartAll | reloadAll
deriving DecidableEq, Repr

def BulkAction.text : BulkAction → String
  | .startAll => "start-all"
  | .stopAll => "stop-all"
  | .restartAll => "restart-all"
  | .reloadAll => "reload-all"

def bulkActionParamSchema (action : String) : Except AppError BulkAction :=
  match action with
  | "start-all" => .ok .startAll
  | "stop-all" => .ok .stopAll
  | "restart-all" => .ok .restartAll
  | "reload-all" => .ok .reloadAll
  | _ => .error (.validation [("action",
      "Invalid enum value. Expected 'start-all' | 'stop-all' | 'restart-all' | " ++
        s!"'reload-all', received '{action}'")])

inductive ProcessRequest
  | single (request : SingleRequest)
  | bulk (action : String)
deriving DecidableEq, Repr

/-- A request with its validated parameters. -/
inductive ProcessOperation
  | action (action : SingleAction) (target : Target)
  | remove (target : Target)
  | bulk (action : BulkAction)
deriving DecidableEq, Repr

def ProcessRequest.operation : ProcessRequest → Except AppError ProcessOperation
  | .single (.action idOrName verb) =>
      (processActionParamSchema idOrName verb).map fun params =>
        .action params.2 (resolveTarget params.1)
  | .single (.remove idOrName) =>
      (processIdParamSchema idOrName).map fun idOrName =>
        .remove (resolveTarget idOrName)
  | .bulk action => (bulkActionParamSchema action).map .bulk

namespace ProcessOperation

/-- The `run` of `SINGLE_ACTION_CONFIG` and of `BULK_ACTION_CONFIG`. -/
def run : ProcessOperation → Operation
  | .action .start target => .start target
  | .action .stop target => .stop target
  | .action .restart target => .restart target
  | .action .reload target => .reload target
  | .remove target => .remove target
  | .bulk .startAll => .startAll
  | .bulk .stopAll => .stopAll
  | .bulk .restartAll => .restartAll
  | .bulk .reloadAll => .reloadAll

def type : ProcessOperation → ActivityType
  | .action .start _ => .processStart
  | .action .stop _ => .processStop
  | .action .restart _ => .processRestart
  | .action .reload _ => .processReload
  | .remove _ => .processDelete
  | .bulk .startAll => .processStartAll
  | .bulk .stopAll => .processStopAll
  | .bulk .restartAll => .processRestartAll
  | .bulk .reloadAll => .processReloadAll

def verb : ProcessOperation → String
  | .action .start _ | .bulk .startAll => "started"
  | .action .stop _ | .bulk .stopAll => "stopped"
  | .action .restart _ | .bulk .restartAll => "restarted"
  | .action .reload _ | .bulk .reloadAll => "reloaded"
  | .remove _ => "deleted"

def message (operation : ProcessOperation) : String :=
  match operation with
  | .action _ target | .remove target =>
      s!"Process \"{target.display}\" {operation.verb}"
  | .bulk _ => s!"All processes {operation.verb}"

/-- `JSON.stringify` of a target; a `pm_id` in a route is a numeral. -/
def targetValue : Target → MetadataValue
  | .number pmId => .number pmId.toNat
  | .text name => .text name

def metadata : ProcessOperation → List (String × MetadataValue)
  | .action _ target | .remove target => [("target", targetValue target)]
  | .bulk kind => [("action", .text kind.text)]

def isBulk : ProcessOperation → Bool
  | .bulk _ => true
  | _ => false

end ProcessOperation

/-! ## Handlers -/

/-- The await a handler is suspended at.  The calls are those which carry the
commands of the request. -/
inductive ProcessPhase
  /-- `bulk` or `startAll`, in `this.list()`. -/
  | listing (root : CallId)
  | commanding (calls : List CallId)
  | finished (calls : List CallId) (result : Except AppError Unit)
deriving DecidableEq

structure ProcessTask where
  operation : ProcessOperation
  username : Option String
  ip : String
  phase : ProcessPhase
deriving DecidableEq

/-- The row which the handler writes once its commands have succeeded. -/
def ProcessTask.row (task : ProcessTask) : ActivityInput where
  type := task.operation.type
  message := task.operation.message
  username := task.username
  ipAddress := some task.ip
  metadata := some task.operation.metadata

/-- The calls of the request which carry a PM2 command. -/
def ProcessPhase.calls : ProcessPhase → List CallId
  | .listing _ => []
  | .commanding calls | .finished calls _ => calls

def ProcessPhase.result : ProcessPhase → Option (Except AppError Unit)
  | .finished _ result => some result
  | _ => none

namespace Pm2State

def callResult (state : Pm2State) (id : CallId) :
    Option (Except AppError (List ProcessDescription)) :=
  match state.calls id with
  | some { phase := .settled result, .. } => some result
  | _ => none

def resolved (state : Pm2State) (id : CallId) : Bool :=
  match state.callResult id with
  | some (.ok _) => true
  | _ => false

def rejection (state : Pm2State) (id : CallId) : Option AppError :=
  match state.callResult id with
  | some (.error error) => some error
  | _ => none

variable {pm2 : Pm2State}

theorem callResult_eq_some {id : CallId}
    {result : Except AppError (List ProcessDescription)} :
    pm2.callResult id = some result ↔
      ∃ job, pm2.calls id = some { job, phase := .settled result } := by
  unfold callResult
  constructor
  · intro hresult
    split at hresult
    next job found hcall =>
      obtain rfl := Option.some.inj hresult
      exact ⟨job, hcall⟩
    · simp at hresult
  · rintro ⟨job, hcall⟩
    rw [hcall]

theorem resolved_iff {id : CallId} :
    pm2.resolved id = true ↔ ∃ list, pm2.callResult id = some (.ok list) := by
  unfold resolved
  split
  next list hresult => simp [hresult]
  next hresult =>
    simp only [Bool.false_eq_true, false_iff, not_exists]
    exact hresult

theorem rejection_eq_some {id : CallId} {error : AppError} :
    pm2.rejection id = some error ↔ pm2.callResult id = some (.error error) := by
  unfold rejection
  split
  next found hresult => simp [hresult]
  next hresult =>
    simp only [reduceCtorEq, false_iff]
    exact hresult error

end Pm2State

/-- A bulk action whose list has come issues its commands in the same stretch;
their calls get the next numbers. -/
def ProcessTask.afterService (pm2 : Pm2State) (action : Pm2Action)
    (task : ProcessTask) : ProcessTask :=
  match task.phase, action with
  | .listing root, .resume id =>
      if id = root then
        match pm2.calls root with
        | some { job, phase := .answered (.ok list) } =>
            let commands := Pm2Call.spawned { job, phase := .answered (.ok list) }
            { task with
              phase := .commanding (List.range' pm2.nextCall commands.length) }
        | _ => task
      else
        task
  | _, _ => task

/-! ## The machine -/

abbrev RequestId := ℕ

/-- `rows` is the activity log; each row is kept with the process request
which has written it, if one has. -/
structure ProcessState where
  pm2 : Pm2State
  tasks : RequestId → Option ProcessTask
  nextRequest : RequestId
  rows : List (Option RequestId × ActivityRecord)

inductive ProcessAction
  | service (action : Pm2Action)
  /-- A request with the user of its session and its address. -/
  | request (request : ProcessRequest) (username : Option String) (ip : String)
  /-- What the handler awaits has settled: without a rejection, or with that
  of one call, the first one `Promise.all` has seen. -/
  | proceed (request : RequestId) (rejected : Option CallId) (now : String)
  /-- Another part of the application records something. -/
  | record (input : ActivityInput) (now : String)

namespace ProcessState

def initial : ProcessState where
  pm2 := .initial
  tasks := fun _ => none
  nextRequest := 0
  rows := []

def activity (state : ProcessState) : ActivityLog := state.rows.map Prod.snd

def rowsOf (state : ProcessState) (id : RequestId) : List ActivityRecord :=
  (state.rows.filter fun entry => entry.1 = some id).map Prod.snd

def record (state : ProcessState) (writer : Option RequestId)
    (input : ActivityInput) (now : String) : ProcessState :=
  { state with rows := state.rows ++
      [(writer, { input with id := state.rows.length + 1, createdAt := now })] }

def setTask (state : ProcessState) (id : RequestId) (task : ProcessTask) :
    ProcessState :=
  { state with tasks := update state.tasks id (some task) }

/-- A handler up to its first await. -/
def start (state : ProcessState) (operation : ProcessOperation)
    (username : Option String) (ip : String) : ProcessState :=
  let root := state.pm2.nextCall
  let phase : ProcessPhase :=
    if operation.isBulk then .listing root else .commanding [root]
  { state with
    pm2 := state.pm2.startCall operation.run.job
    nextRequest := state.nextRequest + 1 }.setTask state.nextRequest
      { operation, username, ip, phase }

/-- A handler once what it awaits has settled. -/
def proceed (state : ProcessState) (id : RequestId) (rejected : Option CallId)
    (now : String) (task : ProcessTask) : Option ProcessState :=
  match task.phase, rejected with
  | .listing root, some call =>
      if call = root then
        (state.pm2.rejection call).map fun error =>
          state.setTask id { task with phase := .finished [] (.error error) }
      else
        none
  | .commanding calls, some call =>
      if call ∈ calls then
        (state.pm2.rejection call).map fun error =>
          state.setTask id { task with phase := .finished calls (.error error) }
      else
        none
  | .commanding calls, none =>
      if calls.all state.pm2.resolved then
        some ((state.record (some id) task.row now).setTask id
          { task with phase := .finished calls (.ok ()) })
      else
        none
  | _, _ => none

def step (state : ProcessState) : ProcessAction → Option ProcessState
  | .service action =>
      (state.pm2.step action).map fun pm2 =>
        { state with
          pm2
          tasks := fun id =>
            (state.tasks id).map (ProcessTask.afterService state.pm2 action) }
  | .request request username ip =>
      match request.operation with
      | .error _ => some state
      | .ok operation => some (state.start operation username ip)
  | .proceed id rejected now =>
      (state.tasks id).bind (state.proceed id rejected now)
  | .record input now => some (state.record none input now)

theorem activity_record (state : ProcessState) (writer : Option RequestId)
    (input : ActivityInput) (now : String) :
    (state.record writer input now).activity =
      state.activity.record input now := by
  simp [activity, record, ActivityLog.record]

end ProcessState

def processMachine : Machine ProcessState ProcessAction where
  step := ProcessState.step

theorem ProcessRequest.operation_run {request : SingleRequest}
    {command : Pm2Command} {operation : ProcessOperation}
    (hcommand : request.command = .ok command)
    (hoperation : (ProcessRequest.single request).operation = .ok operation) :
    operation.isBulk = false ∧ ∃ message,
      operation.run.job = .guarded (.apply command) message .nothing := by
  cases request with
  | action idOrName verb =>
      simp only [SingleRequest.command] at hcommand
      simp only [ProcessRequest.operation] at hoperation
      obtain ⟨params, hparams, rfl⟩ := except_map_ok hcommand
      obtain ⟨other, hother, rfl⟩ := except_map_ok hoperation
      rw [hparams, Except.ok.injEq] at hother
      subst hother
      obtain ⟨target, action⟩ := params
      cases action <;> exact ⟨rfl, _, rfl⟩
  | remove idOrName =>
      simp only [SingleRequest.command] at hcommand
      simp only [ProcessRequest.operation] at hoperation
      obtain ⟨value, hvalue, rfl⟩ := except_map_ok hcommand
      obtain ⟨other, hother, rfl⟩ := except_map_ok hoperation
      rw [hvalue, Except.ok.injEq] at hother
      subst hother
      exact ⟨rfl, _, rfl⟩

end Pm2Manager
