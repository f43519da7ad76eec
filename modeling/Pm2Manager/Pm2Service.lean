import Mathlib.Data.List.Sort
import Mathlib.Logic.Function.Basic
import Pm2Manager.LogStream
import Pm2Manager.Machine

/-!
# The PM2 service

The service shares one connection and one event bus among all operations.
Its callbacks (of `pm2.connect`, `pm2.launchBus` and the PM2 commands), its
connect timers and the events of its buses are actions, and so is the
resumption of a call whose awaited promise has settled.
-/

namespace Pm2Manager

open Function

abbrev AttemptId := ℕ
abbrev LaunchId := ℕ
abbrev CallId := ℕ

/-- A bus is named after the launch which has handed it out. -/
abbrev BusId := LaunchId

/-! ## Process lists -/

/-- The status PM2 reports; the service takes any text for one. -/
inductive ProcessStatus
  | online | stopping | stopped | launching | errored | oneLaunchStatus | unknown
  | other (text : String)
deriving DecidableEq, Repr

/-- The part of PM2's description on which the bulk actions depend. -/
structure ProcessDescription where
  pmId : Option ℤ
  name : Option String
  status : Option ProcessStatus
deriving DecidableEq, Repr

structure ProcessSummary where
  pmId : ℤ
  name : String
  status : ProcessStatus
deriving DecidableEq, Repr

def toProcessSummary (desc : ProcessDescription) : ProcessSummary where
  pmId := desc.pmId.getD (-1)
  name := desc.name.getD "unknown"
  status := desc.status.getD .unknown

def summaries (list : List ProcessDescription) : List ProcessSummary :=
  (list.map toProcessSummary).insertionSort fun a b => a.pmId ≤ b.pmId

/-! ## Calls -/

/-- `String(idOrName)`; from `10 ^ 21` on the script would use an exponent. -/
def Target.display : Target → String
  | .number pmId => toString pmId
  | .text name => name

inductive Pm2Query
  | list
  | describe (idOrName : Target)
  | apply (command : Pm2Command)
deriving DecidableEq, Repr

/-- What an operation does with the process list it has asked for. -/
inductive FollowUp
  | nothing
  | bulk (method : Pm2Method) (verb : String)
  | startAll
deriving DecidableEq, Repr

/-- A caller of `connect`, of `ensureConnected` or of `guarded`. -/
inductive Pm2Job
  | connect
  | initBus
  | guarded (query : Pm2Query) (message : String) (followUp : FollowUp)
deriving DecidableEq, Repr

inductive CallPhase
  | awaitingConnect (attempt : AttemptId)
  | awaitingBus (launch : LaunchId)
  | ensured
  | issued
  | answered (reply : Except String (List ProcessDescription))
  | settled (result : Except AppError (List ProcessDescription))
deriving DecidableEq

structure Pm2Call where
  job : Pm2Job
  phase : CallPhase
deriving DecidableEq

inductive Operation
  | connect | initBus | getDaemonStatus | list
  | describe (idOrName : Target)
  | start (idOrName : Target)
  | stop (idOrName : Target)
  | restart (idOrName : Target)
  | reload (idOrName : Target)
  | remove (idOrName : Target)
  | stopAll | restartAll | reloadAll | startAll
deriving DecidableEq, Repr

def pAction (method : Pm2Method) (target : Target) (message : String) : Pm2Job :=
  .guarded (.apply { method, target }) message .nothing

def listThen (followUp : FollowUp) : Pm2Job :=
  .guarded .list "Failed to list PM2 processes" followUp

def Operation.job : Operation → Pm2Job
  | .connect => .connect
  | .initBus => .initBus
  | .getDaemonStatus => .guarded .list "Failed to query PM2" .nothing
  | .list => listThen .nothing
  | .describe target =>
      .guarded (.describe target)
        s!"Failed to describe process \"{target.display}\"" .nothing
  | .start target =>
      pAction .restart target s!"Failed to start \"{target.display}\""
  | .stop target => pAction .stop target s!"Failed to stop \"{target.display}\""
  | .restart target =>
      pAction .restart target s!"Failed to restart \"{target.display}\""
  | .reload target =>
      pAction .reload target s!"Failed to reload \"{target.display}\""
  | .remove target =>
      pAction .delete target s!"Failed to delete \"{target.display}\""
  | .stopAll => listThen (.bulk .stop "stop")
  | .restartAll => listThen (.bulk .restart "restart")
  | .reloadAll => listThen (.bulk .reload "reload")
  | .startAll => listThen .startAll

/-- The calls `bulk` and `startAll` make once they have the list. -/
def FollowUp.jobs (list : List ProcessDescription) : FollowUp → List Pm2Job
  | .nothing => []
  | .bulk method verb =>
      if (summaries list).length = 0 then []
      else [pAction method (.text "all") s!"Failed to {verb} all processes"]
  | .startAll =>
      ((summaries list).filter fun process =>
        process.status ≠ .online ∧ process.status ≠ .launching).map
        fun process => pAction .restart (.number process.pmId)
          s!"Failed to start \"{process.name}\""

/-! ## Bus packets -/

structure PacketProcess where
  name : Option String
  pmId : Option ℤ
deriving DecidableEq, Repr

/-- A packet of the daemon; `data` is the text of a value which is neither
`null` nor absent. -/
inductive Packet
  | log (channel : LogChannel) (process : Option PacketProcess)
      (data : Option String) (sentAt : Option ℕ)
  | process (event : Option String) (process : Option PacketProcess)
deriving DecidableEq, Repr

structure ProcessEvent where
  event : String
  name : String
  pmId : ℤ
deriving DecidableEq, Repr

/-- An event on `pm2Service.events`. -/
inductive ServiceEvent
  | log (line : LogLine)
  | process (event : ProcessEvent)
deriving DecidableEq, Repr

def packetName (process : Option PacketProcess) : String :=
  (process.bind PacketProcess.name).getD "unknown"

def packetPmId (process : Option PacketProcess) : ℤ :=
  (process.bind PacketProcess.pmId).getD (-1)

/-- What the handlers of a bus emit for a packet. -/
def Packet.reemit (now : ℕ) : Packet → ServiceEvent
  | .log channel source data sentAt => .log {
      channel := channel
      processName := packetName source
      pmId := packetPmId source
      message := data.getD ""
      timestamp := sentAt.getD now }
  | .process event source => .process {
      event := event.getD "unknown"
      name := packetName source
      pmId := packetPmId source }

/-! ## The state -/

/-- One run of the executor in `connect`; `result` is there once `settled`. -/
structure ConnectAttempt where
  result : Option (Except AppError Unit)
  calledBack : Bool
deriving DecidableEq

/-- One run of the executor in `attachBus`. -/
structure BusLaunch where
  result : Option (Except AppError Unit)
deriving DecidableEq

/-- A bus delivers packets while it is live.  `hasClose` tells whether it has
the optional method, `closeEmitted` whether its `close` event has come. -/
structure Pm2Bus where
  hasClose : Bool
  live : Bool
  closeEmitted : Bool
deriving DecidableEq, Repr

/-- The fields of the service, then what its closures and its environment
hold.  Published packets are numbered in order, and `emitted` carries the
number of the packet an event comes from. -/
structure Pm2State where
  connected : Bool
  connecting : Option AttemptId
  bus : Option BusId
  busInitializing : Option LaunchId
  attempts : AttemptId → Option ConnectAttempt
  nextAttempt : AttemptId
  launches : LaunchId → Option BusLaunch
  nextLaunch : LaunchId
  buses : BusId → Option Pm2Bus
  calls : CallId → Option Pm2Call
  nextCall : CallId
  published : ℕ
  emitted : List (ℕ × ServiceEvent)

inductive Pm2Action
  | call (operation : Operation)
  /-- `disconnect()`; `throws` is for the `close` of the bus it closes. -/
  | disconnect (throws : Bool)
  | connectTimeout (attempt : AttemptId)
  | connectCallback (attempt : AttemptId) (err : Option String)
  /-- The callback gets an error or a bus, with or without `close`. -/
  | launchCallback (launch : LaunchId) (result : Except String Bool)
  | commandCallback (call : CallId)
      (reply : Except String (List ProcessDescription))
  | resume (call : CallId)
  | busError (bus : BusId)
  | busClose (bus : BusId)
  | publish (packet : Packet) (now : ℕ)

namespace Pm2State

def initial : Pm2State where
  connected := false
  connecting := none
  bus := none
  busInitializing := none
  attempts := fun _ => none
  nextAttempt := 0
  launches := fun _ => none
  nextLaunch := 0
  buses := fun _ => none
  calls := fun _ => none
  nextCall := 0
  published := 0
  emitted := []

def setAttempt (state : Pm2State) (id : AttemptId) (attempt : ConnectAttempt) :
    Pm2State :=
  { state with attempts := update state.attempts id (some attempt) }

def setLaunch (state : Pm2State) (id : LaunchId) (launch : BusLaunch) : Pm2State :=
  { state with launches := update state.launches id (some launch) }

def setBus (state : Pm2State) (id : BusId) (bus : Pm2Bus) : Pm2State :=
  { state with buses := update state.buses id (some bus) }

def setCall (state : Pm2State) (id : CallId) (call : Pm2Call) : Pm2State :=
  { state with calls := update state.calls id (some call) }

/-- The executor in `connect`. -/
def openAttempt (state : Pm2State) : Pm2State :=
  { state.setAttempt state.nextAttempt { result := none, calledBack := false } with
    connecting := some state.nextAttempt
    nextAttempt := state.nextAttempt + 1 }

/-- The timer or the callback of an attempt settles its promise. -/
def settleAttempt (state : Pm2State) (id : AttemptId)
    (result : Except AppError Unit) (calledBack : Bool) : Pm2State :=
  { state.setAttempt id { result := some result, calledBack } with
    connecting := none }

/-- `connect()`, with the attempt its promise is about: none when connected. -/
def connect (state : Pm2State) : Pm2State × Option AttemptId :=
  if state.connected then
    (state, none)
  else
    match state.connecting with
    | some attempt => (state, some attempt)
    | none => (state.openAttempt, some state.nextAttempt)

/-- The executor in `attachBus`. -/
def openLaunch (state : Pm2State) : Pm2State :=
  { state.setLaunch state.nextLaunch { result := none } with
    busInitializing := some state.nextLaunch
    nextLaunch := state.nextLaunch + 1 }

def settleLaunch (state : Pm2State) (id : LaunchId)
    (result : Except AppError Unit) : Pm2State :=
  { state.setLaunch id { result := some result } with busInitializing := none }

/-- `attachBus()`, with the launch its promise is about: none with a bus. -/
def attachBus (state : Pm2State) : Pm2State × Option LaunchId :=
  match state.bus, state.busInitializing with
  | some _, _ => (state, none)
  | none, some launch => (state, some launch)
  | none, none => (state.openLaunch, some state.nextLaunch)

/-- `ensureConnected` from its second test on. -/
def ensureBus (state : Pm2State) (id : CallId) (job : Pm2Job) : Pm2State :=
  if state.connected ∧ state.bus = none then
    match state.attachBus with
    | (state, some launch) =>
        state.setCall id { job, phase := .awaitingBus launch }
    | (state, none) => state.setCall id { job, phase := .ensured }
  else
    state.setCall id { job, phase := .ensured }

/-- What follows the `await` of `connect()`. -/
def afterConnect (state : Pm2State) (id : CallId) (job : Pm2Job) : Pm2State :=
  match job with
  | .connect => state.setCall id { job, phase := .settled (.ok []) }
  | _ => state.ensureBus id job

/-- A call up to its first await. -/
def startCall (state : Pm2State) (job : Pm2Job) : Pm2State :=
  let id := state.nextCall
  match { state with nextCall := state.nextCall + 1 }.connect with
  | (state, some attempt) =>
      state.setCall id { job, phase := .awaitingConnect attempt }
  | (state, none) => state.afterConnect id job

def startCalls (state : Pm2State) (jobs : List Pm2Job) : Pm2State :=
  jobs.foldl startCall state

/-- The first half of `disconnect`: without a `close` the bus stays. -/
def closeBus (state : Pm2State) (throws : Bool) : Pm2State :=
  match state.bus with
  | none => state
  | some id =>
      match state.buses id with
      | some { hasClose := true, live, closeEmitted } =>
          { state.setBus id
              { hasClose := true, live := live && throws, closeEmitted } with
            bus := none }
      | _ => state

def disconnect (state : Pm2State) (throws : Bool) : Pm2State :=
  { state.closeBus throws with connected := false }

def liveBuses (state : Pm2State) : List BusId :=
  (List.range state.nextLaunch).filter fun id =>
    (state.buses id).any Pm2Bus.live

/-- How the promise of an attempt has settled. -/
def attemptResult (state : Pm2State) (id : AttemptId) :
    Option (Except AppError Unit) :=
  (state.attempts id).bind ConnectAttempt.result

def launchResult (state : Pm2State) (id : LaunchId) :
    Option (Except AppError Unit) :=
  (state.launches id).bind BusLaunch.result

/-- A call goes on after the promise it awaits has settled. -/
def resume (state : Pm2State) (id : CallId) (call : Pm2Call) : Option Pm2State :=
  match call.phase with
  | .awaitingConnect attempt =>
      match state.attemptResult attempt with
      | none => none
      | some (.error error) =>
          some (state.setCall id { call with phase := .settled (.error error) })
      | some (.ok _) => some (state.afterConnect id call.job)
  | .awaitingBus launch =>
      -- a failed launch is caught, and the operation goes on
      match state.launchResult launch with
      | none => none
      | some _ => some (state.setCall id { call with phase := .ensured })
  | .ensured =>
      match call.job with
      | .guarded _ _ _ => some (state.setCall id { call with phase := .issued })
      | _ => some (state.setCall id { call with phase := .settled (.ok []) })
  | .answered reply =>
      match call.job, reply with
      | .guarded _ message _, .error detail =>
          some (state.setCall id { call with
            phase := .settled (.error (.pm2Error message (.text detail))) })
      | .guarded _ _ followUp, .ok list =>
          some ((state.setCall id { call with
            phase := .settled (.ok list) }).startCalls (followUp.jobs list))
      | _, _ => none
  | .issued | .settled _ => none

def step (state : Pm2State) : Pm2Action → Option Pm2State
  | .call operation => some (state.startCall operation.job)
  | .disconnect throws => some (state.disconnect throws)
  | .connectTimeout id =>
      match state.attempts id with
      | some { result := none, calledBack } =>
          some (state.settleAttempt id
            (.error (.pm2Error "Timed out connecting to the PM2 daemon")) calledBack)
      | _ => none
  | .connectCallback id err =>
      match state.attempts id with
      | some { result, calledBack := false } =>
          match result, err with
          -- the attempt has timed out
          | some _, _ => some (state.setAttempt id { result, calledBack := true })
          | none, some detail =>
              some (state.settleAttempt id (.error (.pm2Error
                "Could not connect to the PM2 daemon" (.text detail))) true)
          | none, none =>
              some { state.settleAttempt id (.ok ()) true with connected := true }
      | _ => none
  | .launchCallback id result =>
      match state.launches id, result with
      | some { result := none }, .error detail =>
          some (state.settleLaunch id (.error (.pm2Error
            "Failed to launch PM2 event bus" (.text detail))))
      | some { result := none }, .ok hasClose =>
          some { (state.settleLaunch id (.ok ())).setBus id
              { hasClose, live := true, closeEmitted := false } with
            bus := some id }
      | _, _ => none
  | .commandCallback id reply =>
      match state.calls id with
      | some { job, phase := .issued } =>
          some (state.setCall id { job, phase := .answered reply })
      | _ => none
  | .resume id => (state.calls id).bind (state.resume id)
  | .busError id =>
      match state.buses id with
      | some { closeEmitted := false, .. } => some { state with bus := none }
      | _ => none
  | .busClose id =>
      match state.buses id with
      | some { hasClose, closeEmitted := false, .. } =>
          some { state.setBus id
              { hasClose, live := false, closeEmitted := true } with
            bus := none }
      | _ => none
  | .publish packet now =>
      some { state with
        published := state.published + 1
        emitted := state.emitted ++ state.liveBuses.map fun _ =>
          (state.published, packet.reemit now) }

end Pm2State

def pm2Machine : Machine Pm2State Pm2Action where
  step := Pm2State.step

end Pm2Manager
