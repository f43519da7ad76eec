import Mathlib.Logic.Function.Basic
import Pm2Manager.Machine
import Pm2Manager.ProcessTarget

/-!
# Log streams

The handler of the log-stream route with its awaits: the description of the
process, then the tail of each of its log files.  At the end of this prologue
the handler subscribes to the shared `log` event and starts a heartbeat; both
are released by the `close` listener it registers last.
-/

namespace Pm2Manager

open Function
open ScriptText (truthy)

abbrev StreamId := ℕ

inductive LogChannel
  | out
  | err
deriving DecidableEq, Repr

structure LogLine where
  channel : LogChannel
  processName : String
  pmId : ℤ
  message : String
  timestamp : ℕ
deriving DecidableEq, Repr

/-- What the handler uses of a process description. -/
structure ProcessDetail where
  pmId : ℤ
  name : String
  outLogPath : Option String
  errorLogPath : Option String
deriving DecidableEq, Repr

inductive StreamWrite
  | log (line : LogLine)
  | ready
  | ping
deriving DecidableEq, Repr

abbrev LogSource := Option String × LogChannel

/-- Where the handler of a stream is. -/
inductive StreamPhase
  | describing
  /-- `sendBacklog` awaits the tail of the file of `channel`. -/
  | readingBacklog (proc : ProcessDetail) (channel : LogChannel)
      (rest : List LogSource)
  /-- The handler has subscribed and has returned. -/
  | live (proc : ProcessDetail)
  /-- The handler has returned before it subscribed. -/
  | abandoned
  /-- The handler has thrown, and the error has been answered. -/
  | refused (error : AppError)
deriving DecidableEq, Repr

namespace StreamPhase

def finished : StreamPhase → Bool
  | .describing | .readingBacklog _ _ _ => false
  | .live _ | .abandoned | .refused _ => true

end StreamPhase

/-- `connected` is the client's side; `writableEnded` is true once the handler
itself has ended the response. -/
structure LogStream where
  target : Target
  phase : StreamPhase
  connected : Bool
  writableEnded : Bool
  written : List StreamWrite
deriving DecidableEq, Repr

/-- The streams, the `log` listeners on `pm2Service.events` and the heartbeat
intervals, the latter two by the stream they belong to. -/
structure StreamState where
  streams : StreamId → Option LogStream
  nextStream : StreamId
  logListeners : List StreamId
  heartbeats : List StreamId

inductive StreamAction
  | arrive (idOrName : String)
  /-- `pm2Service.describe` settles. -/
  | described (id : StreamId) (result : Except AppError (Option ProcessDetail))
  /-- The awaited `readTailLines` settles. -/
  | tailRead (id : StreamId) (lines : List String) (now : ℕ)
  | disconnect (id : StreamId)
  /-- `pm2Service.events` emits a `log` event. -/
  | publish (line : LogLine)
  | heartbeat (id : StreamId)

/-! ## The handler -/

/-- The files of `sendBacklog`, in order. -/
def ProcessDetail.sources (proc : ProcessDetail) : List LogSource :=
  [(proc.outLogPath, .out), (proc.errorLogPath, .err)]

def nextSource : List LogSource → Option (LogChannel × List LogSource)
  | [] => none
  | (path, channel) :: rest =>
      match truthy path with
      | some _ => some (channel, rest)
      | none => nextSource rest

def backlogLine (proc : ProcessDetail) (channel : LogChannel) (now : ℕ)
    (message : String) : LogLine where
  channel := channel
  processName := proc.name
  pmId := proc.pmId
  message := message
  timestamp := now

/-- `onLog` forwards a line of the process, by its id or by its name. -/
def concerns (line : LogLine) (proc : ProcessDetail) : Bool :=
  line.pmId == proc.pmId || line.processName == proc.name

namespace LogStream

def write (stream : LogStream) (chunks : List StreamWrite) : LogStream :=
  { stream with written := stream.written ++ chunks }

/-- What the stream's listener does with a `log` event. -/
def onLog (stream : LogStream) (line : LogLine) : LogStream :=
  match stream.phase with
  | .live proc => if concerns line proc then stream.write [.log line] else stream
  | _ => stream

end LogStream

namespace StreamState

def initial : StreamState where
  streams := fun _ => none
  nextStream := 0
  logListeners := []
  heartbeats := []

def setStream (state : StreamState) (id : StreamId) (stream : LogStream) :
    StreamState :=
  { state with streams := update state.streams id (some stream) }

/-- The end of the prologue: unless the response was ended, announce the
stream, subscribe and start the heartbeat. -/
def subscribe (state : StreamState) (id : StreamId) (stream : LogStream)
    (proc : ProcessDetail) : StreamState :=
  if stream.writableEnded then
    state.setStream id { stream with phase := .abandoned }
  else
    { state.setStream id { stream.write [.ready] with phase := .live proc } with
      logListeners := state.logListeners ++ [id]
      heartbeats := state.heartbeats ++ [id] }

/-- `sendBacklog` up to its next await, or the end of the prologue. -/
def proceed (state : StreamState) (id : StreamId) (stream : LogStream)
    (proc : ProcessDetail) (sources : List LogSource) : StreamState :=
  match nextSource sources with
  | some (channel, rest) =>
      state.setStream id
        { stream with phase := .readingBacklog proc channel rest }
  | none => state.subscribe id stream proc

def refuse (state : StreamState) (id : StreamId) (stream : LogStream)
    (error : AppError) : StreamState :=
  state.setStream id
    { stream with phase := .refused error, writableEnded := true }

/-- The `close` listener of a subscribed stream. -/
def release (state : StreamState) (id : StreamId) (stream : LogStream) :
    StreamState :=
  { state.setStream id { stream with writableEnded := true } with
    logListeners := state.logListeners.filter fun other => other ≠ id
    heartbeats := state.heartbeats.filter fun other => other ≠ id }

def step (state : StreamState) : StreamAction → Option StreamState
  | .arrive idOrName =>
      some { state.setStream state.nextStream
          { target := resolveTarget idOrName, phase := .describing
            connected := true, writableEnded := false, written := [] } with
        nextStream := state.nextStream + 1 }
  | .described id result =>
      match state.streams id with
      | some stream =>
          match stream.phase, result with
          | .describing, .error error => some (state.refuse id stream error)
          | .describing, .ok none =>
              some (state.refuse id stream (.notFound "Process not found"))
          | .describing, .ok (some proc) =>
              some (state.proceed id stream proc proc.sources)
          | _, _ => none
      | none => none
  | .tailRead id lines now =>
      match state.streams id with
      | some stream =>
          match stream.phase with
          | .readingBacklog proc channel rest =>
              some (state.proceed id
                (stream.write (lines.map fun message =>
                  .log (backlogLine proc channel now message))) proc rest)
          | _ => none
      | none => none
  | .disconnect id =>
      match state.streams id with
      | some stream =>
          if stream.connected then
            match stream.phase with
            | .live _ => some (state.release id { stream with connected := false })
            | _ => some (state.setStream id { stream with connected := false })
          else
            none
      | none => none
  | .publish line =>
      some { state with
        streams := fun id =>
          if id ∈ state.logListeners then
            (state.streams id).map fun stream => stream.onLog line
          else
            state.streams id }
  | .heartbeat id =>
      if id ∈ state.heartbeats then
        (state.streams id).map fun stream =>
          state.setStream id (stream.write [.ping])
      else
        none

end StreamState

def streamMachine : Machine StreamState StreamAction where
  step := StreamState.step

end Pm2Manager
