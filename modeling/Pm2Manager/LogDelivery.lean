import Pm2Manager.LogStream
import Pm2Manager.LogTail

/-!
# Delivery of log lines

The handler of a log stream among the lines of its process.  PM2 appends a line
to the log file of its channel and publishes it afterwards; the handler asks for
the size of a file, reads its tail, goes on to the next file and subscribes
right after the last one.  Bytes of the files and events on the stream keep the
numbers of the lines they come from.
-/

namespace Pm2Manager

open Function TextLines
open ScriptText (truthy)

/-- A line of the process without the break which ends it. -/
structure ProcessLine where
  channel : LogChannel
  text : List UInt8
  publishedAt : ℕ
  noBreak : ∀ byte ∈ text, byte ≠ 10

/-- A byte of a log file; the first one of a line has the number of the line. -/
abbrev FileByte := UInt8 × Option ℕ

structure SentLine where
  line : LogLine
  numbers : List ℕ
deriving DecidableEq, Repr

structure DeliveryState where
  files : String → List FileByte
  /-- The lines written so far; the number of a line is its place. -/
  lines : List ProcessLine
  published : List ℕ
  stream : LogStream
  /-- The size of the file whose tail is read, once `stat` has given it. -/
  size : Option ℕ
  /-- How many lines there were when the process was described. -/
  describedAt : Option ℕ
  /-- How many lines there were when the client disconnected. -/
  leftAt : Option ℕ
  /-- The lines in the tails read so far. -/
  inBacklog : List ℕ
  /-- What the client has been sent. -/
  sent : List SentLine

inductive DeliveryAction
  | append (line : ProcessLine)
  | publish (number : ℕ)
  | describe
  | stat
  | read (now : ℕ)
  | disconnect

/-! ## Files and their tails -/

def ProcessDetail.logPath (proc : ProcessDetail) : LogChannel → Option String
  | .out => truthy proc.outLogPath
  | .err => truthy proc.errorLogPath

def ProcessLine.bytes (line : ProcessLine) (number : ℕ) : List FileByte :=
  match line.text with
  | [] => [(10, none)]
  | first :: rest => (first, some number) :: (rest.map fun byte => (byte, none)) ++ [(10, none)]

/-- The lines which `readTailLines` gives, in the bytes of the file. -/
def tailPieces (file : List FileByte) (size : ℕ) : List (List FileByte) :=
  tailLines (fun b => byteKind b.1) backlogLines (0 < tailStart size)
    ((file.drop (tailStart size)).take (size - tailStart size))

/-- The lines of the process which begin in a piece of its file.  A piece goes
up to the next break, so they are whole. -/
def numbersOf (piece : List FileByte) : List ℕ :=
  piece.filterMap Prod.snd

def tailNumbers (file : List FileByte) (size : ℕ) : List ℕ :=
  (tailPieces file size).flatMap numbersOf

def pieceText (piece : List FileByte) : String :=
  String.ofList (decode (piece.map Prod.fst))

/-! ## The handler -/

namespace LogStream

/-- `sendBacklog` up to its next await, or the end of the prologue. -/
def proceed (stream : LogStream) (proc : ProcessDetail) (sources : List LogSource) :
    LogStream :=
  match nextSource sources with
  | some (channel, rest) => { stream with phase := .readingBacklog proc channel rest }
  | none =>
      if stream.writableEnded then { stream with phase := .abandoned }
      else { stream.write [.ready] with phase := .live proc }

/-- The handler has subscribed and not been released. -/
def listening (stream : LogStream) : Bool :=
  match stream.phase with
  | .live _ => !stream.writableEnded
  | _ => false

def arrived (target : Target) : LogStream where
  target := target
  phase := .describing
  connected := true
  writableEnded := false
  written := []

end LogStream

/-- The packet of the bus as `emitLog` passes it on. -/
def publishedLine (proc : ProcessDetail) (line : ProcessLine) : LogLine where
  channel := line.channel
  processName := proc.name
  pmId := proc.pmId
  message := String.ofList (decode line.text)
  timestamp := line.publishedAt

namespace DeliveryState

variable (proc : ProcessDetail)

/-- Before the handler runs; the files may hold anything. -/
def initial (target : Target) (files : String → List UInt8) : DeliveryState where
  files := fun path => (files path).map fun byte => (byte, none)
  lines := []
  published := []
  stream := LogStream.arrived target
  size := none
  describedAt := none
  leftAt := none
  inBacklog := []
  sent := []

def appendLine (state : DeliveryState) (line : ProcessLine) : DeliveryState :=
  { state with
    files :=
      match proc.logPath line.channel with
      | some path =>
          update state.files path (state.files path ++ line.bytes state.lines.length)
      | none => state.files
    lines := state.lines ++ [line] }

/-- What reaches a client which has not left. -/
def deliver (state : DeliveryState) (events : List SentLine) : List SentLine :=
  if state.stream.connected then state.sent ++ events else state.sent

def publishLine (state : DeliveryState) (number : ℕ) (line : ProcessLine) :
    DeliveryState :=
  if state.stream.listening then
    { state with
      published := number :: state.published
      stream := state.stream.onLog (publishedLine proc line)
      sent := state.deliver [⟨publishedLine proc line, [number]⟩] }
  else
    { state with published := number :: state.published }

def tailEvents (state : DeliveryState) (channel : LogChannel) (path : String)
    (size now : ℕ) : List SentLine :=
  (tailPieces (state.files path) size).map fun piece =>
    ⟨backlogLine proc channel now (pieceText piece), numbersOf piece⟩

def readTail (state : DeliveryState) (channel : LogChannel) (rest : List LogSource)
    (path : String) (size now : ℕ) : DeliveryState :=
  let events := state.tailEvents proc channel path size now
  { state with
    stream := (state.stream.write (events.map fun event => .log event.line)).proceed
      proc rest
    size := none
    inBacklog := state.inBacklog ++ tailNumbers (state.files path) size
    sent := state.deliver events }

def leave (state : DeliveryState) : DeliveryState :=
  { state with
    stream := { state.stream with
      connected := false
      writableEnded := state.stream.writableEnded || state.stream.listening }
    leftAt := some state.lines.length }

def step (state : DeliveryState) : DeliveryAction → Option DeliveryState
  | .append line => some (state.appendLine proc line)
  | .publish number =>
      match state.lines[number]? with
      | some line =>
          if number ∈ state.published then none
          else some (state.publishLine proc number line)
      | none => none
  | .describe =>
      match state.stream.phase with
      | .describing =>
          some { state with
            stream := state.stream.proceed proc proc.sources
            describedAt := some state.lines.length }
      | _ => none
  | .stat =>
      match state.stream.phase, state.size with
      | .readingBacklog _ channel _, none =>
          (proc.logPath channel).map fun path =>
            { state with size := some (state.files path).length }
      | _, _ => none
  | .read now =>
      match state.stream.phase, state.size with
      | .readingBacklog _ channel rest, some size =>
          (proc.logPath channel).map fun path =>
            state.readTail proc channel rest path size now
      | _, _ => none
  | .disconnect => if state.stream.connected then some state.leave else none

end DeliveryState

def deliveryMachine (proc : ProcessDetail) : Machine DeliveryState DeliveryAction where
  step := DeliveryState.step proc

/-! ## The handler's own runs -/

/-- The messages of a tail are the lines of `readTailLines`. -/
theorem tailPieces_eq_readTailLines (file : List FileByte) {size : ℕ}
    (hsize : size ≤ file.length) :
    (tailPieces file size).map (fun piece => decode (piece.map Prod.fst)) =
      readTailLines (some size) (readOf (file.map Prod.fst) size) := by
  have hpieces : (tailPieces file size).map (fun piece => decode (piece.map Prod.fst)) =
      (tailLines byteKind backlogLines (0 < tailStart size)
        (((file.drop (tailStart size)).take (size - tailStart size)).map Prod.fst)).map
          decode := by
    rw [tailLines_map, List.map_map]
    rfl
  rw [hpieces, ← tailLines_decode]
  simp only [readTailLines, readOf]
  split
  · rename_i hzero
    rw [hzero, List.take_zero]
    cases decide (0 < tailStart size) <;> rfl
  · have hbytes : ((file.map Prod.fst).drop (tailStart size)).take
        (min size (size - tailStart size)) =
          ((file.drop (tailStart size)).take (size - tailStart size)).map Prod.fst := by
      rw [min_eq_right (Nat.sub_le _ _), List.map_take, List.map_drop]
    have hfull : (((file.drop (tailStart size)).take
        (size - tailStart size)).map Prod.fst).length = size - tailStart size := by
      rw [List.length_map, List.length_take, List.length_drop]
      omega
    rw [hbytes, fillBuffer_full hfull]

namespace DeliveryState

variable {proc : ProcessDetail} {state next last : DeliveryState}
variable {action : DeliveryAction} {word : List DeliveryAction}

/-- The stream of the handler as the only one. -/
def project (state : DeliveryState) : StreamState where
  streams := fun id => if id = 0 then some state.stream else none
  nextStream := 1
  logListeners := if state.stream.listening then [0] else []
  heartbeats := if state.stream.listening then [0] else []

/-- The handler keeps the description of the process. -/
def Describes (proc : ProcessDetail) (state : DeliveryState) : Prop :=
  ∀ other channel rest, state.stream.phase = .readingBacklog other channel rest →
    other = proc

theorem proceed_describes (stream : LogStream) (sources : List LogSource) (other : ProcessDetail)
    (channel : LogChannel) (rest : List LogSource)
    (hphase : (stream.proceed proc sources).phase = .readingBacklog other channel rest) :
    other = proc := by
  unfold LogStream.proceed at hphase
  split at hphase
  · exact (StreamPhase.readingBacklog.inj hphase).1.symm
  · split at hphase <;> cases hphase

theorem onLog_fields (stream : LogStream) (entry : LogLine) :
    (stream.onLog entry).phase = stream.phase ∧
    (stream.onLog entry).connected = stream.connected ∧
    (stream.onLog entry).writableEnded = stream.writableEnded := by
  unfold LogStream.onLog
  split
  · split <;> exact ⟨rfl, rfl, rfl⟩
  · exact ⟨rfl, rfl, rfl⟩

theorem describes_preserved :
    (deliveryMachine proc).Preserves Machine.anyAction (Describes proc) := by
  intro state action next hdescribes _ hstep
  simp only [deliveryMachine] at hstep
  cases action with
  | append line =>
      obtain rfl := Option.some.inj hstep
      exact hdescribes
  | publish number =>
      simp only [step] at hstep
      split at hstep
      · split at hstep
        · cases hstep
        · obtain rfl := Option.some.inj hstep
          intro other channel rest hphase
          apply hdescribes other channel rest
          rw [← hphase]
          unfold publishLine
          split
          · exact (onLog_fields _ _).1.symm
          · rfl
      · cases hstep
  | describe =>
      simp only [step] at hstep
      split at hstep
      · obtain rfl := Option.some.inj hstep
        exact proceed_describes _ _
      · cases hstep
  | stat =>
      simp only [step] at hstep
      split at hstep
      · obtain ⟨path, _, rfl⟩ := Option.map_eq_some_iff.mp hstep
        exact hdescribes
      · cases hstep
  | read now =>
      simp only [step] at hstep
      split at hstep
      · obtain ⟨path, _, rfl⟩ := Option.map_eq_some_iff.mp hstep
        exact proceed_describes _ _
      · cases hstep
  | disconnect =>
      simp only [step] at hstep
      split at hstep
      · obtain rfl := Option.some.inj hstep
        exact hdescribes
      · cases hstep

theorem project_congr (hstream : state.stream = next.stream) :
    state.project = next.project := by
  unfold project
  rw [hstream]

/-- The only stream after a change of it which neither subscribes nor releases. -/
theorem project_setStream (stream : LogStream)
    (hsame : stream.listening = state.stream.listening) :
    state.project.setStream 0 stream = project { state with stream } := by
  simp only [StreamState.setStream, project, hsame, StreamState.mk.injEq, and_self,
    and_true]
  funext id
  by_cases hid : id = 0
  · subst hid
    simp
  · simp [hid]

theorem project_proceed (proc : ProcessDetail) (stream : LogStream)
    (hbefore : state.stream.listening = false) (sources : List LogSource) :
    StreamState.proceed state.project 0 stream proc sources =
      project { state with stream := stream.proceed proc sources } := by
  unfold StreamState.proceed LogStream.proceed
  cases nextSource sources with
  | some source =>
      exact project_setStream _ (by rw [hbefore]; rfl)
  | none =>
      cases hended : stream.writableEnded with
      | true =>
          simp only [StreamState.subscribe, hended, if_true]
          exact project_setStream _ (by rw [hbefore]; rfl)
      | false =>
          have hsubscribed : ({ stream.write [.ready] with
              phase := .live proc } : LogStream).listening = true := by
            simp [LogStream.listening, LogStream.write, hended]
          simp only [StreamState.subscribe, hended, Bool.false_eq_true, if_false, project,
            hsubscribed, hbefore, StreamState.setStream, if_true, List.nil_append,
            StreamState.mk.injEq, and_self, and_true]
          funext id
          by_cases hid : id = 0
          · subst hid
            simp
          · simp [hid]

theorem exec_one {stream after : StreamState} {streamAction : StreamAction}
    (hstep : stream.step streamAction = some after) :
    streamMachine.exec stream [streamAction] = some after := by
  rw [Machine.exec_cons_some (m := streamMachine) hstep]
  rfl

theorem project_publish (number : ℕ) (line : ProcessLine) :
    state.project.step (.publish (publishedLine proc line)) =
      some (state.publishLine proc number line).project := by
  unfold publishLine
  cases hlistening : state.stream.listening with
  | true =>
      have hsame : (state.stream.onLog (publishedLine proc line)).listening = true := by
        obtain ⟨hphase, _, hended⟩ := onLog_fields state.stream (publishedLine proc line)
        rw [← hlistening]
        unfold LogStream.listening
        rw [hphase, hended]
      simp only [StreamState.step, project, hlistening, hsame, if_true, Option.some.injEq,
        StreamState.mk.injEq, and_self, and_true]
      funext id
      by_cases hid : id = 0
      · simp [hid]
      · simp [hid]
  | false =>
      simp [StreamState.step, project, hlistening]

theorem project_leave (hconnected : state.stream.connected = true) :
    state.project.step (.disconnect 0) = some state.leave.project := by
  have hstream : state.project.streams 0 = some state.stream := rfl
  cases hlive : state.stream.phase with
  | live other =>
      have hlisteners : (state.project.logListeners.filter fun id => id ≠ 0) = [] ∧
          (state.project.heartbeats.filter fun id => id ≠ 0) = [] := by
        unfold project
        split <;> exact ⟨rfl, rfl⟩
      have hquiet : state.leave.stream.listening = false := by
        simp [leave, LogStream.listening, hlive]
      simp only [StreamState.step, hstream, hconnected, if_true, hlive,
        StreamState.release, hlisteners, StreamState.setStream, Option.some.injEq]
      rw [project.eq_1 state.leave, hquiet]
      simp only [Bool.false_eq_true, if_false, StreamState.mk.injEq, and_true]
      refine ⟨?_, rfl⟩
      funext id
      by_cases hid : id = 0
      · subst hid
        simp [leave, LogStream.listening, hlive]
      · simp [hid, project]
  | describing | readingBacklog other channel rest | abandoned | refused error =>
      simp only [StreamState.step, hstream, hconnected, if_true, hlive]
      exact congrArg some ((project_setStream _ (by simp [LogStream.listening, hlive])).trans
        (project_congr (by simp [leave, LogStream.listening, hlive])))

/-- Every step of the handler among the lines is one of the handler alone. -/
theorem project_step (hdescribes : Describes proc state)
    (hstep : (deliveryMachine proc).step state action = some next) :
    ∃ streamWord, streamMachine.exec state.project streamWord = some next.project := by
  simp only [deliveryMachine] at hstep
  cases action with
  | append line =>
      obtain rfl := Option.some.inj hstep
      exact ⟨[], rfl⟩
  | publish number =>
      simp only [step] at hstep
      split at hstep
      · split at hstep
        · cases hstep
        · obtain rfl := Option.some.inj hstep
          exact ⟨_, exec_one (project_publish number _)⟩
      · cases hstep
  | describe =>
      simp only [step] at hstep
      split at hstep
      · rename_i hphase
        obtain rfl := Option.some.inj hstep
        have hquiet : state.stream.listening = false := by
          simp [LogStream.listening, hphase]
        refine ⟨[.described 0 (.ok (some proc))], exec_one ?_⟩
        have hstream : state.project.streams 0 = some state.stream := rfl
        simp only [StreamState.step, hstream, hphase]
        exact congrArg some (project_proceed proc state.stream hquiet proc.sources)
      · cases hstep
  | stat =>
      simp only [step] at hstep
      split at hstep
      · obtain ⟨path, _, rfl⟩ := Option.map_eq_some_iff.mp hstep
        exact ⟨[], rfl⟩
      · cases hstep
  | read now =>
      simp only [step] at hstep
      split at hstep
      · rename_i other channel rest size hphase _
        obtain ⟨path, _, rfl⟩ := Option.map_eq_some_iff.mp hstep
        obtain rfl := hdescribes other channel rest hphase
        have hquiet : state.stream.listening = false := by
          simp [LogStream.listening, hphase]
        refine ⟨[.tailRead 0 ((tailPieces (state.files path) size).map pieceText) now],
          exec_one ?_⟩
        have hstream : state.project.streams 0 = some state.stream := rfl
        have hwrites : ((tailPieces (state.files path) size).map pieceText).map
            (fun message => StreamWrite.log (backlogLine other channel now message)) =
              (state.tailEvents other channel path size now).map
                fun event => .log event.line := by
          rw [tailEvents, List.map_map, List.map_map]
          rfl
        simp only [StreamState.step, hstream, hphase, hwrites]
        exact congrArg some ((project_proceed other _ hquiet rest).trans
          (project_congr rfl))
      · cases hstep
  | disconnect =>
      simp only [step] at hstep
      split at hstep
      · rename_i hconnected
        obtain rfl := Option.some.inj hstep
        exact ⟨[.disconnect 0], exec_one (project_leave hconnected)⟩
      · cases hstep

/-- The handler among the lines runs as the handler of `streamMachine`. -/
theorem project_run (target : Target) (files : String → List UInt8)
    (hexec : (deliveryMachine proc).exec (initial target files) word = some last) :
    ∃ streamWord, streamMachine.exec (initial target files).project streamWord =
      some last.project := by
  have hdescribes : Describes proc (initial target files) := by
    intro other channel rest hphase
    cases hphase
  generalize initial target files = state at hexec hdescribes ⊢
  induction word generalizing state with
  | nil =>
      obtain rfl := Option.some.inj hexec
      exact ⟨[], rfl⟩
  | cons action rest ih =>
      obtain ⟨next, hstep, hrest⟩ := Machine.exec_cons_inv hexec
      obtain ⟨first, hfirst⟩ := project_step hdescribes hstep
      obtain ⟨later, hlater⟩ := ih next hrest
        (describes_preserved state action next hdescribes trivial hstep)
      exact ⟨first ++ later, Machine.exec_append hfirst hlater⟩

end DeliveryState

end Pm2Manager
