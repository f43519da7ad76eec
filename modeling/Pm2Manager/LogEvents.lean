import Pm2Manager.EventStream
import Pm2Manager.LogStream
import Pm2Manager.NumberText

/-!
# Log lines between the server and the browser

The texts which the stream handler writes, log lines as JSON in events and
between them the ready event and heartbeats, and the handlers with which
`streamLogs` of the browser reads them.
-/

namespace Pm2Manager

open JsonText (Text Json ascii Paired)
open NumberText (Number)
open EventStream (Event)

/-- A `LogLine` with the strings and the numbers of JavaScript. -/
structure WireLine where
  channel : LogChannel
  processName : Text
  pmId : Number
  message : Text
  timestamp : Number

def LogChannel.text : LogChannel → Text
  | .out => ascii "out"
  | .err => ascii "err"

def WireLine.json (line : WireLine) : Json Number :=
  .object [
    (ascii "channel", .string line.channel.text),
    (ascii "processName", .string line.processName),
    (ascii "pmId", .number line.pmId),
    (ascii "message", .string line.message),
    (ascii "timestamp", .number line.timestamp)]

/-- The line with `0` for `-0`. -/
def WireLine.unsignedZeros (line : WireLine) : WireLine where
  channel := line.channel
  processName := line.processName
  pmId := NumberText.reread line.pmId
  message := line.message
  timestamp := NumberText.reread line.timestamp

/-! ## The handler of the server -/

def writeLogEvent (line : WireLine) : Text :=
  ascii "data: " ++ JsonText.stringify NumberText.format line.json ++ ascii "\n\n"

inductive WireWrite
  | log (line : WireLine)
  | ready
  | ping

namespace WireWrite

def text : WireWrite → Text
  | .log line => writeLogEvent line
  | .ready => ascii "event: ready\ndata: {}\n\n"
  | .ping => ascii ": ping\n\n"

def line : WireWrite → Option WireLine
  | .log line => some line
  | .ready => none
  | .ping => none

end WireWrite

/-! ## The handlers of the browser -/

/-- A text which is no JSON is a message itself. -/
def handle (now : Number) (raw : Text) : Json Number :=
  match JsonText.parse NumberText.format raw with
  | some line => line
  | none => .object [
      (ascii "channel", .string (ascii "out")),
      (ascii "message", .string raw),
      (ascii "timestamp", .number now)]

/-- There are handlers for `log` events and for plain ones. -/
def onEvent (now : Number) (event : Event) : Option (Json Number) :=
  if event.type = ascii "log" ∨ event.type = ascii "message" then
    some (handle now event.data)
  else none

/-- The arguments of the calls of `onLine`; `clock` has the time of each event. -/
def streamLogs (clock : ℕ → Number) (events : List Event) : List (Json Number) :=
  events.zipIdx.filterMap fun event => onEvent (clock event.2) event.1

/-- What is written goes over the wire as UTF-8. -/
def received (clock : ℕ → Number) (writes : List WireWrite) : List (Json Number) :=
  streamLogs clock (EventStream.events (JsonText.toWellFormed (writes.flatMap WireWrite.text)))

/-! ## Each write is read as a whole -/

theorem WireLine.readBack_json (line : WireLine) :
    JsonText.readBack NumberText.format line.json = line.unsignedZeros.json := rfl

namespace WireWrite

def delivered : WireWrite → List (Text × Text)
  | .log line => [(ascii "message", JsonText.stringify NumberText.format line.json)]
  | .ready => [(ascii "ready", ascii "{}")]
  | .ping => []

theorem json_no_break (value : Json Number) :
    ∀ u ∈ JsonText.stringify NumberText.format value, EventStream.isBreak u = false := by
  intro u hu
  have hprintable := JsonText.closed_printable.stringify NumberText.format value u hu
  rw [UInt16.le_iff_toNat_le] at hprintable
  simp only [EventStream.isBreak, Bool.or_eq_false_iff, beq_eq_false_iff_ne]
  constructor
  · rintro rfl
    exact absurd hprintable (by decide)
  · rintro rfl
    exact absurd hprintable (by decide)

theorem text_log (line : WireLine) : (WireWrite.log line).text =
    EventStream.messageText (JsonText.stringify NumberText.format line.json) := rfl

theorem text_ready : WireWrite.ready.text =
    EventStream.eventText (ascii "ready") (ascii "{}") := by decide

theorem text_ping : WireWrite.ping.text = EventStream.commentText (ascii " ping") := by decide

theorem delivers (write : WireWrite) : EventStream.Delivers write.text write.delivered := by
  cases write with
  | log line =>
      rw [text_log]
      exact EventStream.delivers_message (json_no_break line.json)
  | ready =>
      rw [text_ready]
      exact EventStream.delivers_event (by decide) (JsonText.forall_units (by decide))
        (JsonText.forall_units (by decide))
  | ping =>
      rw [text_ping]
      exact EventStream.delivers_comment (JsonText.forall_units (by decide))

theorem paired (write : WireWrite) : Paired write.text := by
  cases write with
  | log line =>
      rw [text, writeLogEvent]
      exact JsonText.closed_paired.append
        (JsonText.closed_paired.append
          (JsonText.paired_of_units (JsonText.forall_units (by decide)))
          (JsonText.closed_paired.stringify NumberText.format line.json))
        (JsonText.paired_of_units (JsonText.forall_units (by decide)))
  | ready => exact JsonText.paired_of_units (JsonText.forall_units (by decide))
  | ping => exact JsonText.paired_of_units (JsonText.forall_units (by decide))

theorem head_ne_bom (writes : List WireWrite) :
    (writes.flatMap text).head? ≠ some 0xFEFF := by
  cases writes with
  | nil => decide
  | cons write rest =>
      rw [List.flatMap_cons]
      cases write with
      | log line => simp [text, writeLogEvent, ascii]
      | ready => simp [text, ascii]
      | ping => simp [text, ascii]

end WireWrite

/-- The call of `onLine` for a write. -/
def WireWrite.call (write : WireWrite) : Option (Json Number) :=
  write.line.map fun line => JsonText.readBack NumberText.format line.json

theorem onEvent_message (now : Number) (id : Text) (value : Json Number) :
    onEvent now ⟨ascii "message", JsonText.stringify NumberText.format value, id⟩ =
      some (JsonText.readBack NumberText.format value) := by
  rw [onEvent, if_pos (.inr rfl), handle, JsonText.parse_stringify]

theorem onEvent_ready (now : Number) (id : Text) :
    onEvent now ⟨ascii "ready", ascii "{}", id⟩ = none :=
  if_neg (show ¬(ascii "ready" = ascii "log" ∨ ascii "ready" = ascii "message") by decide)

/-- A log event calls `onLine` with what its line is read back as; the other
writes call nothing. -/
theorem onEvent_delivered (now : Number) (id : Text) (write : WireWrite) :
    (write.delivered.map fun event => (⟨event.1, event.2, id⟩ : Event)).filterMap
      (onEvent now) = write.call.toList := by
  cases write with
  | log line =>
      rw [WireWrite.delivered, List.map_singleton,
        List.filterMap_cons_some (onEvent_message now id line.json)]
      rfl
  | ready =>
      rw [WireWrite.delivered, List.map_singleton,
        List.filterMap_cons_none (onEvent_ready now id)]
      rfl
  | ping => rfl

/-- The time matters only where a text is no JSON. -/
theorem streamLogs_eq {events : List Event} {calls : Event → Option (Json Number)}
    (hcalls : ∀ event ∈ events, ∀ now, onEvent now event = calls event)
    (clock : ℕ → Number) : streamLogs clock events = events.filterMap calls := by
  have hcongr : streamLogs clock events =
      events.zipIdx.filterMap fun event => calls event.1 :=
    List.filterMap_congr fun event hevent =>
      hcalls event.1 (List.fst_mem_of_mem_zipIdx hevent) (clock event.2)
  have hfst : events.zipIdx.map Prod.fst = events := List.zipIdx_map_fst 0 events
  rw [hcongr]
  conv_rhs => rw [← hfst, List.filterMap_map]
  rfl

theorem onEvent_now {writes : List WireWrite} {id : Text} {event : Event}
    (hevent : event ∈ (writes.flatMap WireWrite.delivered).map
      fun event => (⟨event.1, event.2, id⟩ : Event)) (now now' : Number) :
    onEvent now event = onEvent now' event := by
  obtain ⟨⟨type, data⟩, hdelivered, rfl⟩ := List.mem_map.mp hevent
  obtain ⟨write, _, hwrite⟩ := List.mem_flatMap.mp hdelivered
  cases write with
  | log line =>
      cases List.mem_singleton.mp hwrite
      rw [onEvent_message, onEvent_message]
  | ready =>
      cases List.mem_singleton.mp hwrite
      rw [onEvent_ready, onEvent_ready]
  | ping => cases hwrite

theorem received_eq (clock : ℕ → Number) (writes : List WireWrite) :
    received clock writes = writes.filterMap WireWrite.call := by
  have hpaired : Paired (writes.flatMap WireWrite.text) := by
    induction writes with
    | nil => exact JsonText.closed_paired.nil
    | cons write rest ih => exact JsonText.closed_paired.append write.paired ih
  have hevents := EventStream.events_of_delivers
    (EventStream.delivers_flatMap WireWrite.delivers writes) (WireWrite.head_ne_bom writes)
  rw [received, hpaired.toWellFormed_eq, hevents,
    streamLogs_eq (fun event hevent now => onEvent_now hevent now .zero),
    List.map_flatMap, List.filterMap_flatMap, List.filterMap_eq_flatMap_toList]
  exact List.flatMap_congr fun write _ => onEvent_delivered .zero [] write

theorem WireLine.unsignedZeros_eq_iff (line : WireLine) :
    line.unsignedZeros = line ↔ line.pmId ≠ .negativeZero ∧ line.timestamp ≠ .negativeZero := by
  obtain ⟨channel, processName, pmId, message, timestamp⟩ := line
  rw [← NumberText.reread_eq_iff, ← NumberText.reread_eq_iff, unsignedZeros]
  simp

/-- `onLine` is called with the lines of the log events, one after the other,
and with nothing else; only a `-0` has lost its sign. -/
theorem lines_received_exactly (clock : ℕ → Number) (writes : List WireWrite) :
    received clock writes = ((writes.filterMap WireWrite.line).map fun line =>
        line.unsignedZeros.json) ∧
      ∀ line : WireLine, line.unsignedZeros = line ↔
        line.pmId ≠ .negativeZero ∧ line.timestamp ≠ .negativeZero := by
  refine ⟨?_, WireLine.unsignedZeros_eq_iff⟩
  rw [received_eq, List.map_filterMap]
  exact List.filterMap_congr fun write _ => rfl

/-- A line with the process id `-0` arrives with `0`. -/
theorem negative_zero_received : ¬ ∀ (clock : ℕ → Number) (writes : List WireWrite),
    received clock writes = (writes.filterMap WireWrite.line).map WireLine.json := by
  intro hexact
  let line : WireLine := ⟨.out, [], .negativeZero, [], .zero⟩
  have hreceived := hexact (fun _ => .zero) [.log line]
  rw [received_eq] at hreceived
  have hjson : line.unsignedZeros.json = line.json := (List.cons.inj hreceived).1
  simp [line, WireLine.json, WireLine.unsignedZeros, NumberText.reread, Number.zero,
    Number.negativeZero] at hjson

/-! ## The writes of a stream -/

/-- The line of a stream, with an encoding of strings. -/
def LogLine.wire (encode : String → Text) (line : LogLine) : WireLine where
  channel := line.channel
  processName := encode line.processName
  pmId := .ofInt line.pmId
  message := encode line.message
  timestamp := .ofNat line.timestamp

def StreamWrite.wire (encode : String → Text) : StreamWrite → WireWrite
  | .log line => .log (line.wire encode)
  | .ready => .ready
  | .ping => .ping

def StreamWrite.line : StreamWrite → Option LogLine
  | .log line => some line
  | .ready => none
  | .ping => none

/-- What a stream writes, in whatever order, is what the browser is called with. -/
theorem received_written (encode : String → Text) (clock : ℕ → Number) (stream : LogStream) :
    received clock (stream.written.map (StreamWrite.wire encode)) =
      (stream.written.filterMap StreamWrite.line).map fun line => (line.wire encode).json := by
  have hcall : ∀ write : StreamWrite, (write.wire encode).call =
      write.line.map fun line => (line.wire encode).json := by
    intro write
    cases write with
    | log line =>
        have hzeros : (line.wire encode).unsignedZeros = line.wire encode := by
          rw [WireLine.unsignedZeros, LogLine.wire, NumberText.reread_ofInt,
            NumberText.reread_ofNat]
        rw [StreamWrite.wire, WireWrite.call, WireWrite.line, Option.map_some,
          WireLine.readBack_json, hzeros]
        rfl
    | ready => rfl
    | ping => rfl
  rw [received_eq, List.filterMap_map, List.map_filterMap]
  exact List.filterMap_congr fun write _ => hcall write

end Pm2Manager
