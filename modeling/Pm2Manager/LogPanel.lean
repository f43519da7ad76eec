import Mathlib.Data.List.DropRight
import Pm2Manager.EventReader
import Pm2Manager.Lockstep
import Pm2Manager.LogEvents
import Pm2Manager.SessionText

/-!
# The log panel

The output of the logs view, from the bytes of its stream on.  Units arrive one
by one and in between everything else may happen: the panel is cleared, the
stream is started anew, the connection is lost and made again.  The panel keeps
a thousand lines; the history, which has whole writes instead of texts, keeps
them all.
-/

namespace Pm2Manager

open JsonText (Text Json ascii)
open NumberText (Number)
open EventStream (Event Reader Whole)

/-! ## What a line looks like -/

inductive LineClass
  | plain | err | sys
deriving DecidableEq

/-- A `span` of the output. -/
structure LogSpan where
  cls : LineClass
  ts : Option Text
  message : Text
deriving DecidableEq

/-- `new Date(value).toLocaleTimeString()`, and `String(value)` for what is no
string. -/
structure ValueTexts where
  time : Json Number → Text
  text : Json Number → Text

def isTruthy : Json Number → Bool
  | .null => false
  | .bool value => value
  | .number value => value.magnitude ≠ 0
  | .string text => text ≠ []
  | .array _ => true
  | .object _ => true

def lineClass : Option (Json Number) → LineClass
  | some (.string channel) =>
      if channel = ascii "err" then .err else if channel = ascii "sys" then .sys else .plain
  | _ => .plain

/-- `ts ? el('span', …) : null`. -/
def ValueTexts.timestamp (texts : ValueTexts) : Option (Json Number) → Option Text
  | none => none
  | some value =>
      let ts := if isTruthy value then texts.time value else []
      if ts = [] then none else some ts

def ValueTexts.message (texts : ValueTexts) : Option (Json Number) → Text
  | none => []
  | some .null => []
  | some (.string text) => text
  | some value => texts.text value

def ValueTexts.span (texts : ValueTexts) (line : Json Number) : LogSpan where
  cls := lineClass (property (ascii "channel") line)
  ts := texts.timestamp (property (ascii "timestamp") line)
  message := texts.message (property (ascii "message") line)

def dash : Text := [0x2014]

def streamingMessage (label : Text) : Text :=
  dash ++ ascii " streaming " ++ label ++ ascii " " ++ dash

def disconnectedMessage : Text :=
  dash ++ ascii " stream disconnected " ++ dash

/-- A line which the page itself appends. -/
def pageLine (channel message : Text) : Json Number :=
  .object [(ascii "channel", .string channel), (ascii "message", .string message)]

/-! ## The panel -/

/-- An `EventSource`; `inFlight` has been written by the server. -/
inductive LogEventSource
  | connecting
  | reading (reader : Reader) (inFlight : Text)
  | closed

structure LogPanel where
  childNodes : List LogSpan
  logLines : ℤ
  logStream : Option LogEventSource

inductive PanelAction
  | startLogs (label : Text)
  | stopLogs
  | clearLogs
  | opens
  | writes (write : WireWrite)
  | arrives (now : Number)
  | lost
  | fails

/-- The loop of `appendLog`. -/
def dropOldest : List LogSpan → ℤ → List LogSpan × ℤ
  | [], logLines => ([], logLines)
  | first :: rest, logLines =>
      if 1000 < (first :: rest).length then dropOldest rest (logLines - 1)
      else (first :: rest, logLines)

namespace LogPanel

def empty : LogPanel where
  childNodes := []
  logLines := 0
  logStream := none

def append (panel : LogPanel) (span : LogSpan) : LogPanel :=
  let kept := dropOldest (panel.childNodes ++ [span]) (panel.logLines + 1)
  { panel with childNodes := kept.1, logLines := kept.2 }

/-- `null` has no properties to read. -/
def appendLog (texts : ValueTexts) (panel : LogPanel) : Json Number → LogPanel
  | .null => panel
  | line => panel.append (texts.span line)

def stopLogs (panel : LogPanel) : LogPanel :=
  { panel with logStream := none }

def startLogs (texts : ValueTexts) (panel : LogPanel) (label : Text) : LogPanel :=
  { panel.stopLogs.appendLog texts (pageLine (ascii "sys") (streamingMessage label)) with
    logStream := some .connecting }

def clearLogs (panel : LogPanel) : LogPanel :=
  { panel with childNodes := [], logLines := 0 }

def onError (texts : ValueTexts) (panel : LogPanel) (source : LogEventSource) : LogPanel :=
  { panel with logStream := some source }.appendLog texts
    (pageLine (ascii "err") disconnectedMessage)

def arrive (texts : ValueTexts) (panel : LogPanel) (now : Number) (reader : Reader)
    (u : UInt16) (rest : Text) : LogPanel :=
  let panel := { panel with logStream := some (.reading (reader.read u).1 rest) }
  match (reader.read u).2.bind (onEvent now) with
  | none => panel
  | some line => panel.appendLog texts line

/-- A source which has been lost connects again. -/
def step (texts : ValueTexts) (panel : LogPanel) : PanelAction → Option LogPanel
  | .startLogs label => some (panel.startLogs texts label)
  | .stopLogs => some panel.stopLogs
  | .clearLogs => some panel.clearLogs
  | .opens =>
      match panel.logStream with
      | some .connecting => some { panel with logStream := some (.reading .start []) }
      | _ => none
  | .writes write =>
      match panel.logStream with
      | some (.reading reader inFlight) =>
          some { panel with
            logStream := some (.reading reader (inFlight ++ JsonText.toWellFormed write.text)) }
      | _ => none
  | .arrives now =>
      match panel.logStream with
      | some (.reading reader (u :: rest)) => some (panel.arrive texts now reader u rest)
      | _ => none
  | .lost =>
      match panel.logStream with
      | some .connecting => some (panel.onError texts .connecting)
      | some (.reading _ _) => some (panel.onError texts .connecting)
      | _ => none
  | .fails =>
      match panel.logStream with
      | some .connecting => some (panel.onError texts .closed)
      | some (.reading _ _) => some (panel.onError texts .closed)
      | _ => none

end LogPanel

def logPanelMachine (texts : ValueTexts) : Machine LogPanel PanelAction where
  step := LogPanel.step texts

/-! ## The history -/

/-- Of the first write in the queue, `got` units have arrived. -/
inductive LogFeed
  | connecting
  | receiving (queue : List WireWrite) (got : ℕ)
  | closed

structure LogHistory where
  shown : List LogSpan
  feed : Option LogFeed

def WireLine.span (texts : ValueTexts) (line : WireLine) : LogSpan where
  cls :=
    match line.channel with
    | .out => .plain
    | .err => .err
  ts := texts.timestamp (some (.number line.timestamp))
  message := line.message

namespace LogHistory

def empty : LogHistory where
  shown := []
  feed := none

def start (history : LogHistory) (label : Text) : LogHistory where
  shown := history.shown ++ [⟨.sys, none, streamingMessage label⟩]
  feed := some .connecting

def disconnect (history : LogHistory) (feed : LogFeed) : LogHistory where
  shown := history.shown ++ [⟨.err, none, disconnectedMessage⟩]
  feed := some feed

/-- A line is shown when its write has arrived as a whole. -/
def arrive (texts : ValueTexts) (history : LogHistory) (write : WireWrite)
    (rest : List WireWrite) (got : ℕ) : LogHistory :=
  if got + 1 = write.text.length then
    { shown := history.shown ++ (write.line.map (WireLine.span texts)).toList
      feed := some (.receiving rest 0) }
  else
    { history with feed := some (.receiving (write :: rest) (got + 1)) }

def step (texts : ValueTexts) (history : LogHistory) : PanelAction → Option LogHistory
  | .startLogs label => some (history.start label)
  | .stopLogs => some { history with feed := none }
  | .clearLogs => some { history with shown := [] }
  | .opens =>
      match history.feed with
      | some .connecting => some { history with feed := some (.receiving [] 0) }
      | _ => none
  | .writes write =>
      match history.feed with
      | some (.receiving queue got) =>
          some { history with feed := some (.receiving (queue ++ [write]) got) }
      | _ => none
  | .arrives _ =>
      match history.feed with
      | some (.receiving (write :: rest) got) => some (history.arrive texts write rest got)
      | _ => none
  | .lost =>
      match history.feed with
      | some .connecting => some (history.disconnect .connecting)
      | some (.receiving _ _) => some (history.disconnect .connecting)
      | _ => none
  | .fails =>
      match history.feed with
      | some .connecting => some (history.disconnect .closed)
      | some (.receiving _ _) => some (history.disconnect .closed)
      | _ => none

end LogHistory

def logHistoryMachine (texts : ValueTexts) : Machine LogHistory PanelAction where
  step := LogHistory.step texts

variable {texts : ValueTexts} {panel : LogPanel} {history : LogHistory}
variable {write : WireWrite} {got : ℕ}

/-! ## Writes as whole texts -/

namespace WireWrite

def event : WireWrite → Option (Text × Text)
  | .log line => some (ascii "message", JsonText.stringify NumberText.format line.json)
  | .ready => some (ascii "ready", ascii "{}")
  | .ping => none

def lines : WireWrite → List Text
  | .log line =>
      [EventStream.fieldLine (ascii "data") (JsonText.stringify NumberText.format line.json)]
  | .ready =>
      [EventStream.fieldLine (ascii "event") (ascii "ready"),
        EventStream.fieldLine (ascii "data") (ascii "{}")]
  | .ping => [ascii ": ping"]

theorem text_eq_block (write : WireWrite) : write.text = Reader.blockText write.lines := by
  cases write with
  | log line =>
      rw [text_log, lines, Reader.blockText, List.flatMap_singleton, Reader.lineText,
        EventStream.messageText, List.append_assoc]
      rfl
  | ready => decide
  | ping => decide

theorem delivered_eq (write : WireWrite) : write.delivered = write.event.toList := by
  cases write <;> rfl

theorem lines_filled (write : WireWrite) : Reader.Filled write.lines := by
  intro line hline
  cases write with
  | log line =>
      obtain rfl := List.mem_singleton.mp hline
      exact Reader.fieldLine_units (JsonText.forall_units (by decide)) (json_no_break _)
  | ready =>
      rcases List.mem_cons.mp hline with rfl | hline
      · exact Reader.fieldLine_units (JsonText.forall_units (by decide))
          (JsonText.forall_units (by decide))
      · obtain rfl := List.mem_singleton.mp hline
        exact Reader.fieldLine_units (JsonText.forall_units (by decide))
          (JsonText.forall_units (by decide))
  | ping =>
      obtain rfl := List.mem_singleton.mp hline
      exact ⟨by decide, JsonText.forall_units (by decide)⟩

theorem lines_keepId (write : WireWrite) : Reader.KeepsId write.lines := by
  intro id
  cases write with
  | log line =>
      rw [lines, List.foldl_cons, List.foldl_nil, EventStream.processLine_fieldLine _
        (JsonText.forall_units (by decide)) (by decide), EventStream.processField_data]
      rfl
  | ready =>
      rw [lines, List.foldl_cons, List.foldl_cons, List.foldl_nil,
        EventStream.processLine_fieldLine _ (JsonText.forall_units (by decide)) (by decide),
        EventStream.processLine_fieldLine _ (JsonText.forall_units (by decide)) (by decide),
        EventStream.processField_data, EventStream.processField_event]
      rfl
  | ping => rfl

theorem whole (write : WireWrite) : Whole write.text write.event := by
  rw [text_eq_block]
  apply EventStream.whole_block write.lines_filled write.lines_keepId
  rw [← text_eq_block, ← delivered_eq]
  exact write.delivers

/-- The event of a write calls `onLine` as the write does. -/
theorem bind_onEvent (write : WireWrite) (now : Number) :
    (write.event.map fun event => (⟨event.1, event.2, []⟩ : Event)).bind (onEvent now) =
      write.call := by
  cases write with
  | log line => exact onEvent_message now [] line.json
  | ready => exact onEvent_ready now []
  | ping => rfl

theorem head_ne (write : WireWrite) : write.text[0]? ≠ some 0xFEFF := by
  cases write with
  | log line => simp [text, writeLogEvent, ascii]
  | ready => decide
  | ping => decide

end WireWrite

theorem span_json (texts : ValueTexts) (line : WireLine) :
    texts.span (JsonText.readBack NumberText.format line.json) = line.span texts := by
  have htime : texts.timestamp (some (.number (NumberText.reread line.timestamp))) =
      texts.timestamp (some (.number line.timestamp)) := by
    by_cases hzero : line.timestamp.magnitude = 0
    · simp [ValueTexts.timestamp, isTruthy, NumberText.reread, hzero, Number.zero]
    · rw [NumberText.reread, if_neg hzero]
  obtain ⟨channel, processName, pmId, message, timestamp⟩ := line
  rw [WireLine.span, ← htime]
  cases channel <;> rfl

/-! ## The thousand last lines -/

theorem dropOldest_eq (nodes : List LogSpan) (logLines : ℤ) :
    dropOldest nodes logLines = (nodes.rtake 1000, logLines - (nodes.length - 1000 : ℕ)) := by
  induction nodes generalizing logLines with
  | nil => simp [dropOldest]
  | cons first rest ih =>
      rw [dropOldest]
      split
      next hlong =>
        rw [List.length_cons] at hlong
        have hmore : rest.length + 1 - 1000 = rest.length - 1000 + 1 := by omega
        rw [ih, List.rtake, List.rtake, List.length_cons, hmore, List.drop_succ_cons]
        push_cast
        rw [sub_sub, add_comm (1 : ℤ)]
      next hshort =>
        have hnone : (first :: rest).length - 1000 = 0 := by omega
        rw [List.rtake, hnone, List.drop_zero, Nat.cast_zero, sub_zero]

theorem LogPanel.childNodes_append (panel : LogPanel) (span : LogSpan) :
    (panel.append span).childNodes = (panel.childNodes ++ [span]).rtake 1000 := by
  simp only [append, dropOldest_eq]

theorem LogPanel.logLines_append (panel : LogPanel) (span : LogSpan) :
    (panel.append span).logLines =
      panel.logLines + 1 - (panel.childNodes.length + 1 - 1000 : ℕ) := by
  simp only [append, dropOldest_eq, List.length_append, List.length_singleton]

theorem rtake_append_rtake {α : Type*} (n : ℕ) (front back : List α) :
    (front.rtake n ++ back).rtake n = (front ++ back).rtake n := by
  have hfront : front.rtake n ++ back = (front ++ back).drop (front.length - n) := by
    rw [List.rtake, List.drop_append_of_le_length (Nat.sub_le _ _)]
  rw [hfront, List.rtake, List.rtake, List.drop_drop, List.length_drop, List.length_append]
  congr 1
  omega

/-! ## The panel shows the end of the history -/

/-- A reader which has been given the part of the first write which has arrived. -/
inductive FeedMatches : LogEventSource → LogFeed → Prop
  | connecting : FeedMatches .connecting .connecting
  | closed : FeedMatches .closed .closed
  | waiting {reader : Reader} {queue : List WireWrite}
      (hreader : reader = .start ∨ reader = .idle []) :
      FeedMatches (.reading reader (queue.flatMap WireWrite.text)) (.receiving queue 0)
  | within {write : WireWrite} {rest : List WireWrite} {got : ℕ}
      (hgot : got < write.text.length) :
      FeedMatches
        (.reading ((Reader.idle []).feed (write.text.take got))
          (write.text.drop got ++ rest.flatMap WireWrite.text))
        (.receiving (write :: rest) got)

structure Shows (panel : LogPanel) (history : LogHistory) : Prop where
  nodes : panel.childNodes = history.shown.rtake 1000
  lines : panel.logLines = panel.childNodes.length
  feed : Option.Rel FeedMatches panel.logStream history.feed

namespace Shows

theorem empty : Shows .empty .empty where
  nodes := by simp [LogPanel.empty, LogHistory.empty]
  lines := rfl
  feed := .none

theorem append (hshows : Shows panel history) (span : LogSpan) :
    Shows (panel.append span) { history with shown := history.shown ++ [span] } := by
  refine ⟨?_, ?_, hshows.feed⟩
  · rw [panel.childNodes_append, hshows.nodes, rtake_append_rtake]
  · have hlines := hshows.lines
    rw [panel.childNodes_append, panel.logLines_append, List.rtake, List.length_drop,
      List.length_append, List.length_singleton]
    omega

theorem appendPage (hshows : Shows panel history) (texts : ValueTexts)
    (channel message : Text) :
    Shows (panel.appendLog texts (pageLine channel message))
      { history with shown := history.shown ++ [texts.span (pageLine channel message)] } :=
  hshows.append _

theorem appendCall (hshows : Shows panel history) (write : WireWrite) :
    Shows (match write.call with
        | none => panel
        | some line => panel.appendLog texts line)
      { history with
        shown := history.shown ++ (write.line.map (WireLine.span texts)).toList } := by
  cases write with
  | log line =>
      have hspan : ((WireWrite.log line).line.map (WireLine.span texts)).toList =
          [texts.span (JsonText.readBack NumberText.format line.json)] := by
        rw [span_json]
        rfl
      rw [hspan]
      exact hshows.append _
  | ready =>
      rw [show WireWrite.ready.line = none from rfl, Option.map_none, Option.toList_none,
        List.append_nil]
      exact hshows
  | ping =>
      rw [show WireWrite.ping.line = none from rfl, Option.map_none, Option.toList_none,
        List.append_nil]
      exact hshows

theorem withFeed (hshows : Shows panel history) {source : Option LogEventSource}
    {feed : Option LogFeed} (hfeed : Option.Rel FeedMatches source feed) :
    Shows { panel with logStream := source } { history with feed := feed } :=
  ⟨hshows.nodes, hshows.lines, hfeed⟩

/-- A unit of a write arrives. -/
theorem arrive (hshows : Shows panel history) (texts : ValueTexts) (now : Number)
    (rest : List WireWrite) {u : UInt16} (hu : write.text[got]? = some u) :
    Shows
      (panel.arrive texts now ((Reader.idle []).feed (write.text.take got)) u
        (write.text.drop (got + 1) ++ rest.flatMap WireWrite.text))
      (history.arrive texts write rest got) := by
  obtain ⟨hnext, hevent⟩ := write.whole.read [] hu
  have hgot : got < write.text.length := (List.getElem?_eq_some_iff.mp hu).1
  rw [LogPanel.arrive, LogHistory.arrive, hnext, hevent]
  by_cases hlast : got + 1 = write.text.length
  · rw [if_pos hlast, if_pos hlast, write.bind_onEvent, hlast, List.take_length,
      List.drop_length, List.nil_append, write.whole.returns]
    exact (hshows.withFeed (.some (.waiting (.inr rfl)))).appendCall write
  · rw [if_neg hlast, if_neg hlast]
    exact hshows.withFeed (.some (.within (by omega)))

theorem onError (hshows : Shows panel history) {source : LogEventSource} {feed : LogFeed}
    (hfeed : FeedMatches source feed) :
    Shows (panel.onError texts source) (history.disconnect feed) :=
  (hshows.withFeed (.some hfeed)).appendPage texts (ascii "err") disconnectedMessage

/-- Both machines have the actions of a source in the same states. -/
theorem step (hshows : Shows panel history) (action : PanelAction) :
    Option.Rel Shows (panel.step texts action) (history.step texts action) := by
  have hfeed := hshows.feed
  cases action with
  | startLogs label =>
      have happend := (hshows.withFeed .none).appendPage texts (ascii "sys")
        (streamingMessage label)
      exact .some (happend.withFeed (.some .connecting))
  | stopLogs => exact .some (hshows.withFeed .none)
  | clearLogs => exact .some ⟨(List.rtake_nil 1000).symm, rfl, hfeed⟩
  | opens =>
      rw [LogPanel.step, LogHistory.step]
      generalize panel.logStream = source, history.feed = feed at hfeed
      cases hfeed with
      | none => exact .none
      | some hmatch =>
          cases hmatch with
          | connecting =>
              have hfresh := @FeedMatches.waiting .start [] (.inl rfl)
              exact .some (hshows.withFeed (.some hfresh))
          | closed => exact .none
          | waiting _ => exact .none
          | within _ => exact .none
  | writes write =>
      rw [LogPanel.step, LogHistory.step]
      generalize panel.logStream = source, history.feed = feed at hfeed
      cases hfeed with
      | none => exact .none
      | some hmatch =>
          cases hmatch with
          | connecting => exact .none
          | closed => exact .none
          | @waiting reader queue hreader =>
              have hqueue : queue.flatMap WireWrite.text ++ JsonText.toWellFormed write.text =
                  (queue ++ [write]).flatMap WireWrite.text := by
                rw [write.paired.toWellFormed_eq, List.flatMap_append, List.flatMap_singleton]
              refine .some (hshows.withFeed (.some ?_))
              rw [hqueue]
              exact .waiting hreader
          | @within first rest got hgot =>
              have hqueue : first.text.drop got ++ rest.flatMap WireWrite.text ++
                  JsonText.toWellFormed write.text =
                    first.text.drop got ++ (rest ++ [write]).flatMap WireWrite.text := by
                rw [write.paired.toWellFormed_eq, List.flatMap_append, List.flatMap_singleton,
                  List.append_assoc]
              refine .some (hshows.withFeed (.some ?_))
              rw [hqueue]
              exact .within hgot
  | arrives now =>
      rw [LogPanel.step, LogHistory.step]
      generalize panel.logStream = source, history.feed = feed at hfeed
      cases hfeed with
      | none => exact .none
      | some hmatch =>
          cases hmatch with
          | connecting => exact .none
          | closed => exact .none
          | @waiting reader queue hreader =>
              cases queue with
              | nil => exact .none
              | cons write rest =>
                  obtain ⟨u, more, htext⟩ := List.exists_cons_of_ne_nil write.whole.nonempty
                  have hu : write.text[0]? = some u := by rw [htext]; rfl
                  have hbom : u ≠ 0xFEFF := fun heq => write.head_ne (heq ▸ hu)
                  have harrive := hshows.arrive texts now rest hu
                  have hread : reader.read u = (Reader.idle []).read u := by
                    rcases hreader with rfl | rfl
                    · exact Reader.start_read hbom
                    · rfl
                  rw [List.flatMap_cons, htext, List.cons_append]
                  rw [htext] at harrive
                  refine .some ?_
                  rw [LogPanel.arrive, hread]
                  exact harrive
          | @within write rest got hgot =>
              have hu : write.text[got]? = some write.text[got] := List.getElem?_eq_getElem hgot
              rw [List.drop_eq_getElem_cons hgot, List.cons_append]
              exact .some (hshows.arrive texts now rest hu)
  | lost =>
      rw [LogPanel.step, LogHistory.step]
      generalize panel.logStream = source, history.feed = feed at hfeed
      cases hfeed with
      | none => exact .none
      | some hmatch =>
          cases hmatch with
          | connecting => exact .some (hshows.onError .connecting)
          | closed => exact .none
          | waiting _ => exact .some (hshows.onError .connecting)
          | within _ => exact .some (hshows.onError .connecting)
  | fails =>
      rw [LogPanel.step, LogHistory.step]
      generalize panel.logStream = source, history.feed = feed at hfeed
      cases hfeed with
      | none => exact .none
      | some hmatch =>
          cases hmatch with
          | connecting => exact .some (hshows.onError .closed)
          | closed => exact .none
          | waiting _ => exact .some (hshows.onError .closed)
          | within _ => exact .some (hshows.onError .closed)

end Shows

/-- In every run, the panel has the last thousand lines of the history and
counts them: the lines of the page, and each line of the server at the moment
at which its write has arrived, whatever was cut off when a connection ended. -/
theorem panel_shows_arrived (texts : ValueTexts) (word : List PanelAction) :
    Option.Rel
      (fun panel history => panel.childNodes = history.shown.rtake 1000 ∧
        panel.logLines = panel.childNodes.length)
      ((logPanelMachine texts).exec .empty word)
      ((logHistoryMachine texts).exec .empty word) := by
  have hlock : (logPanelMachine texts).Lockstep (logHistoryMachine texts)
      (fun _ _ _ => True) Shows :=
    fun _ _ action hshows _ => hshows.step action
  have hadmits : (logPanelMachine texts).AdmitsBoth (logHistoryMachine texts)
      (fun _ _ _ => True) .empty .empty word :=
    Machine.admitsBoth_of_forall fun _ _ => trivial
  have hrun := hlock.exec Shows.empty hadmits
  exact hrun.imp fun _ _ hshows => ⟨hshows.nodes, hshows.lines⟩

end Pm2Manager
