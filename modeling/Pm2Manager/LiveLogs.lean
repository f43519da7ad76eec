import Pm2Manager.LogPanel
import Pm2Manager.LogStreamCleanup
import Pm2Manager.Simulation

/-!
# From the bus to the page

The log streams of the server and the log panel of a page, with the connection
between them.  What the server writes to a stream leaves it write by write, and
reaches the page unit by unit.  While a stream is live and nobody touches the
view, the lines on the page and the lines under way grow by what PM2 publishes
for the process, and by nothing else.
-/

namespace Pm2Manager

open JsonText (Text ascii)
open NumberText (Number)
open EventStream (Reader)

/-- The stream which serves the source of the page, and how many of its writes
have left the server. -/
structure LogConnection where
  stream : StreamId
  sent : ℕ
deriving DecidableEq

/-- `source` is the process in the URL of the source. -/
structure LogSystem where
  server : StreamState
  panel : LogPanel
  source : String
  connection : Option LogConnection

inductive LogSystemAction
  | startLogs (label : Text) (idOrName : String)
  | stopLogs
  | clearLogs
  /-- The browser sends the request of its source. -/
  | requests
  | serves (action : StreamAction)
  /-- The headers of the response have arrived. -/
  | opens
  /-- A write leaves the server. -/
  | transmits
  | arrives (now : Number)
  | lost
  | fails

/-- The headers are flushed after the process has been described. -/
def LogStream.flushed (stream : LogStream) : Bool :=
  match stream.phase with
  | .describing | .refused _ => false
  | _ => true

namespace LogSystem

section

variable (texts : ValueTexts) (encode : String → Text)

def initial : LogSystem where
  server := .initial
  panel := .empty
  source := ""
  connection := none

/-- A click, or the browser on its own, changes the source of the page. -/
def view (system : LogSystem) (action : PanelAction) (source : String) :
    Option LogSystem :=
  (system.panel.step texts action).map fun panel =>
    { system with panel, source, connection := none }

def step (system : LogSystem) : LogSystemAction → Option LogSystem
  | .startLogs label idOrName => system.view texts (.startLogs label) idOrName
  | .stopLogs => system.view texts .stopLogs system.source
  | .clearLogs =>
      (system.panel.step texts .clearLogs).map fun panel => { system with panel }
  | .requests =>
      match system.panel.logStream, system.connection with
      | some .connecting, none =>
          (system.server.step (.arrive system.source)).map fun server =>
            { system with server, connection := some ⟨system.server.nextStream, 0⟩ }
      | _, _ => none
  | .serves action =>
      (system.server.step action).map fun server => { system with server }
  | .opens =>
      match system.connection with
      | some connection =>
          if (system.server.streams connection.stream).any LogStream.flushed then
            (system.panel.step texts .opens).map fun panel => { system with panel }
          else none
      | none => none
  | .transmits =>
      match system.connection with
      | some connection =>
          ((system.server.streams connection.stream).bind fun stream =>
            stream.written[connection.sent]?).bind fun write =>
              (system.panel.step texts (.writes (write.wire encode))).map fun panel =>
                { system with
                  panel, connection := some { connection with sent := connection.sent + 1 } }
      | none => none
  | .arrives now =>
      (system.panel.step texts (.arrives now)).map fun panel => { system with panel }
  | .lost => system.view texts .lost system.source
  | .fails => system.view texts .fails system.source

end

end LogSystem

/-- The page reads a stream which is live, and everything written so far has
arrived. -/
structure LogSystem.Reads (system : LogSystem) (id : StreamId) (proc : ProcessDetail) :
    Prop where
  listens : id ∈ system.server.logListeners
  live : ∃ stream, system.server.streams id = some stream ∧ stream.phase = .live proc ∧
    system.connection = some ⟨id, stream.written.length⟩
  arrived : ∃ reader, system.panel.logStream = some (.reading reader [])

def LogSystemAction.published : LogSystemAction → Option LogLine
  | .serves (.publish line) => some line
  | _ => none

variable {texts : ValueTexts} {encode : String → Text}
variable {system next last : LogSystem} {action : LogSystemAction}
variable {server after : StreamState} {move : StreamAction}
variable {id : StreamId} {stream : LogStream} {proc : ProcessDetail}

/-! ## A live stream of the server -/

/-- What a step of the server adds to a live stream. -/
def StreamAction.gained (proc : ProcessDetail) (id : StreamId) :
    StreamAction → List StreamWrite
  | .publish line => if concerns line proc then [.log line] else []
  | .heartbeat other => if other = id then [.ping] else []
  | _ => []

theorem LogStream.write_nil (stream : LogStream) : stream.write [] = stream := by
  rw [LogStream.write, List.append_nil]

theorem LogStream.onLog_live (id : StreamId) (hphase : stream.phase = .live proc)
    (line : LogLine) :
    stream.onLog line = stream.write ((StreamAction.publish line).gained proc id) := by
  rw [LogStream.onLog, hphase]
  by_cases hconcerns : concerns line proc = true
  · simp [StreamAction.gained, hconcerns]
  · simp [StreamAction.gained, hconcerns, LogStream.write_nil]

theorem proceed_other {other : StreamId} (served : LogStream) (proc : ProcessDetail)
    (sources : List LogSource) (hother : other ≠ id) (hlistens : id ∈ server.logListeners) :
    (server.proceed other served proc sources).streams id = server.streams id ∧
      id ∈ (server.proceed other served proc sources).logListeners := by
  have hproceeds := proceed_cases server other served proc sources
  generalize server.proceed other served proc sources = after at hproceeds
  cases hproceeds with
  | reads | abandons => exact ⟨by simp [StreamState.setStream, hother.symm], hlistens⟩
  | subscribes =>
      exact ⟨by simp [StreamState.setStream, hother.symm],
        List.mem_append_left _ hlistens⟩

/-- A live stream stays live, and is written to by the bus and its heartbeat
alone. -/
theorem liveStream_step (hserver : server.StreamsInvariant)
    (hstream : server.streams id = some stream) (hphase : stream.phase = .live proc)
    (hlistens : id ∈ server.logListeners) (hkept : move ≠ .disconnect id)
    (hstep : streamMachine.step server move = some after) :
    after.streams id = some (stream.write (move.gained proc id)) ∧
      id ∈ after.logListeners := by
  have hother : ∀ {other : StreamId} {served : LogStream},
      server.streams other = some served → (∀ live, served.phase ≠ .live live) →
      other ≠ id := by
    rintro other served hserved hnot rfl
    rw [hstream, Option.some.injEq] at hserved
    exact hnot proc (hserved ▸ hphase)
  have hquiet : ∀ {gained : List StreamWrite}, gained = [] →
      after.streams id = server.streams id →
      after.streams id = some (stream.write gained) := by
    rintro gained rfl hsame
    rw [hsame, hstream, stream.write_nil]
  cases streamStep_cases hstep with
  | arrived idOrName =>
      have hlt := StreamState.lt_nextStream hserver hstream
      exact ⟨hquiet rfl (by simp [StreamState.setStream, hlt.ne]), hlistens⟩
  | refused other served result error hserved hdescribing =>
      have hne := hother hserved (by simp [hdescribing])
      exact ⟨hquiet rfl (by simp [StreamState.refuse, StreamState.setStream, hne.symm]),
        hlistens⟩
  | described other served found hserved hdescribing =>
      have hne := hother hserved (by simp [hdescribing])
      have hproceed := proceed_other served found found.sources hne hlistens
      exact ⟨hquiet rfl hproceed.1, hproceed.2⟩
  | tailRead other served found channel rest lines now hserved hreading =>
      have hne := hother hserved (by simp [hreading])
      have hproceed := proceed_other (served.write (lines.map fun message =>
        .log (backlogLine found channel now message))) found rest hne hlistens
      exact ⟨hquiet rfl hproceed.1, hproceed.2⟩
  | released other served found hserved hlive =>
      have hne : id ≠ other := fun heq => hkept (heq ▸ rfl)
      refine ⟨hquiet rfl (by simp [StreamState.release, StreamState.setStream, hne]), ?_⟩
      simp [StreamState.release, hlistens, hne]
  | dropped other served hserved hnot =>
      have hne := hother hserved hnot
      exact ⟨hquiet rfl (by simp [StreamState.setStream, hne.symm]), hlistens⟩
  | published line =>
      exact ⟨by simp only [hlistens, if_true, hstream, Option.map_some,
        LogStream.onLog_live id hphase line], hlistens⟩
  | pinged other served hserved =>
      refine ⟨?_, hlistens⟩
      by_cases hsame : other = id
      · subst hsame
        rw [hstream, Option.some.injEq] at hserved
        simp [StreamState.setStream, StreamAction.gained, hserved]
      · exact hquiet (if_neg hsame) (by simp [StreamState.setStream, Ne.symm hsame])

/-! ## What is shown and what is under way -/

variable {panel shownPanel : LogPanel} {history : LogHistory} {queue : List WireWrite}
variable {got sent : ℕ} {before news shown : List LogSpan} {panelAction : PanelAction}

def spansOf (texts : ValueTexts) (writes : List WireWrite) : List LogSpan :=
  writes.flatMap fun write => (write.line.map (WireLine.span texts)).toList

theorem spansOf_append (texts : ValueTexts) (first second : List WireWrite) :
    spansOf texts (first ++ second) = spansOf texts first ++ spansOf texts second :=
  List.flatMap_append

theorem spansOf_cons (texts : ValueTexts) (write : WireWrite) (rest : List WireWrite) :
    spansOf texts (write :: rest) =
      (write.line.map (WireLine.span texts)).toList ++ spansOf texts rest :=
  List.flatMap_cons

def LogLine.span (texts : ValueTexts) (encode : String → Text) (line : LogLine) : LogSpan :=
  (line.wire encode).span texts

/-- After `before`, the page has shown the lines `shown`; with the writes in
`queue`, which have left the server, and those which have not, they make up
`news`. -/
structure LogFlow (texts : ValueTexts) (encode : String → Text) (id : StreamId)
    (proc : ProcessDetail) (before news : List LogSpan) (system : LogSystem)
    (stream : LogStream) (history : LogHistory) (shown : List LogSpan)
    (queue : List WireWrite) (got sent : ℕ) : Prop where
  listens : id ∈ system.server.logListeners
  found : system.server.streams id = some stream
  live : stream.phase = .live proc
  connection : system.connection = some ⟨id, sent⟩
  written : sent ≤ stream.written.length
  shows : Shows system.panel history
  feed : history.feed = some (.receiving queue got)
  grown : history.shown = before ++ shown
  sum : shown ++ spansOf texts
    (queue ++ (stream.written.drop sent).map (StreamWrite.wire encode)) = news

def Flows (texts : ValueTexts) (encode : String → Text) (id : StreamId)
    (proc : ProcessDetail) (before news : List LogSpan) (system : LogSystem) : Prop :=
  ∃ stream history shown queue got sent,
    LogFlow texts encode id proc before news system stream history shown queue got sent

theorem Shows.stepped (hshows : Shows panel history)
    (hstep : panel.step texts panelAction = some shownPanel) :
    ∃ after, history.step texts panelAction = some after ∧ Shows shownPanel after := by
  have hrel : Option.Rel Shows (panel.step texts panelAction)
      (history.step texts panelAction) := hshows.step panelAction
  rw [hstep] at hrel
  cases hafter : history.step texts panelAction with
  | none =>
      rw [hafter] at hrel
      cases hrel
  | some after =>
      rw [hafter] at hrel
      cases hrel with
      | some hnext => exact ⟨after, rfl, hnext⟩

theorem spansOf_gained (texts : ValueTexts) (encode : String → Text)
    (proc : ProcessDetail) (id : StreamId) (move : StreamAction) :
    spansOf texts ((move.gained proc id).map (StreamWrite.wire encode)) =
      (((LogSystemAction.serves move).published.filter (concerns · proc)).map
        (LogLine.span texts encode)).toList := by
  cases move with
  | publish line =>
      by_cases hconcerns : concerns line proc = true
      · simp [StreamAction.gained, LogSystemAction.published, Option.filter, hconcerns,
          spansOf, StreamWrite.wire, WireWrite.line, LogLine.span]
      · simp [StreamAction.gained, LogSystemAction.published, Option.filter, hconcerns,
          spansOf]
  | heartbeat other =>
      by_cases hsame : other = id
      · simp [StreamAction.gained, LogSystemAction.published, hsame, spansOf,
          StreamWrite.wire, WireWrite.line]
      · simp [StreamAction.gained, LogSystemAction.published, hsame, spansOf]
  | _ => rfl

theorem LogFlow.serves
    (hflow : LogFlow texts encode id proc before news system stream history shown queue got
      sent)
    (hserver : system.server.StreamsInvariant) (hkept : move ≠ .disconnect id)
    (hstep : system.server.step move = some after) :
    LogFlow texts encode id proc before
      (news ++ (((LogSystemAction.serves move).published.filter (concerns · proc)).map
        (LogLine.span texts encode)).toList)
      { system with server := after } (stream.write (move.gained proc id)) history shown
      queue got sent := by
  obtain ⟨hstream, hlistens⟩ := liveStream_step hserver hflow.found hflow.live hflow.listens
    hkept hstep
  have hlength : sent ≤ (stream.write (move.gained proc id)).written.length := by
    rw [LogStream.write, List.length_append]
    exact hflow.written.trans (Nat.le_add_right _ _)
  refine ⟨hlistens, hstream, hflow.live, hflow.connection, hlength, hflow.shows,
    hflow.feed, hflow.grown, ?_⟩
  rw [LogStream.write, List.drop_append_of_le_length hflow.written, List.map_append,
    ← List.append_assoc, spansOf_append, spansOf_gained, ← List.append_assoc, hflow.sum]

theorem LogFlow.transmits {write : StreamWrite}
    (hflow : LogFlow texts encode id proc before news system stream history shown queue got
      sent)
    (hwrite : stream.written[sent]? = some write)
    (hstep : system.panel.step texts (.writes (write.wire encode)) = some panel) :
    Flows texts encode id proc before news
      { system with panel, connection := some ⟨id, sent + 1⟩ } := by
  obtain ⟨hbound, hget⟩ := List.getElem?_eq_some_iff.mp hwrite
  obtain ⟨next, hnext, hshows⟩ := hflow.shows.stepped hstep
  rw [LogHistory.step, hflow.feed] at hnext
  obtain rfl := Option.some.inj hnext
  refine ⟨stream, _, shown, queue ++ [write.wire encode], got, sent + 1, hflow.listens,
    hflow.found, hflow.live, rfl, hbound, hshows, rfl, hflow.grown, ?_⟩
  have hdrop : (stream.written.drop sent).map (StreamWrite.wire encode) =
      write.wire encode :: (stream.written.drop (sent + 1)).map (StreamWrite.wire encode) := by
    rw [List.drop_eq_getElem_cons hbound, List.map_cons, hget]
  rw [List.append_assoc, List.singleton_append, ← hdrop]
  exact hflow.sum

theorem LogFlow.arrives {now : Number}
    (hflow : LogFlow texts encode id proc before news system stream history shown queue got
      sent)
    (hstep : system.panel.step texts (.arrives now) = some panel) :
    Flows texts encode id proc before news { system with panel } := by
  obtain ⟨next, hnext, hshows⟩ := hflow.shows.stepped hstep
  rw [LogHistory.step, hflow.feed] at hnext
  have hsum := hflow.sum
  cases queue with
  | nil => cases hnext
  | cons write rest =>
      obtain rfl := Option.some.inj hnext
      by_cases hwhole : got + 1 = write.text.length
      · rw [LogHistory.arrive, if_pos hwhole] at hshows
        rw [List.cons_append, spansOf_cons, ← List.append_assoc] at hsum
        exact ⟨stream, _, _, rest, 0, sent, hflow.listens, hflow.found, hflow.live,
          hflow.connection, hflow.written, hshows, rfl,
          by rw [hflow.grown, List.append_assoc], hsum⟩
      · rw [LogHistory.arrive, if_neg hwhole] at hshows
        exact ⟨stream, _, shown, write :: rest, got + 1, sent, hflow.listens, hflow.found,
          hflow.live, hflow.connection, hflow.written, hshows, rfl, hflow.grown, hsum⟩

variable {word past rest : List LogSystemAction}
variable {reader : Reader} {inFlight : Text} {now : Number}

theorem FeedMatches.drained {feed : LogFeed} (hmatch : FeedMatches (.reading reader []) feed) :
    feed = .receiving [] 0 := by
  generalize hsource : LogEventSource.reading reader [] = source at hmatch
  cases hmatch with
  | connecting | closed => cases hsource
  | @waiting other queue hreader =>
      rw [LogEventSource.reading.injEq] at hsource
      cases queue with
      | nil => rfl
      | cons write rest =>
          have hnil := hsource.2.symm
          rw [List.flatMap_cons, List.append_eq_nil_iff] at hnil
          exact absurd hnil.1 write.whole.nonempty
  | @within write rest got hgot =>
      rw [LogEventSource.reading.injEq] at hsource
      have hnil := hsource.2.symm
      rw [List.append_eq_nil_iff, List.drop_eq_nil_iff] at hnil
      exact absurd hnil.1 (not_le.mpr hgot)

theorem LogSystem.Reads.feed (hreads : system.Reads id proc)
    (hshows : Shows system.panel history) : history.feed = some (.receiving [] 0) := by
  obtain ⟨reader, hreading⟩ := hreads.arrived
  have hfeed := hshows.feed
  rw [hreading] at hfeed
  generalize history.feed = feed at hfeed ⊢
  cases hfeed with
  | some hmatch => rw [hmatch.drained]

/-- The page shows what was published, up to what is under way. -/
theorem Flows.childNodes (hflows : Flows texts encode id proc before news system) :
    ∃ shown, shown <+: news ∧
      system.panel.childNodes = (before.rtake 1000 ++ shown).rtake 1000 ∧
      (system.Reads id proc → shown = news) := by
  obtain ⟨stream, history, shown, queue, got, sent, hflow⟩ := hflows
  refine ⟨shown, ⟨_, hflow.sum⟩, ?_, fun hreads => ?_⟩
  · rw [hflow.shows.nodes, hflow.grown, rtake_append_rtake]
  · obtain ⟨other, hother, _, hconnection⟩ := hreads.live
    obtain rfl := Option.some.inj (hflow.found.symm.trans hother)
    have hsent := hflow.connection.symm.trans hconnection
    rw [Option.some.injEq, LogConnection.mk.injEq] at hsent
    have hqueue := hflow.feed.symm.trans (hreads.feed hflow.shows)
    rw [Option.some.injEq, LogFeed.receiving.injEq] at hqueue
    have hsum := hflow.sum
    rw [hqueue.1, hsent.2, List.drop_length] at hsum
    exact (List.append_nil shown).symm.trans hsum

/-! ## The network alone -/

def LogSystem.reads (system : LogSystem) (id : StreamId) (proc : ProcessDetail) : Bool :=
  decide (id ∈ system.server.logListeners) &&
    (system.server.streams id).any (fun stream => decide (stream.phase = .live proc) &&
      decide (system.connection = some ⟨id, stream.written.length⟩)) &&
    match system.panel.logStream with
    | some (.reading _ []) => true
    | _ => false

end Pm2Manager
