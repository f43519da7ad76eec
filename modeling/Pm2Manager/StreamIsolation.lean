import Pm2Manager.Lockstep
import Pm2Manager.LogDelivery
import Pm2Manager.LogStreamCleanup

/-!
# One stream among the lines of other processes

The log streams of the server next to the log files of all managed processes,
which may share names and files.  A stream which was opened for a number is
compared in two runs that differ in the lines of other processes only.  The
backlog is chosen by the files of the process, the live lines by its id or its
name.
-/

namespace Pm2Manager

open Function
open ScriptText (truthy)

/-! ## The fleet -/

/-- `sizes` holds what `stat` has given to a handler which awaits the read. -/
structure FleetState where
  server : StreamState
  files : String → List UInt8
  sizes : StreamId → Option ℕ

inductive FleetAction
  /-- PM2 appends a line of a process to the log file of its channel. -/
  | append (pmId : ℤ) (channel : LogChannel) (text : List UInt8)
  | publish (line : LogLine)
  | arrive (idOrName : String)
  | described (id : StreamId) (result : Except AppError (Option ProcessDetail))
  | stat (id : StreamId)
  /-- The awaited read gives `got` bytes at most, or fails. -/
  | read (id : StreamId) (got : Option ℕ) (now : ℕ)
  /-- `open` or `stat` fails. -/
  | unreadable (id : StreamId) (now : ℕ)
  | disconnect (id : StreamId)
  | heartbeat (id : StreamId)

/-- The process PM2 knows by a number. -/
def processOf (procs : List ProcessDetail) (pmId : ℤ) : Option ProcessDetail :=
  procs.find? fun proc => proc.pmId = pmId

/-- What `pm2Service.describe` may settle with: a number is looked up among the
processes, PM2's rules for a text are left open. -/
def Describes (procs : List ProcessDetail) : Target →
    Except AppError (Option ProcessDetail) → Prop
  | .number pmId, .ok found => found = processOf procs pmId
  | _, _ => True

instance (procs : List ProcessDetail) : ∀ target result,
    Decidable (Describes procs target result)
  | .number pmId, .ok found => inferInstanceAs (Decidable (found = processOf procs pmId))
  | .number _, .error _ => isTrue trivial
  | .text _, _ => isTrue trivial

namespace FleetState

variable (procs : List ProcessDetail)

def initial (files : String → List UInt8) : FleetState where
  server := .initial
  files := files
  sizes := fun _ => none

/-- The file whose tail the handler of a stream awaits. -/
def awaitedPath (state : FleetState) (id : StreamId) : Option String :=
  match state.server.streams id with
  | some stream =>
      match stream.phase with
      | .readingBacklog proc channel _ => proc.logPath channel
      | _ => none
  | none => none

def readLines (state : FleetState) (path : String) (size : ℕ) (got : Option ℕ) :
    List String :=
  (readTailLines (some size) fun length start =>
    got.bind fun got => readOf (state.files path) got length start).map String.ofList

def serve (state : FleetState) (action : StreamAction) : Option FleetState :=
  (state.server.step action).map fun server => { state with server }

def appendTo (state : FleetState) (path : String) (text : List UInt8) : FleetState :=
  { state with files := update state.files path (state.files path ++ text ++ [10]) }

/-- The awaited tail settles. -/
def settle (state : FleetState) (id : StreamId) (lines : List String) (now : ℕ) :
    Option FleetState :=
  serve { state with sizes := update state.sizes id none } (.tailRead id lines now)

def step (state : FleetState) : FleetAction → Option FleetState
  | .append pmId channel text =>
      match (processOf procs pmId).bind (·.logPath channel) with
      | some path => some (state.appendTo path text)
      | none => some state
  | .publish line => state.serve (.publish line)
  | .arrive idOrName => state.serve (.arrive idOrName)
  | .described id result =>
      (state.server.streams id).bind fun stream =>
        if Describes procs stream.target result then state.serve (.described id result)
        else none
  | .stat id =>
      match state.awaitedPath id, state.sizes id with
      | some path, none => some { state with
          sizes := update state.sizes id (some (state.files path).length) }
      | _, _ => none
  | .read id got now =>
      match state.awaitedPath id, state.sizes id with
      | some path, some size =>
          state.settle id (state.readLines path size got) now
      | _, _ => none
  | .unreadable id now => state.settle id [] now
  | .disconnect id => state.serve (.disconnect id)
  | .heartbeat id => state.serve (.heartbeat id)

def logEvents (state : FleetState) (id : StreamId) : List LogLine :=
  match state.server.streams id with
  | some stream => stream.written.filterMap fun chunk =>
      match chunk with
      | .log line => some line
      | .ready | .ping => none
  | none => []

def OpenedFor (state : FleetState) (id : StreamId) (pmId : ℤ) : Prop :=
  ∃ stream, state.server.streams id = some stream ∧ stream.target = .number pmId

end FleetState

def fleetMachine (procs : List ProcessDetail) : Machine FleetState FleetAction where
  step := FleetState.step procs

def fromOther (pmId : ℤ) : FleetAction → Bool
  | .append other _ _ => other != pmId
  | .publish line => line.pmId != pmId
  | _ => false

/-- The lines of other processes stay out of the files of the process until the
prologue of the stream is over, and those which are published to the live
stream have another name. -/
def StaysOut (procs : List ProcessDetail) (pmId : ℤ) (id : StreamId)
    (state : FleetState) : FleetAction → Prop
  | .append other channel _ => other ≠ pmId →
      (∃ stream, state.server.streams id = some stream ∧ stream.phase.finished = true) ∨
      ∀ proc, processOf procs pmId = some proc → ∀ own path,
        proc.logPath own = some path →
        (processOf procs other).bind (·.logPath channel) ≠ some path
  | .publish line => line.pmId ≠ pmId → id ∈ state.server.logListeners →
      ∀ proc, processOf procs pmId = some proc → line.processName ≠ proc.name
  | _ => True

/-! ## Streams which are alike -/

/-- Alike but for what is written, which is the same where it matters. -/
structure LogStream.Similar (matters : Prop) (stream other : LogStream) : Prop where
  target : stream.target = other.target
  phase : stream.phase = other.phase
  connected : stream.connected = other.connected
  writableEnded : stream.writableEnded = other.writableEnded
  written : matters → stream.written = other.written

/-- The servers are alike but for what is written to the streams other than
`id`. -/
structure StreamState.Similar (id : StreamId) (server other : StreamState) : Prop where
  streams : ∀ k, Option.Rel (LogStream.Similar (k = id)) (server.streams k)
    (other.streams k)
  nextStream : server.nextStream = other.nextStream
  logListeners : server.logListeners = other.logListeners
  heartbeats : server.heartbeats = other.heartbeats

variable {procs : List ProcessDetail} {pmId : ℤ} {id k : StreamId}
variable {server other : StreamState} {stream stream' : LogStream} {matters : Prop}
variable {proc : ProcessDetail} {lines lines' : List String} {now : ℕ}

theorem LogStream.Similar.refl (stream : LogStream) : stream.Similar matters stream :=
  ⟨rfl, rfl, rfl, rfl, fun _ => rfl⟩

theorem LogStream.Similar.write {chunks chunks' : List StreamWrite}
    (hsimilar : stream.Similar matters stream')
    (hchunks : matters → chunks = chunks') :
    (stream.write chunks).Similar matters (stream'.write chunks') := by
  refine ⟨hsimilar.target, hsimilar.phase, hsimilar.connected, hsimilar.writableEnded, ?_⟩
  intro hmatters
  simp [LogStream.write, hsimilar.written hmatters, hchunks hmatters]

theorem LogStream.Similar.toPhase (hsimilar : stream.Similar matters stream')
    (phase : StreamPhase) :
    ({ stream with phase } : LogStream).Similar matters { stream' with phase } :=
  ⟨hsimilar.target, rfl, hsimilar.connected, hsimilar.writableEnded, hsimilar.written⟩

theorem LogStream.Similar.leave (hsimilar : stream.Similar matters stream')
    (phase : StreamPhase) :
    ({ stream with phase, connected := false } : LogStream).Similar matters
      { stream' with phase, connected := false } :=
  ⟨hsimilar.target, rfl, rfl, hsimilar.writableEnded, hsimilar.written⟩

theorem StreamState.Similar.setStream (hservers : server.Similar id other)
    (hstreams : stream.Similar (k = id) stream') :
    (server.setStream k stream).Similar id (other.setStream k stream') := by
  refine ⟨fun j => ?_, hservers.nextStream, hservers.logListeners, hservers.heartbeats⟩
  by_cases hj : j = k
  · subst hj
    simp only [StreamState.setStream, update_self]
    exact .some hstreams
  · simp only [StreamState.setStream, update_of_ne hj]
    exact hservers.streams j

theorem StreamState.Similar.subscribe (hservers : server.Similar id other)
    (hstreams : stream.Similar (k = id) stream') (proc : ProcessDetail) :
    (server.subscribe k stream proc).Similar id (other.subscribe k stream' proc) := by
  unfold StreamState.subscribe
  by_cases hended : stream'.writableEnded = true
  · rw [if_pos (hstreams.writableEnded.trans hended), if_pos hended]
    exact hservers.setStream (hstreams.toPhase .abandoned)
  · rw [if_neg (by rwa [hstreams.writableEnded]), if_neg hended]
    have hready : (stream.write [.ready]).Similar (k = id) (stream'.write [.ready]) :=
      hstreams.write fun _ => rfl
    have hset := hservers.setStream (hready.toPhase (.live proc))
    exact ⟨hset.streams, hset.nextStream, congrArg (· ++ [k]) hservers.logListeners,
      congrArg (· ++ [k]) hservers.heartbeats⟩

theorem StreamState.Similar.proceed (hservers : server.Similar id other)
    (hstreams : stream.Similar (k = id) stream') (proc : ProcessDetail)
    (sources : List LogSource) :
    (server.proceed k stream proc sources).Similar id
      (other.proceed k stream' proc sources) := by
  unfold StreamState.proceed
  split
  · exact hservers.setStream (hstreams.toPhase _)
  · exact hservers.subscribe hstreams proc

theorem StreamState.Similar.refuse (hservers : server.Similar id other)
    (hstreams : stream.Similar (k = id) stream') (error : AppError) :
    (server.refuse k stream error).Similar id (other.refuse k stream' error) :=
  hservers.setStream
    ⟨hstreams.target, rfl, hstreams.connected, rfl, hstreams.written⟩

theorem StreamState.Similar.release (hservers : server.Similar id other)
    (hstreams : stream.Similar (k = id) stream') :
    (server.release k stream).Similar id (other.release k stream') := by
  have hended : ({ stream with writableEnded := true } : LogStream).Similar (k = id)
      { stream' with writableEnded := true } :=
    ⟨hstreams.target, hstreams.phase, hstreams.connected, rfl, hstreams.written⟩
  have hset := hservers.setStream hended
  exact ⟨hset.streams, hset.nextStream,
    congrArg (List.filter fun j => j ≠ k) hservers.logListeners,
    congrArg (List.filter fun j => j ≠ k) hservers.heartbeats⟩

theorem LogStream.Similar.onLog (hstreams : stream.Similar matters stream')
    (line : LogLine) : (stream.onLog line).Similar matters (stream'.onLog line) := by
  unfold LogStream.onLog
  rw [← hstreams.phase]
  split
  · split
    · exact hstreams.write fun _ => rfl
    · exact hstreams
  · exact hstreams

/-- The handlers go the same way whatever has been written. -/
theorem similar_tailRead (hservers : server.Similar id other)
    (hlines : k = id → lines = lines') :
    Option.Rel (StreamState.Similar id) (server.step (.tailRead k lines now))
      (other.step (.tailRead k lines' now)) := by
  have hrel := hservers.streams k
  simp only [StreamState.step]
  generalize server.streams k = first, other.streams k = second at hrel ⊢
  cases hrel with
  | none => exact .none
  | @some stream stream' hstreams =>
      simp only [← hstreams.phase]
      cases stream.phase with
      | readingBacklog proc channel rest =>
          refine .some (hservers.proceed (hstreams.write fun hmatters => ?_) proc rest)
          rw [hlines hmatters]
      | describing | live _ | abandoned | refused _ => exact .none

theorem similar_published (hservers : server.Similar id other) (line : LogLine) :
    Option.Rel (StreamState.Similar id) (server.step (.publish line))
      (other.step (.publish line)) := by
  refine .some ⟨fun j => ?_, hservers.nextStream, hservers.logListeners,
    hservers.heartbeats⟩
  have hrel := hservers.streams j
  simp only [← hservers.logListeners]
  split
  · generalize server.streams j = first, other.streams j = second at hrel ⊢
    cases hrel with
    | none => exact .none
    | some hstreams => exact .some (hstreams.onLog line)
  · exact hrel

theorem onLog_target (stream : LogStream) (line : LogLine) :
    (stream.onLog line).target = stream.target := by
  unfold LogStream.onLog
  split
  · split <;> rfl
  · rfl

/-- A line which the stream does not write leaves the servers alike. -/
theorem similar_of_quiet {next : StreamState} {line : LogLine}
    (hservers : server.Similar id other)
    (hstep : server.step (.publish line) = some next)
    (hquiet : id ∈ server.logListeners → ∀ stream, server.streams id = some stream →
      stream.onLog line = stream) : next.Similar id other := by
  rw [← Option.some.inj hstep]
  refine ⟨fun j => ?_, hservers.nextStream, hservers.logListeners, hservers.heartbeats⟩
  have hrel := hservers.streams j
  simp only
  split
  next hlistens =>
    cases hstream : server.streams j with
    | none => rwa [hstream] at hrel
    | some stream =>
        rw [hstream] at hrel
        generalize other.streams j = second at hrel ⊢
        cases hrel with
        | some hstreams =>
            obtain ⟨hphase, hconnected, hended⟩ := StreamState.onLog_same stream line
            refine .some ⟨?_, hphase.trans hstreams.phase,
              hconnected.trans hstreams.connected, hended.trans hstreams.writableEnded,
              fun hj => ?_⟩
            · rw [onLog_target]
              exact hstreams.target
            · subst hj
              exact (congrArg LogStream.written (hquiet hlistens stream hstream)).trans
                (hstreams.written rfl)
  · exact hrel

theorem similar_step (hservers : server.Similar id other) (action : StreamAction) :
    Option.Rel (StreamState.Similar id) (server.step action) (other.step action) := by
  cases action with
  | arrive idOrName =>
      simp only [StreamState.step, ← hservers.nextStream]
      refine .some ⟨fun j => ?_, rfl, hservers.logListeners, hservers.heartbeats⟩
      exact (hservers.setStream (.refl _)).streams j
  | described k result =>
      have hrel := hservers.streams k
      simp only [StreamState.step]
      generalize server.streams k = first, other.streams k = second at hrel ⊢
      cases hrel with
      | none => exact .none
      | @some stream stream' hstreams =>
          simp only [← hstreams.phase]
          cases stream.phase with
          | describing =>
              cases result with
              | error error => exact .some (hservers.refuse hstreams error)
              | ok found =>
                  cases found with
                  | none => exact .some (hservers.refuse hstreams _)
                  | some proc => exact .some (hservers.proceed hstreams proc _)
          | readingBacklog _ _ _ | live _ | abandoned | refused _ => exact .none
  | tailRead k lines now => exact similar_tailRead hservers fun _ => rfl
  | disconnect k =>
      have hrel := hservers.streams k
      simp only [StreamState.step]
      generalize server.streams k = first, other.streams k = second at hrel ⊢
      cases hrel with
      | none => exact .none
      | @some stream stream' hstreams =>
          simp only [← hstreams.phase, ← hstreams.connected]
          split
          · cases stream.phase with
            | live proc => exact .some (hservers.release (hstreams.leave _))
            | describing | readingBacklog _ _ _ | abandoned | refused _ =>
                exact .some (hservers.setStream (hstreams.leave _))
          · exact .none
  | publish line => exact similar_published hservers line
  | heartbeat k =>
      have hrel := hservers.streams k
      simp only [StreamState.step, ← hservers.heartbeats]
      split
      · generalize server.streams k = first, other.streams k = second at hrel ⊢
        cases hrel with
        | none => exact .none
        | some hstreams =>
            exact .some (hservers.setStream (hstreams.write fun _ => rfl))
      · exact .none

/-! ## The process of a stream -/

def StreamPhase.process : StreamPhase → Option ProcessDetail
  | .readingBacklog proc _ _ => some proc
  | .live proc => some proc
  | .describing | .abandoned | .refused _ => none

variable {next : StreamState} {action : StreamAction} {after : LogStream}

/-- A process comes to a stream with its description only, and a prologue which
is over stays over. -/
structure StreamAfter (id : StreamId) (action : StreamAction) (stream after : LogStream) :
    Prop where
  target : after.target = stream.target
  process : ∀ proc, after.phase.process = some proc →
    stream.phase.process = some proc ∨ action = .described id (.ok (some proc))
  finished : stream.phase.finished = true → after.phase.finished = true

theorem StreamAfter.same (hphase : after.phase = stream.phase)
    (htarget : after.target = stream.target) : StreamAfter id action stream after :=
  ⟨htarget, fun _ hproc => .inl (hphase ▸ hproc), fun hfinished => hphase ▸ hfinished⟩

theorem proceed_after (state : StreamState) {sources : List LogSource}
    (hopen : stream.phase.finished = false)
    (hproc : stream.phase.process = some proc ∨
      action = .described id (.ok (some proc))) {stream' : LogStream}
    (htarget : stream'.target = stream.target) :
    ∃ after, (state.proceed id stream' proc sources).streams id = some after ∧
      StreamAfter id action stream after := by
  have hafter : ∀ after : LogStream, after.target = stream'.target →
      (∀ other, after.phase.process = some other → other = proc) →
      StreamAfter id action stream after := by
    intro after hsame hown
    refine ⟨hsame.trans htarget, fun other hother => ?_, fun hfinished => ?_⟩
    · rw [hown other hother]
      exact hproc
    · simp [hopen] at hfinished
  have hcases := proceed_cases state id stream' proc sources
  generalize state.proceed id stream' proc sources = result at hcases ⊢
  cases hcases with
  | reads channel rest _ =>
      refine ⟨_, update_self .., hafter _ rfl ?_⟩
      intro other hother
      exact (Option.some.inj hother).symm
  | abandons _ _ =>
      refine ⟨_, update_self .., hafter _ rfl ?_⟩
      intro other hother
      simp [StreamPhase.process] at hother
  | subscribes _ _ =>
      refine ⟨_, update_self .., hafter _ rfl ?_⟩
      intro other hother
      exact (Option.some.inj hother).symm

theorem streams_elsewhere {result : StreamState} {changed : LogStream} (hne : id ≠ k)
    (hresult : result.streams = (server.setStream k changed).streams) :
    result.streams id = server.streams id := by
  rw [hresult, StreamState.streams_setStream, if_neg hne]

theorem proceed_elsewhere {changed : LogStream} {sources : List LogSource}
    (hne : id ≠ k) :
    (server.proceed k changed proc sources).streams id = server.streams id := by
  have hcases := proceed_cases server k changed proc sources
  generalize server.proceed k changed proc sources = result at hcases ⊢
  cases hcases with
  | reads _ _ _ | abandons _ _ | subscribes _ _ => exact streams_elsewhere hne rfl

theorem stream_kept (hstream : server.streams id = some stream)
    (hkept : next.streams id = server.streams id) :
    ∃ after, next.streams id = some after ∧ StreamAfter id action stream after :=
  ⟨stream, hkept.trans hstream, .same rfl rfl⟩

theorem stream_after (hinv : server.StreamsInvariant)
    (hstep : server.step action = some next)
    (hstream : server.streams id = some stream) :
    ∃ after, next.streams id = some after ∧ StreamAfter id action stream after := by
  have hcases : StreamStep server action next := streamStep_cases hstep
  have hpresent : ∀ {k : StreamId} {found : LogStream},
      server.streams k = some found → id = k → found = stream := by
    rintro k found hfound rfl
    exact Option.some.inj (hfound.symm.trans hstream)
  cases hcases with
  | arrived idOrName =>
      refine stream_kept hstream (streams_elsewhere ?_ rfl)
      exact Nat.ne_of_lt (StreamState.lt_nextStream hinv hstream)
  | refused k found result error hfound hphase =>
      by_cases hid : id = k
      · obtain rfl := hpresent hfound hid
        subst hid
        refine ⟨_, update_self .., rfl, ?_, fun _ => rfl⟩
        intro proc hproc
        simp [StreamPhase.process] at hproc
      · exact stream_kept hstream (streams_elsewhere hid rfl)
  | described k found proc hfound hphase =>
      by_cases hid : id = k
      · obtain rfl := hpresent hfound hid
        subst hid
        exact proceed_after server (by rw [hphase]; rfl) (.inr rfl) rfl
      · exact stream_kept hstream (proceed_elsewhere hid)
  | tailRead k found proc channel rest lines now hfound hphase =>
      by_cases hid : id = k
      · obtain rfl := hpresent hfound hid
        subst hid
        exact proceed_after server (by rw [hphase]; rfl) (.inl (by rw [hphase]; rfl)) rfl
      · exact stream_kept hstream (proceed_elsewhere hid)
  | released k found proc hfound hphase =>
      by_cases hid : id = k
      · obtain rfl := hpresent hfound hid
        subst hid
        exact ⟨_, update_self .., .same rfl rfl⟩
      · exact stream_kept hstream (streams_elsewhere hid rfl)
  | dropped k found hfound hphase =>
      by_cases hid : id = k
      · obtain rfl := hpresent hfound hid
        subst hid
        exact ⟨_, update_self .., .same rfl rfl⟩
      · exact stream_kept hstream (streams_elsewhere hid rfl)
  | published line =>
      simp only [hstream]
      split
      · exact ⟨_, rfl, .same (StreamState.onLog_same stream line).1 (onLog_target ..)⟩
      · exact ⟨stream, rfl, .same rfl rfl⟩
  | pinged k found hfound =>
      by_cases hid : id = k
      · obtain rfl := hpresent hfound hid
        subst hid
        exact ⟨_, update_self .., .same rfl rfl⟩
      · exact stream_kept hstream (streams_elsewhere hid rfl)

theorem stream_new (hstep : server.step action = some next)
    (hstream : server.streams id = none) (hafter : next.streams id = some after) :
    after.phase.process = none := by
  have hcases : StreamStep server action next := streamStep_cases hstep
  have hne : ∀ {k : StreamId} {found : LogStream}, server.streams k = some found →
      id ≠ k := by
    rintro k found hfound rfl
    simp [hstream] at hfound
  have habsent : next.streams id = server.streams id → after.phase.process = none := by
    intro hkept
    rw [hafter, hstream] at hkept
    cases hkept
  cases hcases with
  | arrived idOrName =>
      simp only [StreamState.setStream, update_apply] at hafter
      split at hafter
      · rw [← Option.some.inj hafter]
        rfl
      · simp [hstream] at hafter
  | refused k found _ _ hfound _ | released k found _ hfound _ | dropped k found hfound _
  | pinged k found hfound => exact habsent (streams_elsewhere (hne hfound) rfl)
  | described k found proc hfound hphase => exact habsent (proceed_elsewhere (hne hfound))
  | tailRead k found proc channel rest lines now hfound hphase =>
      exact habsent (proceed_elsewhere (hne hfound))
  | published line => simp [hstream] at hafter

/-! ## Steps of the fleet -/

namespace FleetState

variable {state state' next last : FleetState} {action : FleetAction}
variable {word : List FleetAction} {files : String → List UInt8}

/-- The handler of the stream attends to the process of its number. -/
structure Attends (procs : List ProcessDetail) (pmId : ℤ) (id : StreamId)
    (state : FleetState) : Prop where
  streams : state.server.StreamsInvariant
  process : ∀ stream proc, state.server.streams id = some stream →
    stream.target = .number pmId → stream.phase.process = some proc →
    processOf procs pmId = some proc

def DescribedBy (procs : List ProcessDetail) (state : FleetState)
    (action : StreamAction) : Prop :=
  ∀ k result stream, action = .described k result →
    state.server.streams k = some stream → Describes procs stream.target result

/-- A step leaves the handlers or is one of theirs. -/
theorem step_server (hstep : state.step procs action = some next) :
    next.server = state.server ∨
      ∃ handled, state.server.step handled = some next.server ∧
        DescribedBy procs state handled := by
  have hserve : ∀ {state : FleetState} {handled : StreamAction},
      state.serve handled = some next → state.server.step handled = some next.server := by
    intro state handled hserved
    obtain ⟨server, hserver, rfl⟩ := Option.map_eq_some_iff.mp hserved
    exact hserver
  have hsettle : ∀ {k : StreamId} {lines : List String} {now : ℕ},
      state.settle k lines now = some next →
        ∃ handled, state.server.step handled = some next.server ∧
          DescribedBy procs state handled := by
    intro k lines now hsettled
    have hserved : serve { state with sizes := update state.sizes k none }
      (.tailRead k lines now) = some next := hsettled
    have hserver := hserve hserved
    refine ⟨_, hserver, ?_⟩
    rintro k result stream ⟨⟩
  cases action with
  | append other channel text =>
      left
      simp only [step] at hstep
      split at hstep <;> rw [← Option.some.inj hstep]
      rfl
  | publish line => exact .inr ⟨_, hserve hstep, by rintro k result stream ⟨⟩⟩
  | arrive idOrName => exact .inr ⟨_, hserve hstep, by rintro k result stream ⟨⟩⟩
  | described k result =>
      simp only [step] at hstep
      obtain ⟨stream, hstream, hallowed⟩ := Option.bind_eq_some_iff.mp hstep
      split at hallowed
      next hdescribes =>
        refine .inr ⟨_, hserve hallowed, ?_⟩
        rintro j other found ⟨⟩ hfound
        rwa [← Option.some.inj (hstream.symm.trans hfound)]
      · simp at hallowed
  | stat k =>
      left
      simp only [step] at hstep
      split at hstep
      · rw [← Option.some.inj hstep]
      · simp at hstep
  | read k got now =>
      simp only [step] at hstep
      split at hstep
      · exact .inr (hsettle hstep)
      · simp at hstep
  | unreadable k now => exact .inr (hsettle hstep)
  | disconnect k => exact .inr ⟨_, hserve hstep, by rintro k result stream ⟨⟩⟩
  | heartbeat k => exact .inr ⟨_, hserve hstep, by rintro k result stream ⟨⟩⟩

theorem attends_step (hattends : Attends procs pmId id state)
    (hstep : state.step procs action = some next) : Attends procs pmId id next := by
  rcases step_server hstep with hkept | ⟨handled, hserver, hdescribed⟩
  · exact ⟨hkept ▸ hattends.streams, hkept ▸ hattends.process⟩
  · refine ⟨streamsInvariant_step _ _ _ hattends.streams trivial hserver, ?_⟩
    intro after proc hafter htarget hproc
    cases hstream : state.server.streams id with
    | none => simp [stream_new hserver hstream hafter] at hproc
    | some stream =>
        obtain ⟨after', hafter', hchange⟩ := stream_after hattends.streams hserver hstream
        obtain rfl := Option.some.inj (hafter'.symm.trans hafter)
        rw [hchange.target] at htarget
        rcases hchange.process proc hproc with hold | hnew
        · exact hattends.process stream proc hstream htarget hold
        · have hdescribes := hdescribed id _ stream hnew hstream
          rw [htarget] at hdescribes
          exact hdescribes.symm

theorem openedFor_step (hattends : Attends procs pmId id state)
    (hstep : state.step procs action = some next) {stream : LogStream}
    (hstream : state.server.streams id = some stream) :
    ∃ after, next.server.streams id = some after ∧ after.target = stream.target ∧
      (stream.phase.finished = true → after.phase.finished = true) := by
  rcases step_server hstep with hkept | ⟨handled, hserver, _⟩
  · exact ⟨stream, hkept ▸ hstream, rfl, fun hfinished => hfinished⟩
  · obtain ⟨after, hafter, hchange⟩ := stream_after hattends.streams hserver hstream
    exact ⟨after, hafter, hchange.target, hchange.finished⟩

/-- A stream which is opened for a number in the end was opened for it. -/
theorem target_of_openedFor (hattends : Attends procs pmId id state)
    (hexec : (fleetMachine procs).exec state word = some last)
    (hopened : last.OpenedFor id pmId) {stream : LogStream}
    (hstream : state.server.streams id = some stream) : stream.target = .number pmId := by
  induction word generalizing state stream with
  | nil =>
      rw [Machine.exec_nil, Option.some.injEq] at hexec
      subst hexec
      obtain ⟨found, hfound, htarget⟩ := hopened
      rwa [← Option.some.inj (hfound.symm.trans hstream)]
  | cons action rest ih =>
      obtain ⟨next, hstep, hrest⟩ := Machine.exec_cons_inv hexec
      obtain ⟨after, hafter, htarget, _⟩ := openedFor_step hattends hstep hstream
      rw [← htarget]
      exact ih (attends_step hattends hstep) hrest hafter

/-! ## Two fleets -/

/-- Alike for one stream, as long as it may still read its files. -/
structure Alike (procs : List ProcessDetail) (pmId : ℤ) (id : StreamId)
    (state other : FleetState) : Prop where
  server : state.server.Similar id other.server
  sizes : ∀ k, (state.sizes k).isSome = (other.sizes k).isSome
  size : state.sizes id = other.sizes id
  files : (∃ stream, state.server.streams id = some stream ∧
      stream.phase.finished = true) ∨
    ∀ proc own path, processOf procs pmId = some proc → proc.logPath own = some path →
      state.files path = other.files path

theorem Alike.refl (state : FleetState) : Alike procs pmId id state state where
  server := {
    streams k := by
      cases state.server.streams k with
      | none => exact .none
      | some stream => exact .some (.refl stream)
    nextStream := rfl
    logListeners := rfl
    heartbeats := rfl }
  sizes _ := rfl
  size := rfl
  files := .inr fun _ _ _ _ _ => rfl

theorem Alike.size_none (halike : Alike procs pmId id state state')
    (hnone : state.sizes k = none) : state'.sizes k = none := by
  have hsizes := halike.sizes k
  rw [hnone] at hsizes
  exact Option.not_isSome_iff_eq_none.mp (by simp [← hsizes])

theorem Alike.size_some (halike : Alike procs pmId id state state') {size : ℕ}
    (hsome : state.sizes k = some size) : ∃ size', state'.sizes k = some size' := by
  have hsizes := halike.sizes k
  rw [hsome] at hsizes
  exact Option.isSome_iff_exists.mp hsizes.symm

theorem finished_server {server : StreamState} {handled : StreamAction}
    (hattends : Attends procs pmId id state)
    (hserver : state.server.step handled = some server)
    (hfinished : ∃ stream, state.server.streams id = some stream ∧
      stream.phase.finished = true) :
    ∃ stream, server.streams id = some stream ∧ stream.phase.finished = true := by
  obtain ⟨stream, hstream, hover⟩ := hfinished
  obtain ⟨after, hafter, hchange⟩ := stream_after hattends.streams hserver hstream
  exact ⟨after, hafter, hchange.finished hover⟩

theorem alike_serve {handled handled' : StreamAction}
    (hattends : Attends procs pmId id state) (halike : Alike procs pmId id state state')
    (hservers : Option.Rel (StreamState.Similar id) (state.server.step handled)
      (state'.server.step handled')) :
    Option.Rel (Alike procs pmId id) (state.serve handled) (state'.serve handled') := by
  unfold serve
  cases hfirst : state.server.step handled with
  | none =>
      rw [hfirst] at hservers
      cases hsecond : state'.server.step handled' with
      | none => exact .none
      | some server' =>
          rw [hsecond] at hservers
          cases hservers
  | some server =>
      rw [hfirst] at hservers
      cases hsecond : state'.server.step handled' with
      | none =>
          rw [hsecond] at hservers
          cases hservers
      | some server' =>
          rw [hsecond] at hservers
          cases hservers with
          | some hsimilar =>
              refine .some ⟨hsimilar, halike.sizes, halike.size, ?_⟩
              exact halike.files.imp_left (finished_server hattends hfirst)

/-- Both fleets note the size of a file, or forget it; for the stream it is the
same size. -/
theorem Alike.setSize (halike : Alike procs pmId id state state') {size size' : Option ℕ}
    (hsome : size.isSome = size'.isSome) (hsame : k = id → size = size') :
    Alike procs pmId id { state with sizes := update state.sizes k size }
      { state' with sizes := update state'.sizes k size' } := by
  refine ⟨halike.server, fun j => ?_, ?_, halike.files⟩
  · by_cases hj : j = k
    · subst hj
      simpa using hsome
    · simpa [update_of_ne hj] using halike.sizes j
  · by_cases hid : id = k
    · subst hid
      simpa using hsame rfl
    · simpa [update_of_ne hid] using halike.size

theorem alike_settle (hattends : Attends procs pmId id state)
    (halike : Alike procs pmId id state state') (hlines : k = id → lines = lines')
    (now : ℕ) :
    Option.Rel (Alike procs pmId id) (state.settle k lines now)
      (state'.settle k lines' now) := by
  have hread : Attends procs pmId id { state with sizes := update state.sizes k none } :=
    ⟨hattends.streams, hattends.process⟩
  exact alike_serve hread (halike.setSize rfl fun _ => rfl)
    (similar_tailRead halike.server hlines)

theorem awaitedPath_eq (halike : Alike procs pmId id state state') (k : StreamId) :
    state.awaitedPath k = state'.awaitedPath k := by
  have hrel := halike.server.streams k
  unfold awaitedPath
  generalize state.server.streams k = first, state'.server.streams k = second at hrel ⊢
  cases hrel with
  | none => rfl
  | some hstreams => simp only [hstreams.phase]

theorem awaitedFile_eq (hattends : Attends procs pmId id state)
    (htarget : ∀ stream, state.server.streams id = some stream →
      stream.target = .number pmId)
    (halike : Alike procs pmId id state state') {path : String}
    (hpath : state.awaitedPath id = some path) : state.files path = state'.files path := by
  unfold awaitedPath at hpath
  split at hpath
  next stream hstream =>
    split at hpath
    next proc channel rest hphase =>
      have hproc := hattends.process stream proc hstream (htarget stream hstream)
        (by rw [hphase]; rfl)
      rcases halike.files with ⟨found, hfound, hover⟩ | hfiles
      · obtain rfl := Option.some.inj (hfound.symm.trans hstream)
        simp [hphase, StreamPhase.finished] at hover
      · exact hfiles proc channel path hproc hpath
    · simp at hpath
  · simp at hpath

theorem alike_append (halike : Alike procs pmId id state state') (path : String)
    (text : List UInt8) :
    Alike procs pmId id (state.appendTo path text) (state'.appendTo path text) := by
  refine ⟨halike.server, halike.sizes, halike.size, ?_⟩
  refine halike.files.imp_right fun hfiles proc own path' hproc hpath' => ?_
  have hsame := hfiles proc own path' hproc hpath'
  by_cases hpath : path' = path
  · subst hpath
    simp [appendTo, hsame]
  · simpa [appendTo, update_of_ne hpath] using hsame

/-- A line of the process, or anything which is not a line, takes fleets which
are alike to fleets which are alike. -/
theorem alike_step (hattends : Attends procs pmId id state)
    (htarget : ∀ stream, state.server.streams id = some stream →
      stream.target = .number pmId)
    (halike : Alike procs pmId id state state') (hown : fromOther pmId action = false) :
    Option.Rel (Alike procs pmId id) (state.step procs action)
      (state'.step procs action) := by
  have hserve : ∀ handled, Option.Rel (Alike procs pmId id) (state.serve handled)
      (state'.serve handled) := fun handled =>
    alike_serve hattends halike (similar_step halike.server handled)
  cases action with
  | append other channel text =>
      simp only [step]
      split
      next path _ => exact .some (alike_append halike path text)
      · exact .some halike
  | publish line => exact hserve _
  | arrive idOrName => exact hserve _
  | described k result =>
      have hrel := halike.server.streams k
      simp only [step]
      generalize state.server.streams k = first, state'.server.streams k = second at hrel ⊢
      cases hrel with
      | none => exact .none
      | some hstreams =>
          simp only [Option.bind_some, ← hstreams.target]
          split
          · exact hserve _
          · exact .none
  | stat k =>
      have hpaths := awaitedPath_eq halike k
      simp only [step, ← hpaths]
      cases hpath : state.awaitedPath k with
      | none => exact .none
      | some path =>
          cases hfirst : state.sizes k with
          | some size =>
              obtain ⟨size', hsecond⟩ := halike.size_some hfirst
              rw [hsecond]
              exact .none
          | none =>
              rw [halike.size_none hfirst]
              refine .some (halike.setSize rfl fun hid => ?_)
              subst hid
              rw [awaitedFile_eq hattends htarget halike hpath]
  | read k got now =>
      have hpaths := awaitedPath_eq halike k
      simp only [step, ← hpaths]
      cases hpath : state.awaitedPath k with
      | none => exact .none
      | some path =>
          cases hfirst : state.sizes k with
          | none =>
              rw [halike.size_none hfirst]
              exact .none
          | some size =>
              obtain ⟨size', hsecond⟩ := halike.size_some hfirst
              rw [hsecond]
              refine alike_settle hattends halike (fun hid => ?_) now
              subst hid
              have hsize : size = size' := by
                rw [← Option.some.injEq, ← hfirst, ← hsecond, halike.size]
              rw [hsize, readLines, readLines,
                awaitedFile_eq hattends htarget halike hpath]
  | unreadable k now => exact alike_settle hattends halike (fun _ => rfl) now
  | disconnect k => exact hserve _
  | heartbeat k => exact hserve _

/-- A line of another process which stays out is not noticed. -/
theorem alike_other (hattends : Attends procs pmId id state)
    (htarget : ∀ stream, state.server.streams id = some stream →
      stream.target = .number pmId)
    (halike : Alike procs pmId id state state') (hother : fromOther pmId action = true)
    (hout : StaysOut procs pmId id state action)
    (hstep : state.step procs action = some next) : Alike procs pmId id next state' := by
  cases action with
  | append other channel text =>
      have hne : other ≠ pmId := by simpa [fromOther] using hother
      simp only [step] at hstep
      split at hstep
      next path hpath =>
        rw [← Option.some.inj hstep]
        refine ⟨halike.server, halike.sizes, halike.size, ?_⟩
        rcases hout hne with hfinished | helsewhere
        · exact .inl hfinished
        · refine halike.files.imp_right fun hfiles proc own path' hproc hpath' => ?_
          have hdistinct : path' ≠ path := by
            rintro rfl
            exact helsewhere proc hproc own path' hpath' hpath
          simpa [appendTo, update_of_ne hdistinct] using
            hfiles proc own path' hproc hpath'
      · rw [← Option.some.inj hstep]
        exact halike
  | publish line =>
      have hne : line.pmId ≠ pmId := by simpa [fromOther] using hother
      simp only [step, serve] at hstep
      obtain ⟨server, hserver, rfl⟩ := Option.map_eq_some_iff.mp hstep
      refine ⟨similar_of_quiet halike.server hserver ?_, halike.sizes, halike.size,
        halike.files.imp_left (finished_server hattends hserver)⟩
      intro hlistens stream hstream
      obtain ⟨found, proc, hfound, hlive⟩ :=
        hattends.streams.registered id (.inl hlistens)
      obtain rfl := Option.some.inj (hfound.symm.trans hstream)
      have hproc := hattends.process found proc hfound (htarget found hfound)
        (by rw [hlive]; rfl)
      have hnumber : proc.pmId = pmId := by
        simpa using List.find?_some hproc
      have hname := hout hne hlistens proc hproc
      have hignored : concerns line proc = false := by
        simp [concerns, hnumber, hne, hname]
      simp [LogStream.onLog, hlive, hignored]
  | _ => simp [fromOther] at hother

/-- A line of another process which does not stay out of the live stream is
sent on it. -/
theorem line_sent (hattends : Attends procs pmId id state)
    (htarget : ∀ stream, state.server.streams id = some stream →
      stream.target = .number pmId) {line : LogLine}
    (hshared : ¬ StaysOut procs pmId id state (.publish line))
    (hstep : state.step procs (.publish line) = some next) :
    next.logEvents id = state.logEvents id ++ [line] := by
  simp only [StaysOut, not_forall, not_not] at hshared
  obtain ⟨_, hlistens, proc, hproc, hname⟩ := hshared
  obtain ⟨stream, live, hstream, hlive⟩ := hattends.streams.registered id (.inl hlistens)
  have hsame := hattends.process stream live hstream (htarget stream hstream)
    (by rw [hlive]; rfl)
  obtain rfl := Option.some.inj (hproc.symm.trans hsame)
  have hconcerns : concerns line proc = true := by
    simp [concerns, hname]
  have hsent : stream.onLog line = stream.write [.log line] := by
    simp [LogStream.onLog, hlive, hconcerns]
  simp only [step, serve] at hstep
  obtain ⟨server, hserver, rfl⟩ := Option.map_eq_some_iff.mp hstep
  rw [← Option.some.inj hserver]
  simp [FleetState.logEvents, hlistens, hstream, hsent, LogStream.write]

/-! ## Runs -/

theorem alike_exec (hattends : Attends procs pmId id state)
    (hexec : (fleetMachine procs).exec state word = some last)
    (hopened : last.OpenedFor id pmId)
    (hout : (fleetMachine procs).Admits (StaysOut procs pmId id) state word)
    (halike : Alike procs pmId id state state') :
    ∃ last', (fleetMachine procs).exec state'
        (word.filter fun action => !fromOther pmId action) = some last' ∧
      Alike procs pmId id last last' := by
  induction word generalizing state state' with
  | nil =>
      rw [Machine.exec_nil, Option.some.injEq] at hexec
      exact ⟨state', rfl, hexec ▸ halike⟩
  | cons action rest ih =>
      have htarget : ∀ stream, state.server.streams id = some stream →
          stream.target = .number pmId := fun stream hstream =>
        target_of_openedFor hattends hexec hopened hstream
      obtain ⟨next, hstep, hrest⟩ := Machine.exec_cons_inv hexec
      have hnext := attends_step hattends hstep
      cases hother : fromOther pmId action with
      | true =>
          rw [List.filter_cons_of_neg (by simp [hother])]
          exact ih hnext hrest (hout.2 next hstep)
            (alike_other hattends htarget halike hother hout.1 hstep)
      | false =>
          rw [List.filter_cons_of_pos (by simp [hother])]
          have hrel := alike_step hattends htarget halike hother
          have hfirst : state.step procs action = some next := hstep
          rw [hfirst] at hrel
          cases hsecond : state'.step procs action with
          | none =>
              rw [hsecond] at hrel
              cases hrel
          | some next' =>
              rw [hsecond] at hrel
              cases hrel with
              | some hnextAlike =>
                  have hstep' : (fleetMachine procs).step state' action = some next' :=
                    hsecond
                  obtain ⟨last', hlast', hlastAlike⟩ :=
                    ih hnext hrest (hout.2 next hstep) hnextAlike
                  exact ⟨last', by rw [Machine.exec_cons_some hstep']; exact hlast',
                    hlastAlike⟩

theorem Alike.logEvents (halike : Alike procs pmId id state state') :
    state.logEvents id = state'.logEvents id := by
  have hrel := halike.server.streams id
  unfold FleetState.logEvents
  generalize state.server.streams id = first, state'.server.streams id = second at hrel ⊢
  cases hrel with
  | none => rfl
  | some hstreams => simp only [hstreams.written rfl]

theorem attends_initial (files : String → List UInt8) :
    Attends procs pmId id (.initial files) where
  streams := streamsInvariant_initial
  process stream proc hstream := by simp [initial, StreamState.initial] at hstream

end FleetState

/-- Two runs which differ in the lines of other processes only, all of which
stay out, send the same log events to a stream which is opened for the number
of the process. -/
theorem log_events_isolated {files : String → List UInt8} {word₁ word₂ : List FleetAction}
    {last₁ last₂ : FleetState}
    (hsame : (word₁.filter fun action => !fromOther pmId action) =
      word₂.filter fun action => !fromOther pmId action)
    (hexec₁ : (fleetMachine procs).exec (.initial files) word₁ = some last₁)
    (hexec₂ : (fleetMachine procs).exec (.initial files) word₂ = some last₂)
    (hopened₁ : last₁.OpenedFor id pmId) (hopened₂ : last₂.OpenedFor id pmId)
    (hout₁ : (fleetMachine procs).Admits (StaysOut procs pmId id) (.initial files) word₁)
    (hout₂ : (fleetMachine procs).Admits (StaysOut procs pmId id) (.initial files) word₂) :
    last₁.logEvents id = last₂.logEvents id := by
  have hattends : FleetState.Attends procs pmId id (.initial files) :=
    FleetState.attends_initial files
  obtain ⟨own₁, hown₁, halike₁⟩ :=
    FleetState.alike_exec hattends hexec₁ hopened₁ hout₁ (.refl _)
  obtain ⟨own₂, hown₂, halike₂⟩ :=
    FleetState.alike_exec hattends hexec₂ hopened₂ hout₂ (.refl _)
  rw [hsame, hown₂, Option.some.injEq] at hown₁
  rw [halike₁.logEvents, halike₂.logEvents, hown₁]

/-! ## Two instances of one name -/

def clusterInstance (pmId : ℤ) : ProcessDetail where
  pmId := pmId
  name := "api"
  outLogPath := none
  errorLogPath := none

def clusterInstances : List ProcessDetail := [clusterInstance 0, clusterInstance 1]

def openFirst : List FleetAction :=
  [.arrive "0", .described 0 (.ok (some (clusterInstance 0)))]

def lineFrom (pmId : ℤ) (name : String) : LogLine where
  channel := .out
  processName := name
  pmId := pmId
  message := "listening"
  timestamp := 0

def loggingProcess (pmId : ℤ) (name path : String) : ProcessDetail where
  pmId := pmId
  name := name
  outLogPath := some path
  errorLogPath := none

def loggingProcesses : List ProcessDetail :=
  [loggingProcess 0 "api" "/logs/api-out.log",
    loggingProcess 2 "worker" "/logs/worker-out.log"]

/-- Both processes write a line to their files before the stream is opened, and
publish one after it. -/
def twoProcesses : List FleetAction :=
  [.append 0 .out [117, 112], .append 2 .out [110, 111], .arrive "0",
    .described 0 (.ok (some (loggingProcess 0 "api" "/logs/api-out.log"))), .stat 0,
    .read 0 (some 3) 1, .publish (lineFrom 2 "worker"), .publish (lineFrom 0 "api")]

/-- The other process has a file and a name of its own. -/
def keepsOut (procs : List ProcessDetail) (pmId : ℤ) (_ : FleetState) :
    FleetAction → Bool
  | .append other channel _ => decide (other = pmId) ||
      [LogChannel.out, .err].all fun own =>
        ((processOf procs pmId).bind (·.logPath own)).all fun path =>
          (processOf procs other).bind (·.logPath channel) ≠ some path
  | .publish line => decide (line.pmId = pmId) ||
      (processOf procs pmId).all fun proc => line.processName ≠ proc.name
  | _ => true

theorem staysOut_of_keepsOut {action : FleetAction} {state : FleetState}
    (hkeeps : keepsOut procs pmId state action = true) :
    StaysOut procs pmId id state action := by
  cases action with
  | append other channel text =>
      intro hne
      refine .inr fun proc hproc own path hpath => ?_
      simp only [keepsOut, hne, decide_false, Bool.false_or] at hkeeps
      have hown := List.all_eq_true.mp hkeeps own (by cases own <;> simp)
      rw [hproc, Option.bind_some, hpath, Option.all_some] at hown
      exact of_decide_eq_true hown
  | publish line =>
      intro hne _ proc hproc
      simp only [keepsOut, hne, decide_false, Bool.false_or, hproc,
        Option.all_some] at hkeeps
      exact of_decide_eq_true hkeeps
  | _ => trivial

theorem other_name_isolated :
    ∃ last₁ last₂ : FleetState,
      (fleetMachine loggingProcesses).exec (.initial fun _ => []) twoProcesses =
        some last₁ ∧
      (fleetMachine loggingProcesses).exec (.initial fun _ => [])
        (twoProcesses.filter fun action => !fromOther 0 action) = some last₂ ∧
      (last₁.logEvents 0).map LogLine.message = ["up", "listening"] ∧
      last₁.logEvents 0 = last₂.logEvents 0 := by
  have hout : ∀ word, (fleetMachine loggingProcesses).checks (keepsOut loggingProcesses 0)
      (.initial fun _ => []) word = true →
      (fleetMachine loggingProcesses).Admits (StaysOut loggingProcesses 0 0)
        (.initial fun _ => []) word := fun word hchecks =>
    Machine.admits_of_checks (fun _ _ _ _ _ _ => trivial)
      (fun _ _ _ hkeeps => staysOut_of_keepsOut hkeeps) trivial hchecks
  have hopened : ∀ last : FleetState, ((last.server.streams 0).any fun stream =>
      decide (stream.target = .number 0)) = true → last.OpenedFor 0 0 := by
    intro last hany
    obtain ⟨stream, hstream, htarget⟩ := (Option.any_eq_true _ _).mp hany
    exact ⟨stream, hstream, of_decide_eq_true htarget⟩
  obtain ⟨last₁, hexec₁, htest₁⟩ := Machine.exists_of_exec_map
    (fleetMachine loggingProcesses) (.initial fun _ => []) twoProcesses
    (fun last : FleetState => ((last.server.streams 0).any fun stream =>
      decide (stream.target = Target.number 0)) &&
      decide ((last.logEvents 0).map LogLine.message = ["up", "listening"]))
    (by decide +kernel)
  obtain ⟨last₂, hexec₂, htest₂⟩ := Machine.exists_of_exec_map
    (fleetMachine loggingProcesses) (.initial fun _ => [])
    (twoProcesses.filter fun action => !fromOther 0 action)
    (fun last : FleetState => (last.server.streams 0).any fun stream =>
      decide (stream.target = Target.number 0)) (by decide +kernel)
  rw [Bool.and_eq_true, decide_eq_true_eq] at htest₁
  refine ⟨last₁, last₂, hexec₁, hexec₂, htest₁.2, ?_⟩
  refine log_events_isolated ?_ hexec₁ hexec₂ (hopened last₁ htest₁.1)
    (hopened last₂ htest₂) (hout _ (by decide +kernel)) (hout _ (by decide +kernel))
  rw [List.filter_filter]
  simp

/-- A line of the second instance goes to a stream of the first one. -/
theorem sibling_line_sent :
    ∃ last₁ last₂ : FleetState,
      (fleetMachine clusterInstances).exec (.initial fun _ => [])
        (openFirst ++ [.publish (lineFrom 1 "api")]) = some last₁ ∧
      (fleetMachine clusterInstances).exec (.initial fun _ => []) openFirst = some last₂ ∧
      last₁.OpenedFor 0 0 ∧ last₂.OpenedFor 0 0 ∧
      fromOther 0 (.publish (lineFrom 1 "api")) = true ∧
      last₁.logEvents 0 = [lineFrom 1 "api"] ∧ last₂.logEvents 0 = [] := by
  exact ⟨_, _, rfl, rfl, ⟨_, rfl, rfl⟩, ⟨_, rfl, rfl⟩, by decide, rfl, rfl⟩

end Pm2Manager
