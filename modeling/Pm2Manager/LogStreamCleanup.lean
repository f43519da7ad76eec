import Pm2Manager.LogStream

/-!
# Release of log streams

A stream is registered at the end of its prologue only, together with the
`close` listener which releases it.  A client which disconnects before that is
not noticed: `res.writableEnded` is about the handler's own `res.end`.
-/

namespace Pm2Manager

open Function

variable {state next last : StreamState} {action : StreamAction}
variable {word : List StreamAction} {id : StreamId}

def StreamState.Registered (state : StreamState) (id : StreamId) : Prop :=
  id ∈ state.logListeners ∨ id ∈ state.heartbeats

/-- Nothing is left of a stream whose client has disconnected and whose
handler has finished running. -/
def StreamState.Released (state : StreamState) : Prop :=
  ∀ id stream, state.streams id = some stream → stream.connected = false →
    stream.phase.finished = true → ¬ state.Registered id

/-- The action ends the prologue of stream `id`. -/
inductive EndsPrologue (state : StreamState) (id : StreamId) (stream : LogStream) :
    StreamAction → Prop
  | described (proc : ProcessDetail) (hstream : state.streams id = some stream)
      (hphase : stream.phase = .describing)
      (hsources : nextSource proc.sources = none) :
      EndsPrologue state id stream (.described id (.ok (some proc)))
  | tailRead (proc : ProcessDetail) (channel : LogChannel)
      (rest : List LogSource) (lines : List String) (now : ℕ)
      (hstream : state.streams id = some stream)
      (hphase : stream.phase = .readingBacklog proc channel rest)
      (hsources : nextSource rest = none) :
      EndsPrologue state id stream (.tailRead id lines now)

/-- A prologue ends only while the client is connected. -/
def EndsConnected (state : StreamState) (action : StreamAction) : Prop :=
  ∀ id stream, EndsPrologue state id stream action → stream.connected = true

/-! ## One step -/

inductive StreamStep (state : StreamState) : StreamAction → StreamState → Prop
  | arrived (idOrName : String) :
      StreamStep state (.arrive idOrName)
        { state.setStream state.nextStream
            { target := resolveTarget idOrName, phase := .describing
              connected := true, writableEnded := false, written := [] } with
          nextStream := state.nextStream + 1 }
  | refused (id : StreamId) (stream : LogStream)
      (result : Except AppError (Option ProcessDetail)) (error : AppError)
      (hstream : state.streams id = some stream)
      (hphase : stream.phase = .describing) :
      StreamStep state (.described id result) (state.refuse id stream error)
  | described (id : StreamId) (stream : LogStream) (proc : ProcessDetail)
      (hstream : state.streams id = some stream)
      (hphase : stream.phase = .describing) :
      StreamStep state (.described id (.ok (some proc)))
        (state.proceed id stream proc proc.sources)
  | tailRead (id : StreamId) (stream : LogStream) (proc : ProcessDetail)
      (channel : LogChannel) (rest : List LogSource) (lines : List String)
      (now : ℕ) (hstream : state.streams id = some stream)
      (hphase : stream.phase = .readingBacklog proc channel rest) :
      StreamStep state (.tailRead id lines now)
        (state.proceed id (stream.write (lines.map fun message =>
          .log (backlogLine proc channel now message))) proc rest)
  | released (id : StreamId) (stream : LogStream) (proc : ProcessDetail)
      (hstream : state.streams id = some stream)
      (hphase : stream.phase = .live proc) :
      StreamStep state (.disconnect id)
        (state.release id { stream with connected := false })
  | dropped (id : StreamId) (stream : LogStream)
      (hstream : state.streams id = some stream)
      (hphase : ∀ proc, stream.phase ≠ .live proc) :
      StreamStep state (.disconnect id)
        (state.setStream id { stream with connected := false })
  | published (line : LogLine) :
      StreamStep state (.publish line)
        { state with
          streams := fun id =>
            if id ∈ state.logListeners then
              (state.streams id).map fun stream => stream.onLog line
            else
              state.streams id }
  | pinged (id : StreamId) (stream : LogStream)
      (hstream : state.streams id = some stream) :
      StreamStep state (.heartbeat id) (state.setStream id (stream.write [.ping]))

theorem streamStep_cases (hstep : streamMachine.step state action = some next) :
    StreamStep state action next := by
  simp only [streamMachine] at hstep
  cases action with
  | arrive idOrName =>
      simp only [StreamState.step, Option.some.injEq] at hstep
      exact hstep ▸ .arrived idOrName
  | described id result =>
      simp only [StreamState.step] at hstep
      split at hstep
      next stream hstream =>
        split at hstep
        next error hphase =>
          rw [Option.some.injEq] at hstep
          exact hstep ▸ .refused id stream _ error hstream hphase
        next hphase =>
          rw [Option.some.injEq] at hstep
          exact hstep ▸ .refused id stream _ _ hstream hphase
        next proc hphase =>
          rw [Option.some.injEq] at hstep
          exact hstep ▸ .described id stream proc hstream hphase
        · simp at hstep
      · simp at hstep
  | tailRead id lines now =>
      simp only [StreamState.step] at hstep
      split at hstep
      next stream hstream =>
        split at hstep
        next proc channel rest hphase =>
          rw [Option.some.injEq] at hstep
          exact hstep ▸ .tailRead id stream proc channel rest lines now hstream
            hphase
        · simp at hstep
      · simp at hstep
  | disconnect id =>
      simp only [StreamState.step] at hstep
      split at hstep
      next stream hstream =>
        split at hstep
        · split at hstep
          next proc hphase =>
            rw [Option.some.injEq] at hstep
            exact hstep ▸ .released id stream proc hstream hphase
          next hphase =>
            rw [Option.some.injEq] at hstep
            exact hstep ▸ .dropped id stream hstream hphase
        · simp at hstep
      · simp at hstep
  | publish line =>
      simp only [StreamState.step, Option.some.injEq] at hstep
      exact hstep ▸ .published line
  | heartbeat id =>
      simp only [StreamState.step] at hstep
      split at hstep
      · obtain ⟨stream, hstream, rfl⟩ := Option.map_eq_some_iff.mp hstep
        exact .pinged id stream hstream
      · simp at hstep

inductive Proceeds (state : StreamState) (id : StreamId) (stream : LogStream)
    (proc : ProcessDetail) (sources : List LogSource) : StreamState → Prop
  | reads (channel : LogChannel) (rest : List LogSource)
      (hsources : nextSource sources = some (channel, rest)) :
      Proceeds state id stream proc sources (state.setStream id
        { stream with phase := .readingBacklog proc channel rest })
  | abandons (hsources : nextSource sources = none)
      (hended : stream.writableEnded = true) :
      Proceeds state id stream proc sources
        (state.setStream id { stream with phase := .abandoned })
  | subscribes (hsources : nextSource sources = none)
      (hended : stream.writableEnded = false) :
      Proceeds state id stream proc sources
        { state.setStream id
            { stream.write [.ready] with phase := .live proc } with
          logListeners := state.logListeners ++ [id]
          heartbeats := state.heartbeats ++ [id] }

theorem proceed_cases (state : StreamState) (id : StreamId) (stream : LogStream)
    (proc : ProcessDetail) (sources : List LogSource) :
    Proceeds state id stream proc sources
      (state.proceed id stream proc sources) := by
  unfold StreamState.proceed
  split
  next channel rest hsources =>
    exact .reads channel rest hsources
  next hsources =>
    unfold StreamState.subscribe
    split
    next hended =>
      exact .abandons hsources hended
    next hended =>
      exact .subscribes hsources (by simpa using hended)

/-! ## Who is registered -/

/-- Only live streams are registered, and no handler has ended its response
before its prologue is over. -/
structure StreamState.StreamsInvariant (state : StreamState) : Prop where
  bounded : ∀ id, state.nextStream ≤ id → state.streams id = none
  registered : ∀ id, state.Registered id →
    ∃ stream proc, state.streams id = some stream ∧ stream.phase = .live proc
  unended : ∀ id stream, state.streams id = some stream →
    stream.phase.finished = false → stream.writableEnded = false

namespace StreamState

theorem streams_setStream {other : StreamId} {after : LogStream} :
    (state.setStream id after).streams other =
      if other = id then some after else state.streams other := by
  simp [setStream, update_apply]

theorem lt_nextStream (hstate : state.StreamsInvariant) {stream : LogStream}
    (hstream : state.streams id = some stream) : id < state.nextStream := by
  by_contra hid
  simp [hstate.bounded id (Nat.not_lt.mp hid)] at hstream

theorem not_registered (hstate : state.StreamsInvariant) {stream : LogStream}
    (hstream : state.streams id = some stream)
    (hphase : ∀ proc, stream.phase ≠ .live proc) : ¬ state.Registered id := by
  intro hregistered
  obtain ⟨other, proc, hother, hlive⟩ := hstate.registered id hregistered
  rw [hstream, Option.some.injEq] at hother
  exact hphase proc (hother ▸ hlive)

theorem StreamsInvariant.setStream {stream after : LogStream}
    (hstate : state.StreamsInvariant) (hstream : state.streams id = some stream)
    (hlive : state.Registered id → ∃ proc, after.phase = .live proc)
    (hopen : after.phase.finished = false → after.writableEnded = false) :
    (state.setStream id after).StreamsInvariant := by
  constructor
  · intro other hother
    have hne : other ≠ id := fun heq => by
      have hlt := lt_nextStream hstate hstream
      exact absurd (heq ▸ hother : state.nextStream ≤ id) (Nat.not_le.mpr hlt)
    rw [streams_setStream, if_neg hne]
    exact hstate.bounded other hother
  · intro other hregistered
    rw [streams_setStream]
    by_cases heq : other = id
    · subst other
      obtain ⟨proc, hphase⟩ := hlive hregistered
      exact ⟨after, proc, by simp, hphase⟩
    · rw [if_neg heq]
      exact hstate.registered other hregistered
  · intro other found hfound hphase
    rw [streams_setStream] at hfound
    by_cases heq : other = id
    · rw [if_pos heq, Option.some.injEq] at hfound
      subst found
      exact hopen hphase
    · rw [if_neg heq] at hfound
      exact hstate.unended other found hfound hphase

theorem Released.setStream {after : LogStream} (hstate : state.Released)
    (hafter : after.connected = false → after.phase.finished = true →
      ¬ state.Registered id) : (state.setStream id after).Released := by
  intro other found hfound hconnected hfinished
  rw [streams_setStream] at hfound
  by_cases heq : other = id
  · rw [if_pos heq, Option.some.injEq] at hfound
    subst found
    rw [heq]
    exact hafter hconnected hfinished
  · rw [if_neg heq] at hfound
    exact hstate other found hfound hconnected hfinished

def register (state : StreamState) (id : StreamId) : StreamState :=
  { state with
    logListeners := state.logListeners ++ [id]
    heartbeats := state.heartbeats ++ [id] }

@[simp] theorem registered_register {other : StreamId} :
    (state.register id).Registered other ↔
      state.Registered other ∨ other = id := by
  simp only [Registered, register, List.mem_append, List.mem_singleton]
  exact or_or_distrib_right.symm

theorem StreamsInvariant.register {stream : LogStream} {proc : ProcessDetail}
    (hstate : state.StreamsInvariant) (hstream : state.streams id = some stream)
    (hphase : stream.phase = .live proc) :
    (state.register id).StreamsInvariant := by
  constructor
  · exact hstate.bounded
  · intro other hother
    rcases registered_register.mp hother with hold | rfl
    · exact hstate.registered other hold
    · exact ⟨stream, proc, hstream, hphase⟩
  · exact hstate.unended

theorem Released.register {stream : LogStream} (hstate : state.Released)
    (hstream : state.streams id = some stream)
    (hconnected : stream.connected = true) : (state.register id).Released := by
  intro other found hfound hdisconnected hfinished hregistered
  rcases registered_register.mp hregistered with hold | rfl
  · exact hstate other found hfound hdisconnected hfinished hold
  · have hsame : found = stream := Option.some.inj (hfound.symm.trans hstream)
    rw [hsame, hconnected] at hdisconnected
    simp at hdisconnected

def unregister (state : StreamState) (id : StreamId) : StreamState :=
  { state with
    logListeners := state.logListeners.filter fun other => other ≠ id
    heartbeats := state.heartbeats.filter fun other => other ≠ id }

@[simp] theorem registered_unregister {other : StreamId} :
    (state.unregister id).Registered other ↔
      state.Registered other ∧ other ≠ id := by
  simp only [Registered, unregister, List.mem_filter, decide_eq_true_eq]
  exact or_and_right.symm

theorem StreamsInvariant.unregister (hstate : state.StreamsInvariant) :
    (state.unregister id).StreamsInvariant :=
  ⟨hstate.bounded, fun other hother =>
    hstate.registered other (registered_unregister.mp hother).1,
    hstate.unended⟩

theorem onLog_same (stream : LogStream) (line : LogLine) :
    (stream.onLog line).phase = stream.phase ∧
      (stream.onLog line).connected = stream.connected ∧
      (stream.onLog line).writableEnded = stream.writableEnded := by
  unfold LogStream.onLog
  split
  next proc hphase =>
    split
    · exact ⟨rfl, rfl, rfl⟩
    · exact ⟨rfl, rfl, rfl⟩
  · exact ⟨rfl, rfl, rfl⟩

end StreamState

open StreamState

theorem published_stream {line : LogLine} {found : LogStream}
    (hfound : (if id ∈ state.logListeners then
      (state.streams id).map fun stream => stream.onLog line
      else state.streams id) = some found) :
    ∃ stream, state.streams id = some stream ∧ found.phase = stream.phase ∧
      found.connected = stream.connected ∧
      found.writableEnded = stream.writableEnded := by
  split at hfound
  · obtain ⟨stream, hstream, rfl⟩ := Option.map_eq_some_iff.mp hfound
    exact ⟨stream, hstream, onLog_same stream line⟩
  · exact ⟨found, hfound, rfl, rfl, rfl⟩

theorem streamsInvariant_proceed {stream : LogStream} {proc : ProcessDetail}
    {sources : List LogSource} {before : LogStream}
    (hstate : state.StreamsInvariant) (hbefore : state.streams id = some before)
    (hphase : ∀ proc, before.phase ≠ .live proc)
    (hended : stream.writableEnded = false) :
    (state.proceed id stream proc sources).StreamsInvariant := by
  have hnone : ¬ state.Registered id := not_registered hstate hbefore hphase
  generalize hnext : state.proceed id stream proc sources = next
  cases hnext ▸ proceed_cases state id stream proc sources with
  | reads channel rest hsources =>
      exact hstate.setStream hbefore (fun h => absurd h hnone) fun _ => hended
  | abandons hsources habandoned =>
      exact hstate.setStream hbefore (fun h => absurd h hnone) fun _ => hended
  | subscribes hsources hopen =>
      have hlive : (state.setStream id { stream.write [.ready] with
          phase := .live proc }).StreamsInvariant :=
        hstate.setStream hbefore (fun _ => ⟨proc, rfl⟩)
          (by simp [StreamPhase.finished])
      exact hlive.register (by rw [streams_setStream, if_pos rfl]) rfl

theorem streamsInvariant_step :
    streamMachine.Preserves Machine.anyAction
      StreamState.StreamsInvariant := by
  intro state action next hstate _ hstep
  cases streamStep_cases hstep with
  | arrived idOrName =>
      refine ⟨fun id hid => ?_, fun id hregistered => ?_,
        fun id stream hstream hphase => ?_⟩
      · have hlt : state.nextStream < id := hid
        change (state.setStream _ _).streams id = none
        rw [streams_setStream, if_neg (Nat.ne_of_gt hlt)]
        exact hstate.bounded id (Nat.le_of_lt hlt)
      · obtain ⟨stream, proc, hstream, hphase⟩ := hstate.registered id hregistered
        refine ⟨stream, proc, ?_, hphase⟩
        change (state.setStream _ _).streams id = some stream
        rw [streams_setStream, if_neg (Nat.ne_of_lt (lt_nextStream hstate hstream))]
        exact hstream
      · change (state.setStream _ _).streams id = some stream at hstream
        rw [streams_setStream] at hstream
        split at hstream
        · rw [Option.some.injEq] at hstream
          exact hstream ▸ rfl
        · exact hstate.unended id stream hstream hphase
  | refused id stream result error hstream hphase =>
      have hnone := not_registered hstate hstream (by simp [hphase])
      exact hstate.setStream hstream (fun h => absurd h hnone)
        (by simp [StreamPhase.finished])
  | described id stream proc hstream hphase =>
      exact streamsInvariant_proceed hstate hstream (by simp [hphase])
        (hstate.unended id stream hstream (by simp [hphase, StreamPhase.finished]))
  | tailRead id stream proc channel rest lines now hstream hphase =>
      exact streamsInvariant_proceed hstate hstream (by simp [hphase])
        (hstate.unended id stream hstream (by simp [hphase, StreamPhase.finished]))
  | released id stream proc hstream hphase =>
      have hdone : (state.setStream id { stream with
          connected := false, writableEnded := true }).StreamsInvariant :=
        hstate.setStream hstream (fun _ => ⟨proc, hphase⟩)
          (by simp [hphase, StreamPhase.finished])
      exact hdone.unregister
  | dropped id stream hstream hphase =>
      have hnone := not_registered hstate hstream hphase
      exact hstate.setStream hstream (fun h => absurd h hnone)
        (hstate.unended id stream hstream)
  | published line =>
      constructor
      · intro id hid
        simp [hstate.bounded id hid]
      · intro id hregistered
        obtain ⟨stream, proc, hstream, hphase⟩ := hstate.registered id hregistered
        by_cases hmem : id ∈ state.logListeners
        · exact ⟨stream.onLog line, proc, by simp [hmem, hstream],
            (onLog_same stream line).1.trans hphase⟩
        · exact ⟨stream, proc, by simp [hmem, hstream], hphase⟩
      · intro id found hfound hphase
        obtain ⟨stream, hstream, hsame, _, hended⟩ := published_stream hfound
        rw [hended]
        exact hstate.unended id stream hstream (hsame ▸ hphase)
  | pinged id stream hstream =>
      refine hstate.setStream hstream (fun hregistered => ?_)
        (hstate.unended id stream hstream)
      obtain ⟨other, proc, hother, hphase⟩ := hstate.registered id hregistered
      rw [hstream, Option.some.injEq] at hother
      exact ⟨proc, hother ▸ hphase⟩

/-! ## The release -/

theorem released_proceed {stream : LogStream} {proc : ProcessDetail}
    {sources : List LogSource} (hstate : state.Released)
    (hnone : ¬ state.Registered id) (hended : stream.writableEnded = false)
    (hconnected : nextSource sources = none → stream.connected = true) :
    (state.proceed id stream proc sources).Released := by
  generalize hnext : state.proceed id stream proc sources = next
  cases hnext ▸ proceed_cases state id stream proc sources with
  | reads channel rest hsources =>
      exact hstate.setStream fun _ _ => hnone
  | abandons hsources habandoned => simp [hended] at habandoned
  | subscribes hsources hopen =>
      have hlive : (state.setStream id { stream.write [.ready] with
          phase := .live proc }).Released :=
        hstate.setStream fun _ _ => hnone
      apply hlive.register (streams_setStream.trans (if_pos rfl))
      exact hconnected hsources

theorem released_step (hinv : state.StreamsInvariant)
    (hstate : state.Released) (hguard : EndsConnected state action)
    (hstep : streamMachine.step state action = some next) : next.Released := by
  cases streamStep_cases hstep with
  | arrived idOrName =>
      intro id stream hstream hconnected hfinished
      change (state.setStream _ _).streams id = some stream at hstream
      rw [streams_setStream] at hstream
      split at hstream
      · rw [Option.some.injEq] at hstream
        simp [← hstream] at hconnected
      · exact hstate id stream hstream hconnected hfinished
  | refused id stream result error hstream hphase =>
      exact hstate.setStream fun _ _ =>
        not_registered hinv hstream (by simp [hphase])
  | described id stream proc hstream hphase =>
      have hnone := not_registered hinv hstream (by simp [hphase])
      have hopen := hinv.unended id stream hstream
        (by simp [hphase, StreamPhase.finished])
      apply released_proceed hstate hnone hopen
      intro hsources
      exact hguard id stream (.described proc hstream hphase hsources)
  | tailRead id stream proc channel rest lines now hstream hphase =>
      have hnone := not_registered hinv hstream (by simp [hphase])
      have hopen := hinv.unended id stream hstream
        (by simp [hphase, StreamPhase.finished])
      refine released_proceed hstate hnone hopen fun hsources => ?_
      exact hguard id stream
        (.tailRead proc channel rest lines now hstream hphase hsources)
  | released id stream proc hstream hphase =>
      intro other found hfound hconnected hfinished hregistered
      obtain ⟨hold, hne⟩ := registered_unregister.mp hregistered
      change (state.setStream _ _).streams other = some found at hfound
      rw [streams_setStream, if_neg hne] at hfound
      exact hstate other found hfound hconnected hfinished hold
  | dropped id stream hstream hphase =>
      exact hstate.setStream fun _ _ => not_registered hinv hstream hphase
  | published line =>
      intro id found hfound hconnected hfinished
      obtain ⟨stream, hstream, hphase, hsame, _⟩ := published_stream hfound
      exact hstate id stream hstream (hsame ▸ hconnected) (hphase ▸ hfinished)
  | pinged id stream hstream =>
      exact hstate.setStream fun hconnected hfinished =>
        hstate id stream hstream hconnected hfinished

theorem registered_of_endsPrologue {stream : LogStream}
    (hinv : state.StreamsInvariant) (hends : EndsPrologue state id stream action)
    (hstep : streamMachine.step state action = some next) :
    next.Registered id ∧ ∃ after, next.streams id = some after ∧
      after.phase.finished = true ∧ after.connected = stream.connected := by
  have hsubscribe : ∀ {reached : LogStream} {proc sources},
      nextSource sources = none → reached.writableEnded = false →
      reached.connected = stream.connected →
      (state.proceed id reached proc sources).Registered id ∧
        ∃ after, (state.proceed id reached proc sources).streams id =
            some after ∧ after.phase.finished = true ∧
          after.connected = stream.connected := by
    intro reached proc sources hsources hended hconnected
    generalize hnext : state.proceed id reached proc sources = next
    cases hnext ▸ proceed_cases state id reached proc sources with
    | reads channel rest hmore => simp [hsources] at hmore
    | abandons _ habandoned => simp [hended] at habandoned
    | subscribes _ hopen =>
        exact ⟨.inl (by simp), { reached.write [.ready] with
          phase := .live proc }, streams_setStream.trans (if_pos rfl), rfl,
          hconnected⟩
  cases hends with
  | described proc hstream hphase hsources =>
      have hended := hinv.unended id stream hstream
        (by simp [hphase, StreamPhase.finished])
      simp only [streamMachine, StreamState.step, hstream, hphase,
        Option.some.injEq] at hstep
      exact hstep ▸ hsubscribe hsources hended rfl
  | tailRead proc channel rest lines now hstream hphase hsources =>
      have hended := hinv.unended id stream hstream
        (by simp [hphase, StreamPhase.finished])
      simp only [streamMachine, StreamState.step, hstream, hphase,
        Option.some.injEq] at hstep
      exact hstep ▸ hsubscribe hsources hended rfl

theorem not_released_step (hinv : state.StreamsInvariant)
    (hguard : ¬ EndsConnected state action)
    (hstep : streamMachine.step state action = some next) :
    ¬ next.Released := by
  intro hnext
  simp only [EndsConnected, not_forall] at hguard
  obtain ⟨id, stream, hends, hconnected⟩ := hguard
  obtain ⟨hregistered, after, hafter, hfinished, hsame⟩ :=
    registered_of_endsPrologue hinv hends hstep
  exact hnext id after hafter (hsame.trans (by simpa using hconnected)) hfinished
    hregistered

theorem streamsInvariant_initial : StreamState.initial.StreamsInvariant := by
  constructor
  · exact fun _ _ => rfl
  · intro id hregistered
    simp [StreamState.initial, StreamState.Registered] at hregistered
  · intro id stream hstream
    simp [StreamState.initial] at hstream

/-- The runs in which nothing is left of a stream once its client has gone and
its handler has returned are the ones in which every prologue ends while its
client is connected. -/
theorem streams_released_iff
    (hexec : streamMachine.exec .initial word = some last) :
    streamMachine.Along StreamState.Released .initial word ↔
      streamMachine.Admits EndsConnected .initial word := by
  refine Machine.along_iff_admits streamsInvariant_step ?_ ?_
    streamsInvariant_initial ?_ (Machine.admits_anyAction _ _) hexec
  · intro state action next hinv hstate _ hguard hstep
    exact released_step hinv hstate hguard hstep
  · intro state action next hinv _ _ hguard hstep
    exact not_released_step hinv hguard hstep
  · intro id stream hstream
    simp [StreamState.initial] at hstream

/-- The client disconnects while the first log file is read. -/
def sampleEarlyDisconnect : List StreamAction :=
  [.arrive "0",
    .described 0 (.ok (some {
      pmId := 0, name := "web"
      outLogPath := some "out.log", errorLogPath := none })),
    .disconnect 0, .tailRead 0 [] 0]

theorem sampleEarlyDisconnect_exec :
    ∃ last, streamMachine.exec .initial sampleEarlyDisconnect = some last ∧
      (last.streams 0).any (fun stream =>
        !stream.connected && stream.phase.finished) = true ∧
      0 ∈ last.logListeners ∧ 0 ∈ last.heartbeats := by
  obtain ⟨last, hexec, htest⟩ := Machine.exists_of_exec_map streamMachine
    .initial sampleEarlyDisconnect
    (fun last => (last.streams 0).any (fun stream =>
        !stream.connected && stream.phase.finished) &&
      decide (0 ∈ last.logListeners) && decide (0 ∈ last.heartbeats))
    (by decide +kernel)
  simp only [Bool.and_eq_true, decide_eq_true_eq] at htest
  exact ⟨last, hexec, htest.1.1, htest.1.2, htest.2⟩

theorem streams_released_iff_sampleEarlyDisconnect :
    streamMachine.Along StreamState.Released .initial sampleEarlyDisconnect ↔
      streamMachine.Admits EndsConnected .initial sampleEarlyDisconnect := by
  obtain ⟨last, hexec, _⟩ := sampleEarlyDisconnect_exec
  exact streams_released_iff hexec

/-- The handler returns after the client has gone, and both the listener and
the heartbeat stay. -/
theorem stream_left_registered :
    ∃ last stream, streamMachine.exec .initial sampleEarlyDisconnect =
        some last ∧ last.streams 0 = some stream ∧
      stream.connected = false ∧ stream.phase.finished = true ∧
      0 ∈ last.logListeners ∧ 0 ∈ last.heartbeats := by
  obtain ⟨last, hexec, hstream, hlistener, hheartbeat⟩ :=
    sampleEarlyDisconnect_exec
  obtain ⟨stream, hfound, hdone⟩ := (Option.any_eq_true _ _).mp hstream
  simp only [Bool.and_eq_true, Bool.not_eq_true'] at hdone
  exact ⟨last, stream, hexec, hfound, hdone.1, hdone.2, hlistener, hheartbeat⟩

end Pm2Manager
