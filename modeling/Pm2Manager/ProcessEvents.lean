import Pm2Manager.Calendar
import Pm2Manager.EventBus
import Pm2Manager.Simulation

/-!
# Process events in the activity log

The application connects, attaches the bus and only then listens to the
process events of the service.  What the service emits for a packet is one
event for each bus which delivers it, and the listener writes one entry for
each event of a recorded kind.
-/

namespace Pm2Manager

open Calendar

/-- `RECORDED_PM2_EVENTS`. -/
def recordedPm2Events : List String :=
  ["restart", "restart overlimit", "exit", "stop", "online", "delete"]

/-- The input of `activityService.record` for a process event: its type is
`process_event` and it has no user. -/
structure EventEntry where
  message : String
  pmId : ℤ
  event : String
  createdAt : String
deriving DecidableEq, Repr

/-- The listener of `bootstrap`, at a time in milliseconds. -/
def ProcessEvent.entry (evt : ProcessEvent) (now : ℕ) : Option EventEntry :=
  if recordedPm2Events.contains evt.event then
    some {
      message := s!"Process \"{evt.name}\" event: {evt.event}"
      pmId := evt.pmId
      event := evt.event
      createdAt := String.ofList (datetimeText (now / 1000)) }
  else
    none

/-- Where `bootstrap` is with the PM2 service. -/
inductive Startup
  | connecting (call : CallId)
  | attaching (call : CallId)
  | listening
deriving DecidableEq, Repr

structure AppState where
  service : Pm2State
  startup : Startup
  log : List EventEntry

inductive AppAction
  | service (action : Pm2Action)
  /-- `bootstrap` goes on after the call it awaits has settled. -/
  | proceed

namespace AppState

/-- `bootstrap` has called `pm2Service.connect()`. -/
def initial : AppState where
  service := Pm2State.initial.startCall Operation.connect.job
  startup := .connecting 0
  log := []

/-- How the call which `bootstrap` awaits has settled. -/
def settled (state : AppState) (call : CallId) :
    Option (Except AppError (List ProcessDescription)) :=
  match state.service.calls call with
  | some { phase := .settled result, .. } => some result
  | _ => none

def proceed (state : AppState) : Option AppState :=
  match state.startup with
  | .connecting call =>
      match state.settled call with
      | some (.ok _) => some { state with
          service := state.service.startCall Operation.initBus.job
          startup := .attaching state.service.nextCall }
      -- a failure is logged, and the application starts without PM2
      | some (.error _) => some { state with startup := .listening }
      | none => none
  | .attaching call =>
      (state.settled call).map fun _ => { state with startup := .listening }
  | .listening => none

/-- The entry of the packet, if the listener is there and records it. -/
def heard (state : AppState) : AppAction → Option EventEntry
  | .service (.publish packet now) =>
      match state.startup, packet.reemit now with
      | .listening, .process evt => evt.entry now
      | _, _ => none
  | _ => none

/-- The listener runs once for each event which the service emits. -/
def step (state : AppState) (action : AppAction) : Option AppState :=
  match action with
  | .service move =>
      (state.service.step move).map fun service =>
        { state with
          service := service
          log := state.log ++
            (service.emitted.drop state.service.emitted.length).flatMap
              fun _ => (state.heard action).toList }
  | .proceed => state.proceed

end AppState

def appMachine : Machine AppState AppAction where
  step := AppState.step

variable {state next : AppState} {action : AppAction} {word : List AppAction}

/-- What the step of the application is to the service. -/
def serviceMoves (state : AppState) : AppAction → List Pm2Action
  | .service move => [move]
  | .proceed =>
      match state.startup with
      | .connecting call =>
          match state.settled call with
          | some (.ok _) => [.call .initBus]
          | _ => []
      | _ => []

theorem app_contains_service :
    appMachine.Contains pm2Machine AppState.service serviceMoves := by
  intro state action next hstep
  cases action with
  | service move =>
      obtain ⟨service, hservice, rfl⟩ := Option.map_eq_some_iff.mp hstep
      exact Machine.exec_cons_some hservice
  | proceed =>
      simp only [appMachine, AppState.step, AppState.proceed] at hstep
      simp only [serviceMoves]
      split at hstep
      next call hstartup =>
        simp only [hstartup]
        split at hstep
        next list hsettled =>
          obtain rfl := Option.some.inj hstep
          simp only [hsettled]
          rfl
        next error hsettled =>
          obtain rfl := Option.some.inj hstep
          simp only [hsettled]
          rfl
        · simp at hstep
      next call hstartup =>
        obtain ⟨result, _, rfl⟩ := Option.map_eq_some_iff.mp hstep
        simp only [hstartup]
        rfl
      · simp at hstep

/-- `launchBus` hands out a bus only when every dropped one has closed. -/
def BusesClosed (state : AppState) (action : AppAction) : Prop :=
  ∀ move, action = .service move → DroppedClosed state.service move

theorem serviceMoves_admits (hclosed : BusesClosed state action) :
    pm2Machine.Admits DroppedClosed state.service (serviceMoves state action) := by
  cases action with
  | service move => exact ⟨hclosed move rfl, fun _ _ => trivial⟩
  | proceed =>
      simp only [serviceMoves]
      split
      · split
        · exact ⟨fun launch hasClose hcall => (by cases hcall), fun _ _ => trivial⟩
        · trivial
      · trivial

/-- What holds of the service in a run whose buses close. -/
def ServiceSound (service : Pm2State) : Prop :=
  (service.BusInvariant ∧ service.Numbered) ∧ service.ForwardsOnce

theorem serviceSound_preserved :
    pm2Machine.Preserves DroppedClosed ServiceSound := by
  intro service move next ⟨hinv, hforwards⟩ hguard hstep
  exact ⟨busNumbered_step service move next hinv trivial hstep,
    forwardsOnce_step hinv hforwards hguard hstep⟩

theorem serviceSound_initial : ServiceSound AppState.initial.service := by
  have hstart : ServiceSound .initial :=
    ⟨⟨busInvariant_initial, by simp [Pm2State.Numbered, Pm2State.initial]⟩,
      by simp [Pm2State.initial, Pm2State.liveBuses], by simp [Pm2State.initial]⟩
  refine serviceSound_preserved .initial (.call .connect) _ hstart ?_ rfl
  exact fun launch hasClose hcall => by cases hcall

theorem serviceSound_app :
    appMachine.Preserves BusesClosed fun state => ServiceSound state.service :=
  app_contains_service.preserves_guarded (fun _ _ => serviceMoves_admits)
    serviceSound_preserved

/-- The events a packet is emitted as are as many as the live buses. -/
theorem log_of_publish {packet : Packet} {now : ℕ}
    (hstep : appMachine.step state (.service (.publish packet now)) = some next) :
    next.log = state.log ++ List.flatten (List.replicate state.service.liveBuses.length
      (state.heard (.service (.publish packet now))).toList) := by
  simp only [appMachine, AppState.step, Pm2State.step, Option.map_some,
    Option.some.injEq] at hstep
  subst next
  simp only [List.drop_left, List.flatMap, List.map_const', List.length_replicate]

theorem log_of_quiet (hstep : appMachine.step state action = some next)
    (hquiet : state.heard action = none) : next.log = state.log := by
  cases action with
  | service move =>
      obtain ⟨service, hservice, rfl⟩ := Option.map_eq_some_iff.mp hstep
      simp [hquiet]
  | proceed =>
      simp only [appMachine, AppState.step, AppState.proceed] at hstep
      split at hstep
      · split at hstep
        · exact (Option.some.inj hstep) ▸ rfl
        · exact (Option.some.inj hstep) ▸ rfl
        · simp at hstep
      · obtain ⟨result, _, rfl⟩ := Option.map_eq_some_iff.mp hstep
        rfl
      · simp at hstep

/-- A step writes the entry of the packet it publishes, once; it leaves a
packet out only when the service holds no bus. -/
structure EventRecorded (state : AppState) (action : AppAction) (next : AppState) :
    Prop where
  quiet : state.heard action = none → next.log = state.log
  once : ∀ entry, state.heard action = some entry →
    next.log = state.log ∨ next.log = state.log ++ [entry]
  attached : ∀ entry, state.heard action = some entry → state.service.bus.isSome →
    next.log = state.log ++ [entry]

theorem liveBuses_length_of_held (hsound : ServiceSound state.service)
    (hheld : state.service.bus.isSome) : state.service.liveBuses.length = 1 := by
  obtain ⟨id, hid⟩ := Option.isSome_iff_exists.mp hheld
  have hlive : state.service.Live id := (hsound.1.1.held id hid).2
  have hpos := List.length_pos_of_mem ((mem_liveBuses hsound.1.1).mpr hlive)
  exact le_antisymm hsound.2.sole hpos

theorem heard_cases {entry : EventEntry} (hheard : state.heard action = some entry) :
    ∃ packet now, action = .service (.publish packet now) := by
  unfold AppState.heard at hheard
  split at hheard
  · exact ⟨_, _, rfl⟩
  · simp at hheard

theorem eventRecorded_step (hsound : ServiceSound state.service)
    (hstep : appMachine.step state action = some next) :
    EventRecorded state action next := by
  refine ⟨log_of_quiet hstep, fun entry hheard => ?_, fun entry hheard hheld => ?_⟩
  · obtain ⟨packet, now, rfl⟩ := heard_cases hheard
    rw [log_of_publish hstep, hheard]
    rcases Nat.le_one_iff_eq_zero_or_eq_one.mp hsound.2.sole with hnone | hone
    · exact .inl (by simp [hnone])
    · exact .inr (by simp [hone])
  · obtain ⟨packet, now, rfl⟩ := heard_cases hheard
    rw [log_of_publish hstep, hheard, liveBuses_length_of_held hsound hheld]
    simp

/-- In every run in which `launchBus` hands out no bus beside one which is
still open, each packet of a recorded kind is written once while the service
holds a bus and the application listens, and never twice. -/
theorem process_events_recorded
    (hclosed : appMachine.Admits BusesClosed .initial word) :
    appMachine.Steps EventRecorded .initial word :=
  Machine.steps_of_admits serviceSound_app
    (fun _ _ _ hsound _ hstep => eventRecorded_step hsound hstep)
    serviceSound_initial hclosed

/-- The application starts, and a process exits. -/
def sampleExit : List AppAction :=
  [.service (.connectCallback 0 none), .service (.resume 0), .proceed,
    .service (.launchCallback 0 (.ok true)), .service (.resume 1),
    .service (.resume 1), .proceed,
    .service (.publish (.process (some "exit") (some ⟨some "web", some 0⟩)) 0)]

/-- No bus is live when another one is handed out. -/
def opensAlone (state : AppState) : AppAction → Bool
  | .service (.launchCallback _ (.ok _)) => decide (state.service.liveBuses = [])
  | _ => true

theorem busesClosed_of_opensAlone (hinv : state.service.BusInvariant)
    (halone : opensAlone state action = true) : BusesClosed state action := by
  intro move haction launch hasClose hmove id hlive
  subst haction hmove
  have hnone : state.service.liveBuses = [] := of_decide_eq_true halone
  have hmem := (mem_liveBuses hinv).mpr hlive
  simp [hnone] at hmem

theorem process_events_recorded_sampleExit :
    appMachine.Steps EventRecorded .initial sampleExit ∧
      (appMachine.exec .initial sampleExit).map AppState.log = some [{
        message := "Process \"web\" event: exit"
        pmId := 0
        event := "exit"
        createdAt := "1970-01-01 00:00:00" }] := by
  have hchecks : appMachine.checks opensAlone .initial sampleExit = true := by
    decide +kernel
  refine ⟨process_events_recorded ?_, by decide +kernel⟩
  exact Machine.admits_of_checks (app_contains_service.preserves busInvariant_step)
    (fun _ _ => busesClosed_of_opensAlone) serviceSound_initial.1.1 hchecks

end Pm2Manager
