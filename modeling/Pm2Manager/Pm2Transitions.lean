import Mathlib.Logic.Relation
import Pm2Manager.Pm2Service

/-!
# Transitions of the PM2 service

What one step can do.  The calls of an operation reach the shared fields by
opening an attempt or a launch only; everything else is done by callbacks,
timers, bus events and `disconnect`.
-/

namespace Pm2Manager

open Function Relation

variable {state mid next last : Pm2State} {action : Pm2Action}
variable {word : List Pm2Action}

/-! ## The moves of a call -/

/-- What a running call may do, one at a time. -/
inductive Pm2Move (state : Pm2State) : Pm2State → Prop
  | attempt (hconnected : state.connected = false)
      (hconnecting : state.connecting = none) : Pm2Move state state.openAttempt
  | launch (hconnected : state.connected = true) (hbus : state.bus = none)
      (hinitializing : state.busInitializing = none) :
      Pm2Move state state.openLaunch
  | call (id : CallId) (call : Pm2Call) : Pm2Move state (state.setCall id call)
  | fresh : Pm2Move state { state with nextCall := state.nextCall + 1 }

abbrev Pm2Moves : Pm2State → Pm2State → Prop := ReflTransGen Pm2Move

namespace Pm2State

theorem connect_moves (state : Pm2State) : Pm2Moves state state.connect.1 := by
  unfold connect
  split
  · exact .refl
  next hconnected =>
    cases hconnecting : state.connecting with
    | some attempt => exact .refl
    | none => exact .single (.attempt (by simpa using hconnected) hconnecting)

theorem ensureBus_moves (state : Pm2State) (id : CallId) (job : Pm2Job) :
    Pm2Moves state (state.ensureBus id job) := by
  unfold ensureBus
  split
  next hneeded =>
    obtain ⟨hconnected, hbus⟩ := hneeded
    unfold attachBus
    cases hinitializing : state.busInitializing with
    | some launch =>
        simp only [hbus]
        exact .single (.call id _)
    | none =>
        simp only [hbus]
        exact .tail (.single (.launch hconnected hbus hinitializing)) (.call id _)
  · exact .single (.call id _)

theorem afterConnect_moves (state : Pm2State) (id : CallId) (job : Pm2Job) :
    Pm2Moves state (state.afterConnect id job) := by
  cases job with
  | connect => exact .single (.call id _)
  | initBus => exact state.ensureBus_moves id _
  | guarded query message followUp => exact state.ensureBus_moves id _

theorem startCall_moves (state : Pm2State) (job : Pm2Job) :
    Pm2Moves state (state.startCall job) := by
  have hfresh : Pm2Moves state { state with nextCall := state.nextCall + 1 } :=
    .single .fresh
  have hconnect :=
    hfresh.trans (connect_moves { state with nextCall := state.nextCall + 1 })
  unfold startCall
  generalize { state with nextCall := state.nextCall + 1 }.connect = opened
    at hconnect
  obtain ⟨mid, attempt⟩ := opened
  cases attempt with
  | some attempt => exact hconnect.tail (.call _ _)
  | none => exact hconnect.trans (mid.afterConnect_moves _ job)

theorem startCalls_moves (state : Pm2State) (jobs : List Pm2Job) :
    Pm2Moves state (state.startCalls jobs) := by
  induction jobs generalizing state with
  | nil => exact .refl
  | cons job rest ih => exact (state.startCall_moves job).trans (ih _)

theorem resume_moves {id : CallId} {call : Pm2Call}
    (hresume : state.resume id call = some next) : Pm2Moves state next := by
  unfold resume at hresume
  split at hresume
  · split at hresume
    · simp at hresume
    · rw [Option.some.injEq] at hresume
      exact hresume ▸ .single (.call id _)
    · rw [Option.some.injEq] at hresume
      exact hresume ▸ state.afterConnect_moves id call.job
  · split at hresume
    · simp at hresume
    · rw [Option.some.injEq] at hresume
      exact hresume ▸ .single (.call id _)
  · split at hresume <;>
    · rw [Option.some.injEq] at hresume
      exact hresume ▸ .single (.call id _)
  · split at hresume
    · rw [Option.some.injEq] at hresume
      exact hresume ▸ .single (.call id _)
    · rw [Option.some.injEq] at hresume
      exact hresume ▸ ReflTransGen.head (.call id _) (startCalls_moves _ _)
    · simp at hresume
  · simp at hresume
  · simp at hresume

end Pm2State

/-! ## One step -/

/-- What a step does to what the calls share. -/
inductive Pm2Step (state : Pm2State) : Pm2Action → Pm2State → Prop
  | called (operation : Operation) :
      Pm2Step state (.call operation) (state.startCall operation.job)
  | resumed (id : CallId) (call : Pm2Call) (next : Pm2State)
      (hcall : state.calls id = some call)
      (hresume : state.resume id call = some next) :
      Pm2Step state (.resume id) next
  | disconnected (throws : Bool) :
      Pm2Step state (.disconnect throws) (state.disconnect throws)
  | timedOut (id : AttemptId) (error : AppError) (calledBack : Bool)
      (hattempt : state.attempts id = some { result := none, calledBack })
      (herror : error.statusCode = 502) :
      Pm2Step state (.connectTimeout id)
        (state.settleAttempt id (.error error) calledBack)
  | calledBackLate (id : AttemptId) (err : Option String)
      (result : Except AppError Unit) (hattempt : state.attempts id =
        some { result := some result, calledBack := false }) :
      Pm2Step state (.connectCallback id err)
        (state.setAttempt id { result := some result, calledBack := true })
  | refused (id : AttemptId) (detail : String) (error : AppError)
      (hattempt : state.attempts id =
        some { result := none, calledBack := false })
      (herror : error.statusCode = 502) :
      Pm2Step state (.connectCallback id (some detail))
        (state.settleAttempt id (.error error) true)
  | connected (id : AttemptId) (hattempt : state.attempts id =
        some { result := none, calledBack := false }) :
      Pm2Step state (.connectCallback id none)
        { state.settleAttempt id (.ok ()) true with connected := true }
  | launchFailed (id : LaunchId) (detail : String) (error : AppError)
      (hlaunch : state.launches id = some { result := none }) :
      Pm2Step state (.launchCallback id (.error detail))
        (state.settleLaunch id (.error error))
  | launched (id : LaunchId) (hasClose : Bool)
      (hlaunch : state.launches id = some { result := none }) :
      Pm2Step state (.launchCallback id (.ok hasClose))
        { (state.settleLaunch id (.ok ())).setBus id
            { hasClose, live := true, closeEmitted := false } with
          bus := some id }
  | answered (id : CallId) (reply : Except String (List ProcessDescription))
      (job : Pm2Job) (hcall : state.calls id = some { job, phase := .issued }) :
      Pm2Step state (.commandCallback id reply)
        (state.setCall id { job, phase := .answered reply })
  | busErrored (id : BusId) (bus : Pm2Bus) (hbus : state.buses id = some bus)
      (hopen : bus.closeEmitted = false) :
      Pm2Step state (.busError id) { state with bus := none }
  | busClosed (id : BusId) (bus : Pm2Bus) (hbus : state.buses id = some bus)
      (hopen : bus.closeEmitted = false) :
      Pm2Step state (.busClose id)
        { state.setBus id
            { hasClose := bus.hasClose, live := false, closeEmitted := true } with
          bus := none }
  | published (packet : Packet) (now : ℕ) :
      Pm2Step state (.publish packet now)
        { state with
          published := state.published + 1
          emitted := state.emitted ++ state.liveBuses.map fun _ =>
            (state.published, packet.reemit now) }

theorem pm2Step_cases (hstep : pm2Machine.step state action = some next) :
    Pm2Step state action next := by
  simp only [pm2Machine] at hstep
  cases action with
  | call operation =>
      simp only [Pm2State.step, Option.some.injEq] at hstep
      exact hstep ▸ .called operation
  | disconnect throws =>
      simp only [Pm2State.step, Option.some.injEq] at hstep
      exact hstep ▸ .disconnected throws
  | connectTimeout id =>
      simp only [Pm2State.step] at hstep
      split at hstep
      next calledBack hattempt =>
        rw [Option.some.injEq] at hstep
        exact hstep ▸ .timedOut id _ calledBack hattempt rfl
      · simp at hstep
  | connectCallback id err =>
      simp only [Pm2State.step] at hstep
      split at hstep
      next result hattempt =>
        split at hstep
        next result =>
          rw [Option.some.injEq] at hstep
          exact hstep ▸ .calledBackLate id err result hattempt
        next detail =>
          rw [Option.some.injEq] at hstep
          exact hstep ▸ .refused id detail _ hattempt rfl
        · rw [Option.some.injEq] at hstep
          exact hstep ▸ .connected id hattempt
      · simp at hstep
  | launchCallback id result =>
      simp only [Pm2State.step] at hstep
      split at hstep
      next detail hlaunch =>
        rw [Option.some.injEq] at hstep
        exact hstep ▸ .launchFailed id detail _ hlaunch
      next hasClose hlaunch =>
        rw [Option.some.injEq] at hstep
        exact hstep ▸ .launched id hasClose hlaunch
      · simp at hstep
  | commandCallback id reply =>
      simp only [Pm2State.step] at hstep
      split at hstep
      next job hcall =>
        rw [Option.some.injEq] at hstep
        exact hstep ▸ .answered id reply job hcall
      · simp at hstep
  | resume id =>
      obtain ⟨call, hcall, hresume⟩ := Option.bind_eq_some_iff.mp hstep
      exact .resumed id call next hcall hresume
  | busError id =>
      simp only [Pm2State.step] at hstep
      split at hstep
      next hbus =>
        rw [Option.some.injEq] at hstep
        exact hstep ▸ .busErrored id _ hbus rfl
      · simp at hstep
  | busClose id =>
      simp only [Pm2State.step] at hstep
      split at hstep
      next hbus =>
        rw [Option.some.injEq] at hstep
        exact hstep ▸ .busClosed id _ hbus rfl
      · simp at hstep
  | publish packet now =>
      simp only [Pm2State.step, Option.some.injEq] at hstep
      exact hstep ▸ .published packet now

/-! ## What the moves and `disconnect` leave alone -/

/-- The fields which no call writes. -/
structure SameService (state next : Pm2State) : Prop where
  connected : next.connected = state.connected
  bus : next.bus = state.bus
  buses : next.buses = state.buses
  published : next.published = state.published
  emitted : next.emitted = state.emitted

theorem SameService.refl (state : Pm2State) : SameService state state :=
  ⟨rfl, rfl, rfl, rfl, rfl⟩

theorem SameService.trans (hfirst : SameService state mid)
    (hlast : SameService mid next) : SameService state next :=
  ⟨hlast.connected.trans hfirst.connected, hlast.bus.trans hfirst.bus,
    hlast.buses.trans hfirst.buses, hlast.published.trans hfirst.published,
    hlast.emitted.trans hfirst.emitted⟩

theorem Pm2Move.same (hmove : Pm2Move state next) : SameService state next := by
  cases hmove with
  | attempt _ _ => exact ⟨rfl, rfl, rfl, rfl, rfl⟩
  | launch _ _ _ => exact ⟨rfl, rfl, rfl, rfl, rfl⟩
  | call _ _ => exact ⟨rfl, rfl, rfl, rfl, rfl⟩
  | fresh => exact ⟨rfl, rfl, rfl, rfl, rfl⟩

theorem moves_preserve {P : Pm2State → Prop}
    (hmove : ∀ state next, P state → Pm2Move state next → P next)
    (hstate : P state) (hmoves : Pm2Moves state next) : P next := by
  induction hmoves with
  | refl => exact hstate
  | tail _ hlast ih => exact hmove _ _ ih hlast

theorem moves_same (hmoves : Pm2Moves state next) : SameService state next :=
  moves_preserve (P := SameService state)
    (fun _ _ hsame hmove => hsame.trans hmove.same) (.refl state) hmoves

theorem closeBus_cases (state : Pm2State) (throws : Bool) :
    state.closeBus throws = state ∧
        (∀ id bus, state.bus = some id → state.buses id = some bus →
          bus.hasClose = false) ∨
      ∃ id bus, state.bus = some id ∧ state.buses id = some bus ∧
        bus.hasClose = true ∧ state.closeBus throws =
          { state.setBus id { bus with live := bus.live && throws } with
            bus := none } := by
  unfold Pm2State.closeBus
  cases hbus : state.bus with
  | none => exact .inl ⟨rfl, fun id bus hheld _ => by simp at hheld⟩
  | some id =>
      cases hfound : state.buses id with
      | none =>
          refine .inl ⟨by simp [hfound], fun other bus hheld hother => ?_⟩
          rw [Option.some.injEq] at hheld
          simp [← hheld, hfound] at hother
      | some bus =>
          obtain ⟨hasClose, live, closeEmitted⟩ := bus
          cases hasClose with
          | false =>
              refine .inl ⟨by simp [hfound], fun other bus hheld hother => ?_⟩
              rw [Option.some.injEq] at hheld
              rw [← hheld, hfound, Option.some.injEq] at hother
              simp [← hother]
          | true => exact .inr ⟨id, _, rfl, hfound, rfl, by simp [hfound]⟩

/-! ## Attempts -/

/-- There is at most one unsettled attempt, and `connecting` is about it. -/
structure Pm2State.AttemptInvariant (state : Pm2State) : Prop where
  bounded : ∀ id, state.nextAttempt ≤ id → state.attempts id = none
  connecting_iff : ∀ id, state.connecting = some id ↔
    state.attempts id = some { result := none, calledBack := false }
  unsettled : ∀ id calledBack,
    state.attempts id = some { result := none, calledBack } → calledBack = false

namespace Pm2State

theorem AttemptInvariant.openAttempt (hstate : state.AttemptInvariant)
    (hconnecting : state.connecting = none) :
    state.openAttempt.AttemptInvariant := by
  constructor
  · intro id hid
    change state.nextAttempt + 1 ≤ id at hid
    have hne : id ≠ state.nextAttempt := Nat.ne_of_gt hid
    simp only [Pm2State.openAttempt, setAttempt, update_of_ne hne]
    exact hstate.bounded id (Nat.le_of_lt hid)
  · intro id
    by_cases hid : id = state.nextAttempt
    · simp [Pm2State.openAttempt, setAttempt, hid]
    · simp only [Pm2State.openAttempt, setAttempt, update_of_ne hid]
      rw [← hstate.connecting_iff id, hconnecting]
      simp [Ne.symm hid]
  · intro id calledBack hattempt
    by_cases hid : id = state.nextAttempt
    · simp only [Pm2State.openAttempt, setAttempt, hid, update_self,
        Option.some.injEq, ConnectAttempt.mk.injEq] at hattempt
      exact hattempt.2.symm
    · simp only [Pm2State.openAttempt, setAttempt, update_of_ne hid] at hattempt
      exact hstate.unsettled id calledBack hattempt

theorem AttemptInvariant.connecting_of_unsettled
    (hstate : state.AttemptInvariant) {id : AttemptId} {calledBack : Bool}
    (hattempt : state.attempts id = some { result := none, calledBack }) :
    state.connecting = some id := by
  have hnot := hstate.unsettled id calledBack hattempt
  exact (hstate.connecting_iff id).mpr (hnot ▸ hattempt)

theorem AttemptInvariant.bound_of_some (hstate : state.AttemptInvariant)
    {id : AttemptId} {attempt : ConnectAttempt}
    (hattempt : state.attempts id = some attempt) : id < state.nextAttempt := by
  by_contra hid
  simp [hstate.bounded id (Nat.not_lt.mp hid)] at hattempt

theorem AttemptInvariant.settleAttempt (hstate : state.AttemptInvariant)
    {id : AttemptId} {calledBack : Bool} (result : Except AppError Unit)
    (after : Bool)
    (hattempt : state.attempts id = some { result := none, calledBack }) :
    (state.settleAttempt id result after).AttemptInvariant := by
  have hconnecting := hstate.connecting_of_unsettled hattempt
  constructor
  · intro other hother
    have hne : other ≠ id :=
      Nat.ne_of_gt (Nat.lt_of_lt_of_le (hstate.bound_of_some hattempt) hother)
    simp only [Pm2State.settleAttempt, setAttempt, update_of_ne hne]
    exact hstate.bounded other hother
  · intro other
    by_cases heq : other = id
    · simp [Pm2State.settleAttempt, setAttempt, heq]
    · simp only [Pm2State.settleAttempt, setAttempt, update_of_ne heq]
      rw [← hstate.connecting_iff other, hconnecting]
      simp [Ne.symm heq]
  · intro other calledBack hunsettled
    by_cases heq : other = id
    · simp [Pm2State.settleAttempt, setAttempt, heq] at hunsettled
    · simp only [Pm2State.settleAttempt, setAttempt, update_of_ne heq]
        at hunsettled
      exact hstate.unsettled other calledBack hunsettled

theorem AttemptInvariant.calledBackLate (hstate : state.AttemptInvariant)
    {id : AttemptId} {result : Except AppError Unit} {attempt : ConnectAttempt}
    (hattempt : state.attempts id = some attempt)
    (hsettled : attempt.result ≠ none) :
    (state.setAttempt id
      { result := some result, calledBack := true }).AttemptInvariant := by
  constructor
  · intro other hother
    have hne : other ≠ id :=
      Nat.ne_of_gt (Nat.lt_of_lt_of_le (hstate.bound_of_some hattempt) hother)
    simp only [setAttempt, update_of_ne hne]
    exact hstate.bounded other hother
  · intro other
    by_cases heq : other = id
    · have hnot : state.connecting ≠ some id := fun hconnecting => by
        rw [hstate.connecting_iff id, hattempt, Option.some.injEq] at hconnecting
        exact hsettled (hconnecting ▸ rfl)
      simpa [setAttempt, heq] using hnot
    · simp only [setAttempt, update_of_ne heq]
      exact hstate.connecting_iff other
  · intro other calledBack hunsettled
    by_cases heq : other = id
    · simp [setAttempt, heq] at hunsettled
    · simp only [setAttempt, update_of_ne heq] at hunsettled
      exact hstate.unsettled other calledBack hunsettled

end Pm2State

theorem attemptInvariant_initial : Pm2State.initial.AttemptInvariant :=
  ⟨fun _ _ => rfl, fun _ => by simp [Pm2State.initial],
    fun _ _ hattempt => by simp [Pm2State.initial] at hattempt⟩

theorem attemptInvariant_move (state next : Pm2State)
    (hstate : state.AttemptInvariant) (hmove : Pm2Move state next) :
    next.AttemptInvariant := by
  cases hmove with
  | attempt _ hconnecting => exact hstate.openAttempt hconnecting
  | launch _ _ _ =>
      exact ⟨hstate.bounded, hstate.connecting_iff, hstate.unsettled⟩
  | call _ _ => exact ⟨hstate.bounded, hstate.connecting_iff, hstate.unsettled⟩
  | fresh => exact ⟨hstate.bounded, hstate.connecting_iff, hstate.unsettled⟩

theorem attemptInvariant_step :
    pm2Machine.Preserves Machine.anyAction Pm2State.AttemptInvariant := by
  intro state action next hstate _ hstep
  have hframe : ∀ reached : Pm2State, reached.attempts = state.attempts →
      reached.connecting = state.connecting →
      reached.nextAttempt = state.nextAttempt → reached.AttemptInvariant := by
    intro reached hattempts hconnecting hnext
    refine ⟨?_, ?_, ?_⟩
    · simpa only [hattempts, hnext] using hstate.bounded
    · simpa only [hattempts, hconnecting] using hstate.connecting_iff
    · simpa only [hattempts] using hstate.unsettled
  cases pm2Step_cases hstep with
  | called operation =>
      exact moves_preserve attemptInvariant_move hstate
        (state.startCall_moves operation.job)
  | resumed id call _ hcall hresume =>
      exact moves_preserve attemptInvariant_move hstate
        (Pm2State.resume_moves hresume)
  | disconnected throws =>
      unfold Pm2State.disconnect
      rcases closeBus_cases state throws with ⟨hsame, _⟩ | ⟨id, bus, _, _, _, hclosed⟩
      · rw [hsame]
        exact hframe _ rfl rfl rfl
      · rw [hclosed]
        exact hframe _ rfl rfl rfl
  | timedOut id error calledBack hattempt =>
      exact hstate.settleAttempt _ _ hattempt
  | calledBackLate id err result hattempt =>
      exact hstate.calledBackLate hattempt (by simp)
  | refused id detail error hattempt => exact hstate.settleAttempt _ _ hattempt
  | connected id hattempt =>
      have hsettled := hstate.settleAttempt (.ok ()) true hattempt
      exact ⟨hsettled.bounded, hsettled.connecting_iff, hsettled.unsettled⟩
  | launchFailed id detail error hlaunch => exact hframe _ rfl rfl rfl
  | launched id hasClose hlaunch => exact hframe _ rfl rfl rfl
  | answered id reply job hcall => exact hframe _ rfl rfl rfl
  | busErrored id bus hbus hopen => exact hframe _ rfl rfl rfl
  | busClosed id bus hbus hopen => exact hframe _ rfl rfl rfl
  | published packet now => exact hframe _ rfl rfl rfl

/-! ## Launches and buses -/

/-- There is at most one pending launch, `busInitializing` is about it, and no
bus is held meanwhile.  A held bus is live. -/
structure Pm2State.BusInvariant (state : Pm2State) : Prop where
  bounded : ∀ id, state.nextLaunch ≤ id → state.launches id = none
  initializing_iff : ∀ id, state.busInitializing = some id ↔
    state.launches id = some { result := none }
  handedOut : ∀ id bus, state.buses id = some bus →
    state.launches id = some { result := some (.ok ()) }
  held : ∀ id, state.bus = some id →
    state.busInitializing = none ∧
      ∃ bus, state.buses id = some bus ∧ bus.live = true

namespace Pm2State

theorem BusInvariant.bound_of_some (hstate : state.BusInvariant)
    {id : LaunchId} {launch : BusLaunch}
    (hlaunch : state.launches id = some launch) : id < state.nextLaunch := by
  by_contra hid
  simp [hstate.bounded id (Nat.not_lt.mp hid)] at hlaunch

theorem BusInvariant.openLaunch (hstate : state.BusInvariant)
    (hbus : state.bus = none) (hinitializing : state.busInitializing = none) :
    state.openLaunch.BusInvariant := by
  constructor
  · intro id hid
    change state.nextLaunch + 1 ≤ id at hid
    have hne : id ≠ state.nextLaunch := Nat.ne_of_gt hid
    simp only [Pm2State.openLaunch, setLaunch, update_of_ne hne]
    exact hstate.bounded id (Nat.le_of_lt hid)
  · intro id
    by_cases hid : id = state.nextLaunch
    · simp [Pm2State.openLaunch, setLaunch, hid]
    · simp only [Pm2State.openLaunch, setLaunch, update_of_ne hid]
      rw [← hstate.initializing_iff id, hinitializing]
      simp [Ne.symm hid]
  · intro id bus hfound
    have hlaunch := hstate.handedOut id bus hfound
    have hne : id ≠ state.nextLaunch :=
      Nat.ne_of_lt (hstate.bound_of_some hlaunch)
    simp only [Pm2State.openLaunch, setLaunch, update_of_ne hne]
    exact hlaunch
  · intro id hheld
    change state.bus = some id at hheld
    simp [hbus] at hheld

theorem BusInvariant.bus_of_pending (hstate : state.BusInvariant)
    {id : LaunchId} (hlaunch : state.launches id = some { result := none }) :
    state.busInitializing = some id ∧ state.bus = none := by
  have hinitializing := (hstate.initializing_iff id).mpr hlaunch
  constructor
  · exact hinitializing
  · cases hbus : state.bus with
    | none => rfl
    | some held => simp [(hstate.held held hbus).1] at hinitializing

theorem BusInvariant.settleLaunch (hstate : state.BusInvariant) {id : LaunchId}
    (result : Except AppError Unit)
    (hlaunch : state.launches id = some { result := none }) :
    (state.settleLaunch id result).BusInvariant := by
  obtain ⟨hinitializing, hbus⟩ := hstate.bus_of_pending hlaunch
  constructor
  · intro other hother
    have hne : other ≠ id :=
      Nat.ne_of_gt (Nat.lt_of_lt_of_le (hstate.bound_of_some hlaunch) hother)
    simp only [Pm2State.settleLaunch, setLaunch, update_of_ne hne]
    exact hstate.bounded other hother
  · intro other
    by_cases heq : other = id
    · simp [Pm2State.settleLaunch, setLaunch, heq]
    · simp only [Pm2State.settleLaunch, setLaunch, update_of_ne heq]
      rw [← hstate.initializing_iff other, hinitializing]
      simp [Ne.symm heq]
  · intro other bus hfound
    have hsettled := hstate.handedOut other bus hfound
    have hne : other ≠ id := fun heq => by simp [heq, hlaunch] at hsettled
    simp only [Pm2State.settleLaunch, setLaunch, update_of_ne hne]
    exact hsettled
  · intro other hheld
    change state.bus = some other at hheld
    simp [hbus] at hheld

theorem BusInvariant.hold (hstate : state.BusInvariant) {id : LaunchId}
    {bus : Pm2Bus} (hlive : bus.live = true)
    (hlaunch : state.launches id = some { result := some (.ok ()) })
    (hinitializing : state.busInitializing = none) :
    ({ state.setBus id bus with bus := some id } : Pm2State).BusInvariant := by
  constructor
  · exact hstate.bounded
  · exact hstate.initializing_iff
  · intro other found hfound
    by_cases heq : other = id
    · exact heq ▸ hlaunch
    · simp only [setBus, update_of_ne heq] at hfound
      exact hstate.handedOut other found hfound
  · intro other hheld
    rw [Option.some.injEq] at hheld
    subst hheld
    exact ⟨hinitializing, bus, by simp [setBus], hlive⟩

theorem BusInvariant.drop (hstate : state.BusInvariant) {id : BusId}
    {before : Pm2Bus} (bus : Pm2Bus) (hbefore : state.buses id = some before) :
    ({ state.setBus id bus with bus := none } : Pm2State).BusInvariant := by
  constructor
  · exact hstate.bounded
  · exact hstate.initializing_iff
  · intro other found hfound
    by_cases heq : other = id
    · exact heq ▸ hstate.handedOut id before hbefore
    · simp only [setBus, update_of_ne heq] at hfound
      exact hstate.handedOut other found hfound
  · exact fun other hheld => by simp at hheld

end Pm2State

theorem busInvariant_initial : Pm2State.initial.BusInvariant := by
  constructor
  · exact fun _ _ => rfl
  · exact fun _ => by simp [Pm2State.initial]
  · intro id bus hbus
    simp [Pm2State.initial] at hbus
  · intro id hheld
    simp [Pm2State.initial] at hheld

theorem busInvariant_move (state next : Pm2State) (hstate : state.BusInvariant)
    (hmove : Pm2Move state next) : next.BusInvariant := by
  cases hmove with
  | attempt _ _ =>
      exact ⟨hstate.bounded, hstate.initializing_iff, hstate.handedOut,
        hstate.held⟩
  | launch _ hbus hinitializing => exact hstate.openLaunch hbus hinitializing
  | call _ _ =>
      exact ⟨hstate.bounded, hstate.initializing_iff, hstate.handedOut,
        hstate.held⟩
  | fresh =>
      exact ⟨hstate.bounded, hstate.initializing_iff, hstate.handedOut,
        hstate.held⟩

theorem busInvariant_step :
    pm2Machine.Preserves Machine.anyAction Pm2State.BusInvariant := by
  intro state action next hstate _ hstep
  have hframe : ∀ reached : Pm2State, reached.launches = state.launches →
      reached.busInitializing = state.busInitializing →
      reached.nextLaunch = state.nextLaunch → reached.buses = state.buses →
      reached.bus = state.bus → reached.BusInvariant := by
    intro reached hlaunches hinitializing hnext hbuses hbus
    constructor
    · simpa only [hlaunches, hnext] using hstate.bounded
    · simpa only [hlaunches, hinitializing] using hstate.initializing_iff
    · simpa only [hlaunches, hbuses] using hstate.handedOut
    · simpa only [hinitializing, hbuses, hbus] using hstate.held
  cases pm2Step_cases hstep with
  | called operation =>
      exact moves_preserve busInvariant_move hstate
        (state.startCall_moves operation.job)
  | resumed id call _ hcall hresume =>
      exact moves_preserve busInvariant_move hstate
        (Pm2State.resume_moves hresume)
  | disconnected throws =>
      unfold Pm2State.disconnect
      rcases closeBus_cases state throws with
        ⟨hsame, _⟩ | ⟨id, bus, _, hbus, _, hclosed⟩
      · rw [hsame]
        exact hframe _ rfl rfl rfl rfl rfl
      · have hdropped := hstate.drop { bus with live := bus.live && throws } hbus
        rw [hclosed]
        exact ⟨hdropped.bounded, hdropped.initializing_iff, hdropped.handedOut,
          hdropped.held⟩
  | timedOut id error calledBack hattempt => exact hframe _ rfl rfl rfl rfl rfl
  | calledBackLate id err result hattempt => exact hframe _ rfl rfl rfl rfl rfl
  | refused id detail error hattempt => exact hframe _ rfl rfl rfl rfl rfl
  | connected id hattempt => exact hframe _ rfl rfl rfl rfl rfl
  | launchFailed id detail error hlaunch => exact hstate.settleLaunch _ hlaunch
  | launched id hasClose hlaunch =>
      exact (hstate.settleLaunch (.ok ()) hlaunch).hold rfl
        (by simp [Pm2State.settleLaunch, Pm2State.setLaunch]) rfl
  | answered id reply job hcall => exact hframe _ rfl rfl rfl rfl rfl
  | busErrored id bus hbus hopen =>
      exact ⟨hstate.bounded, hstate.initializing_iff, hstate.handedOut,
        fun other hheld => by simp at hheld⟩
  | busClosed id bus hbus hopen => exact hstate.drop _ hbus
  | published packet now => exact hframe _ rfl rfl rfl rfl rfl

end Pm2Manager
