import Pm2Manager.Pm2Calls

/-!
# Operations which wait for the bus

`ensureConnected` awaits the attachment of the bus, over whose callback the
service has no timeout.  An operation which passes its bus check while the
service is connected without a bus waits for `launchBus`; when every other
callback has come and every other call has gone on, nothing else moves it.
-/

namespace Pm2Manager

open Function

variable {state next last : Pm2State} {action : Pm2Action}
variable {word : List Pm2Action}

def Pm2Job.isGuarded : Pm2Job → Bool
  | .guarded _ _ _ => true
  | _ => false

def CallPhase.beforeCommand : CallPhase → Bool
  | .awaitingConnect _ | .awaitingBus _ | .ensured => true
  | _ => false

/-- The service is connected, an operation has neither settled nor issued its
command, and nothing but callbacks of `launchBus` is outstanding. -/
structure Pm2State.Stuck (state : Pm2State) : Prop where
  connected : state.connected = true
  waiting : ∃ id call, state.calls id = some call ∧
    call.job.isGuarded = true ∧ call.phase.beforeCommand = true
  attempts : ∀ id attempt, state.attempts id = some attempt →
    attempt.result ≠ none ∧ attempt.calledBack = true
  commands : ∀ id call, state.calls id = some call → call.phase ≠ .issued
  resumed : ∀ id, pm2Machine.step state (.resume id) = none

/-! ## The bus checks of a step -/

/-- The calls which make their bus check in the step, if the service is
connected. -/
def Pm2State.checking (state : Pm2State) : Pm2Action → List Pm2Job
  | .call operation => [operation.job]
  | .resume id =>
      match state.calls id with
      | none => []
      | some call =>
          match call.phase with
          | .awaitingConnect attempt =>
              if state.attemptResult attempt = some (.ok ()) then [call.job]
              else []
          | _ => call.spawned
  | _ => []

/-- An operation which makes its bus check while the service is connected
finds a bus. -/
def ChecksFindBus (state : Pm2State) (action : Pm2Action) : Prop :=
  state.connected = true → state.bus = none →
    ∀ job ∈ state.checking action, job.isGuarded = false

instance (state : Pm2State) (action : Pm2Action) :
    Decidable (ChecksFindBus state action) :=
  inferInstanceAs (Decidable (_ → _ → ∀ job ∈ state.checking action, _))

def Pm2State.Ready (state : Pm2State) (jobs : List Pm2Job) : Prop :=
  state.connected = true → state.bus = none →
    ∀ job ∈ jobs, job.isGuarded = false

theorem Pm2State.Ready.congr {jobs : List Pm2Job} (hready : state.Ready jobs)
    (hsame : SameService state next) : next.Ready jobs := by
  intro hconnected hbus
  exact hready (hsame.connected ▸ hconnected) (hsame.bus ▸ hbus)

/-! ## Nobody waits for the bus -/

/-- A call which awaits `connect()` awaits an attempt which has been made, and
no operation awaits the bus. -/
structure Pm2State.Unblocked (state : Pm2State) : Prop where
  attempts : state.AttemptInvariant
  made : ∀ id job attempt,
    state.calls id = some { job, phase := .awaitingConnect attempt } →
    state.attempts attempt ≠ none
  free : ∀ id job launch,
    state.calls id = some { job, phase := .awaitingBus launch } →
    job.isGuarded = false

theorem Pm2Move.attempts_kept {id : AttemptId} (hmove : Pm2Move state next)
    (hattempt : state.attempts id ≠ none) : next.attempts id ≠ none := by
  cases hmove with
  | attempt _ _ =>
      simp only [Pm2State.openAttempt, Pm2State.setAttempt]
      by_cases heq : id = state.nextAttempt
      · simp [heq]
      · rw [update_of_ne heq]
        exact hattempt
  | launch | call | fresh => exact hattempt

theorem attempts_kept_of_moves {id : AttemptId} (hmoves : Pm2Moves state next)
    (hattempt : state.attempts id ≠ none) : next.attempts id ≠ none :=
  moves_preserve (P := fun state => state.attempts id ≠ none)
    (fun _ _ hstate hmove => hmove.attempts_kept hstate) hattempt hmoves

theorem attempts_kept_step {id : AttemptId}
    (hattempt : state.attempts id ≠ none)
    (hstep : pm2Machine.step state action = some next) :
    next.attempts id ≠ none := by
  have hset : ∀ other attempt,
      (state.setAttempt other attempt).attempts id ≠ none := by
    intro other attempt
    by_cases heq : id = other
    · simp [Pm2State.setAttempt, heq]
    · simpa only [Pm2State.setAttempt, update_of_ne heq] using hattempt
  cases pm2Step_cases hstep with
  | called operation =>
      exact attempts_kept_of_moves (state.startCall_moves operation.job) hattempt
  | resumed other call _ hcall hresume =>
      exact attempts_kept_of_moves (Pm2State.resume_moves hresume) hattempt
  | disconnected throws =>
      rcases closeBus_cases state throws with
        ⟨hsame, _⟩ | ⟨other, bus, _, _, _, hclosed⟩
      · simpa [Pm2State.disconnect, hsame] using hattempt
      · simpa [Pm2State.disconnect, hclosed, Pm2State.setBus] using hattempt
  | timedOut other error calledBack hother => exact hset other _
  | calledBackLate other err result hother => exact hset other _
  | refused other detail error hother => exact hset other _
  | connected other hother => exact hset other _
  | launchFailed | launched | answered | busErrored | busClosed | published =>
      exact hattempt

namespace Pm2State

theorem Unblocked.setCall (hstate : state.Unblocked) {id : CallId}
    {job : Pm2Job} {phase : CallPhase} (hattempts : next.AttemptInvariant)
    (hkept : ∀ attempt, state.attempts attempt ≠ none →
      next.attempts attempt ≠ none)
    (hcalls : next.calls = update state.calls id (some { job, phase }))
    (hmade : ∀ attempt, phase = .awaitingConnect attempt →
      next.attempts attempt ≠ none)
    (hfree : ∀ launch, phase = .awaitingBus launch → job.isGuarded = false) :
    next.Unblocked := by
  refine ⟨hattempts, ?_, ?_⟩
  · intro other found attempt hfound
    rw [hcalls] at hfound
    by_cases heq : other = id
    · rw [heq, update_self, Option.some.injEq, Pm2Call.mk.injEq] at hfound
      exact hmade attempt hfound.2
    · rw [update_of_ne heq] at hfound
      exact hkept attempt (hstate.made other found attempt hfound)
  · intro other found launch hfound
    rw [hcalls] at hfound
    by_cases heq : other = id
    · rw [heq, update_self, Option.some.injEq, Pm2Call.mk.injEq] at hfound
      rw [← hfound.1]
      exact hfree launch hfound.2
    · rw [update_of_ne heq] at hfound
      exact hstate.free other found launch hfound

/-- A call which passes its bus check awaits the bus only when it finds
none. -/
theorem Passes.free {job : Pm2Job} {phase : CallPhase}
    (hpasses : state.Passes job phase) (hready : state.Ready [job])
    {launch : LaunchId} (hphase : phase = .awaitingBus launch) :
    job.isGuarded = false := by
  cases hpasses with
  | connect => simp at hphase
  | ensured job hjob hfound => simp at hphase
  | awaitsBus job launch hjob hconnected hbus =>
      exact hready hconnected hbus job (by simp)

theorem Passes.ne_awaitingConnect {job : Pm2Job} {phase : CallPhase}
    (hpasses : state.Passes job phase) (attempt : AttemptId) :
    phase ≠ .awaitingConnect attempt := by
  cases hpasses <;> simp

theorem startCall_connecting {job : Pm2Job} {attempt : AttemptId}
    (hcall : (state.startCall job).calls state.nextCall =
      some { job, phase := .awaitingConnect attempt }) :
    (state.startCall job).connecting = some attempt := by
  rcases connect_cases { state with nextCall := state.nextCall + 1 } with
    ⟨hconnected, hconnect⟩ |
      ⟨hconnected, opened, made, hconnect, hconnecting, _, _⟩
  · obtain ⟨_, phase, hpasses, hcalls⟩ :=
      afterConnect_calls { state with nextCall := state.nextCall + 1 }
        state.nextCall job
    simp only [startCall, hconnect, hcalls, update_self, Option.some.injEq,
      Pm2Call.mk.injEq, true_and] at hcall
    exact absurd hcall (hpasses.ne_awaitingConnect attempt)
  · simp only [startCall, hconnect, setCall, update_self, Option.some.injEq,
      Pm2Call.mk.injEq, CallPhase.awaitingConnect.injEq, true_and] at hcall
    simp only [startCall, hconnect, setCall]
    exact hcall ▸ hconnecting

theorem Unblocked.startCall (hstate : state.Unblocked) {job : Pm2Job}
    (hready : state.Ready [job]) : (state.startCall job).Unblocked := by
  have hmoves := state.startCall_moves job
  have hattempts : (state.startCall job).AttemptInvariant :=
    moves_preserve attemptInvariant_move hstate.attempts hmoves
  obtain ⟨_, phase, hstarts, hcalls⟩ := state.startCall_calls job
  refine hstate.setCall hattempts
    (fun attempt => attempts_kept_of_moves hmoves) hcalls ?_ ?_
  · intro attempt hphase
    have hconnecting : (state.startCall job).connecting = some attempt := by
      apply startCall_connecting
      rw [hcalls, update_self, hphase]
    have hmade := (hattempts.connecting_iff attempt).mp hconnecting
    simp [hmade]
  · intro launch hphase
    cases hstarts with
    | awaitsConnect attempt hconnected => simp at hphase
    | passes phase hconnected hpasses => exact hpasses.free hready hphase

theorem Unblocked.startCalls (hstate : state.Unblocked) {jobs : List Pm2Job}
    (hready : state.Ready jobs) : (state.startCalls jobs).Unblocked := by
  induction jobs generalizing state with
  | nil => exact hstate
  | cons job rest ih =>
      have hfirst : state.Ready [job] := by
        intro hconnected hbus other hother
        rw [List.mem_singleton] at hother
        exact hready hconnected hbus other (hother ▸ List.mem_cons_self)
      have hrest : (state.startCall job).Ready rest := by
        intro hconnected hbus other hother
        have hsame := moves_same (state.startCall_moves job)
        exact hready (hsame.connected ▸ hconnected) (hsame.bus ▸ hbus) other
          (List.mem_cons_of_mem _ hother)
      exact ih (hstate.startCall hfirst) hrest

end Pm2State

theorem unblocked_initial : Pm2State.initial.Unblocked := by
  refine ⟨attemptInvariant_initial, ?_, ?_⟩
  · intro id job attempt hcall
    simp [Pm2State.initial] at hcall
  · intro id job launch hcall
    simp [Pm2State.initial] at hcall

theorem unblocked_step :
    pm2Machine.Preserves ChecksFindBus Pm2State.Unblocked := by
  intro state action next hstate hguard hstep
  have hattempts :=
    attemptInvariant_step state action next hstate.attempts trivial hstep
  have hkept : ∀ attempt, state.attempts attempt ≠ none →
      next.attempts attempt ≠ none :=
    fun attempt hattempt => attempts_kept_step hattempt hstep
  cases calls_step hstep with
  | kept hcalls _ _ _ =>
      refine ⟨hattempts, ?_, ?_⟩
      · intro id job attempt hcall
        exact hkept attempt (hstate.made id job attempt (hcalls ▸ hcall))
      · intro id job launch hcall
        exact hstate.free id job launch (hcalls ▸ hcall)
  | called operation haction hnext =>
      subst haction
      rw [hnext]
      exact hstate.startCall hguard
  | answered id reply job haction hcall hnext =>
      subst hnext
      exact hstate.setCall hattempts hkept rfl (by simp) (by simp)
  | resumed id call phase mid haction hcall hgoes hcalls hcount hmoves hnext =>
      subst haction
      have hmid : mid.Unblocked := by
        refine hstate.setCall
          (moves_preserve attemptInvariant_move hstate.attempts hmoves)
          (fun attempt => attempts_kept_of_moves hmoves) hcalls ?_ ?_
        · intro attempt hphase
          cases hgoes with
          | connected first phase hfirst hresult hpasses =>
              exact absurd hphase (hpasses.ne_awaitingConnect attempt)
          | refused | attached | issues | returns | fails | succeeds =>
              simp at hphase
        · intro launch hphase
          cases hgoes with
          | connected attempt phase hattempt hresult hpasses =>
              refine hpasses.free (fun hconnected hbus => ?_) hphase
              have hchecks := hguard hconnected hbus
              simpa [Pm2State.checking, hcall, hattempt, hresult] using hchecks
          | refused | attached | issues | returns | fails | succeeds =>
              simp at hphase
      have hready : state.Ready call.spawned := by
        intro hconnected hbus job hjob
        have hchecks := hguard hconnected hbus
        simp only [Pm2State.checking, hcall] at hchecks
        cases hgoes with
        | succeeds query message followUp list hphase hguarded =>
            simp only [hphase] at hchecks
            exact hchecks job hjob
        | refused attempt error hphase _ | connected attempt _ hphase _ _
        | attached launch hphase _ | issues _ _ _ hphase _ | returns hphase _
        | fails _ _ detail _ hphase _ =>
            rw [Pm2Call.spawned_eq_nil (by simp [hphase])] at hjob
            simp at hjob
      rw [hnext]
      exact hmid.startCalls (hready.congr (moves_same hmoves))

theorem Pm2State.Unblocked.not_stuck (hstate : state.Unblocked) :
    ¬ state.Stuck := by
  intro hstuck
  obtain ⟨id, ⟨job, phase⟩, hcall, hguarded, hbefore⟩ := hstuck.waiting
  have hresumed := hstuck.resumed id
  simp only [pm2Machine, Pm2State.step, hcall, Option.bind_some] at hresumed
  cases phase with
  | awaitingConnect attempt =>
      obtain ⟨made, hmade⟩ :=
        Option.ne_none_iff_exists'.mp (hstate.made id job attempt hcall)
      obtain ⟨result, hresult⟩ :=
        Option.ne_none_iff_exists'.mp (hstuck.attempts attempt made hmade).1
      have hattempt : state.attemptResult attempt = some result := by
        simp [Pm2State.attemptResult, hmade, hresult]
      cases result with
      | ok _ => simp [Pm2State.resume, hattempt] at hresumed
      | error _ => simp [Pm2State.resume, hattempt] at hresumed
  | awaitingBus launch =>
      have hfree := hstate.free id job launch hcall
      rw [hfree] at hguarded
      simp at hguarded
  | ensured =>
      cases job with
      | guarded query message followUp => simp [Pm2State.resume] at hresumed
      | connect => simp [Pm2Job.isGuarded] at hguarded
      | initBus => simp [Pm2Job.isGuarded] at hguarded
  | issued => simp [CallPhase.beforeCommand] at hbefore
  | answered reply => simp [CallPhase.beforeCommand] at hbefore
  | settled result => simp [CallPhase.beforeCommand] at hbefore

/-- In the runs in which every operation that makes its bus check while
connected finds a bus, no state is stuck. -/
theorem never_stuck_of_checksFindBus
    (hguard : pm2Machine.Admits ChecksFindBus .initial word) :
    pm2Machine.Along (fun state => ¬ state.Stuck) .initial word := by
  intro before after mid hsplit hexec
  have hmid : mid.Unblocked :=
    unblocked_step.along unblocked_initial hguard before after mid hsplit hexec
  exact hmid.not_stuck

/-- The application connects and attaches the bus before it serves. -/
def sampleBusFirst : List Pm2Action :=
  [.call .connect, .connectCallback 0 none, .resume 0, .call .initBus,
    .launchCallback 0 (.ok true), .resume 1, .call .list, .resume 2,
    .commandCallback 2 (.ok []), .resume 2]

theorem never_stuck_of_checksFindBus_sampleBusFirst :
    pm2Machine.Along (fun state => ¬ state.Stuck) .initial sampleBusFirst := by
  have hchecks : pm2Machine.checks
      (fun state action => decide (ChecksFindBus state action)) .initial
      sampleBusFirst = true := by
    decide
  exact never_stuck_of_checksFindBus
    (Machine.admits_of_checks attemptInvariant_step
      (fun _ _ _ hcheck => of_decide_eq_true hcheck) attemptInvariant_initial
      hchecks)

/-! ## A silent `launchBus` -/

/-- The tests of `Stuck` over the numbers which have been given. -/
def Pm2State.isStuck (state : Pm2State) : Bool :=
  state.connected &&
    ((List.range state.nextCall).any fun id =>
      (state.calls id).any fun call =>
        call.job.isGuarded && call.phase.beforeCommand) &&
    ((List.range state.nextAttempt).all fun id =>
      (state.attempts id).all fun attempt =>
        attempt.result.isSome && attempt.calledBack) &&
    (List.range state.nextCall).all fun id =>
      ((state.calls id).all fun call => decide (call.phase ≠ .issued)) &&
        (pm2Machine.step state (.resume id)).isNone

theorem Pm2State.stuck_of_isStuck (hattempts : state.AttemptInvariant)
    (hcalls : state.CallsBounded) (hstuck : state.isStuck = true) :
    state.Stuck := by
  simp only [Pm2State.isStuck, Bool.and_eq_true, List.any_eq_true,
    List.all_eq_true, Option.any_eq_true, Option.all_eq_true, List.mem_range,
    decide_eq_true_eq, Option.isNone_iff_eq_none, Option.isSome_iff_ne_none]
    at hstuck
  obtain ⟨⟨⟨hconnected, id, _, call, hcall, hwaits⟩, hmade⟩, hgiven⟩ := hstuck
  refine ⟨hconnected, ⟨id, call, hcall, hwaits⟩, ?_, ?_, ?_⟩
  · intro other attempt hattempt
    exact hmade other (hattempts.bound_of_some hattempt) attempt hattempt
  · intro other found hfound
    exact (hgiven other (hcalls.lt hfound)).1 found hfound
  · intro other
    by_cases hother : other < state.nextCall
    · exact (hgiven other hother).2
    · have hnone := hcalls other (Nat.not_lt.mp hother)
      simp [pm2Machine, Pm2State.step, hnone]

/-- The first operation connects the service, and `launchBus` never calls
back. -/
def sampleSilentLaunch : List Pm2Action :=
  [.call .list, .connectCallback 0 none, .resume 0]

theorem stuck_after_silent_launch :
    ∃ last, pm2Machine.exec .initial sampleSilentLaunch = some last ∧
      last.Stuck := by
  obtain ⟨last, hexec, hstuck⟩ := Machine.exists_of_exec_map pm2Machine .initial
    sampleSilentLaunch Pm2State.isStuck (by decide)
  have hattempts : last.AttemptInvariant :=
    attemptInvariant_step.exec_any attemptInvariant_initial hexec
  have hcalls : last.CallsBounded :=
    callsBounded_step.exec_any (fun _ _ => rfl) hexec
  exact ⟨last, hexec, Pm2State.stuck_of_isStuck hattempts hcalls hstuck⟩

end Pm2Manager
