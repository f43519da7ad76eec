import Pm2Manager.Pm2Transitions

/-!
# The calls of the PM2 service

What one step does to the calls themselves.  A call which is started, or goes
on after `connect()`, passes the bus check of `ensureConnected` in the state
it finds; a call which has its process list may start others, which get the
next numbers in order.
-/

namespace Pm2Manager

open Function

variable {state mid next : Pm2State} {action : Pm2Action}

/-- The phase of a call once the `await` of `connect()` is behind it. -/
inductive Pm2State.Passes (state : Pm2State) : Pm2Job → CallPhase → Prop
  | connect : Passes state .connect (.settled (.ok []))
  | ensured (job : Pm2Job) (hjob : job ≠ .connect)
      (hready : state.connected = true → state.bus ≠ none) :
      Passes state job .ensured
  | awaitsBus (job : Pm2Job) (launch : LaunchId) (hjob : job ≠ .connect)
      (hconnected : state.connected = true) (hbus : state.bus = none) :
      Passes state job (.awaitingBus launch)

inductive Pm2State.Starts (state : Pm2State) (job : Pm2Job) : CallPhase → Prop
  | awaitsConnect (attempt : AttemptId) (hconnected : state.connected = false) :
      Starts state job (.awaitingConnect attempt)
  | passes (phase : CallPhase) (hconnected : state.connected = true)
      (hpasses : state.Passes job phase) : Starts state job phase

theorem Pm2State.Passes.congr {job : Pm2Job} {phase : CallPhase}
    (hpasses : state.Passes job phase) (hsame : SameService state next) :
    next.Passes job phase := by
  cases hpasses with
  | connect => exact .connect
  | ensured job hjob hready =>
      exact .ensured job hjob fun hconnected => by
        rw [hsame.bus]
        exact hready (hsame.connected ▸ hconnected)
  | awaitsBus job launch hjob hconnected hbus =>
      exact .awaitsBus job launch hjob (hsame.connected.trans hconnected)
        (hsame.bus.trans hbus)

theorem Pm2State.Starts.congr {job : Pm2Job} {phase : CallPhase}
    (hstarts : state.Starts job phase) (hsame : SameService state next) :
    next.Starts job phase := by
  cases hstarts with
  | awaitsConnect attempt hconnected =>
      exact .awaitsConnect attempt (hsame.connected.trans hconnected)
  | passes phase hconnected hpasses =>
      exact .passes phase (hsame.connected.trans hconnected) (hpasses.congr hsame)

/-! ## One call -/

namespace Pm2State

theorem connect_cases (state : Pm2State) :
    (state.connected = true ∧ state.connect = (state, none)) ∨
      (state.connected = false ∧ ∃ opened attempt,
        state.connect = (opened, some attempt) ∧
        opened.connecting = some attempt ∧ opened.calls = state.calls ∧
        opened.nextCall = state.nextCall) := by
  unfold connect
  cases hconnected : state.connected with
  | true => exact .inl ⟨rfl, rfl⟩
  | false =>
      refine .inr ⟨rfl, ?_⟩
      cases hconnecting : state.connecting with
      | some attempt => exact ⟨state, attempt, rfl, hconnecting, rfl, rfl⟩
      | none =>
          exact ⟨state.openAttempt, state.nextAttempt, rfl, rfl, rfl, rfl⟩

/-- The call and its new phase are all that `ensureBus` changes of the
calls. -/
theorem ensureBus_calls (state : Pm2State) (id : CallId) {job : Pm2Job}
    (hjob : job ≠ .connect) :
    (state.ensureBus id job).nextCall = state.nextCall ∧
      ∃ phase, state.Passes job phase ∧
        (state.ensureBus id job).calls =
          update state.calls id (some { job, phase }) := by
  unfold ensureBus
  split
  next hneeded =>
    obtain ⟨hconnected, hbus⟩ := hneeded
    unfold attachBus
    cases hinitializing : state.busInitializing with
    | some launch =>
        simp only [hbus]
        exact ⟨rfl, _, .awaitsBus job launch hjob hconnected hbus, rfl⟩
    | none =>
        simp only [hbus]
        exact ⟨rfl, _, .awaitsBus job state.nextLaunch hjob hconnected hbus, rfl⟩
  next hready =>
    refine ⟨rfl, .ensured, .ensured job hjob ?_, rfl⟩
    intro hconnected hbus
    exact hready ⟨hconnected, hbus⟩

theorem afterConnect_calls (state : Pm2State) (id : CallId) (job : Pm2Job) :
    (state.afterConnect id job).nextCall = state.nextCall ∧
      ∃ phase, state.Passes job phase ∧
        (state.afterConnect id job).calls =
          update state.calls id (some { job, phase }) := by
  cases job with
  | connect => exact ⟨rfl, _, .connect, rfl⟩
  | initBus => exact state.ensureBus_calls id (by simp)
  | guarded query message followUp => exact state.ensureBus_calls id (by simp)

theorem startCall_calls (state : Pm2State) (job : Pm2Job) :
    (state.startCall job).nextCall = state.nextCall + 1 ∧
      ∃ phase, state.Starts job phase ∧
        (state.startCall job).calls =
          update state.calls state.nextCall (some { job, phase }) := by
  rcases connect_cases { state with nextCall := state.nextCall + 1 } with
    ⟨hconnected, hconnect⟩ |
      ⟨hconnected, opened, attempt, hconnect, _, hcalls, hcount⟩
  · obtain ⟨hcount, phase, hpasses, hcalls⟩ :=
      afterConnect_calls { state with nextCall := state.nextCall + 1 }
        state.nextCall job
    have hstart : state.startCall job =
        afterConnect { state with nextCall := state.nextCall + 1 }
          state.nextCall job := by
      simp [startCall, hconnect]
    rw [hstart]
    refine ⟨hcount, phase, .passes phase hconnected ?_, hcalls⟩
    exact hpasses.congr ⟨rfl, rfl, rfl, rfl, rfl⟩
  · have hstart : state.startCall job =
        opened.setCall state.nextCall { job, phase := .awaitingConnect attempt } := by
      simp [startCall, hconnect]
    rw [hstart]
    refine ⟨hcount, _, .awaitsConnect attempt hconnected, ?_⟩
    simp [setCall, hcalls]

theorem startCalls_calls (state : Pm2State) (jobs : List Pm2Job) :
    (state.startCalls jobs).nextCall = state.nextCall + jobs.length ∧
      (∀ id, id < state.nextCall →
        (state.startCalls jobs).calls id = state.calls id) ∧
      (∀ id, state.nextCall + jobs.length ≤ id →
        (state.startCalls jobs).calls id = state.calls id) ∧
      ∀ place (hplace : place < jobs.length), ∃ phase,
        state.Starts jobs[place] phase ∧
          (state.startCalls jobs).calls (state.nextCall + place) =
            some { job := jobs[place], phase } := by
  induction jobs generalizing state with
  | nil =>
      refine ⟨rfl, fun _ _ => rfl, fun _ _ => rfl, fun place hplace => ?_⟩
      simp at hplace
  | cons job rest ih =>
      obtain ⟨hcount, phase, hstarts, hcalls⟩ := state.startCall_calls job
      obtain ⟨hrestCount, hrestBefore, hrestAfter, hrestCalls⟩ :=
        ih (state.startCall job)
      have hfold : state.startCalls (job :: rest) =
        (state.startCall job).startCalls rest := rfl
      rw [hfold]
      rw [hcount] at hrestCount hrestBefore hrestAfter hrestCalls
      refine ⟨?_, ?_, ?_, ?_⟩
      · rw [hrestCount, List.length_cons]
        exact Nat.add_right_comm _ _ _
      · intro id hid
        rw [hrestBefore id (Nat.lt_succ_of_lt hid), hcalls,
          update_of_ne (Nat.ne_of_lt hid)]
      · intro id hid
        rw [List.length_cons] at hid
        have hgt : state.nextCall < id :=
          Nat.lt_of_lt_of_le (Nat.lt_add_of_pos_right (Nat.succ_pos _)) hid
        have hrest : state.nextCall + 1 + rest.length ≤ id := by
          rw [Nat.add_right_comm]
          exact hid
        rw [hrestAfter id hrest, hcalls, update_of_ne (Nat.ne_of_gt hgt)]
      · intro place hplace
        have hsame := moves_same (state.startCall_moves job)
        cases place with
        | zero =>
            refine ⟨phase, hstarts, ?_⟩
            rw [Nat.add_zero, hrestBefore state.nextCall (Nat.lt_succ_self _),
              hcalls, update_self]
            rfl
        | succ place =>
            have hlt : place < rest.length := Nat.lt_of_succ_lt_succ hplace
            obtain ⟨later, hlater, hfound⟩ := hrestCalls place hlt
            refine ⟨later, ?_, ?_⟩
            · exact hlater.congr ⟨hsame.connected.symm, hsame.bus.symm,
                hsame.buses.symm, hsame.published.symm, hsame.emitted.symm⟩
            · rw [Nat.add_right_comm] at hfound
              exact hfound

end Pm2State

/-! ## A call which goes on -/

def Pm2Call.spawned (call : Pm2Call) : List Pm2Job :=
  match call.job, call.phase with
  | .guarded _ _ followUp, .answered (.ok list) => followUp.jobs list
  | _, _ => []

inductive Pm2State.GoesOn (state : Pm2State) (call : Pm2Call) : CallPhase → Prop
  | refused (attempt : AttemptId) (error : AppError)
      (hphase : call.phase = .awaitingConnect attempt)
      (hresult : state.attemptResult attempt = some (.error error)) :
      GoesOn state call (.settled (.error error))
  | connected (attempt : AttemptId) (phase : CallPhase)
      (hphase : call.phase = .awaitingConnect attempt)
      (hresult : state.attemptResult attempt = some (.ok ()))
      (hpasses : state.Passes call.job phase) : GoesOn state call phase
  | attached (launch : LaunchId) (hphase : call.phase = .awaitingBus launch)
      (hresult : state.launchResult launch ≠ none) : GoesOn state call .ensured
  | issues (query : Pm2Query) (message : String) (followUp : FollowUp)
      (hphase : call.phase = .ensured)
      (hjob : call.job = .guarded query message followUp) :
      GoesOn state call .issued
  | returns (hphase : call.phase = .ensured)
      (hjob : ∀ query message followUp, call.job ≠ .guarded query message followUp) :
      GoesOn state call (.settled (.ok []))
  | fails (query : Pm2Query) (message detail : String) (followUp : FollowUp)
      (hphase : call.phase = .answered (.error detail))
      (hjob : call.job = .guarded query message followUp) :
      GoesOn state call (.settled (.error (.pm2Error message (.text detail))))
  | succeeds (query : Pm2Query) (message : String) (followUp : FollowUp)
      (list : List ProcessDescription) (hphase : call.phase = .answered (.ok list))
      (hjob : call.job = .guarded query message followUp) :
      GoesOn state call (.settled (.ok list))

theorem Pm2Call.spawned_eq_nil {call : Pm2Call}
    (hphase : ∀ list, call.phase ≠ .answered (.ok list)) : call.spawned = [] := by
  unfold Pm2Call.spawned
  split
  next list _ hanswered => exact absurd hanswered (hphase list)
  · rfl

/-- The call moves to its next phase, and then starts others if it has its
process list. -/
theorem Pm2State.resume_calls {id : CallId} {call : Pm2Call}
    (hresume : state.resume id call = some next) :
    ∃ phase mid, state.GoesOn call phase ∧
      mid.calls = update state.calls id (some { job := call.job, phase }) ∧
      mid.nextCall = state.nextCall ∧ Pm2Moves state mid ∧
      next = mid.startCalls call.spawned := by
  obtain ⟨job, before⟩ := call
  -- every move but the one behind `connect()` only changes the phase
  have hplain : ∀ phase, state.GoesOn ⟨job, before⟩ phase →
      next = (state.setCall id { job, phase }).startCalls
        (Pm2Call.spawned ⟨job, before⟩) →
      ∃ phase mid, state.GoesOn ⟨job, before⟩ phase ∧
        mid.calls = update state.calls id (some { job, phase }) ∧
        mid.nextCall = state.nextCall ∧ Pm2Moves state mid ∧
        next = mid.startCalls (Pm2Call.spawned ⟨job, before⟩) := by
    intro phase hgoes hnext
    exact ⟨phase, state.setCall id { job, phase }, hgoes, rfl, rfl,
      .single (.call id _), hnext⟩
  unfold Pm2State.resume at hresume
  cases before with
  | awaitingConnect attempt =>
      have hspawned : Pm2Call.spawned ⟨job, .awaitingConnect attempt⟩ = [] :=
        Pm2Call.spawned_eq_nil (by simp)
      rw [hspawned] at hplain ⊢
      simp only at hresume
      split at hresume
      · simp at hresume
      next error hresult =>
        exact hplain _ (.refused attempt error rfl hresult)
          (Option.some.inj hresume).symm
      next hresult =>
        obtain rfl := Option.some.inj hresume
        obtain ⟨hcount, phase, hpasses, hcalls⟩ := state.afterConnect_calls id job
        exact ⟨phase, _, .connected attempt phase rfl hresult hpasses, hcalls,
          hcount, state.afterConnect_moves id job, rfl⟩
  | awaitingBus launch =>
      have hspawned : Pm2Call.spawned ⟨job, .awaitingBus launch⟩ = [] :=
        Pm2Call.spawned_eq_nil (by simp)
      rw [hspawned] at hplain ⊢
      simp only at hresume
      split at hresume
      · simp at hresume
      next hresult =>
        exact hplain _ (.attached launch rfl (by simp [hresult]))
          (Option.some.inj hresume).symm
  | ensured =>
      have hspawned : Pm2Call.spawned ⟨job, .ensured⟩ = [] :=
        Pm2Call.spawned_eq_nil (by simp)
      rw [hspawned] at hplain ⊢
      cases job with
      | connect | initBus =>
          exact hplain _ (.returns rfl (by simp)) (Option.some.inj hresume).symm
      | guarded query message followUp =>
          exact hplain _ (.issues query message followUp rfl rfl)
            (Option.some.inj hresume).symm
  | answered reply =>
      cases job with
      | connect | initBus => simp at hresume
      | guarded query message followUp =>
          cases reply with
          | error detail =>
              exact hplain _ (.fails query message detail followUp rfl rfl)
                (Option.some.inj hresume).symm
          | ok list =>
              exact hplain _ (.succeeds query message followUp list rfl rfl)
                (Option.some.inj hresume).symm
  | issued => simp at hresume
  | settled result => simp at hresume

/-! ## One step -/

inductive CallsStep (state : Pm2State) (action : Pm2Action) (next : Pm2State) :
    Prop
  | kept (hcalls : next.calls = state.calls)
      (hcount : next.nextCall = state.nextCall)
      (haction : ∀ operation, action ≠ .call operation)
      (hresume : ∀ id, action ≠ .resume id)
  | called (operation : Operation) (haction : action = .call operation)
      (hnext : next = state.startCall operation.job)
  | answered (id : CallId) (reply : Except String (List ProcessDescription))
      (job : Pm2Job) (haction : action = .commandCallback id reply)
      (hcall : state.calls id = some { job, phase := .issued })
      (hnext : next = state.setCall id { job, phase := .answered reply })
  | resumed (id : CallId) (call : Pm2Call) (phase : CallPhase) (mid : Pm2State)
      (haction : action = .resume id) (hcall : state.calls id = some call)
      (hgoes : state.GoesOn call phase)
      (hcalls : mid.calls =
        update state.calls id (some { job := call.job, phase }))
      (hcount : mid.nextCall = state.nextCall) (hmoves : Pm2Moves state mid)
      (hnext : next = mid.startCalls call.spawned)

theorem calls_step (hstep : pm2Machine.step state action = some next) :
    CallsStep state action next := by
  cases pm2Step_cases hstep with
  | called operation => exact .called operation rfl rfl
  | resumed id call _ hcall hresume =>
      obtain ⟨phase, mid, hgoes, hcalls, hcount, hmoves, hnext⟩ :=
        Pm2State.resume_calls hresume
      exact .resumed id call phase mid rfl hcall hgoes hcalls hcount hmoves hnext
  | answered id reply job hcall => exact .answered id reply job rfl hcall rfl
  | disconnected throws =>
      rcases closeBus_cases state throws with
        ⟨hsame, _⟩ | ⟨id, bus, _, _, _, hclosed⟩
      · exact .kept (by simp [Pm2State.disconnect, hsame])
          (by simp [Pm2State.disconnect, hsame]) (by simp) (by simp)
      · exact .kept (by simp [Pm2State.disconnect, hclosed, Pm2State.setBus])
          (by simp [Pm2State.disconnect, hclosed, Pm2State.setBus]) (by simp)
          (by simp)
  | timedOut | calledBackLate | refused | connected | launchFailed | launched
  | busErrored | busClosed | published =>
      exact .kept rfl rfl (by simp) (by simp)

/-- No call has a number which is still to be given. -/
def Pm2State.CallsBounded (state : Pm2State) : Prop :=
  ∀ id, state.nextCall ≤ id → state.calls id = none

theorem Pm2State.CallsBounded.lt (hstate : state.CallsBounded) {id : CallId}
    {call : Pm2Call} (hcall : state.calls id = some call) :
    id < state.nextCall := by
  by_contra hid
  simp [hstate id (Nat.not_lt.mp hid)] at hcall

theorem Pm2State.CallsBounded.setCall (hstate : state.CallsBounded) {id : CallId}
    {call : Pm2Call} (hid : id < state.nextCall)
    (hcalls : next.calls = update state.calls id (some call))
    (hcount : next.nextCall = state.nextCall) : next.CallsBounded := by
  intro other hother
  rw [hcount] at hother
  rw [hcalls, update_of_ne (Nat.ne_of_gt (Nat.lt_of_lt_of_le hid hother))]
  exact hstate other hother

theorem Pm2State.CallsBounded.startCalls (hstate : state.CallsBounded)
    (jobs : List Pm2Job) : (state.startCalls jobs).CallsBounded := by
  obtain ⟨hcount, _, hafter, _⟩ := state.startCalls_calls jobs
  intro id hid
  rw [hcount] at hid
  rw [hafter id hid]
  exact hstate id (Nat.le_trans (Nat.le_add_right _ _) hid)

theorem callsBounded_step :
    pm2Machine.Preserves Machine.anyAction Pm2State.CallsBounded := by
  intro state action next hstate _ hstep
  cases calls_step hstep with
  | kept hcalls hcount _ _ =>
      intro id hid
      rw [hcalls]
      exact hstate id (hcount ▸ hid)
  | called operation haction hnext =>
      rw [hnext]
      exact hstate.startCalls [operation.job]
  | answered id reply job haction hcall hnext =>
      rw [hnext]
      exact hstate.setCall (hstate.lt hcall) rfl rfl
  | resumed id call phase mid haction hcall hgoes hcalls hcount hmoves hnext =>
      rw [hnext]
      exact (hstate.setCall (hstate.lt hcall) hcalls hcount).startCalls _

/-- What a step makes of the phase of one call. -/
inductive Pm2State.CallMove (state : Pm2State) (call : Pm2Call) :
    CallPhase → Prop
  | stays : CallMove state call call.phase
  | answered (reply : Except String (List ProcessDescription))
      (hphase : call.phase = .issued) : CallMove state call (.answered reply)
  | goesOn (phase : CallPhase) (hgoes : state.GoesOn call phase) :
      CallMove state call phase

theorem call_step (hstate : state.CallsBounded) {id : CallId} {call : Pm2Call}
    (hcall : state.calls id = some call)
    (hstep : pm2Machine.step state action = some next) :
    ∃ phase, next.calls id = some { job := call.job, phase } ∧
      state.CallMove call phase := by
  have hlt := hstate.lt hcall
  cases calls_step hstep with
  | kept hcalls hcount _ _ => exact ⟨call.phase, by rw [hcalls, hcall], .stays⟩
  | called operation haction hnext =>
      obtain ⟨_, hbefore, _, _⟩ := state.startCalls_calls [operation.job]
      have hsame : next.calls id = state.calls id := by
        rw [hnext]
        exact hbefore id hlt
      exact ⟨call.phase, hsame.trans hcall, .stays⟩
  | answered other reply job haction hother hnext =>
      by_cases heq : id = other
      · subst other
        rw [hcall, Option.some.injEq] at hother
        subst hother
        exact ⟨.answered reply, by simp [hnext, Pm2State.setCall],
          .answered reply rfl⟩
      · exact ⟨call.phase, by simp [hnext, Pm2State.setCall, heq, hcall], .stays⟩
  | resumed other before phase mid haction hother hgoes hcalls hcount hmoves
      hnext =>
      obtain ⟨_, hkept, _, _⟩ := mid.startCalls_calls before.spawned
      have hmid : next.calls id = mid.calls id := by
        rw [hnext]
        exact hkept id (hcount ▸ hlt)
      rw [hmid, hcalls]
      by_cases heq : id = other
      · subst other
        rw [hcall, Option.some.injEq] at hother
        subst hother
        exact ⟨phase, update_self _ _ _, .goesOn phase hgoes⟩
      · exact ⟨call.phase, by rw [update_of_ne heq, hcall], .stays⟩

theorem settled_step (hstate : state.CallsBounded) {id : CallId} {job : Pm2Job}
    {result : Except AppError (List ProcessDescription)}
    (hcall : state.calls id = some { job, phase := .settled result })
    (hstep : pm2Machine.step state action = some next) :
    next.calls id = some { job, phase := .settled result } := by
  obtain ⟨phase, hnext, hmove⟩ := call_step hstate hcall hstep
  cases hmove with
  | stays => exact hnext
  | answered reply hphase => simp at hphase
  | goesOn phase hgoes => cases hgoes <;> simp_all

end Pm2Manager
