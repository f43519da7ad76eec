import Pm2Manager.Pm2Transitions

/-!
# Disconnection

`disconnect` resets what is there.  It does not reach what is under way: an
attempt or a launch whose callback is still to come, a bus without `close`,
and a bulk action which will go on once it has its process list.
-/

namespace Pm2Manager

open Function

variable {state next last : Pm2State} {action : Pm2Action}
variable {word later : List Pm2Action} {id : CallId} {call : Pm2Call}

def StartsNothing (_ : Pm2State) (action : Pm2Action) : Prop :=
  ∀ operation, action ≠ .call operation

namespace Pm2State

/-- The phase leads to further calls of a follow-up, once what it awaits has
come: a connection which fails ends it, and so does a list without work. -/
def LeadsOn (state : Pm2State) (followUp : FollowUp) : CallPhase → Prop
  | .awaitingConnect attempt => state.attemptResult attempt = some (.ok ())
  | .awaitingBus launch => state.launchResult launch ≠ none
  | .ensured => True
  | .issued => True
  | .answered reply => ∃ list, reply = .ok list ∧ followUp.jobs list ≠ []
  | .settled _ => False

/-- A bulk action which has passed its connection check and has yet to act on
its process list. -/
def Continues (state : Pm2State) (call : Pm2Call) : Prop :=
  ∃ query message followUp, call.job = .guarded query message followUp ∧
    followUp ≠ .nothing ∧ state.LeadsOn followUp call.phase

/-- Nothing is under way which `disconnect` does not reach. -/
structure Quiet (state : Pm2State) : Prop where
  connecting : state.connecting = none
  initializing : state.busInitializing = none
  closable : ∀ id bus, state.bus = some id → state.buses id = some bus →
    bus.hasClose = true
  calls : ∀ id call, state.calls id = some call → ¬ state.Continues call

/-- The service is disconnected, and nothing brings it back by itself. -/
structure Down (state : Pm2State) : Prop where
  connected : state.connected = false
  bus : state.bus = none
  connecting : state.connecting = none
  initializing : state.busInitializing = none
  calls : ∀ id call, state.calls id = some call → ¬ state.Continues call

/-- The service connects although nothing is called any more. -/
def Reconnects (state : Pm2State) : Prop :=
  ∃ later last, pm2Machine.Admits StartsNothing state later ∧
    pm2Machine.exec state later = some last ∧ last.connected = true

end Pm2State

open Pm2State

theorem quiet_disconnect (hinv : state.BusInvariant) (hquiet : state.Quiet)
    (throws : Bool) : (state.disconnect throws).Down := by
  unfold Pm2State.disconnect
  rcases closeBus_cases state throws with
    ⟨hsame, hstays⟩ | ⟨id, bus, hheld, hbus, _, hclosed⟩
  · have hnone : state.bus = none := by
      cases hheld : state.bus with
      | none => rfl
      | some id =>
          obtain ⟨_, bus, hbus, _⟩ := hinv.held id hheld
          have hcloses := hquiet.closable id bus hheld hbus
          simp [hstays id bus hheld hbus] at hcloses
    rw [hsame]
    exact ⟨rfl, hnone, hquiet.connecting, hquiet.initializing, hquiet.calls⟩
  · rw [hclosed]
    exact ⟨rfl, rfl, hquiet.connecting, hquiet.initializing, hquiet.calls⟩

/-! ## A service which stays down -/

theorem setCall_self : (state.setCall id call).calls id = some call :=
  update_self _ _ _

theorem leadsOn_congr {followUp : FollowUp} {phase : CallPhase}
    (hattempts : next.attemptResult = state.attemptResult)
    (hlaunches : next.launchResult = state.launchResult) :
    next.LeadsOn followUp phase ↔ state.LeadsOn followUp phase := by
  cases phase with
  | awaitingConnect attempt => simp only [LeadsOn, hattempts]
  | awaitingBus launch => simp only [LeadsOn, hlaunches]
  | ensured => exact Iff.rfl
  | issued => exact Iff.rfl
  | answered reply => exact Iff.rfl
  | settled result => exact Iff.rfl

theorem Pm2State.Down.setCall (hdown : state.Down)
    (hcall : ¬ state.Continues call) : (state.setCall id call).Down := by
  constructor
  · exact hdown.connected
  · exact hdown.bus
  · exact hdown.connecting
  · exact hdown.initializing
  · intro other found hfound
    by_cases heq : other = id
    · simp only [Pm2State.setCall, heq, update_self, Option.some.injEq] at hfound
      exact hfound ▸ hcall
    · simp only [Pm2State.setCall, update_of_ne heq] at hfound
      exact hdown.calls other found hfound

theorem not_continues_of {phase : CallPhase}
    (hcall : ¬ state.Continues call)
    (hphase : ∀ followUp, state.LeadsOn followUp phase →
      state.LeadsOn followUp call.phase) :
    ¬ state.Continues { call with phase := phase } := by
  rintro ⟨query, message, followUp, hjob, hfollow, hleads⟩
  exact hcall ⟨query, message, followUp, hjob, hfollow, hphase followUp hleads⟩

theorem down_resume (hdown : state.Down) (hcall : state.calls id = some call)
    (hresume : state.resume id call = some next) : next.Down := by
  have hnot := hdown.calls id call hcall
  unfold Pm2State.resume at hresume
  split at hresume
  next attempt hphase =>
    split at hresume
    · simp at hresume
    · rw [Option.some.injEq] at hresume
      exact hresume ▸ hdown.setCall (not_continues_of hnot fun _ => False.elim)
    next hresult =>
      rw [Option.some.injEq] at hresume
      -- the connection is gone again: no bus is attached
      have hensured : ¬ state.Continues { call with phase := .ensured } := by
        apply not_continues_of hnot
        intro followUp _
        rw [hphase]
        exact hresult
      have hbus : ∀ job, state.ensureBus id job =
          state.setCall id { job, phase := .ensured } := fun job => by
        simp [Pm2State.ensureBus, hdown.connected]
      subst hresume
      obtain ⟨job, phase⟩ := call
      cases job with
      | connect =>
          exact hdown.setCall (not_continues_of hnot fun _ => False.elim)
      | initBus =>
          change (state.ensureBus id _).Down
          rw [hbus]
          exact hdown.setCall hensured
      | guarded query message followUp =>
          change (state.ensureBus id _).Down
          rw [hbus]
          exact hdown.setCall hensured
  next launch hphase =>
    split at hresume
    · simp at hresume
    next hresult =>
      rw [Option.some.injEq] at hresume
      have hensured : ¬ state.Continues { call with phase := .ensured } := by
        apply not_continues_of hnot
        intro followUp _
        rw [hphase]
        simp [LeadsOn, hresult]
      exact hresume ▸ hdown.setCall hensured
  next hphase =>
    split at hresume
    · rw [Option.some.injEq] at hresume
      have hissued : ¬ state.Continues { call with phase := .issued } := by
        apply not_continues_of hnot
        intro followUp _
        rw [hphase]
        trivial
      exact hresume ▸ hdown.setCall hissued
    · rw [Option.some.injEq] at hresume
      exact hresume ▸ hdown.setCall (not_continues_of hnot fun _ => False.elim)
  next reply hphase =>
    split at hresume
    · rw [Option.some.injEq] at hresume
      exact hresume ▸ hdown.setCall (not_continues_of hnot fun _ => False.elim)
    next query message followUp list hjob =>
      rw [Option.some.injEq] at hresume
      have hjobs : followUp.jobs list = [] := by
        by_contra hsome
        refine hnot ⟨query, message, followUp, hjob, ?_, ?_⟩
        · rintro rfl
          exact hsome rfl
        · rw [hphase]
          exact ⟨list, rfl, hsome⟩
      rw [hjobs] at hresume
      exact hresume ▸ hdown.setCall (not_continues_of hnot fun _ => False.elim)
    · simp at hresume
  · simp at hresume
  · simp at hresume

theorem down_step (hattempts : state.AttemptInvariant)
    (hbuses : state.BusInvariant) (hdown : state.Down)
    (hnothing : StartsNothing state action)
    (hstep : pm2Machine.step state action = some next) : next.Down := by
  have hsettled : ∀ id calledBack,
      state.attempts id ≠ some { result := none, calledBack } := by
    intro id calledBack hattempt
    have hconnecting := hattempts.connecting_of_unsettled hattempt
    simp [hdown.connecting] at hconnecting
  have hlaunched : ∀ id, state.launches id ≠ some { result := none } := by
    intro id hlaunch
    have hpending := (hbuses.bus_of_pending hlaunch).1
    simp [hdown.initializing] at hpending
  cases pm2Step_cases hstep with
  | called operation => exact absurd rfl (hnothing operation)
  | resumed id call _ hcall hresume => exact down_resume hdown hcall hresume
  | disconnected throws =>
      have hsame : state.closeBus throws = state := by
        simp [Pm2State.closeBus, hdown.bus]
      unfold Pm2State.disconnect
      rw [hsame]
      exact ⟨rfl, hdown.bus, hdown.connecting, hdown.initializing, hdown.calls⟩
  | timedOut id _ calledBack hattempt =>
      exact absurd hattempt (hsettled id calledBack)
  | calledBackLate id err result hattempt =>
      have hresults : (state.setAttempt id
          { result := some result, calledBack := true }).attemptResult =
          state.attemptResult := by
        funext other
        by_cases heq : other = id
        · simp [Pm2State.attemptResult, Pm2State.setAttempt, heq, hattempt]
        · simp [Pm2State.attemptResult, Pm2State.setAttempt, heq]
      refine ⟨hdown.connected, hdown.bus, hdown.connecting, hdown.initializing,
        fun other call hcall hcontinues => hdown.calls other call hcall ?_⟩
      obtain ⟨query, message, followUp, hjob, hfollow, hleads⟩ := hcontinues
      exact ⟨query, message, followUp, hjob, hfollow,
        (leadsOn_congr hresults rfl).mp hleads⟩
  | refused id _ _ hattempt => exact absurd hattempt (hsettled id false)
  | connected id hattempt => exact absurd hattempt (hsettled id false)
  | launchFailed id _ _ hlaunch => exact absurd hlaunch (hlaunched id)
  | launched id _ hlaunch => exact absurd hlaunch (hlaunched id)
  | answered id reply job hcall =>
      exact hdown.setCall (not_continues_of (hdown.calls id _ hcall)
        fun _ _ => trivial)
  | busErrored id bus hbus hopen =>
      exact ⟨hdown.connected, rfl, hdown.connecting, hdown.initializing,
        hdown.calls⟩
  | busClosed id bus hbus hopen =>
      exact ⟨hdown.connected, rfl, hdown.connecting, hdown.initializing,
        hdown.calls⟩
  | published packet now =>
      exact ⟨hdown.connected, hdown.bus, hdown.connecting, hdown.initializing,
        hdown.calls⟩

theorem down_preserved : pm2Machine.Preserves StartsNothing
    (fun state => (state.AttemptInvariant ∧ state.BusInvariant) ∧ state.Down) :=
  (attemptInvariant_step.and fun state action next _ hbuses hany hstep =>
      busInvariant_step state action next hbuses hany hstep).and
    fun _ _ _ hinv hdown hnothing hstep =>
      down_step hinv.1 hinv.2 hdown hnothing hstep

/-! ## A service which comes back -/

theorem reconnects_head (hstep : pm2Machine.step state action = some next)
    (hnothing : StartsNothing state action) (hnext : next.Reconnects) :
    state.Reconnects := by
  obtain ⟨later, last, hlater, hexec, hconnected⟩ := hnext
  refine ⟨action :: later, last, ⟨hnothing, fun other hother => ?_⟩, ?_,
    hconnected⟩
  · rw [hstep, Option.some.injEq] at hother
    exact hother ▸ hlater
  · rw [Machine.exec_cons_some hstep]
    exact hexec

theorem reconnects_of_connecting (hinv : state.AttemptInvariant)
    {attempt : AttemptId} (hconnecting : state.connecting = some attempt) :
    state.Reconnects := by
  have hattempt := (hinv.connecting_iff attempt).mp hconnecting
  have hstep : pm2Machine.step state (.connectCallback attempt none) = some
      { state.settleAttempt attempt (.ok ()) true with connected := true } := by
    simp [pm2Machine, Pm2State.step, hattempt]
  refine reconnects_head hstep (fun operation => by simp) ⟨[], _, trivial, rfl, rfl⟩

theorem startCall_connecting (job : Pm2Job) (hconnected : state.connected = false) :
    (state.startCall job).connecting ≠ none ∧
      (state.startCall job).connected = false := by
  constructor
  · cases hconnecting : state.connecting with
    | none =>
        simp [Pm2State.startCall, Pm2State.connect, hconnected, hconnecting,
          Pm2State.openAttempt, Pm2State.setCall]
    | some attempt =>
        simp [Pm2State.startCall, Pm2State.connect, hconnected, hconnecting,
          Pm2State.setCall]
  · exact (moves_same (state.startCall_moves job)).connected.trans hconnected

theorem startCalls_connecting (jobs : List Pm2Job)
    (hconnected : state.connected = false)
    (hsome : jobs ≠ [] ∨ state.connecting ≠ none) :
    (state.startCalls jobs).connecting ≠ none := by
  induction jobs generalizing state with
  | nil => simpa [Pm2State.startCalls] using hsome
  | cons job rest ih =>
      obtain ⟨hconnecting, hstill⟩ := startCall_connecting job hconnected
      exact ih hstill (.inr hconnecting)

theorem exists_jobs {followUp : FollowUp} (hfollow : followUp ≠ .nothing) :
    ∃ list, followUp.jobs list ≠ [] := by
  refine ⟨[{ pmId := some 0, name := none, status := some .stopped }], ?_⟩
  cases followUp with
  | nothing => exact absurd rfl hfollow
  | bulk method verb => simp [FollowUp.jobs, summaries]
  | startAll => simp [FollowUp.jobs, summaries, toProcessSummary]

section Phases

variable {query : Pm2Query} {message : String} {followUp : FollowUp}

theorem reconnects_of_answered (hinv : state.AttemptInvariant)
    (hconnected : state.connected = false) {list : List ProcessDescription}
    (hcall : state.calls id = some { job := .guarded query message followUp
                                     phase := .answered (.ok list) })
    (hjobs : followUp.jobs list ≠ []) : state.Reconnects := by
  have hstep : pm2Machine.step state (.resume id) = some ((state.setCall id
      { job := .guarded query message followUp
        phase := .settled (.ok list) }).startCalls (followUp.jobs list)) := by
    simp [pm2Machine, Pm2State.step, hcall, Pm2State.resume]
  have hnext := attemptInvariant_step _ _ _ hinv trivial hstep
  have hconnecting : ((state.setCall id
      { job := .guarded query message followUp
        phase := .settled (.ok list) }).startCalls
          (followUp.jobs list)).connecting ≠ none :=
    startCalls_connecting _ hconnected (.inl hjobs)
  obtain ⟨attempt, hattempt⟩ := Option.ne_none_iff_exists'.mp hconnecting
  exact reconnects_head hstep (fun operation => by simp)
    (reconnects_of_connecting hnext hattempt)

theorem reconnects_of_issued (hinv : state.AttemptInvariant)
    (hconnected : state.connected = false)
    (hcall : state.calls id = some { job := .guarded query message followUp
                                     phase := .issued })
    (hfollow : followUp ≠ .nothing) : state.Reconnects := by
  obtain ⟨list, hjobs⟩ := exists_jobs hfollow
  have hstep : pm2Machine.step state (.commandCallback id (.ok list)) =
      some (state.setCall id { job := .guarded query message followUp
                               phase := .answered (.ok list) }) := by
    simp [pm2Machine, Pm2State.step, hcall]
  have hnext := attemptInvariant_step _ _ _ hinv trivial hstep
  have hanswered := reconnects_of_answered hnext hconnected setCall_self hjobs
  exact reconnects_head hstep (fun operation => by simp) hanswered

theorem reconnects_of_ensured (hinv : state.AttemptInvariant)
    (hconnected : state.connected = false)
    (hcall : state.calls id = some { job := .guarded query message followUp
                                     phase := .ensured })
    (hfollow : followUp ≠ .nothing) : state.Reconnects := by
  have hstep : pm2Machine.step state (.resume id) =
      some (state.setCall id { job := .guarded query message followUp
                               phase := .issued }) := by
    simp [pm2Machine, Pm2State.step, hcall, Pm2State.resume]
  have hnext := attemptInvariant_step _ _ _ hinv trivial hstep
  have hissued := reconnects_of_issued hnext hconnected setCall_self hfollow
  exact reconnects_head hstep (fun operation => by simp) hissued

theorem reconnects_of_resume (hinv : state.AttemptInvariant)
    (hconnected : state.connected = false) {phase : CallPhase}
    (hcall : state.calls id = some { job := .guarded query message followUp
                                     phase := phase })
    (hresume : state.resume id { job := .guarded query message followUp
                                 phase := phase } =
      some (state.setCall id { job := .guarded query message followUp
                               phase := .ensured }))
    (hfollow : followUp ≠ .nothing) : state.Reconnects := by
  have hstep : pm2Machine.step state (.resume id) =
      some (state.setCall id { job := .guarded query message followUp
                               phase := .ensured }) := by
    simp [pm2Machine, Pm2State.step, hcall, hresume]
  have hnext := attemptInvariant_step _ _ _ hinv trivial hstep
  have hensured := reconnects_of_ensured hnext hconnected setCall_self hfollow
  exact reconnects_head hstep (fun operation => by simp) hensured

end Phases

theorem reconnects_of_continues (hinv : state.AttemptInvariant)
    (hconnected : state.connected = false) (hcall : state.calls id = some call)
    (hcontinues : state.Continues call) : state.Reconnects := by
  obtain ⟨query, message, followUp, hjob, hfollow, hleads⟩ := hcontinues
  obtain ⟨job, phase⟩ := call
  subst hjob
  cases phase with
  | awaitingConnect attempt =>
      have hresult : state.attemptResult attempt = some (.ok ()) := hleads
      have hresume : state.resume id
          { job := .guarded query message followUp
            phase := .awaitingConnect attempt } =
          some (state.setCall id { job := .guarded query message followUp
                                   phase := .ensured }) := by
        simp [Pm2State.resume, hresult, Pm2State.afterConnect,
          Pm2State.ensureBus, hconnected]
      exact reconnects_of_resume hinv hconnected hcall hresume hfollow
  | awaitingBus launch =>
      obtain ⟨result, hresult⟩ := Option.ne_none_iff_exists'.mp hleads
      exact reconnects_of_resume hinv hconnected hcall
        (by simp [Pm2State.resume, hresult]) hfollow
  | ensured => exact reconnects_of_ensured hinv hconnected hcall hfollow
  | issued => exact reconnects_of_issued hinv hconnected hcall hfollow
  | answered reply =>
      obtain ⟨list, rfl, hjobs⟩ := hleads
      exact reconnects_of_answered hinv hconnected hcall hjobs
  | settled result => exact hleads.elim

/-! ## The runs after `disconnect` -/

theorem disconnect_same (state : Pm2State) (throws : Bool) :
    (state.disconnect throws).connecting = state.connecting ∧
      (state.disconnect throws).busInitializing = state.busInitializing ∧
      (state.disconnect throws).launches = state.launches ∧
      (state.disconnect throws).calls = state.calls ∧
      ∀ call, (state.disconnect throws).Continues call ↔
        state.Continues call := by
  unfold Pm2State.disconnect
  rcases closeBus_cases state throws with ⟨hsame, _⟩ | ⟨_, _, _, _, _, hclosed⟩
  · rw [hsame]
    exact ⟨rfl, rfl, rfl, rfl, fun _ => Iff.rfl⟩
  · rw [hclosed]
    exact ⟨rfl, rfl, rfl, rfl, fun _ => Iff.rfl⟩

theorem quiet_of_lasting (hattempts : state.AttemptInvariant)
    (hbuses : state.BusInvariant) {throws : Bool}
    (hlasts : ∀ later last, pm2Machine.Admits StartsNothing
        (state.disconnect throws) later →
      pm2Machine.exec (state.disconnect throws) later = some last →
      last.connected = false ∧ last.bus = none) : state.Quiet := by
  have hstep : pm2Machine.step state (.disconnect throws) =
      some (state.disconnect throws) := rfl
  have hnext := attemptInvariant_step _ _ _ hattempts trivial hstep
  have hnextBuses := busInvariant_step _ _ _ hbuses trivial hstep
  obtain ⟨hconnecting, hinitializing, hlaunches, hcalls, hcontinues⟩ :=
    disconnect_same state throws
  have hnever : ¬ (state.disconnect throws).Reconnects := by
    rintro ⟨later, last, hlater, hexec, hconnected⟩
    simp [(hlasts later last hlater hexec).1] at hconnected
  constructor
  · cases hattempt : state.connecting with
    | none => rfl
    | some attempt =>
        exact absurd (reconnects_of_connecting hnext
          (hconnecting.trans hattempt)) hnever
  · cases hlaunch : state.busInitializing with
    | none => rfl
    | some launch =>
        have hpending := (hnextBuses.initializing_iff launch).mp
          (hinitializing.trans hlaunch)
        have hhanded : pm2Machine.step (state.disconnect throws)
            (.launchCallback launch (.ok true)) = some
            { ((state.disconnect throws).settleLaunch launch (.ok ())).setBus
                launch { hasClose := true, live := true, closeEmitted := false }
              with bus := some launch } := by
          simp [pm2Machine, Pm2State.step, hpending]
        have hlast := hlasts [.launchCallback launch (.ok true)] _
          ⟨fun operation => by simp, fun _ _ => trivial⟩
          (Machine.exec_cons_some hhanded)
        simp at hlast
  · intro id bus hheld hbus
    have hlast := (hlasts [] _ trivial rfl).2
    rcases closeBus_cases state throws with
      ⟨hsame, _⟩ | ⟨other, found, hother, hfound, hcloses, _⟩
    · change (state.closeBus throws).bus = none at hlast
      simp [hsame, hheld] at hlast
    · rw [hheld, Option.some.injEq] at hother
      rw [← hother, hbus, Option.some.injEq] at hfound
      exact hfound ▸ hcloses
  · intro id call hcall hgoes
    exact hnever (reconnects_of_continues hnext rfl (hcalls ▸ hcall)
      ((hcontinues call).mpr hgoes))

/-- From `disconnect` on the service stays disconnected and without a bus, if
nothing is called any more, exactly when nothing was under way which
`disconnect` does not reach. -/
theorem disconnect_lasts_iff {throws : Bool}
    (hexec : pm2Machine.exec .initial word = some state)
    (hstep : pm2Machine.step state (.disconnect throws) = some next) :
    (∀ later last, pm2Machine.Admits StartsNothing next later →
        pm2Machine.exec next later = some last →
        last.connected = false ∧ last.bus = none) ↔ state.Quiet := by
  have hattempts := attemptInvariant_step.exec_any attemptInvariant_initial hexec
  have hbuses := busInvariant_step.exec_any busInvariant_initial hexec
  have hnext : state.disconnect throws = next := Option.some.inj hstep
  subst hnext
  constructor
  · exact quiet_of_lasting hattempts hbuses
  · intro hquiet later last hlater hrun
    have hdown := down_preserved.exec
      ⟨⟨attemptInvariant_step _ _ _ hattempts trivial hstep,
        busInvariant_step _ _ _ hbuses trivial hstep⟩,
        quiet_disconnect hbuses hquiet throws⟩ hlater hrun
    exact ⟨hdown.2.connected, hdown.2.bus⟩

def sampleAttached : List Pm2Action :=
  [.call .connect, .connectCallback 0 none, .resume 0, .call .initBus,
    .launchCallback 0 (.ok true), .resume 1]

theorem disconnect_lasts_iff_sampleAttached :
    ∃ state next, pm2Machine.exec .initial sampleAttached = some state ∧
      pm2Machine.step state (.disconnect false) = some next ∧
      ((∀ later last, pm2Machine.Admits StartsNothing next later →
          pm2Machine.exec next later = some last →
          last.connected = false ∧ last.bus = none) ↔ state.Quiet) := by
  obtain ⟨state, hexec, _⟩ := Machine.exists_of_exec_map pm2Machine .initial
    sampleAttached (fun state => state.connected) (by decide +kernel)
  exact ⟨state, _, hexec, rfl, disconnect_lasts_iff hexec rfl⟩

/-- `disconnect` comes while the connection is being made, and the operation
which waits for it attaches a bus as well. -/
def sampleShutdown : List Pm2Action :=
  [.call .initBus, .disconnect false, .connectCallback 0 none, .resume 0,
    .launchCallback 0 (.ok true)]

theorem reconnected_after_disconnect :
    ∃ last, pm2Machine.exec .initial sampleShutdown = some last ∧
      last.connected = true ∧ last.bus = some 0 := by
  obtain ⟨last, hexec, htest⟩ := Machine.exists_of_exec_map pm2Machine .initial
    sampleShutdown (fun last => last.connected && decide (last.bus = some 0))
    (by decide +kernel)
  simp only [Bool.and_eq_true, decide_eq_true_eq] at htest
  exact ⟨last, hexec, htest⟩

end Pm2Manager
