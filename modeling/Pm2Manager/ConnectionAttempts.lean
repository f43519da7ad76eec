import Pm2Manager.Pm2Transitions

/-!
# Connection attempts

Every attempt of `connect` has its own `settled` flag and timer, and all of
them share `connected` and `connecting`.  The shared fields always speak of
the attempt started last: it is pending exactly while `connecting` is set, and
it has succeeded whenever the service is connected.
-/

namespace Pm2Manager

open Function

variable {state next : Pm2State} {action : Pm2Action} {word : List Pm2Action}

def Pm2State.Unsettled (state : Pm2State) (id : AttemptId) : Prop :=
  ∃ calledBack, state.attempts id = some { result := none, calledBack }

def Pm2State.WaitsOn (state : Pm2State) (call : CallId) (id : AttemptId) : Prop :=
  ∃ job, state.calls call = some { job, phase := .awaitingConnect id }

/-- The call waits for an attempt, and its promise is resolved. -/
def Pm2State.Resolved (state : Pm2State) (call : CallId) : Prop :=
  ∃ id, state.WaitsOn call id ∧ state.attemptResult id = some (.ok ())

theorem Pm2State.attemptResult_of_attempts {id : AttemptId}
    {attempt : ConnectAttempt} (hattempt : state.attempts id = some attempt) :
    state.attemptResult id = attempt.result := by
  simp [Pm2State.attemptResult, hattempt]

@[simp] theorem Pm2State.attemptResult_setAttempt (id other : AttemptId)
    (attempt : ConnectAttempt) :
    (state.setAttempt id attempt).attemptResult other =
      if other = id then attempt.result else state.attemptResult other := by
  unfold Pm2State.attemptResult Pm2State.setAttempt
  by_cases heq : other = id
  · simp [heq]
  · simp [heq]

theorem Pm2State.attemptResult_congr (hattempts : next.attempts = state.attempts)
    (id : AttemptId) : next.attemptResult id = state.attemptResult id := by
  simp [Pm2State.attemptResult, hattempts]

/-! ## The shared fields -/

structure Pm2State.ConnectInvariant (state : Pm2State) : Prop where
  attempts : state.AttemptInvariant
  latest : ∀ id, state.connecting = some id → state.nextAttempt = id + 1
  succeeded : state.connected = true →
    ∀ id, state.nextAttempt = id + 1 → state.attemptResult id = some (.ok ())

namespace Pm2State

theorem AttemptInvariant.connecting_iff_unsettled
    (hstate : state.AttemptInvariant) (id : AttemptId) :
    state.connecting = some id ↔ state.Unsettled id := by
  constructor
  · intro hconnecting
    exact ⟨false, (hstate.connecting_iff id).mp hconnecting⟩
  · rintro ⟨calledBack, hattempt⟩
    exact hstate.connecting_of_unsettled hattempt

theorem ConnectInvariant.not_connected_of_connecting
    (hstate : state.ConnectInvariant) {id : AttemptId}
    (hconnecting : state.connecting = some id) : state.connected = false := by
  have hattempt := (hstate.attempts.connecting_iff id).mp hconnecting
  have hlatest := hstate.latest id hconnecting
  by_contra hconnected
  have hresult := hstate.succeeded (by simpa using hconnected) id hlatest
  simp [attemptResult_of_attempts hattempt] at hresult

theorem ConnectInvariant.frame (hstate : state.ConnectInvariant)
    (hnext : next.AttemptInvariant) (hattempts : next.attempts = state.attempts)
    (hconnecting : next.connecting = state.connecting)
    (hcount : next.nextAttempt = state.nextAttempt)
    (hconnected : next.connected = true → state.connected = true) :
    next.ConnectInvariant := by
  refine ⟨hnext, ?_, ?_⟩
  · intro id hid
    rw [hcount]
    exact hstate.latest id (hconnecting ▸ hid)
  · intro hon id hid
    rw [attemptResult_congr hattempts]
    exact hstate.succeeded (hconnected hon) id (hcount ▸ hid)

theorem ConnectInvariant.settle (hstate : state.ConnectInvariant)
    {id : AttemptId} {calledBack : Bool}
    (hattempt : state.attempts id = some { result := none, calledBack })
    (result : Except AppError Unit) (after : Bool) :
    (state.settleAttempt id result after).ConnectInvariant := by
  have hconnecting := hstate.attempts.connecting_of_unsettled hattempt
  have hnot := hstate.not_connected_of_connecting hconnecting
  refine ⟨hstate.attempts.settleAttempt result after hattempt, ?_, ?_⟩
  · intro other hother
    simp [settleAttempt] at hother
  · intro hon
    have hsame : state.connected = true := hon
    simp [hnot] at hsame

theorem ConnectInvariant.connect (hstate : state.ConnectInvariant)
    {id : AttemptId} {calledBack : Bool}
    (hattempt : state.attempts id = some { result := none, calledBack }) :
    ({ state.settleAttempt id (.ok ()) true with
      connected := true } : Pm2State).ConnectInvariant := by
  have hconnecting := hstate.attempts.connecting_of_unsettled hattempt
  have hlatest := hstate.latest id hconnecting
  have hsettled := hstate.attempts.settleAttempt (.ok ()) true hattempt
  refine ⟨⟨hsettled.bounded, hsettled.connecting_iff, hsettled.unsettled⟩, ?_, ?_⟩
  · intro other hother
    simp [settleAttempt] at hother
  · intro _ other hother
    have hcount : state.nextAttempt = other + 1 := hother
    obtain rfl : other = id := Nat.succ.inj (hcount.symm.trans hlatest)
    change (state.setAttempt other _).attemptResult other = _
    simp

end Pm2State

theorem connectInvariant_initial : Pm2State.initial.ConnectInvariant := by
  refine ⟨attemptInvariant_initial, ?_, ?_⟩
  · intro id hid
    simp [Pm2State.initial] at hid
  · intro hon
    simp [Pm2State.initial] at hon

theorem connectInvariant_move (state next : Pm2State)
    (hstate : state.ConnectInvariant) (hmove : Pm2Move state next) :
    next.ConnectInvariant := by
  have hattempts := attemptInvariant_move state next hstate.attempts hmove
  cases hmove with
  | attempt hconnected _ =>
      refine ⟨hattempts, ?_, ?_⟩
      · intro id hid
        have heq : state.nextAttempt = id := Option.some.inj hid
        exact congrArg Nat.succ heq
      · intro hon
        have hsame : state.connected = true := hon
        simp [hconnected] at hsame
  | launch _ _ _ => exact hstate.frame hattempts rfl rfl rfl id
  | call _ _ => exact hstate.frame hattempts rfl rfl rfl id
  | fresh => exact hstate.frame hattempts rfl rfl rfl id

theorem connectInvariant_step :
    pm2Machine.Preserves Machine.anyAction Pm2State.ConnectInvariant := by
  intro state action next hstate _ hstep
  have hattempts :=
    attemptInvariant_step state action next hstate.attempts trivial hstep
  cases pm2Step_cases hstep with
  | called operation =>
      exact moves_preserve connectInvariant_move hstate
        (state.startCall_moves operation.job)
  | resumed id call _ hcall hresume =>
      exact moves_preserve connectInvariant_move hstate
        (Pm2State.resume_moves hresume)
  | disconnected throws =>
      rcases closeBus_cases state throws with
        ⟨hsame, _⟩ | ⟨id, bus, _, _, _, hclosed⟩
      · refine hstate.frame hattempts ?_ ?_ ?_ (by simp [Pm2State.disconnect])
        · simp [Pm2State.disconnect, hsame]
        · simp [Pm2State.disconnect, hsame]
        · simp [Pm2State.disconnect, hsame]
      · refine hstate.frame hattempts ?_ ?_ ?_ (by simp [Pm2State.disconnect])
        · simp [Pm2State.disconnect, hclosed, Pm2State.setBus]
        · simp [Pm2State.disconnect, hclosed, Pm2State.setBus]
        · simp [Pm2State.disconnect, hclosed, Pm2State.setBus]
  | timedOut id error calledBack hattempt =>
      exact hstate.settle hattempt (.error error) calledBack
  | refused id detail error hattempt =>
      exact hstate.settle hattempt (.error error) true
  | connected id hattempt => exact hstate.connect hattempt
  | calledBackLate id err result hattempt =>
      refine ⟨hattempts, hstate.latest, ?_⟩
      intro hon other hother
      rw [Pm2State.attemptResult_setAttempt]
      have hresult := hstate.succeeded hon other hother
      split
      next heq =>
        rw [heq, Pm2State.attemptResult_of_attempts hattempt] at hresult
        exact hresult
      · exact hresult
  | launchFailed id detail error hlaunch =>
      exact hstate.frame hattempts rfl rfl rfl (fun hon => hon)
  | launched id hasClose hlaunch =>
      exact hstate.frame hattempts rfl rfl rfl (fun hon => hon)
  | answered id reply job hcall =>
      exact hstate.frame hattempts rfl rfl rfl (fun hon => hon)
  | busErrored id bus hbus hopen =>
      exact hstate.frame hattempts rfl rfl rfl (fun hon => hon)
  | busClosed id bus hbus hopen =>
      exact hstate.frame hattempts rfl rfl rfl (fun hon => hon)
  | published packet now =>
      exact hstate.frame hattempts rfl rfl rfl (fun hon => hon)

/-! ## What follows for the callers -/

theorem connected_step (hstep : pm2Machine.step state action = some next)
    (hbefore : state.connected = false) (hafter : next.connected = true) :
    ∃ id, action = .connectCallback id none ∧
      state.attempts id = some { result := none, calledBack := false } ∧
      next = { state.settleAttempt id (.ok ()) true with connected := true } := by
  have hsame : next.connected = state.connected → False := by
    intro heq
    rw [heq, hbefore] at hafter
    simp at hafter
  cases pm2Step_cases hstep with
  | connected id hattempt => exact ⟨id, rfl, hattempt, rfl⟩
  | called operation =>
      exact (hsame (moves_same (state.startCall_moves operation.job)).connected).elim
  | resumed id call _ hcall hresume =>
      exact (hsame (moves_same (Pm2State.resume_moves hresume)).connected).elim
  | disconnected throws => simp [Pm2State.disconnect] at hafter
  | timedOut | calledBackLate | refused | launchFailed | launched | answered
  | busErrored | busClosed | published => exact (hsame rfl).elim

/-- Settling an attempt resolves the calls which wait for it, and no other. -/
theorem resolved_settleAttempt {id : AttemptId} {call : CallId}
    (hattempt : state.attempts id = some { result := none, calledBack := false }) :
    ¬ state.Resolved call ∧
        ({ state.settleAttempt id (.ok ()) true with
          connected := true } : Pm2State).Resolved call ↔
      state.WaitsOn call id := by
  have hbefore := Pm2State.attemptResult_of_attempts hattempt
  have hafter : ∀ other, Pm2State.attemptResult
      { state.settleAttempt id (.ok ()) true with connected := true } other =
        if other = id then some (.ok ()) else state.attemptResult other :=
    fun other => state.attemptResult_setAttempt id other _
  constructor
  · rintro ⟨hpending, other, hwaits, hresult⟩
    rw [hafter] at hresult
    by_cases heq : other = id
    · exact heq ▸ hwaits
    · rw [if_neg heq] at hresult
      exact absurd ⟨other, hwaits, hresult⟩ hpending
  · intro hwaits
    constructor
    · rintro ⟨other, ⟨job, hother⟩, hresult⟩
      obtain ⟨_, hcall⟩ := hwaits
      have heq : other = id := by
        rw [hcall, Option.some.injEq, Pm2Call.mk.injEq] at hother
        exact (CallPhase.awaitingConnect.inj hother.2).symm
      rw [heq, hbefore] at hresult
      simp at hresult
    · refine ⟨id, hwaits, ?_⟩
      rw [hafter, if_pos rfl]

/-- What the attempts of a state and its next step obey. -/
structure Pm2State.SingleFlight (state : Pm2State) : Prop where
  unique : ∀ a b, state.Unsettled a → state.Unsettled b → a = b
  connecting_iff : ∀ id, state.connecting = some id ↔ state.Unsettled id
  /-- The attempt started last has failed or timed out: the next `connect()`
  starts another one. -/
  retries : ∀ id error, state.nextAttempt = id + 1 →
    state.attemptResult id = some (.error error) →
    state.connect = (state.openAttempt, some (id + 1)) ∧
      state.openAttempt.Unsettled (id + 1)
  /-- A callback behind the end of its attempt leaves a mark of its own only. -/
  late : ∀ id err next, state.attemptResult id ≠ none →
    pm2Machine.step state (.connectCallback id err) = some next →
    next = { state with attempts := next.attempts } ∧
      (∀ other, next.attemptResult other = state.attemptResult other) ∧
      ∀ other, other ≠ id → next.attempts other = state.attempts other
  connects : ∀ action next, pm2Machine.step state action = some next →
    state.connected = false → next.connected = true →
    ∃ id, action = .connectCallback id none ∧ state.Unsettled id ∧
      ∀ call, ¬ state.Resolved call ∧ next.Resolved call ↔ state.WaitsOn call id

theorem connect_after_failure (hstate : state.ConnectInvariant) {id : AttemptId}
    {error : AppError} (hlatest : state.nextAttempt = id + 1)
    (hfailed : state.attemptResult id = some (.error error)) :
    state.connect = (state.openAttempt, some (id + 1)) ∧
      state.openAttempt.Unsettled (id + 1) := by
  have hconnected : state.connected = false := by
    by_contra hon
    have hresult := hstate.succeeded (by simpa using hon) id hlatest
    rw [hfailed] at hresult
    simp at hresult
  have hconnecting : state.connecting = none := by
    by_contra hsome
    obtain ⟨other, hother⟩ := Option.ne_none_iff_exists'.mp hsome
    have hcount := hstate.latest other hother
    have heq : other = id := Nat.succ.inj (hcount.symm.trans hlatest)
    have hattempt := (hstate.attempts.connecting_iff other).mp hother
    have hpending := Pm2State.attemptResult_of_attempts hattempt
    rw [heq, hfailed] at hpending
    simp at hpending
  constructor
  · simp [Pm2State.connect, hconnected, hconnecting, hlatest]
  · exact ⟨false, by simp [Pm2State.openAttempt, Pm2State.setAttempt, hlatest]⟩

theorem late_callback {id : AttemptId} {err : Option String}
    (hsettled : state.attemptResult id ≠ none)
    (hstep : pm2Machine.step state (.connectCallback id err) = some next) :
    next = { state with attempts := next.attempts } ∧
      (∀ other, next.attemptResult other = state.attemptResult other) ∧
      ∀ other, other ≠ id → next.attempts other = state.attempts other := by
  cases pm2Step_cases hstep with
  | calledBackLate id err result hattempt =>
      refine ⟨rfl, fun other => ?_, fun other hne => ?_⟩
      · rw [Pm2State.attemptResult_setAttempt]
        split
        next heq =>
          rw [heq, Pm2State.attemptResult_of_attempts hattempt]
        · rfl
      · simp [Pm2State.setAttempt, hne]
  | refused id detail error hattempt =>
      exact absurd (Pm2State.attemptResult_of_attempts hattempt) hsettled
  | connected id hattempt =>
      exact absurd (Pm2State.attemptResult_of_attempts hattempt) hsettled

/-- In every reachable state there is at most one pending attempt and
`connecting` is about it; a failed attempt is followed by a new one; a late
callback is ignored; the service becomes connected by the callback of the
pending attempt only, which resolves its own callers. -/
theorem connection_singleFlight
    (hexec : pm2Machine.exec .initial word = some state) :
    state.SingleFlight := by
  have hstate : state.ConnectInvariant :=
    connectInvariant_step.exec_any connectInvariant_initial hexec
  have hiff := hstate.attempts.connecting_iff_unsettled
  constructor
  · intro a b ha hb
    have hconnecting := (hiff a).mpr ha
    rw [(hiff b).mpr hb] at hconnecting
    exact (Option.some.inj hconnecting).symm
  · exact hiff
  · exact fun id error hlatest hfailed =>
      connect_after_failure hstate hlatest hfailed
  · exact fun id err next hsettled hstep => late_callback hsettled hstep
  · intro action next hstep hbefore hafter
    obtain ⟨id, haction, hattempt, rfl⟩ := connected_step hstep hbefore hafter
    exact ⟨id, haction, ⟨false, hattempt⟩,
      fun call => resolved_settleAttempt hattempt⟩

/-- The first attempt times out, its late callback reports success, and the
second attempt connects. -/
def sampleLateCallback : List Pm2Action :=
  [.call .connect, .connectTimeout 0, .call .list, .connectCallback 0 none,
    .connectCallback 1 none]

theorem connection_singleFlight_sampleLateCallback :
    ∃ last, pm2Machine.exec .initial sampleLateCallback = some last ∧
      last.SingleFlight := by
  obtain ⟨last, hexec, _⟩ := Machine.exists_of_exec_map pm2Machine .initial
    sampleLateCallback (fun last => last.connected) (by decide)
  exact ⟨last, hexec, connection_singleFlight hexec⟩

end Pm2Manager
