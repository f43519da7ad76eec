import Pm2Manager.SessionWrites

/-!
# The end of a session id

`logout` destroys the session of its request, and a login or a 2FA completion
destroys it before it goes on under a new id.  The deletion reaches the stored
row only: a request of the same session which is suspended at that moment may
still save its copy.  When no such request can save a user back, the old id
never carries one again.
-/

namespace Pm2Manager

open Function

variable {platform : Platform} {state next : AuthState} {action : Action}
variable {users : UsersTable} {word : List Action} {sid : SessionId}

/-- A step which destroys a session finds no other request on that session
which can save a user back. -/
def EndsUnobserved (platform : Platform) (state : AuthState)
    (action : Action) : Prop :=
  ∀ id task supply sid, state.Runs action id task supply →
    .destroySession sid ∈ task.performed platform (state.opening action) supply →
    ∀ other suspended, other ≠ id →
      state.tasks other = some (.http suspended) →
      suspended.session.sid = sid → suspended.session.data.user ≠ none →
      ¬ suspended.MaySave platform

/-- A request has destroyed the session: a logout, or a login which went on
under a new id. -/
def AuthState.Destroyed (state : AuthState) (sid : SessionId) : Prop :=
  ∃ task, (task, Event.destroySession sid) ∈ state.trace

/-- The stretch destroys the session `sid`, stores nothing there afterwards,
and leaves a request which cannot. -/
structure Segment.Destroys (state : AuthState) (task : HttpTask)
    (sid : SessionId) (segment : Segment) : Prop where
  own : sid = task.session.sid
  closing : ∀ endpoint, segment.outcome.closing endpoint = []
  events : ∃ before after, segment.events =
      before ++ .destroySession sid :: after ∧
    ∀ data, .storeSession sid data ∉ after
  left : ∀ resumed, segment.outcome.next task.request = some (.http resumed) →
    resumed.session.sid = state.nextSid ∨ resumed.stage = .destroyed

theorem SessionMove.destroys {task : HttpTask} {segment : Segment}
    (hmove : SessionMove platform state task segment)
    (hmem : .destroySession sid ∈
      segment.events ++ segment.outcome.closing task.request.endpoint) :
    segment.Destroys state task sid := by
  have hevent : .destroySession sid ∈ segment.events := by
    rcases List.mem_append.mp hmem with hevent | hclosing
    · exact hevent
    · rcases Outcome.closing_cases hclosing with ⟨_, _, _, _, h⟩ | ⟨_, h⟩ <;>
        cases h
  have hregenerated : ∀ (event : Event) (row : UserRecord) (step : LoginStep),
      event ≠ .destroySession sid →
      .destroySession sid ∈
        (regenerateSession state task.session row step [event]).events →
      (regenerateSession state task.session row step [event]).Destroys state
        task sid := by
    intro event row step hne hdestroyed
    have hsid : sid = task.session.sid := by
      simpa [regenerateSession, Ne.symm hne] using hdestroyed
    subst hsid
    refine ⟨rfl, fun endpoint => rfl, ⟨[event], [.generateSession state.nextSid],
      rfl, by simp⟩, ?_⟩
    intro resumed hresumed
    simp only [regenerateSession, Outcome.next, Option.some.injEq,
      Task.http.injEq] at hresumed
    exact .inl (hresumed ▸ rfl)
  cases hmove with
  | kept after hevents => simpa [Event.isPlain] using hevents _ hevent
  | leaving logged hlogged hstage hendpoint =>
      have hsid : sid = task.session.sid := by
        rcases List.mem_append.mp hevent with hlog | hdestroy
        · simpa [Event.isPlain] using hlogged _ hlog
        · simpa using hdestroy
      subst hsid
      refine ⟨rfl, fun endpoint => rfl, ⟨logged, [], rfl, by simp⟩, ?_⟩
      intro resumed hresumed
      simp only [Outcome.next, Option.some.injEq, Task.http.injEq] at hresumed
      exact .inr (hresumed ▸ rfl)
  | passed row username password => exact hregenerated _ row _ (by simp) hevent
  | accepted pending row secret token => exact hregenerated _ row _ (by simp) hevent
  | reading | challenged | attached | closed =>
      simp [login, attachUser, loggedOut] at hevent

namespace AuthState

theorem performAll_destroyed {id : TaskId} {now : String}
    {before after : List Event} (hafter : ∀ data, .storeSession sid data ∉ after) :
    ∀ row ∈ (state.performAll id now
        (before ++ .destroySession sid :: after)).sessions.rows, row.1 ≠ sid := by
  intro row hrow hsid
  rw [performAll_append, performAll_cons] at hrow
  rcases performAll_rows hrow with hold | hstored
  · have hdestroyed : row ∈
        ((state.performAll id now before).sessions.destroy sid).rows := hold
    exact (SessionStore.mem_destroy.mp hdestroyed).2 hsid
  · exact hafter row.2 (hsid ▸ hstored)

end AuthState

/-! ## An id which has ended -/

/-- No stored session and no request can bring a user back under the id. -/
structure AuthState.Ended (platform : Platform) (sid : SessionId)
    (state : AuthState) : Prop where
  bound : sid < state.nextSid
  rows : ∀ row ∈ state.sessions.rows, row.1 = sid → row.2.user = none
  tasks : ∀ id task, state.tasks id = some (.http task) →
    task.session.sid = sid →
    ¬ task.Regenerated ∧
      (task.session.data.user = none ∨ ¬ task.MaySave platform)

theorem AuthState.Ended.acceptedTask (hended : state.Ended platform sid)
    {request : Request} (hsid : (state.acceptedTask request).session.sid = sid) :
    ¬ (state.acceptedTask request).Regenerated ∧
      ((state.acceptedTask request).session.data.user = none ∨
        ¬ (state.acceptedTask request).MaySave platform) := by
  constructor
  · rintro ⟨row, step, hstage⟩
    simp [AuthState.acceptedTask] at hstage
  · left
    rcases state.acceptedTask_cases request with ⟨row, hrow, hloaded⟩ | hgenerated
    · rw [hloaded] at hsid ⊢
      exact hended.rows row hrow hsid
    · rw [hgenerated]
      rfl

theorem AuthState.Ended.runs {id : TaskId} {task : HttpTask} {supply : Supply}
    (hended : state.Ended platform sid)
    (hruns : state.Runs action id task supply) (hsid : task.session.sid = sid) :
    ¬ task.Regenerated ∧
      (task.session.data.user = none ∨ ¬ task.MaySave platform) := by
  cases hruns with
  | arriving request supply => exact hended.acceptedTask hsid
  | resumed id supply task htask => exact hended.tasks id task htask hsid

theorem ended_step (hended : state.Ended platform sid)
    (hstep : (authMachine platform).step state action = some next) :
    next.Ended platform sid := by
  refine ⟨hended.bound.trans_le (nextSid_step hstep), ?_, ?_⟩
  · intro row hrow hsid
    rcases rows_step hstep hrow with hold | ⟨id, task, supply, hruns, hstored⟩
    · exact hended.rows row hold hsid
    · obtain ⟨hown, hcases⟩ := segment_sessionMove.stores hstored
      obtain ⟨hnot, hcopy⟩ := hended.runs hruns (hown.symm.trans hsid)
      rcases hcases with hregenerated | hsaves
      · exact absurd hregenerated hnot
      · rcases hcopy with hnone | hunable
        · exact hsaves.user.trans hnone
        · exact absurd hsaves.maySave hunable
  · intro id task htask hsid
    cases task_step hstep htask with
    | kept hkept hother => exact hended.tasks id task hkept hsid
    | held request now haction hheld =>
        rw [hheld] at hsid ⊢
        exact hended.acceptedTask hsid
    | ran before supply hruns hnext =>
        cases segment_sessionMove.continues hnext with
        | regenerated hnew =>
            have hle := state.opening_nextSid action
            have hlt := hended.bound.trans_le hle
            rw [← hnew, hsid] at hlt
            exact absurd hlt (lt_irrefl _)
        | attached hbefore hsame =>
            exact absurd hbefore (hended.runs hruns (hsame.symm.trans hsid)).1
        | same hsame huser hcsrf hstage hsave =>
            obtain ⟨_, hcopy⟩ := hended.runs hruns (hsame.symm.trans hsid)
            refine ⟨hstage, hcopy.imp (fun hnone => huser.trans hnone) ?_⟩
            exact fun hunable hsaves => hunable (hsave hsaves)

/-! ## The end itself -/

theorem ended_of_destroyed (hstate : Provenance platform state)
    (hguard : EndsUnobserved platform state action)
    (hstep : (authMachine platform).step state action = some next)
    {id : TaskId} {task : HttpTask} {supply : Supply}
    (hruns : state.Runs action id task supply)
    (hmem : .destroySession sid ∈
      task.performed platform (state.opening action) supply) :
    next.Ended platform sid := by
  obtain ⟨htask, hnext⟩ := hruns.transition hstep
  have hopened := hstate.opening action
  have hdestroys : (task.segment platform (state.opening action) supply).Destroys
      (state.opening action) task sid := segment_sessionMove.destroys hmem
  obtain ⟨before, after, hevents, hafter⟩ := hdestroys.events
  have hbound : sid < (state.opening action).nextSid :=
    hdestroys.own ▸ hopened.taskBound id task htask
  refine ⟨?_, ?_, ?_⟩
  · have hmono : (state.opening action).nextSid ≤ next.nextSid := by
      rw [hnext]
      refine AuthState.le_performAll_nextSid le_rfl fun other hother => ?_
      have heq : other = (state.opening action).nextSid :=
        segment_sessionMove.generates hother
      exact heq ▸ Nat.le_succ _
    exact hbound.trans_le hmono
  · intro row hrow hsid
    rw [hnext, AuthState.runHttp, AuthState.commit_sessions, hdestroys.closing,
      List.append_nil, hevents] at hrow
    exact absurd hsid (AuthState.performAll_destroyed hafter row hrow)
  · intro other suspended hother hsid
    rw [hnext, AuthState.runHttp_tasks] at hother
    by_cases heq : other = id
    · rw [heq, update_self] at hother
      rcases hdestroys.left suspended hother with hnew | hstage
      · rw [hsid] at hnew
        exact absurd (hnew ▸ hbound) (lt_irrefl _)
      · constructor
        · rintro ⟨row, step, hregenerated⟩
          simp [hstage] at hregenerated
        · refine .inr fun hsaves => ?_
          have howns := (hsaves.of_plain (by simp [hstage]) (by simp [hstage])).1
          simp [hstage, Stage.ownsSession] at howns
    · rw [update_of_ne heq] at hother
      constructor
      · exact hopened.not_regenerated (Ne.symm heq) htask hother
          (hdestroys.own.symm.trans hsid.symm)
      · by_cases huser : suspended.session.data.user = none
        · exact .inl huser
        · have hbefore : state.tasks other = some (.http suspended) := by
            cases hruns with
            | arriving request supply =>
                simpa [AuthState.opening, update_of_ne heq] using hother
            | resumed id supply task _ => exact hother
          exact .inr (hguard id task supply sid hruns hmem other suspended heq
            hbefore hsid huser)

structure EndsInvariant (platform : Platform) (state : AuthState) : Prop where
  provenance : Provenance platform state
  ended : ∀ sid, state.Destroyed sid → state.Ended platform sid

theorem endsInvariant_step :
    (authMachine platform).Preserves (EndsUnobserved platform)
      (EndsInvariant platform) := by
  intro state action next hstate hguard hstep
  constructor
  · exact provenance_step state action next hstate.provenance trivial hstep
  · rintro sid ⟨id, hmem⟩
    rcases trace_step hstep hmem with
      hold | ⟨task, supply, hruns, hevent⟩ | ⟨_, hgenerated⟩ | hjob
    · exact ended_step (hstate.ended sid ⟨id, hold⟩) hstep
    · exact ended_of_destroyed hstate.provenance hguard hstep hruns hevent
    · simp at hgenerated
    · simp [Event.ofJob] at hjob

/-- In the runs in which no session is destroyed while another request on it
can save a user back, no stored session under a destroyed id ever carries a
user again. -/
theorem destroyed_carries_no_user
    (hguard : (authMachine platform).Admits (EndsUnobserved platform)
      (.initial users) word) :
    (authMachine platform).Along (fun state => ∀ sid, state.Destroyed sid →
        ∀ row ∈ state.sessions.rows, row.1 = sid → row.2.user = none)
      (.initial users) word := by
  have hstart : EndsInvariant platform (.initial users) := by
    refine ⟨provenance_initial users, ?_⟩
    rintro sid ⟨id, hmem⟩
    simp [AuthState.initial] at hmem
  intro before after mid hsplit hexec sid hdestroyed
  have hmid : EndsInvariant platform mid :=
    endsInvariant_step.along hstart hguard before after mid hsplit hexec
  exact (hmid.ended sid hdestroyed).rows

/-- The administrator logs in and out, one request after the other. -/
def sampleLogout : List Action :=
  sampleBootstrap ++ sampleLogin 1 0 "admin" "password" ++
    [sampleRequest (some 1) .csrfToken, sampleRequest (some 1) .logout,
      sampleResume 4]

theorem endsUnobserved_of_alone (hstate : state.TasksBounded)
    (halone : actsAlone state action = true) :
    EndsUnobserved platform state action := by
  intro id task supply sid hruns _ other suspended hne hother
  exact absurd (hruns.alone hstate halone hother) hne

theorem destroyed_carries_no_user_sampleLogout :
    (authMachine samplePlatform).Along (fun state =>
        ∀ sid, state.Destroyed sid →
          ∀ row ∈ state.sessions.rows, row.1 = sid → row.2.user = none)
      (.initial .empty) sampleLogout :=
  destroyed_carries_no_user (Machine.admits_of_checks tasksBounded_step
    (fun _ _ hstate halone => endsUnobserved_of_alone hstate halone)
    (fun _ _ => rfl) (by decide +kernel))

/-- The administrator logs out while the QR image of a 2FA setup of the same
session is being rendered. -/
def sampleLogoutInSetup : List Action :=
  sampleBootstrap ++ sampleLogin 1 0 "admin" "password" ++
    [sampleRequest (some 1) .csrfToken,
      sampleRequest (some 1) .setupTwoFactor "111111",
      sampleRequest (some 1) .logout, sampleResume 5, sampleResume 4]

/-- The setup stores the session again, with its user, after the logout has
answered. -/
theorem session_back_after_logout :
    ∃ last, (authMachine samplePlatform).exec (.initial .empty)
        sampleLogoutInSetup = some last ∧
      last.Destroyed 1 ∧
      List.Sublist
        [(5, .answer .logout (.success 200 .empty)),
          (4, .answer .setupTwoFactor (.success 200 (.totpSetup "111111"
            "PM2 Manager:admin?111111" "PM2 Manager:admin?111111")))]
        last.trace ∧
      ∃ row ∈ last.sessions.rows, row.1 = 1 ∧ row.2.userId = some 1 := by
  obtain ⟨last, hexec, htest⟩ := Machine.exists_of_exec_map
    (authMachine samplePlatform) (.initial .empty) sampleLogoutInSetup
    (fun last =>
      decide ((5, .destroySession 1) ∈ last.trace) &&
      List.isSublist
        [(5, .answer .logout (.success 200 .empty)),
          (4, .answer .setupTwoFactor (.success 200 (.totpSetup "111111"
            "PM2 Manager:admin?111111" "PM2 Manager:admin?111111")))]
        last.trace &&
      last.sessions.rows.any fun row => row.1 == 1 && row.2.userId == some 1)
    (by decide +kernel)
  simp only [Bool.and_eq_true, decide_eq_true_eq, List.any_eq_true,
    beq_iff_eq] at htest
  obtain ⟨⟨hdestroyed, hanswers⟩, hrow⟩ := htest
  exact ⟨last, hexec, ⟨5, hdestroyed⟩, List.isSublist_iff_sublist.mp hanswers,
    hrow⟩

end Pm2Manager
