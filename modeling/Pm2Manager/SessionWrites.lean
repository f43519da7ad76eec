import Pm2Manager.SessionProvenance

/-!
# Which requests write their session back

Each request works on the copy of the session it has loaded.  `MaySave` lists
the requests which can still store that copy, changed or not, under the id it
came from.  A stretch stores nothing else, except that a login attaches its
user under an id which is new, and no stretch makes a request able to save
its copy which was not able to before.
-/

namespace Pm2Manager

open Function
open ScriptText (truthy)

variable {platform : Platform} {state next : AuthState} {action : Action}
variable {sid : SessionId} {data : SessionData}

/-- The request can still store its copy of the session. -/
inductive HttpTask.MaySave (platform : Platform) (task : HttpTask) : Prop
  | saves (howns : task.stage.ownsSession = true)
      (hsave : task.session.shouldSave = true)
  /-- A login which is about to store a challenge in its session. -/
  | challenges (row : UserRecord) (username password : String)
      (hstage : task.stage = .verifyLogin (some row) username password)
      (hverify : platform.verifyPassword row.passwordHash password = true)
      (htotp : row.totpEnabled = true)
  /-- A request which has not run yet and whose handler changes the session. -/
  | held (hstage : task.stage = .arrived) (hchanges : task.Changes platform)

def HttpTask.Regenerated (task : HttpTask) : Prop :=
  ∃ row step, task.stage = .regenerated row step

/-- The stretch of `task` stores `data` from the copy of its session. -/
structure HttpTask.Saves (platform : Platform) (task : HttpTask)
    (data : SessionData) : Prop where
  maySave : task.MaySave platform
  user : data.user = task.session.data.user
  csrfSecret : data.csrfSecret = task.session.data.csrfSecret ∨
    task.stage = .arrived ∧ task.request.endpoint = .csrfToken ∧
      truthy task.session.data.csrfSecret = none

theorem SecretChange.csrfSecret {task : HttpTask} {after : RequestSession}
    (hchange : SecretChange platform state task after) :
    after.data.csrfSecret = task.session.data.csrfSecret ∨
      task.request.endpoint = .csrfToken ∧
        truthy task.session.data.csrfSecret = none := by
  cases hchange with
  | csrf secret hendpoint hnone => exact .inr ⟨hendpoint, hnone⟩
  | setup => exact .inl rfl
  | enable => exact .inl rfl

theorem SessionMove.stores {task : HttpTask} {segment : Segment}
    {endpoint : Endpoint} (hmove : SessionMove platform state task segment)
    (hstored : .storeSession sid data ∈
      segment.events ++ segment.outcome.closing endpoint) :
    sid = task.session.sid ∧ (task.Regenerated ∨ task.Saves platform data) := by
  cases hmove with
  | kept after hevents houtcome hafter hstage =>
      rcases List.mem_append.mp hstored with hmem | hmem
      · simpa [Event.isPlain] using hevents _ hmem
      · obtain ⟨session, reply, heq, hsave, rfl, rfl⟩ :=
          Outcome.closing_stored hmem
        rw [heq] at houtcome
        obtain rfl := Option.some.inj houtcome
        rcases hafter with rfl | ⟨harrived, hchange⟩
        · exact ⟨rfl, .inr ⟨.saves hstage hsave, rfl, .inl rfl⟩⟩
        · have hsame := hchange.sameLogin
          exact ⟨hsame.sid, .inr ⟨.held harrived hchange.changes, hsame.user,
            hchange.csrfSecret.imp_right fun hcsrf => ⟨harrived, hcsrf⟩⟩⟩
  | challenged row username password hstage hverify htotp after hafter =>
      simp only [Outcome.closing, List.append_nil, List.mem_cons, reduceCtorEq,
        Event.storeSession.injEq, List.not_mem_nil, or_false, false_or] at hstored
      obtain ⟨rfl, rfl⟩ := hstored
      rw [hafter]
      exact ⟨rfl, .inr ⟨.challenges row username password hstage hverify htotp,
        rfl, .inl rfl⟩⟩
  | attached row step hstage =>
      simp only [attachUser, Outcome.closing, List.append_nil, List.mem_cons,
        reduceCtorEq, Event.storeSession.injEq, List.not_mem_nil,
        or_false] at hstored
      exact ⟨hstored.1, .inl ⟨row, step, hstage⟩⟩
  | leaving logged hlogged =>
      simp only [Outcome.closing, List.append_nil, List.mem_append,
        List.mem_singleton, reduceCtorEq, or_false] at hstored
      simpa [Event.isPlain] using hlogged _ hstored
  | reading | passed | accepted | closed =>
      simp [login, regenerateSession, loggedOut, Outcome.closing] at hstored

/-- The request goes on with its session: under a new id, with the user just
attached, or with the same copy. -/
inductive HttpTask.Continues (platform : Platform) (state : AuthState)
    (before after : HttpTask) : Prop
  | regenerated (hsid : after.session.sid = state.nextSid)
  | attached (hbefore : before.Regenerated)
      (hsid : after.session.sid = before.session.sid)
  | same (hsid : after.session.sid = before.session.sid)
      (huser : after.session.data.user = before.session.data.user)
      (hcsrf : after.session.data.csrfSecret = before.session.data.csrfSecret ∨
        before.stage = .arrived ∧ before.request.endpoint = .csrfToken ∧
          truthy before.session.data.csrfSecret = none)
      (hstage : ¬ after.Regenerated)
      (hsave : after.MaySave platform → before.MaySave platform)

theorem HttpTask.MaySave.of_plain {task : HttpTask}
    (hsaves : task.MaySave platform) (hruns : task.stage ≠ .arrived)
    (hverify : ∀ row username password,
      task.stage ≠ .verifyLogin (some row) username password) :
    task.stage.ownsSession = true ∧ task.session.shouldSave = true := by
  cases hsaves with
  | saves howns hsave => exact ⟨howns, hsave⟩
  | challenges row username password hstage =>
      exact absurd hstage (hverify row username password)
  | held hstage => exact absurd hstage hruns

theorem SessionMove.continues {before after : HttpTask} {segment : Segment}
    (hmove : SessionMove platform state before segment)
    (hnext : segment.outcome.next before.request = some (.http after)) :
    before.Continues platform state after := by
  cases hmove with
  | kept session hevents houtcome hafter hstage =>
      generalize segment.outcome = outcome at houtcome hnext
      cases outcome with
      | replies found reply => simp [Outcome.next] at hnext
      | awaits found stage =>
          simp only [Outcome.next, Option.some.injEq, Task.http.injEq] at hnext
          obtain ⟨rfl, hplain⟩ := houtcome
          subst hnext
          have hregenerated : ¬ HttpTask.Regenerated
              ⟨before.request, found, stage⟩ := by
            rintro ⟨row, step, hawaits⟩
            simp only at hawaits
            subst hawaits
            cases hplain
          have hplainSave : ∀ request : Request,
              HttpTask.MaySave platform ⟨request, found, stage⟩ →
              found.shouldSave = true := by
            intro request hsaves
            exact (hsaves.of_plain (by rintro rfl; cases hplain)
              (by rintro row username password rfl; cases hplain)).2
          rcases hafter with rfl | ⟨harrived, hchange⟩
          · exact .same rfl rfl (.inl rfl) hregenerated
              fun hsaves => .saves hstage (hplainSave _ hsaves)
          · have hsame := hchange.sameLogin
            refine .same hsame.sid hsame.user ?_ hregenerated
              fun _ => .held harrived hchange.changes
            exact hchange.csrfSecret.imp_right fun hcsrf => ⟨harrived, hcsrf⟩
  | reading username password hstage hlogin =>
      simp only [login, Outcome.next, Option.some.injEq, Task.http.injEq] at hnext
      subst hnext
      exact .same rfl rfl (.inl rfl) (by rintro ⟨row, step, hawaits⟩; cases hawaits)
        fun _ => .held hstage (.login hlogin)
  | challenged row username password hstage hverify htotp session hsession =>
      simp only [Outcome.next, Option.some.injEq, Task.http.injEq] at hnext
      subst hnext
      refine .same ?_ ?_ (.inl ?_) (by rintro ⟨row, step, hawaits⟩; cases hawaits)
        fun _ => .challenges row username password hstage hverify htotp
      · simp [hsession, RequestSession.setPending2fa]
      · simp [hsession, RequestSession.setPending2fa]
      · simp [hsession, RequestSession.setPending2fa]
  | attached row step hstage =>
      simp only [attachUser, Outcome.next, Option.some.injEq,
        Task.http.injEq] at hnext
      subst hnext
      exact .attached ⟨row, step, hstage⟩ (by simp [RequestSession.setUser])
  | leaving logged hlogged hstage hendpoint =>
      simp only [Outcome.next, Option.some.injEq, Task.http.injEq] at hnext
      subst hnext
      refine .same rfl rfl (.inl rfl)
        (by rintro ⟨row, step, hawaits⟩; cases hawaits) fun hsaves => ?_
      have howns := (hsaves.of_plain (by simp) (by simp)).1
      simp [Stage.ownsSession] at howns
  | closed hstage => simp [loggedOut, Outcome.next] at hnext
  | passed | accepted =>
      simp only [regenerateSession, Outcome.next, Option.some.injEq,
        Task.http.injEq] at hnext
      subst hnext
      exact .regenerated rfl

/-! ## The ids of sessions -/

theorem AuthState.accept_nextSid (request : Request) (now : String) :
    state.nextSid ≤ (state.accept request now).nextSid := by
  unfold AuthState.accept
  refine AuthState.le_performAll_nextSid le_rfl fun sid hsid => ?_
  rcases state.openSession_cases request.cookie with
    ⟨found, data, _, hopen⟩ | hopen
  · simp [hopen] at hsid
  · simp only [hopen, List.mem_singleton, Event.generateSession.injEq] at hsid
    exact hsid ▸ Nat.le_succ _

theorem AuthState.opening_nextSid (state : AuthState) (action : Action) :
    state.nextSid ≤ (state.opening action).nextSid := by
  cases action with
  | request request supply => exact AuthState.accept_nextSid request supply.now
  | _ => exact le_rfl

theorem SessionMove.generates {task : HttpTask} {segment : Segment}
    {endpoint : Endpoint} (hmove : SessionMove platform state task segment)
    (hmem : .generateSession sid ∈
      segment.events ++ segment.outcome.closing endpoint) :
    sid = state.nextSid := by
  have hevent : .generateSession sid ∈ segment.events := by
    rcases List.mem_append.mp hmem with hevent | hclosing
    · exact hevent
    · rcases Outcome.closing_cases hclosing with ⟨_, _, _, _, h⟩ | ⟨_, h⟩ <;>
        cases h
  cases hmove with
  | kept after hevents => simpa [Event.isPlain] using hevents _ hevent
  | leaving logged hlogged =>
      rcases List.mem_append.mp hevent with hlog | hdestroy
      · simpa [Event.isPlain] using hlogged _ hlog
      · simp at hdestroy
  | passed | accepted => simpa [regenerateSession] using hevent
  | reading | challenged | attached | closed =>
      simp [login, attachUser, loggedOut] at hevent

theorem nextSid_step
    (hstep : (authMachine platform).step state action = some next) :
    state.nextSid ≤ next.nextSid := by
  have hruns : ∀ {opened : AuthState} {id : TaskId} {task : HttpTask}
      {supply : Supply}, state.nextSid ≤ opened.nextSid →
      state.nextSid ≤ (opened.runHttp platform id task supply).nextSid := by
    intro opened id task supply hopened
    refine AuthState.le_performAll_nextSid hopened fun sid hsid => ?_
    have heq : sid = opened.nextSid := segment_sessionMove.generates hsid
    exact hopened.trans (heq ▸ Nat.le_succ _)
  have hjob : ∀ {started : AuthState} {id : TaskId} {now : String}
      {events : List Event} {left : Option Task},
      (∀ event ∈ events, event.ofJob = true) →
      state.nextSid ≤ started.nextSid →
      state.nextSid ≤ (started.commit id now events left).nextSid := by
    intro started id now events left hevents hstarted
    refine AuthState.le_performAll_nextSid hstarted fun sid hsid => ?_
    simpa [Event.ofJob] using hevents _ hsid
  cases step_cases hstep with
  | request request supply =>
      exact hruns (AuthState.accept_nextSid request supply.now)
  | arrived request now => exact AuthState.accept_nextSid request now
  | resumed id supply task htask => exact hruns le_rfl
  | job id supply kind input stage htask => exact hjob jobSegment_ofJob le_rfl
  | createAdmin args supply input hargs =>
      unfold AuthState.startJob
      exact hjob (by simp [createAdminStart_events]) le_rfl
  | bootstrap supply =>
      unfold AuthState.startJob
      exact hjob bootstrapStart_ofJob le_rfl
  | expire sid => exact le_rfl

theorem AuthState.acceptedTask_cases (state : AuthState) (request : Request) :
    (∃ row ∈ state.sessions.rows, (state.acceptedTask request).session =
        .loaded row.1 row.2) ∨
      (state.acceptedTask request).session = .generated state.nextSid := by
  rcases state.openSession_cases request.cookie with
    ⟨sid, data, hrow, hopen⟩ | hopen
  · exact .inl ⟨(sid, data), hrow, by simp [AuthState.acceptedTask, hopen]⟩
  · exact .inr (by simp [AuthState.acceptedTask, hopen])

theorem Provenance.opening (hstate : Provenance platform state)
    (action : Action) : Provenance platform (state.opening action) := by
  cases action with
  | request request supply => exact hstate.accept request supply.now
  | _ => exact hstate

/-- Nobody else works on the session which a login has just been given. -/
theorem Provenance.not_regenerated {id other : TaskId} {task suspended : HttpTask}
    (hstate : Provenance platform state) (hne : id ≠ other)
    (htask : state.tasks id = some (.http task))
    (hother : state.tasks other = some (.http suspended))
    (hsid : task.session.sid = suspended.session.sid) :
    ¬ suspended.Regenerated := by
  rintro ⟨row, step, hstage⟩
  obtain ⟨data, hstored⟩ := hstate.shared id other task suspended hne htask
    hother hsid
  exact ((hstate.held other suspended hother).passed row step hstage).2 data
    (hsid ▸ hstored)

end Pm2Manager
