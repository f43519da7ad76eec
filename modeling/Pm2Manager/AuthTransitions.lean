import Pm2Manager.AuthSegments

/-!
# The transitions of the accounts machine

`AuthStep` lists the seven kinds of transition.  A request is first accepted,
which makes it a task with a copy of its session; it may be held there, and
then runs like any other suspended request.  `users_step` says how a
transition uses the `users` table: not at all, or by exactly one write with
one of the causes of `UsersCause`.
-/

namespace Pm2Manager

open Function
open ScriptText (truthy)

variable {platform : Platform} {state next : AuthState} {action : Action}

def AuthState.acceptedTask (state : AuthState) (request : Request) : HttpTask where
  request := request
  session := (state.openSession request.cookie).1
  stage := .arrived

@[simp] theorem AuthState.accept_tasks (request : Request) (now : String) :
    (state.accept request now).tasks =
      update state.tasks state.nextTask
        (some (.http (state.acceptedTask request))) := by
  simp [AuthState.accept, AuthState.acceptedTask]

theorem AuthState.runHttp_accept_tasks (request : Request) (supply : Supply) :
    ((state.accept request supply.now).runHttp platform state.nextTask
      (state.acceptedTask request) supply).tasks =
      update state.tasks state.nextTask
        (((state.acceptedTask request).segment platform
          (state.accept request supply.now) supply).outcome.next request) := by
  rw [AuthState.runHttp, AuthState.commit_tasks, AuthState.accept_tasks,
    update_idem]
  rfl

/-- The events of one stretch of a request, the end of its response
included. -/
def HttpTask.performed (platform : Platform) (state : AuthState)
    (task : HttpTask) (supply : Supply) : List Event :=
  let segment := task.segment platform state supply
  segment.events ++ segment.outcome.closing task.request.endpoint

theorem AuthState.runHttp_trace (id : TaskId) (task : HttpTask)
    (supply : Supply) :
    (state.runHttp platform id task supply).trace =
      state.trace ++ (task.performed platform state supply).map (Prod.mk id) := by
  rw [AuthState.runHttp, AuthState.commit_trace]
  rfl

@[simp] theorem AuthState.runHttp_tasks (id : TaskId) (task : HttpTask)
    (supply : Supply) :
    (state.runHttp platform id task supply).tasks =
      update state.tasks id
        ((task.segment platform state supply).outcome.next task.request) := by
  simp [AuthState.runHttp]

@[simp] theorem AuthState.startJob_tasks (now : String)
    (started : List Event × Option Task) :
    (state.startJob now started).tasks =
      update state.tasks state.nextTask started.2 := by
  simp [AuthState.startJob]

theorem AuthState.openSession_cases (state : AuthState)
    (cookie : Option SessionId) :
    (∃ sid data, (sid, data) ∈ state.sessions.rows ∧
      state.openSession cookie = (.loaded sid data, [])) ∨
    state.openSession cookie =
      (.generated state.nextSid, [.generateSession state.nextSid]) := by
  unfold AuthState.openSession
  split
  next session hsession =>
    obtain ⟨sid, _, hget⟩ := Option.bind_eq_some_iff.mp hsession
    obtain ⟨data, hdata, rfl⟩ := Option.map_eq_some_iff.mp hget
    exact .inl ⟨sid, data, SessionStore.mem_of_get hdata, rfl⟩
  · exact .inr rfl

/-- A session which has a CSRF secret is a stored one. -/
theorem AuthState.openSession_stored {cookie : Option SessionId} {secret : String}
    (hsecret : (state.openSession cookie).1.data.csrfSecret = some secret) :
    ∃ sid data, cookie = some sid ∧ state.sessions.get sid = some data ∧
      (state.openSession cookie).1 = .loaded sid data := by
  unfold AuthState.openSession at hsecret ⊢
  split at hsecret
  next session hfound =>
    obtain ⟨sid, rfl, hloaded⟩ := Option.bind_eq_some_iff.mp hfound
    obtain ⟨data, hget, rfl⟩ := Option.map_eq_some_iff.mp hloaded
    exact ⟨sid, data, rfl, hget, rfl⟩
  · simp [RequestSession.generated] at hsecret

inductive AuthStep (platform : Platform) (state : AuthState) :
    Action → AuthState → Prop
  | request (request : Request) (supply : Supply) :
      AuthStep platform state (.request request supply)
        ((state.accept request supply.now).runHttp platform state.nextTask
          (state.acceptedTask request) supply)
  | arrived (request : Request) (now : String) :
      AuthStep platform state (.arrive request now) (state.accept request now)
  | resumed (id : TaskId) (supply : Supply) (task : HttpTask)
      (htask : state.tasks id = some (.http task)) :
      AuthStep platform state (.resume id supply)
        (state.runHttp platform id task supply)
  | job (id : TaskId) (supply : Supply) (kind : JobKind)
      (input : CreateUserInput) (stage : JobStage)
      (htask : state.tasks id = some (.job kind input stage)) :
      AuthStep platform state (.resume id supply)
        (state.commit id supply.now
          (jobSegment platform state kind input stage supply).1
          (jobSegment platform state kind input stage supply).2)
  | createAdmin (args : List String) (supply : Supply)
      (input : CreateUserInput) (hargs : createAdminArgs args = some input) :
      AuthStep platform state (.createAdmin args supply)
        (state.startJob supply.now (createAdminStart state input))
  | bootstrap (supply : Supply) :
      AuthStep platform state (.bootstrap supply)
        (state.startJob supply.now (bootstrapStart platform state supply))
  | expire (sid : SessionId) :
      AuthStep platform state (.expire sid)
        { state with sessions := state.sessions.destroy sid }

theorem step_cases
    (hstep : (authMachine platform).step state action = some next) :
    AuthStep platform state action next := by
  cases action with
  | request request supply =>
      simp only [authMachine, AuthState.step, AuthState.resumeTask,
        AuthState.accept_tasks, update_self, Option.some.injEq] at hstep
      exact hstep ▸ .request request supply
  | arrive request now =>
      simp only [authMachine, AuthState.step, Option.some.injEq] at hstep
      exact hstep ▸ .arrived request now
  | createAdmin args supply =>
      obtain ⟨input, hargs, rfl⟩ := Option.map_eq_some_iff.mp hstep
      exact .createAdmin args supply input hargs
  | bootstrap supply =>
      simp only [authMachine, AuthState.step, Option.some.injEq] at hstep
      exact hstep ▸ .bootstrap supply
  | resume id supply =>
      simp only [authMachine, AuthState.step, AuthState.resumeTask] at hstep
      split at hstep
      · simp at hstep
      next task htask =>
        rw [Option.some.injEq] at hstep
        exact hstep ▸ .resumed id supply task htask
      next kind input stage htask =>
        rw [Option.some.injEq] at hstep
        exact hstep ▸ .job id supply kind input stage htask
  | expire sid =>
      simp only [authMachine, AuthState.step, Option.some.injEq] at hstep
      exact hstep ▸ .expire sid

/-- The invariant rule of the machine: requests are accepted, suspended
requests go on, jobs start and go on, sessions expire. -/
theorem authMachine_preserves {inv : AuthState → Prop}
    (haccept : ∀ state request now, inv state →
      inv (state.accept request now))
    (hhttp : ∀ state id task supply, inv state →
      state.tasks id = some (.http task) →
      inv (state.runHttp platform id task supply))
    (hjob : ∀ state id kind input stage supply, inv state →
      state.tasks id = some (.job kind input stage) →
      inv (state.commit id supply.now
        (jobSegment platform state kind input stage supply).1
        (jobSegment platform state kind input stage supply).2))
    (hcreateAdmin : ∀ state input now, inv state →
      inv (state.startJob now (createAdminStart state input)))
    (hbootstrap : ∀ state supply, inv state →
      inv (state.startJob supply.now (bootstrapStart platform state supply)))
    (hexpire : ∀ state sid, inv state →
      inv { state with sessions := state.sessions.destroy sid }) :
    (authMachine platform).Preserves Machine.anyAction inv := by
  intro state action next hinv _ hstep
  cases step_cases hstep with
  | request request supply =>
      exact hhttp _ _ _ _ (haccept _ _ _ hinv) (by simp)
  | arrived request now => exact haccept _ _ _ hinv
  | resumed id supply task htask => exact hhttp _ _ _ _ hinv htask
  | job id supply kind input stage htask => exact hjob _ _ _ _ _ _ hinv htask
  | createAdmin args supply input hargs => exact hcreateAdmin _ _ _ hinv
  | bootstrap supply => exact hbootstrap _ _ hinv
  | expire sid => exact hexpire _ _ hinv

/-- The action runs the first stretch of a request which is not held, or the
next one of a suspended request. -/
inductive AuthState.Runs (state : AuthState) :
    Action → TaskId → HttpTask → Supply → Prop
  | arriving (request : Request) (supply : Supply) :
      Runs state (.request request supply) state.nextTask
        (state.acceptedTask request) supply
  | resumed (id : TaskId) (supply : Supply) (task : HttpTask)
      (htask : state.tasks id = some (.http task)) :
      Runs state (.resume id supply) id task supply

def AuthState.TasksBounded (state : AuthState) : Prop :=
  ∀ id, state.nextTask ≤ id → state.tasks id = none

theorem AuthState.TasksBounded.commit {id : TaskId} {now : String}
    {events : List Event} {left : Option Task} (hstate : state.TasksBounded)
    (hid : id < state.nextTask) :
    (state.commit id now events left).TasksBounded := by
  intro other hother
  rw [AuthState.commit_nextTask] at hother
  rw [AuthState.commit_tasks, update_of_ne (hid.trans_le hother).ne']
  exact hstate other hother

theorem AuthState.TasksBounded.start {now : String} {events : List Event}
    {left : Option Task} (hstate : state.TasksBounded) :
    ({ state with nextTask := state.nextTask + 1 }.commit state.nextTask now
      events left).TasksBounded := by
  intro other hother
  have hlt : state.nextTask < other := by
    rw [AuthState.commit_nextTask] at hother
    exact hother
  rw [AuthState.commit_tasks, update_of_ne hlt.ne']
  exact hstate other hlt.le

theorem AuthState.TasksBounded.lt {id : TaskId} {task : Task}
    (hstate : state.TasksBounded) (htask : state.tasks id = some task) :
    id < state.nextTask := by
  by_contra hid
  simp [hstate id (not_lt.mp hid)] at htask

theorem tasksBounded_step :
    (authMachine platform).Preserves Machine.anyAction
      AuthState.TasksBounded := by
  refine authMachine_preserves ?_ ?_ ?_ ?_ ?_ ?_
  · exact fun state request now hstate => hstate.start
  · exact fun state id task supply hstate htask => hstate.commit (hstate.lt htask)
  · exact fun state id kind input stage supply hstate htask =>
      hstate.commit (hstate.lt htask)
  · exact fun state input now hstate => hstate.start
  · exact fun state supply hstate => hstate.start
  · exact fun state sid hstate => hstate

/-! ## The users table over a transition -/

/-- Why a transition writes the `users` table. -/
inductive UsersCause (platform : Platform) (state : AuthState) :
    Action → String → Event → Prop
  | changePassword (id : TaskId) (supply : Supply) (task : HttpTask)
      (user : UserRecord) (newPassword : String)
      (htask : state.tasks id = some (.http task))
      (hstage : task.stage = .hashNew user newPassword) :
      UsersCause platform state (.resume id supply) supply.now
        (.updatePassword user.id (platform.argon2Hash supply.random newPassword))
  | resetPassword (id : TaskId) (supply : Supply) (kind : JobKind)
      (input : CreateUserInput) (existing : UserRecord)
      (htask : state.tasks id = some (.job kind input (.hashReset existing))) :
      UsersCause platform state (.resume id supply) supply.now
        (.updatePassword existing.id
          (platform.argon2Hash supply.random input.password))
  | enableTotp (action : Action) (id : TaskId) (task : HttpTask)
      (supply : Supply) (raw token secret : String) (user : SessionUser)
      (hruns : state.Runs action id task supply)
      (hstage : task.stage = .arrived)
      (hadmitted : Admitted task.request task.session.data)
      (hendpoint : task.request.endpoint = .enableTwoFactor raw)
      (htoken : totpCode raw = .ok token)
      (huser : task.session.data.user = some user)
      (hsecret : truthy task.session.data.pendingTotpSecret = some secret)
      (hverify : platform.totpVerify token secret = true) :
      UsersCause platform state action supply.now
        (.setTotp user.id (some secret) true)
  | disableTotp (id : TaskId) (supply : Supply) (task : HttpTask)
      (user : UserRecord) (password : String)
      (htask : state.tasks id = some (.http task))
      (hstage : task.stage = .verifyDisable user password)
      (hverify : platform.verifyPassword user.passwordHash password = true) :
      UsersCause platform state (.resume id supply) supply.now
        (.setTotp user.id none false)
  | createUser (id : TaskId) (supply : Supply) (task : HttpTask)
      (input : CreateUserInput) (after : UsersTable)
      (htask : state.tasks id = some (.http task))
      (hstage : task.stage = .hashCreate input)
      (hcreate : state.users.create (newUserData platform input supply)
        supply.now = some after) :
      UsersCause platform state (.resume id supply) supply.now
        (.insertUser state.users.nextId (newUserData platform input supply))
  | createInJob (id : TaskId) (supply : Supply) (kind : JobKind)
      (input : CreateUserInput) (after : UsersTable)
      (htask : state.tasks id = some (.job kind input .hashCreate))
      (hcreate : state.users.create (newUserData platform input supply)
        supply.now = some after) :
      UsersCause platform state (.resume id supply) supply.now
        (.insertUser state.users.nextId (newUserData platform input supply))
  | deleteUser (action : Action) (acting : TaskId) (task : HttpTask)
      (supply : Supply) (raw : ℤ) (id : ℕ) (target : UserRecord)
      (hruns : state.Runs action acting task supply)
      (hstage : task.stage = .arrived)
      (hadmitted : Admitted task.request task.session.data)
      (hendpoint : task.request.endpoint = .removeUser raw)
      (hid : userIdParamSchema raw = .ok id)
      (hself : task.session.data.userId ≠ some id)
      (htarget : state.users.findById id = some target)
      (hlast : target.isAdmin = true →
        (state.users.listAll.filter UserRecord.isAdmin).length ≠ 1) :
      UsersCause platform state action supply.now (.deleteUser id)

/-- How a transition treats the table: it leaves it alone, or writes it once,
between events which do not. -/
inductive UsersStep (platform : Platform) (state : AuthState)
    (action : Action) (next : AuthState) : Prop
  | quiet (id : TaskId) (events : List Event)
      (hevents : ∀ event ∈ events, event.onUsers = false)
      (husers : next.users = state.users)
      (htrace : next.trace = state.trace ++ events.map (Prod.mk id))
  | written (id : TaskId) (now : String) (event : Event)
      (before after : List Event)
      (hcause : UsersCause platform state action now event)
      (hbefore : ∀ event ∈ before, event.onUsers = false)
      (hafter : ∀ event ∈ after, event.onUsers = false)
      (husers : next.users = (state.write now event).users)
      (htrace : next.trace =
        state.trace ++ (before ++ event :: after).map (Prod.mk id))

namespace AuthState

theorem closing_quiet {endpoint : Endpoint} {outcome : Outcome} :
    ∀ event ∈ outcome.closing endpoint, event.onUsers = false := by
  intro event hevent
  rcases Outcome.closing_cases hevent with ⟨_, _, _, _, rfl⟩ | ⟨_, rfl⟩
  · rfl
  · rfl

theorem write_users_congr {a b : AuthState} {now : String} {event : Event}
    (h : a.users = b.users) :
    (a.write now event).users = (b.write now event).users := by
  cases event <;> simp [write, h]

theorem performAll_users_written {task : TaskId} {now : String}
    {event : Event} {before after : List Event}
    (hbefore : ∀ event ∈ before, event.onUsers = false)
    (hafter : ∀ event ∈ after, event.onUsers = false) :
    (state.performAll task now (before ++ event :: after)).users =
      (state.write now event).users := by
  rw [performAll_append, performAll_cons, performAll_users hafter]
  exact write_users_congr (performAll_users hbefore)

theorem performAll_users_head {task : TaskId} {now : String} {event : Event}
    {after : List Event} (hafter : ∀ event ∈ after, event.onUsers = false) :
    (state.performAll task now (event :: after)).users =
      (state.write now event).users :=
  performAll_users_written (List.forall_mem_nil _) hafter

theorem accept_users (request : Request) (now : String) :
    (state.accept request now).users = state.users := by
  rw [accept, commit_users, performAll_users]
  rcases state.openSession_cases request.cookie with
    ⟨sid, data, _, hopen⟩ | hopen
  · simp [hopen]
  · simp [hopen, Event.onUsers]

theorem accept_sessions (request : Request) (now : String) :
    (state.accept request now).sessions = state.sessions := by
  rw [accept, commit_sessions]
  rcases state.openSession_cases request.cookie with ⟨sid, data, _, hopen⟩ | hopen
  · rw [hopen]
    rfl
  · rw [hopen]
    rfl

theorem accept_trace (request : Request) (now : String) :
    (state.accept request now).trace = state.trace ++
      (state.openSession request.cookie).2.map (Prod.mk state.nextTask) := by
  simp [accept]

theorem accept_rows {row : SessionId × SessionData} {request : Request}
    {now : String} (hrow : row ∈ (state.accept request now).sessions.rows) :
    row ∈ state.sessions.rows := by
  rw [accept, commit_sessions] at hrow
  refine (performAll_rows hrow).resolve_right fun hstored => ?_
  rcases state.openSession_cases request.cookie with
    ⟨sid, data, _, hopen⟩ | hopen <;> simp [hopen] at hstored

theorem runHttp_rows {row : SessionId × SessionData} {id : TaskId}
    {task : HttpTask} {supply : Supply}
    (hrow : row ∈ (state.runHttp platform id task supply).sessions.rows) :
    row ∈ state.sessions.rows ∨
      .storeSession row.1 row.2 ∈ task.performed platform state supply := by
  rw [runHttp, commit_sessions] at hrow
  exact performAll_rows hrow

theorem openSession_quiet (state : AuthState) (cookie : Option SessionId) :
    ∀ event ∈ (state.openSession cookie).2, event.onUsers = false := by
  rcases state.openSession_cases cookie with
    ⟨sid, data, _, hopen⟩ | hopen
  · simp [hopen]
  · simp [hopen, Event.onUsers]

end AuthState

theorem runHttp_usersStep {opened : AuthState} {opening : List Event}
    {id : TaskId} {task : HttpTask} {supply : Supply}
    (hopening : ∀ event ∈ opening, event.onUsers = false)
    (husers : opened.users = state.users)
    (htrace : opened.trace = state.trace ++ opening.map (Prod.mk id))
    (hcause : ∀ segment event, UsersUse platform opened task supply segment →
      event ∈ segment.events → event.onUsers = true →
      UsersCause platform state action supply.now event) :
    UsersStep platform state action
      (opened.runHttp platform id task supply) := by
  have huse : UsersUse platform opened task supply
    (task.segment platform opened supply) := segment_usersUse
  generalize hsegment : task.segment platform opened supply = segment at huse
  have hnextTrace : (opened.runHttp platform id task supply).trace =
      state.trace ++ (opening ++ (segment.events ++
        segment.outcome.closing task.request.endpoint)).map (Prod.mk id) := by
    simp only [AuthState.runHttp, AuthState.commit_trace, hsegment, htrace,
      List.append_assoc, List.map_append]
  have hnextUsers : (opened.runHttp platform id task supply).users =
      (opened.performAll id supply.now (segment.events ++
        segment.outcome.closing task.request.endpoint)).users := by
    simp only [AuthState.runHttp, AuthState.commit_users, hsegment]
  have hsingle : ∀ event before after,
      segment.events = before ++ event :: after → event.onUsers = true →
      (∀ event ∈ before, event.onUsers = false) →
      (∀ event ∈ after, event.onUsers = false) →
      UsersStep platform state action
        (opened.runHttp platform id task supply) := by
    intro event before after hevents hon hbefore hafter
    have hafter' : ∀ event ∈ after ++
        segment.outcome.closing task.request.endpoint,
        event.onUsers = false := by
      intro other hother
      rcases List.mem_append.mp hother with hother | hother
      · exact hafter other hother
      · exact AuthState.closing_quiet other hother
    refine .written id supply.now event (opening ++ before)
      (after ++ segment.outcome.closing task.request.endpoint)
      (hcause segment event huse (by simp [hevents]) hon) ?_ hafter' ?_ ?_
    · intro other hother
      rcases List.mem_append.mp hother with hother | hother
      · exact hopening other hother
      · exact hbefore other hother
    · rw [hnextUsers, hevents, List.append_assoc, List.cons_append,
        AuthState.performAll_users_written hbefore hafter']
      exact AuthState.write_users_congr husers
    · rw [hnextTrace, hevents]
      simp
  cases huse with
  | quiet hevents =>
      refine .quiet id (opening ++ (segment.events ++
        segment.outcome.closing task.request.endpoint)) ?_ ?_ hnextTrace
      · intro other hother
        rcases List.mem_append.mp hother with hother | hother
        · exact hopening other hother
        · rcases List.mem_append.mp hother with hother | hother
          · exact hevents other hother
          · exact AuthState.closing_quiet other hother
      · rw [hnextUsers, AuthState.performAll_users, husers]
        intro other hother
        rcases List.mem_append.mp hother with hother | hother
        · exact hevents other hother
        · exact AuthState.closing_quiet other hother
  | updatePassword user newPassword activity outcome hstage =>
      exact hsingle _ [] _ rfl rfl (by simp) (by simp [Event.onUsers])
  | enableTotp raw token secret user activity outcome =>
      exact hsingle _ [] _ rfl rfl (by simp) (by simp [Event.onUsers])
  | disableTotp user password activity outcome =>
      exact hsingle (.setTotp user.id none false) [_] _ rfl rfl
        (by simp [Event.onUsers]) (by simp [Event.onUsers])
  | insertUser input after activity outcome =>
      exact hsingle _ [] _ rfl rfl (by simp) (by simp [Event.onUsers])
  | deleteUser raw id target activity =>
      exact hsingle _ [] _ rfl rfl (by simp) (by simp [Event.onUsers])

/-! ## Account creation outside a request -/

theorem jobSegment_left {kind : JobKind} {input : CreateUserInput}
    {stage : JobStage} {supply : Supply} (task : HttpTask) :
    (jobSegment platform state kind input stage supply).2 ≠ some (.http task) := by
  unfold jobSegment
  cases stage with
  | checkUsername => simp only; split <;> simp
  | hashCreate => simp only; split <;> simp
  | hashReset existing => simp

theorem jobSegment_ofJob {kind : JobKind} {input : CreateUserInput}
    {stage : JobStage} {supply : Supply} :
    ∀ event ∈ (jobSegment platform state kind input stage supply).1,
      event.ofJob = true := by
  unfold jobSegment
  cases stage with
  | checkUsername => simp only; split <;> simp
  | hashCreate =>
      simp only
      split
      · simp
      · cases kind <;> simp [JobKind.returned, Event.ofJob]
  | hashReset existing => simp [Event.ofJob]

theorem createAdminStart_events {input : CreateUserInput} :
    (createAdminStart state input).1 = [] := by
  unfold createAdminStart
  split <;> rfl

theorem bootstrapStart_ofJob {supply : Supply} :
    ∀ event ∈ (bootstrapStart platform state supply).1,
      event.ofJob = true := by
  unfold bootstrapStart
  split <;> simp [Event.ofJob]

theorem createAdminStart_left {input : CreateUserInput} (task : HttpTask) :
    (createAdminStart state input).2 ≠ some (.http task) := by
  unfold createAdminStart
  split <;> simp

theorem bootstrapStart_left {supply : Supply} (task : HttpTask) :
    (bootstrapStart platform state supply).2 ≠ some (.http task) := by
  unfold bootstrapStart
  split <;> simp

/-! ## Every transition is one of these -/

theorem startJob_usersStep {now : String} {started : List Event × Option Task}
    (hevents : ∀ event ∈ started.1, event.onUsers = false) :
    UsersStep platform state action (state.startJob now started) := by
  refine .quiet state.nextTask started.1 hevents ?_ ?_
  · rw [AuthState.startJob, AuthState.commit_users,
      AuthState.performAll_users hevents]
  · rw [AuthState.startJob, AuthState.commit_trace]

theorem job_usersStep {id : TaskId} {supply : Supply} {kind : JobKind}
    {input : CreateUserInput} {stage : JobStage}
    (htask : state.tasks id = some (.job kind input stage)) :
    UsersStep platform state (.resume id supply)
      (state.commit id supply.now
        (jobSegment platform state kind input stage supply).1
        (jobSegment platform state kind input stage supply).2) := by
  unfold jobSegment
  cases stage with
  | checkUsername =>
      simp only
      split <;> exact .quiet id [] (by simp) rfl (by simp)
  | hashReset existing =>
      exact .written id supply.now _ [] []
        (.resetPassword id supply kind input existing htask) (by simp) (by simp)
        rfl (by simp)
  | hashCreate =>
      simp only
      split
      · exact .quiet id [] (by simp) rfl (by simp)
      next after hcreate =>
        have hquiet : ∀ event ∈ kind.returned, event.onUsers = false := by
          cases kind <;> simp [JobKind.returned, Event.onUsers]
        refine .written id supply.now _ [] _
          (.createInJob id supply kind input after htask hcreate) (by simp)
          hquiet ?_ (by simp)
        exact AuthState.performAll_users_head hquiet

theorem users_step
    (hstep : (authMachine platform).step state action = some next) :
    UsersStep platform state action next := by
  -- the causes, for a stretch which runs in a state with the same table
  have hcause : ∀ {opened : AuthState} {id : TaskId} {task : HttpTask}
      {supply : Supply}, opened.users = state.users →
      state.Runs action id task supply →
      (task.stage ≠ .arrived → action = .resume id supply ∧
        state.tasks id = some (.http task)) →
      ∀ segment event, UsersUse platform opened task supply segment →
        event ∈ segment.events → event.onUsers = true →
        UsersCause platform state action supply.now event := by
    intro opened id task supply husers hruns hresumed segment event huse hmem hon
    cases huse with
    | quiet hevents => simp [hevents event hmem] at hon
    | enableTotp raw token secret user activity outcome hstage hadmitted
        hendpoint htoken huser hsecret hverify =>
        simp only [List.mem_cons, List.not_mem_nil, or_false] at hmem
        rcases hmem with rfl | rfl
        · exact .enableTotp action id task supply raw token secret user hruns
            hstage hadmitted hendpoint htoken huser hsecret hverify
        · simp [Event.onUsers] at hon
    | deleteUser raw other target activity hstage hadmitted hendpoint hid
        hself htarget hlast =>
        simp only [List.mem_cons, List.not_mem_nil, or_false] at hmem
        rw [husers] at htarget hlast
        rcases hmem with rfl | rfl | rfl
        · exact .deleteUser action id task supply raw other target hruns hstage
            hadmitted hendpoint hid hself htarget hlast
        · simp [Event.onUsers] at hon
        · simp [Event.onUsers] at hon
    | updatePassword user newPassword activity outcome hstage =>
        simp only [List.mem_cons, List.not_mem_nil, or_false] at hmem
        rcases hmem with rfl | rfl
        · obtain ⟨rfl, htask⟩ := hresumed (by simp [hstage])
          exact .changePassword id supply task user newPassword htask hstage
        · simp [Event.onUsers] at hon
    | disableTotp user password activity outcome hstage hverify =>
        simp only [List.mem_cons, List.not_mem_nil, or_false] at hmem
        rcases hmem with rfl | rfl | rfl
        · simp [Event.onUsers] at hon
        · obtain ⟨rfl, htask⟩ := hresumed (by simp [hstage])
          exact .disableTotp id supply task user password htask hstage hverify
        · simp [Event.onUsers] at hon
    | insertUser input after activity outcome hstage hcreate =>
        simp only [List.mem_cons, List.not_mem_nil, or_false] at hmem
        rcases hmem with rfl | rfl
        · obtain ⟨rfl, htask⟩ := hresumed (by simp [hstage])
          rw [husers] at hcreate
          have hcreates : UsersCause platform state (.resume id supply) supply.now
              (.insertUser state.users.nextId
                (newUserData platform input supply)) :=
            .createUser id supply task input after htask hstage hcreate
          rw [husers]
          exact hcreates
        · simp [Event.onUsers] at hon
  cases step_cases hstep with
  | request request supply =>
      have husers : (state.accept request supply.now).users = state.users :=
        AuthState.accept_users request supply.now
      refine runHttp_usersStep (AuthState.openSession_quiet state request.cookie)
        husers (AuthState.accept_trace request supply.now)
        (hcause husers (.arriving request supply) ?_)
      exact fun hstage => absurd rfl hstage
  | arrived request now =>
      exact .quiet state.nextTask (state.openSession request.cookie).2
        (AuthState.openSession_quiet state request.cookie)
        (AuthState.accept_users request now) (AuthState.accept_trace request now)
  | resumed id supply task htask =>
      exact runHttp_usersStep (List.forall_mem_nil _) rfl (by simp)
        (hcause rfl (.resumed id supply task htask) fun _ => ⟨rfl, htask⟩)
  | job id supply kind input stage htask => exact job_usersStep htask
  | createAdmin args supply input hargs =>
      apply startJob_usersStep
      simp [createAdminStart_events]
  | bootstrap supply =>
      apply startJob_usersStep
      unfold bootstrapStart
      split <;> simp [Event.onUsers]
  | expire sid => exact .quiet 0 [] (by simp) rfl (by simp)

theorem UsersStep.seq_le (hstep : UsersStep platform state action next) :
    state.users.seq ≤ next.users.seq := by
  cases hstep with
  | quiet id events hevents husers htrace => rw [husers]
  | written id now event before after hcause hbefore hafter husers htrace =>
      rw [husers]
      cases hcause with
      | createUser id supply task input table htask hstage hcreate
      | createInJob id supply kind input table htask hcreate =>
          simp only [AuthState.write, hcreate, Option.getD_some]
          rw [(UsersTable.create_eq_some hcreate).2.2]
          exact Nat.le_succ _
      | _ => exact le_rfl

theorem UsersStep.row_id (hstep : UsersStep platform state action next)
    {row : UserRecord} (hrow : row ∈ next.users.rows) :
    (∃ old ∈ state.users.rows, old.id = row.id) ∨
      row.id = state.users.nextId := by
  cases hstep with
  | quiet id events hevents husers htrace => exact .inl ⟨row, husers ▸ hrow, rfl⟩
  | written id now event before after hcause hbefore hafter husers htrace =>
      rw [husers] at hrow
      cases hcause with
      | changePassword | resetPassword =>
          obtain ⟨old, hold, rfl⟩ := UsersTable.mem_rows_updatePassword.mp hrow
          exact .inl ⟨old, hold, by split <;> rfl⟩
      | enableTotp | disableTotp =>
          obtain ⟨old, hold, rfl⟩ := UsersTable.mem_rows_setTotp.mp hrow
          exact .inl ⟨old, hold, by split <;> rfl⟩
      | deleteUser =>
          exact .inl ⟨row, (UsersTable.mem_rows_delete.mp hrow).1, rfl⟩
      | createUser id supply task input table htask hstage hcreate
      | createInJob id supply kind input table htask hcreate =>
          simp only [AuthState.write, hcreate, Option.getD_some] at hrow
          rw [(UsersTable.create_eq_some hcreate).2.1] at hrow
          rcases List.mem_append.mp hrow with hold | hnew
          · exact .inl ⟨row, hold, rfl⟩
          · exact .inr (List.mem_singleton.mp hnew ▸ rfl)

/-! ## The requests and the stored sessions over a transition -/

/-- The state in which the stretch of a request runs: a request which is not
held has been accepted before. -/
def AuthState.opening (state : AuthState) : Action → AuthState
  | .request request supply => state.accept request supply.now
  | _ => state

@[simp] theorem AuthState.opening_users (state : AuthState) (action : Action) :
    (state.opening action).users = state.users := by
  cases action with
  | request request supply => exact AuthState.accept_users request supply.now
  | _ => rfl

theorem AuthState.opening_sessions (state : AuthState) (action : Action) :
    (state.opening action).sessions = state.sessions := by
  cases action with
  | request request supply => exact AuthState.accept_sessions request supply.now
  | _ => rfl

inductive TaskStep (platform : Platform) (state : AuthState) (action : Action)
    (id : TaskId) (task : HttpTask) : Prop
  | kept (htask : state.tasks id = some (.http task))
      (hother : ∀ supply, action ≠ .resume id supply)
  | held (request : Request) (now : String)
      (haction : action = .arrive request now)
      (htask : task = state.acceptedTask request)
  | ran (before : HttpTask) (supply : Supply)
      (hruns : state.Runs action id before supply)
      (hnext : (before.segment platform (state.opening action) supply).outcome.next
        before.request = some (.http task))

theorem task_step {id : TaskId} {task : HttpTask}
    (hstep : (authMachine platform).step state action = some next)
    (htask : next.tasks id = some (.http task)) :
    TaskStep platform state action id task := by
  cases step_cases hstep with
  | request request supply =>
      rw [AuthState.runHttp_accept_tasks] at htask
      by_cases heq : id = state.nextTask
      · subst heq
        rw [update_self] at htask
        exact .ran _ supply (.arriving request supply) htask
      · rw [update_of_ne heq] at htask
        exact .kept htask (by simp)
  | arrived request now =>
      rw [AuthState.accept_tasks] at htask
      by_cases heq : id = state.nextTask
      · subst heq
        rw [update_self, Option.some.injEq, Task.http.injEq] at htask
        exact .held request now rfl htask.symm
      · rw [update_of_ne heq] at htask
        exact .kept htask (by simp)
  | resumed acting supply before hbefore =>
      rw [AuthState.runHttp_tasks] at htask
      by_cases heq : id = acting
      · subst heq
        rw [update_self] at htask
        exact .ran before supply (.resumed id supply before hbefore) htask
      · rw [update_of_ne heq] at htask
        exact .kept htask (by simp [Ne.symm heq])
  | job acting supply kind input stage hjob =>
      rw [AuthState.commit_tasks] at htask
      by_cases heq : id = acting
      · subst heq
        rw [update_self] at htask
        exact absurd htask (jobSegment_left task)
      · rw [update_of_ne heq] at htask
        exact .kept htask (by simp [Ne.symm heq])
  | createAdmin args supply input hargs =>
      rw [AuthState.startJob_tasks] at htask
      by_cases heq : id = state.nextTask
      · subst heq
        rw [update_self] at htask
        exact absurd htask (createAdminStart_left task)
      · rw [update_of_ne heq] at htask
        exact .kept htask (by simp)
  | bootstrap supply =>
      rw [AuthState.startJob_tasks] at htask
      by_cases heq : id = state.nextTask
      · subst heq
        rw [update_self] at htask
        exact absurd htask (bootstrapStart_left task)
      · rw [update_of_ne heq] at htask
        exact .kept htask (by simp)
  | expire sid => exact .kept htask (by simp)

theorem rows_step {row : SessionId × SessionData}
    (hstep : (authMachine platform).step state action = some next)
    (hrow : row ∈ next.sessions.rows) :
    row ∈ state.sessions.rows ∨ ∃ id task supply,
      state.Runs action id task supply ∧
      .storeSession row.1 row.2 ∈
        task.performed platform (state.opening action) supply := by
  have hjob : ∀ {id : TaskId} {now : String} {events : List Event}
      {left : Option Task} {started : AuthState},
      (∀ event ∈ events, event.ofJob = true) →
      started.sessions = state.sessions →
      row ∈ (started.commit id now events left).sessions.rows →
      row ∈ state.sessions.rows := by
    intro id now events left started hevents hsame hmem
    rcases AuthState.performAll_rows hmem with hold | hstored
    · exact hsame ▸ hold
    · simpa [Event.ofJob] using hevents _ hstored
  cases step_cases hstep with
  | request request supply =>
      rcases AuthState.runHttp_rows hrow with hold | hstored
      · exact .inl (AuthState.accept_rows hold)
      · exact .inr ⟨_, _, supply, .arriving request supply, hstored⟩
  | arrived request now => exact .inl (AuthState.accept_rows hrow)
  | resumed id supply task htask =>
      rcases AuthState.runHttp_rows hrow with hold | hstored
      · exact .inl hold
      · exact .inr ⟨id, task, supply, .resumed id supply task htask, hstored⟩
  | job id supply kind input stage htask =>
      exact .inl (hjob jobSegment_ofJob rfl hrow)
  | createAdmin args supply input hargs =>
      rw [AuthState.startJob, createAdminStart_events] at hrow
      exact .inl hrow
  | bootstrap supply =>
      rw [AuthState.startJob] at hrow
      exact .inl (hjob bootstrapStart_ofJob (by rfl) hrow)
  | expire sid => exact .inl (SessionStore.mem_destroy.mp hrow).1

theorem AuthState.Runs.transition {id : TaskId} {task : HttpTask} {supply : Supply}
    (hruns : state.Runs action id task supply)
    (hstep : (authMachine platform).step state action = some next) :
    (state.opening action).tasks id = some (.http task) ∧
      next = (state.opening action).runHttp platform id task supply := by
  cases hruns with
  | arriving request supply =>
      cases step_cases hstep with
      | request request supply => exact ⟨by simp [AuthState.opening], rfl⟩
  | resumed id supply task htask =>
      cases step_cases hstep with
      | resumed id supply other hother =>
          rw [htask, Option.some.injEq, Task.http.injEq] at hother
          subst hother
          exact ⟨htask, rfl⟩
      | job id supply kind input stage hjob => simp [htask] at hjob

theorem trace_grows (hstep : (authMachine platform).step state action = some next) :
    ∃ more, next.trace = state.trace ++ more := by
  cases users_step hstep with
  | quiet id events hevents husers htrace => exact ⟨_, htrace⟩
  | written id now event before after hcause hbefore hafter husers htrace =>
      exact ⟨_, htrace⟩

/-- An event of the next trace is an old one, or one of the stretch of a
request, or it opens a session or belongs to account creation. -/
theorem trace_step {entry : TaskId × Event}
    (hstep : (authMachine platform).step state action = some next)
    (hmem : entry ∈ next.trace) :
    entry ∈ state.trace ∨
      (∃ task supply, state.Runs action entry.1 task supply ∧
        entry.2 ∈ task.performed platform (state.opening action) supply) ∨
      (∃ sid, entry.2 = .generateSession sid) ∨ entry.2.ofJob = true := by
  have hopened : ∀ {request : Request} {now : String},
      entry ∈ (state.accept request now).trace →
      entry ∈ state.trace ∨ ∃ sid, entry.2 = .generateSession sid := by
    intro request now hentry
    rw [AuthState.accept_trace] at hentry
    rcases List.mem_append.mp hentry with hold | hnew
    · exact .inl hold
    · obtain ⟨event, hevent, rfl⟩ := List.mem_map.mp hnew
      rcases state.openSession_cases request.cookie with
        ⟨sid, data, _, hopen⟩ | hopen
      · simp [hopen] at hevent
      · rw [hopen] at hevent
        exact .inr ⟨state.nextSid, List.mem_singleton.mp hevent⟩
  have hjob : ∀ {id : TaskId} {events : List Event},
      (∀ event ∈ events, event.ofJob = true) →
      entry ∈ state.trace ++ events.map (Prod.mk id) →
      entry ∈ state.trace ∨ entry.2.ofJob = true := by
    intro id events hevents hentry
    rcases List.mem_append.mp hentry with hold | hnew
    · exact .inl hold
    · obtain ⟨event, hevent, rfl⟩ := List.mem_map.mp hnew
      exact .inr (hevents event hevent)
  cases step_cases hstep with
  | request request supply =>
      rw [AuthState.runHttp_trace] at hmem
      rcases List.mem_append.mp hmem with hold | hnew
      · rcases hopened hold with hold | hgenerated
        · exact .inl hold
        · exact .inr (.inr (.inl hgenerated))
      · obtain ⟨event, hevent, rfl⟩ := List.mem_map.mp hnew
        exact .inr (.inl ⟨_, supply, .arriving request supply, hevent⟩)
  | arrived request now =>
      rcases hopened hmem with hold | hgenerated
      · exact .inl hold
      · exact .inr (.inr (.inl hgenerated))
  | resumed id supply task htask =>
      rw [AuthState.runHttp_trace] at hmem
      rcases List.mem_append.mp hmem with hold | hnew
      · exact .inl hold
      · obtain ⟨event, hevent, rfl⟩ := List.mem_map.mp hnew
        exact .inr (.inl ⟨task, supply, .resumed id supply task htask, hevent⟩)
  | job id supply kind input stage htask =>
      rw [AuthState.commit_trace] at hmem
      exact (hjob jobSegment_ofJob hmem).imp_right fun h => .inr (.inr h)
  | createAdmin args supply input hargs =>
      rw [AuthState.startJob, AuthState.commit_trace] at hmem
      exact (hjob (by simp [createAdminStart_events]) hmem).imp_right
        fun h => .inr (.inr h)
  | bootstrap supply =>
      rw [AuthState.startJob, AuthState.commit_trace] at hmem
      exact (hjob bootstrapStart_ofJob hmem).imp_right fun h => .inr (.inr h)
  | expire sid => exact .inl hmem

/-! ## A platform to run the machine on -/

/-- A hash is its password with a mark, a secret is its own code. -/
def samplePlatform : Platform where
  argon2Verify hashed plain := some (hashed == plain ++ "#")
  argon2Hash _ plain := plain ++ "#"
  totpVerify token secret := token == secret
  keyuri username issuer secret := issuer ++ ":" ++ username ++ "?" ++ secret
  toDataURL := some
  totpIssuer := "PM2 Manager"
  adminUsername := "admin"
  adminPassword := some "password"
  metrics := { metricsIntervalSeconds := 15, metricsRetentionDays := 7 }

def sampleSupply (random : String) : Supply where
  now := "2024-01-01 00:00:00"
  random := random

def sampleRequest (cookie : Option SessionId) (endpoint : Endpoint)
    (random : String := "csrf") : Action :=
  .request { cookie, csrfHeader := some "csrf", ip := "127.0.0.1", endpoint }
    (sampleSupply random)

def sampleArrive (cookie : Option SessionId) (endpoint : Endpoint) : Action :=
  .arrive { cookie, csrfHeader := some "csrf", ip := "127.0.0.1", endpoint }
    "2024-01-01 00:00:00"

def sampleResume (task : TaskId) : Action :=
  .resume task (sampleSupply "salt")

/-- No stretch runs while another task is suspended. -/
def actsAlone (state : AuthState) : Action → Bool
  | .request _ _ =>
      (List.range state.nextTask).all fun id => (state.tasks id).isNone
  | .resume id _ =>
      (List.range state.nextTask).all fun other =>
        other == id || (state.tasks other).isNone
  | _ => true

theorem resumes_alone {id other : TaskId} {supply : Supply} {task : Task}
    (hstate : state.TasksBounded)
    (halone : actsAlone state (.resume id supply) = true)
    (hother : state.tasks other = some task) : other = id := by
  simp only [actsAlone, List.all_eq_true, List.mem_range, Bool.or_eq_true,
    beq_iff_eq] at halone
  rcases halone other (hstate.lt hother) with heq | hnone
  · exact heq
  · simp [hother] at hnone

theorem AuthState.Runs.alone {id other : TaskId} {task : HttpTask}
    {supply : Supply} {suspended : Task} (hruns : state.Runs action id task supply)
    (hstate : state.TasksBounded) (halone : actsAlone state action = true)
    (hother : state.tasks other = some suspended) : other = id := by
  cases hruns with
  | arriving request supply =>
      simp only [actsAlone, List.all_eq_true, List.mem_range] at halone
      have hnone := halone other (hstate.lt hother)
      simp [hother] at hnone
  | resumed id supply task _ => exact resumes_alone hstate halone hother

/-- The application creates its administrator, as user `1`. -/
def sampleBootstrap : List Action :=
  [.bootstrap (sampleSupply "password"), sampleResume 0, sampleResume 0]

/-- A client without a session logs in: `task` is the number of its first
request, `sid` the id of the session which that request is given. -/
def sampleLogin (task : TaskId) (sid : SessionId) (username password : String) :
    List Action :=
  [sampleRequest none .csrfToken,
    sampleRequest (some sid) (.login username password),
    sampleResume (task + 1), sampleResume (task + 1), sampleResume (task + 1)]

end Pm2Manager
