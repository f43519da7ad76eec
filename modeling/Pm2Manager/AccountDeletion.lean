import Pm2Manager.SessionProvenance

/-!
# Sessions of a deleted account

`remove` deletes the row and the stored sessions of the user in one stretch.
It does not reach the requests which are suspended at that moment: a login
which has read the row still ends in a session, and a request which works on
a copy of a purged session, and changes it, writes it back.  `Revives` lists these
requests; when none of them is suspended at the deletion, the user stays out.
-/

namespace Pm2Manager

open Function

variable {platform : Platform} {state next last : AuthState}
variable {action : Action} {users : UsersTable} {word : List Action} {d : ℕ}

/-- The suspended request can store a session of user `d`. -/
inductive HttpTask.Revives (platform : Platform) (d : ℕ) (task : HttpTask) : Prop
  | saves (howns : task.stage.ownsSession = true)
      (huser : task.session.data.userId = some d)
      (hsave : task.session.shouldSave = true)
  /-- A login from a session of `d` is about to store a challenge in it. -/
  | challenges (row : UserRecord) (username password : String)
      (hstage : task.stage = .verifyLogin (some row) username password)
      (hverify : platform.verifyPassword row.passwordHash password = true)
      (htotp : row.totpEnabled = true)
      (huser : task.session.data.userId = some d)
  | passes (row : UserRecord) (username password : String)
      (hstage : task.stage = .verifyLogin (some row) username password)
      (hverify : platform.verifyPassword row.passwordHash password = true)
      (htotp : row.totpEnabled = false) (hid : row.id = d)
  | attaches (row : UserRecord) (step : LoginStep)
      (hstage : task.stage = .regenerated row step) (hid : row.id = d)
  /-- A held request of `d` whose handler changes the session without looking
  up the row of `d`. -/
  | held (hstage : task.stage = .arrived)
      (huser : task.session.data.userId = some d)
      (hchanges : task.Changes platform)
      (hlookup : task.request.endpoint ≠ .setupTwoFactor)

/-- An action which deletes a user finds no request which can revive it. -/
def DeletesUnobserved (platform : Platform) (state : AuthState)
    (action : Action) : Prop :=
  ∀ now d, UsersCause platform state action now (.deleteUser d) →
    ∀ id task, state.tasks id = some (.http task) → ¬ task.Revives platform d

def AuthState.Deleted (state : AuthState) (d : ℕ) : Prop :=
  ∃ task, (task, Event.deleteUser d) ∈ state.trace

/-- No stored session belongs to a deleted user, and no request which arrives
now is one of a deleted user. -/
def AuthState.DeletedStayOut (state : AuthState) : Prop :=
  ∀ d, state.Deleted d →
    (∀ row ∈ state.sessions.rows, row.2.userId ≠ some d) ∧
      ∀ request user,
        (state.acceptedTask request).session.data.user = some user →
        user.id ≠ d

/-! ## Out for good -/

structure AuthState.Gone (platform : Platform) (d : ℕ) (state : AuthState) :
    Prop where
  seq : d ≤ state.users.seq
  users : ∀ row ∈ state.users.rows, row.id ≠ d
  sessions : ∀ row ∈ state.sessions.rows, row.2.userId ≠ some d
  tasks : ∀ id task, state.tasks id = some (.http task) →
    ¬ task.Revives platform d

theorem openSession_userId {cookie : Option SessionId}
    (hsessions : ∀ row ∈ state.sessions.rows, row.2.userId ≠ some d) :
    (state.openSession cookie).1.data.userId ≠ some d := by
  rcases state.openSession_cases cookie with ⟨sid, data, hrow, hopen⟩ | hopen
  · rw [hopen]
    exact hsessions _ hrow
  · rw [hopen]
    simp [RequestSession.generated, SessionData.userId]

theorem SameLogin.userId_ne {before after : RequestSession}
    (hsame : SameLogin before after)
    (huser : before.data.userId ≠ some d) : after.data.userId ≠ some d :=
  hsame.userId ▸ huser

theorem SecretChange.userId_ne {task : HttpTask} {after : RequestSession}
    (hchange : SecretChange platform state task after)
    (hrows : ∀ row ∈ state.users.rows, row.id ≠ d)
    (hstage : task.stage = .arrived) (hrevives : ¬ task.Revives platform d) :
    after.data.userId ≠ some d := by
  intro hafter
  have huser : task.session.data.userId = some d :=
    hchange.sameLogin.userId ▸ hafter
  cases hchange with
  | csrf secret hendpoint hnone =>
      exact hrevives (.held hstage huser (.csrf hendpoint hnone)
        (by simp [hendpoint]))
  | setup secret user row hadmitted hendpoint hsession hrow =>
      obtain ⟨hmem, hid⟩ := UsersTable.mem_of_findById hrow
      have hsessionId : user.id = d := by
        simpa [SessionData.userId, hsession] using huser
      exact hrows row hmem (hid.trans hsessionId)
  | enable raw token secret user hadmitted hendpoint htoken hsession hsecret
      hverify =>
      exact hrevives (.held hstage huser (.enable raw token secret user
        hadmitted hendpoint htoken hsession hsecret hverify)
        (by simp [hendpoint]))

theorem HttpTask.LogsIn.userId_ne {task : HttpTask} (hlogin : task.LogsIn)
    (hstage : task.stage = .arrived) (hrevives : ¬ task.Revives platform d) :
    task.session.data.userId ≠ some d := by
  intro huser
  obtain ⟨_, username, password, body, hendpoint, _⟩ := id hlogin
  exact hrevives (.held hstage huser (.login hlogin) (by simp [hendpoint]))

theorem SessionMove.stored_userId {task : HttpTask} {segment : Segment}
    {endpoint : Endpoint} {sid : SessionId} {data : SessionData}
    (hmove : SessionMove platform state task segment)
    (hrows : ∀ row ∈ state.users.rows, row.id ≠ d)
    (hrevives : ¬ task.Revives platform d)
    (hstored : .storeSession sid data ∈
      segment.events ++ segment.outcome.closing endpoint) :
    data.userId ≠ some d := by
  cases hmove with
  | kept after hevents houtcome hafter hstage =>
      rcases List.mem_append.mp hstored with hmem | hmem
      · simpa [Event.isPlain] using hevents _ hmem
      · obtain ⟨session, reply, heq, hsave, rfl, rfl⟩ :=
          Outcome.closing_stored hmem
        rw [heq] at houtcome
        obtain rfl := Option.some.inj houtcome
        rcases hafter with rfl | ⟨harrived, hchange⟩
        · exact fun huser => hrevives (.saves hstage huser hsave)
        · exact hchange.userId_ne hrows harrived hrevives
  | challenged row username password hstage hverify htotp after hafter =>
      simp only [Outcome.closing, List.append_nil, List.mem_cons, reduceCtorEq,
        Event.storeSession.injEq, List.not_mem_nil, or_false, false_or] at hstored
      rw [hstored.2, hafter]
      exact fun huser =>
        hrevives (.challenges row username password hstage hverify htotp huser)
  | attached row step hstage =>
      simp only [attachUser, Outcome.closing, List.append_nil, List.mem_cons,
        reduceCtorEq, Event.storeSession.injEq, List.not_mem_nil,
        or_false] at hstored
      rw [hstored.2]
      intro huser
      have hid : row.id = d := by
        simpa [SessionData.userId, RequestSession.setUser,
          UserRecord.sessionUser] using huser
      exact hrevives (.attaches row step hstage hid)
  | leaving logged hlogged =>
      simp only [Outcome.closing, List.append_nil, List.mem_append,
        List.mem_singleton, reduceCtorEq, or_false] at hstored
      simpa [Event.isPlain] using hlogged _ hstored
  | reading | passed | accepted | closed =>
      simp [login, regenerateSession, loggedOut, Outcome.closing] at hstored

/-- A request which runs, and neither verifies a login nor awaits a
regenerated session, can only save its own one. -/
theorem HttpTask.Revives.of_plain {task : HttpTask}
    (hrevives : task.Revives platform d) (hruns : task.stage ≠ .arrived)
    (hverify : ∀ row username password,
      task.stage ≠ .verifyLogin (some row) username password)
    (hregenerated : ∀ row step, task.stage ≠ .regenerated row step) :
    task.stage.ownsSession = true ∧ task.session.data.userId = some d ∧
      task.session.shouldSave = true := by
  cases hrevives with
  | saves howns huser hsave => exact ⟨howns, huser, hsave⟩
  | challenges row username password hstage =>
      exact absurd hstage (hverify row username password)
  | passes row username password hstage =>
      exact absurd hstage (hverify row username password)
  | attaches row step hstage => exact absurd hstage (hregenerated row step)
  | held hstage => exact absurd hstage hruns

theorem HttpTask.Revives.of_regenerated {task : HttpTask} {row : UserRecord}
    {step : LoginStep} (hrevives : task.Revives platform d)
    (hstage : task.stage = .regenerated row step) : row.id = d := by
  cases hrevives with
  | saves howns => simp [hstage, Stage.ownsSession] at howns
  | challenges other username password hother => simp [hstage] at hother
  | passes other username password hother => simp [hstage] at hother
  | attaches other step hother hid =>
      rw [hstage, Stage.regenerated.injEq] at hother
      exact hother.1 ▸ hid
  | held hother => simp [hstage] at hother

theorem SessionMove.next_harmless {task resumed : HttpTask} {segment : Segment}
    {request : Request} (hmove : SessionMove platform state task segment)
    (hrows : ∀ row ∈ state.users.rows, row.id ≠ d)
    (hrevives : ¬ task.Revives platform d)
    (hnext : segment.outcome.next request = some (.http resumed)) :
    ¬ resumed.Revives platform d := by
  cases hmove with
  | kept after hevents houtcome hafter hstage =>
      generalize segment.outcome = outcome at houtcome hnext
      cases outcome with
      | replies session reply => simp [Outcome.next] at hnext
      | awaits session stage =>
          simp only [Outcome.next, Option.some.injEq, Task.http.injEq] at hnext
          obtain ⟨rfl, hplain⟩ := houtcome
          subst resumed
          intro hresumed
          obtain ⟨_, huser, hsave⟩ := hresumed.of_plain
            (by rintro rfl; cases hplain)
            (by rintro row username password rfl; cases hplain)
            (by rintro row step rfl; cases hplain)
          rcases hafter with rfl | ⟨harrived, hchange⟩
          · exact hrevives (.saves hstage huser hsave)
          · exact hchange.userId_ne hrows harrived hrevives huser
  | reading username password hstage hlogin =>
      have hother := hlogin.userId_ne hstage hrevives
      simp only [login, Outcome.next, Option.some.injEq,
        Task.http.injEq] at hnext
      subst resumed
      intro hresumed
      cases hresumed with
      | saves howns huser hsave => exact hother huser
      | challenges row name typed hread hverify htotp huser =>
          exact hother huser
      | passes row name typed hread hverify htotp hid =>
          simp only [Stage.verifyLogin.injEq] at hread
          exact hrows row (UsersTable.mem_of_findByUsername hread.1).1 hid
      | attaches row step hread => simp at hread
      | held hread => simp at hread
  | challenged row username password hstage hverify htotp after hafter =>
      simp only [Outcome.next, Option.some.injEq, Task.http.injEq] at hnext
      subst resumed
      intro hresumed
      have huser := (hresumed.of_plain (by simp) (by simp) (by simp)).2.1
      rw [RequestSession.saved_data, hafter] at huser
      exact hrevives
        (.challenges row username password hstage hverify htotp huser)
  | passed row username password hstage hverify htotp =>
      simp only [regenerateSession, Outcome.next, Option.some.injEq,
        Task.http.injEq] at hnext
      subst resumed
      intro hresumed
      have hid : row.id = d := hresumed.of_regenerated rfl
      exact hrevives (.passes row username password hstage hverify htotp hid)
  | accepted pending row secret token hstage hpending hrow =>
      simp only [regenerateSession, Outcome.next, Option.some.injEq,
        Task.http.injEq] at hnext
      subst resumed
      intro hresumed
      have hid : row.id = d := hresumed.of_regenerated rfl
      exact hrows row (UsersTable.mem_of_findById hrow).1 hid
  | attached row step hstage =>
      simp only [attachUser, Outcome.next, Option.some.injEq,
        Task.http.injEq] at hnext
      subst resumed
      intro hresumed
      have huser := (hresumed.of_plain (by simp) (by simp) (by simp)).2.1
      have hid : row.id = d := by
        simpa [SessionData.userId, RequestSession.setUser,
          UserRecord.sessionUser] using huser
      exact hrevives (.attaches row step hstage hid)
  | leaving logged hlogged hstage =>
      simp only [Outcome.next, Option.some.injEq, Task.http.injEq] at hnext
      subst resumed
      intro hresumed
      have howns := (hresumed.of_plain (by simp) (by simp) (by simp)).1
      simp [Stage.ownsSession] at howns
  | closed hstage => simp [loggedOut, Outcome.next] at hnext

theorem HttpTask.Revives.of_arrived {task : HttpTask}
    (hrevives : task.Revives platform d) (hstage : task.stage = .arrived) :
    task.session.data.userId = some d := by
  cases hrevives with
  | saves howns huser hsave => exact huser
  | challenges row username password hread => simp [hstage] at hread
  | passes row username password hread => simp [hstage] at hread
  | attaches row step hread => simp [hstage] at hread
  | held hread huser => exact huser

theorem acceptedTask_harmless {request : Request}
    (hsessions : ∀ row ∈ state.sessions.rows, row.2.userId ≠ some d) :
    ¬ (state.acceptedTask request).Revives platform d :=
  fun hrevives => openSession_userId hsessions (hrevives.of_arrived rfl)

theorem AuthState.Gone.runs {id : TaskId} {task : HttpTask} {supply : Supply}
    (hgone : state.Gone platform d) (hruns : state.Runs action id task supply) :
    ¬ task.Revives platform d := by
  cases hruns with
  | arriving request supply => exact acceptedTask_harmless hgone.sessions
  | resumed id supply task htask => exact hgone.tasks id task htask

theorem gone_step (hgone : state.Gone platform d)
    (hstep : (authMachine platform).step state action = some next) :
    next.Gone platform d := by
  have husers := users_step hstep
  have hopening : ∀ row ∈ (state.opening action).users.rows, row.id ≠ d := by
    rw [AuthState.opening_users]
    exact hgone.users
  constructor
  · exact hgone.seq.trans husers.seq_le
  · intro row hrow
    rcases husers.row_id hrow with ⟨old, hold, hid⟩ | hid
    · exact hid ▸ hgone.users old hold
    · rw [hid, UsersTable.nextId]
      exact (Nat.lt_succ_of_le hgone.seq).ne'
  · intro row hrow
    rcases rows_step hstep hrow with hold | ⟨id, task, supply, hruns, hstored⟩
    · exact hgone.sessions row hold
    · exact segment_sessionMove.stored_userId hopening (hgone.runs hruns) hstored
  · intro id task htask
    cases task_step hstep htask with
    | kept hkept _ => exact hgone.tasks id task hkept
    | held request now haction hheld =>
        subst hheld
        exact acceptedTask_harmless hgone.sessions
    | ran before supply hruns hnext =>
        exact segment_sessionMove.next_harmless hopening (hgone.runs hruns) hnext

/-! ## The deletion itself -/

/-- A stretch which deletes `d` is the one of `remove`, and nothing else. -/
theorem segment_deletes {task : HttpTask} {supply : Supply}
    (hmem : .deleteUser d ∈ task.performed platform state supply) :
    ∃ raw target activity, task.stage = .arrived ∧
      Admitted task.request task.session.data ∧
      task.request.endpoint = .removeUser raw ∧
      userIdParamSchema raw = .ok d ∧
      task.session.data.userId ≠ some d ∧
      state.users.findById d = some target ∧
      (target.isAdmin = true →
        (state.users.listAll.filter UserRecord.isAdmin).length ≠ 1) ∧
      task.segment platform state supply =
        ⟨[.deleteUser d, .purgeSessions d, .record activity],
          .replies (some task.session) (.success 200 .empty)⟩ := by
  have huse : UsersUse platform state task supply
    (task.segment platform state supply) := segment_usersUse
  unfold HttpTask.performed at hmem
  dsimp only at hmem
  generalize task.segment platform state supply = segment at huse hmem
  have hsegment : .deleteUser d ∈ segment.events := by
    rcases List.mem_append.mp hmem with hmem | hmem
    · exact hmem
    · simpa [Event.onUsers] using AuthState.closing_quiet _ hmem
  cases huse with
  | quiet hevents => simpa [Event.onUsers] using hevents _ hsegment
  | updatePassword => simp at hsegment
  | enableTotp => simp at hsegment
  | disableTotp => simp at hsegment
  | insertUser => simp at hsegment
  | deleteUser raw id target activity hstage hadmitted hendpoint hid hself
      htarget hlast =>
      simp only [List.mem_cons, Event.deleteUser.injEq, reduceCtorEq,
        List.not_mem_nil, or_false] at hsegment
      subst id
      exact ⟨raw, target, activity, hstage, hadmitted, hendpoint, hid, hself,
        htarget, hlast, rfl⟩

theorem AuthState.runHttp_deletes {id : TaskId} {task : HttpTask}
    {supply : Supply} {activity : ActivityInput} {target : UserRecord}
    (hself : task.session.data.userId ≠ some d)
    (htarget : state.users.findById d = some target)
    (hsegment : task.segment platform state supply =
      ⟨[.deleteUser d, .purgeSessions d, .record activity],
        .replies (some task.session) (.success 200 .empty)⟩)
    (hothers : ∀ other suspended, other ≠ id →
      state.tasks other = some (.http suspended) →
      ¬ suspended.Revives platform d) :
    (state.runHttp platform id task supply).Gone platform d := by
  have husers : (state.runHttp platform id task supply).users =
      state.users.delete d := by
    rw [AuthState.runHttp, AuthState.commit_users, hsegment]
    simp only [List.cons_append, List.nil_append]
    refine (AuthState.performAll_users_head fun event hevent => ?_).trans rfl
    simp only [List.mem_cons] at hevent
    rcases hevent with rfl | rfl | hevent
    · rfl
    · rfl
    · exact AuthState.closing_quiet event hevent
  constructor
  · rw [husers, UsersTable.seq_delete]
    obtain ⟨hmem, rfl⟩ := UsersTable.mem_of_findById htarget
    exact state.users.idBound target hmem
  · intro row hrow
    rw [husers] at hrow
    exact (UsersTable.mem_rows_delete.mp hrow).2
  · intro row hrow
    rw [AuthState.runHttp, AuthState.commit_sessions, hsegment,
      AuthState.performAll_append] at hrow
    rcases AuthState.performAll_rows hrow with hold | hstored
    · have hpurged : row ∈ (state.sessions.deleteByUserId d).rows := hold
      exact (SessionStore.mem_deleteByUserId.mp hpurged).2
    · obtain ⟨session, reply, heq, _, _, hdata⟩ := Outcome.closing_stored hstored
      simp only [Outcome.replies.injEq, Option.some.injEq] at heq
      rw [hdata, ← heq.1]
      exact hself
  · intro other suspended h
    rw [AuthState.runHttp_tasks, hsegment] at h
    by_cases heq : other = id
    · subst other
      simp [Outcome.next] at h
    · rw [update_of_ne heq] at h
      exact hothers other suspended heq h

theorem gone_of_deleted
    (hguard : DeletesUnobserved platform state action)
    (hstep : (authMachine platform).step state action = some next)
    (hbefore : ¬ state.Deleted d) (hdeleted : next.Deleted d) :
    next.Gone platform d := by
  obtain ⟨task, hmem⟩ := hdeleted
  rcases trace_step hstep hmem with hold | ⟨http, supply, hruns, hevent⟩ |
    ⟨sid, hgenerated⟩ | hjob
  · exact absurd ⟨task, hold⟩ hbefore
  · obtain ⟨raw, target, activity, hstage, hadmitted, hendpoint, hid, hself,
      htarget, hlast, hsegment⟩ := segment_deletes hevent
    obtain ⟨_, rfl⟩ := hruns.transition hstep
    apply AuthState.runHttp_deletes hself htarget hsegment
    intro other suspended hne hother
    rw [AuthState.opening_users] at htarget hlast
    refine hguard supply.now d (.deleteUser _ _ _ supply raw d target hruns hstage
      hadmitted hendpoint hid hself htarget hlast) other suspended ?_
    cases hruns with
    | arriving request supply =>
        rw [AuthState.opening, AuthState.accept_tasks, update_of_ne hne] at hother
        exact hother
    | resumed => exact hother
  · cases hgenerated
  · simp [Event.ofJob] at hjob

def DeletionInvariant (platform : Platform) (state : AuthState) : Prop :=
  ∀ d, state.Deleted d → state.Gone platform d

theorem deletionInvariant_step :
    (authMachine platform).Preserves (DeletesUnobserved platform)
      (DeletionInvariant platform) := by
  intro state action next hstate hguard hstep d hdeleted
  by_cases hbefore : state.Deleted d
  · exact gone_step (hstate d hbefore) hstep
  · exact gone_of_deleted hguard hstep hbefore hdeleted

/-- In the runs in which no deletion finds a suspended request that can revive
the user, no session of a deleted user is ever stored again, and no request
arrives as one. -/
theorem deletedStayOut_of_unobserved
    (hguard : (authMachine platform).Admits (DeletesUnobserved platform)
      (.initial users) word) :
    (authMachine platform).Along AuthState.DeletedStayOut (.initial users)
      word := by
  have hstart : DeletionInvariant platform (.initial users) := by
    rintro d ⟨task, hmem⟩
    simp [AuthState.initial] at hmem
  intro before after mid hsplit hexec d hdeleted
  have hgone := deletionInvariant_step.along hstart hguard before after mid
    hsplit hexec d hdeleted
  constructor
  · exact hgone.sessions
  · intro request user huser hid
    have hout : (mid.acceptedTask request).session.data.userId ≠ some d :=
      openSession_userId hgone.sessions
    exact hout (by simp [SessionData.userId, huser, hid])

/-! ## Two deletions -/

/-- The administrator creates "bob", as user `2`. -/
def sampleBob : List Action :=
  sampleBootstrap ++ sampleLogin 1 0 "admin" "password" ++
    [sampleRequest (some 1) .csrfToken,
      sampleRequest (some 1) (.createUser "bob" "password" none),
      sampleResume 4, sampleRequest none .csrfToken]

/-- "bob" logs in; the session with his user has the id `3`. -/
def sampleBobLoggedIn : List Action :=
  sampleBob ++
    [sampleRequest (some 2) (.login "bob" "password"), sampleResume 6, sampleResume 6,
      sampleResume 6]

/-- The administrator deletes "bob", who is logged in, while no request is
suspended; then "bob" sends another request. -/
def sampleDeletedAtRest : List Action :=
  sampleBobLoggedIn ++
    [sampleRequest (some 1) (.removeUser 2), sampleRequest (some 3) .me]

def Task.isHeld : Task → Bool
  | .http { stage := .arrived, .. } => true
  | _ => false

/-- A deletion is only requested while no request is suspended, and is not
held. -/
def deletesAtRest (state : AuthState) : Action → Bool
  | .request { endpoint := .removeUser _, .. } _ =>
      (List.range state.nextTask).all fun id => (state.tasks id).isNone
  | .resume id _ => !(state.tasks id).any Task.isHeld
  | _ => true

theorem deletesUnobserved_of_atRest (hstate : state.TasksBounded)
    (hrest : deletesAtRest state action = true) :
    DeletesUnobserved platform state action := by
  intro now d hcause id task htask
  cases hcause with
  | deleteUser action acting http supply raw d target hruns hstage hadmitted
      hendpoint =>
      cases hruns with
      | arriving request supply =>
          obtain ⟨cookie, csrfHeader, ip, endpoint⟩ := request
          obtain rfl : endpoint = .removeUser raw := hendpoint
          simp only [deletesAtRest, List.all_eq_true, List.mem_range] at hrest
          simpa [htask] using hrest id (hstate.lt htask)
      | resumed acting supply http hacting =>
          obtain ⟨request, session, stage⟩ := http
          obtain rfl : stage = .arrived := hstage
          simp [deletesAtRest, hacting, Task.isHeld] at hrest

theorem deletedStayOut_of_unobserved_sampleDeletedAtRest :
    (∃ mid last, (authMachine samplePlatform).exec (.initial .empty) sampleBobLoggedIn =
        some mid ∧ (∃ row ∈ mid.sessions.rows, row.1 = 3 ∧ row.2.userId = some 2) ∧
      (authMachine samplePlatform).exec (.initial .empty) sampleDeletedAtRest =
        some last ∧ last.Deleted 2) ∧
      (authMachine samplePlatform).Along AuthState.DeletedStayOut (.initial .empty)
        sampleDeletedAtRest := by
  constructor
  · obtain ⟨mid, hmid, hrow⟩ := Machine.exists_of_exec_map (authMachine samplePlatform)
      (.initial .empty) sampleBobLoggedIn
      (fun mid => mid.sessions.rows.any fun row =>
        decide (row.1 = 3 ∧ row.2.userId = some 2)) (by decide +kernel)
    obtain ⟨last, hlast, hdeleted⟩ := Machine.exists_of_exec_map
      (authMachine samplePlatform) (.initial .empty) sampleDeletedAtRest
      (fun last => decide ((7, .deleteUser 2) ∈ last.trace)) (by decide +kernel)
    obtain ⟨row, hmem, hfields⟩ := List.any_eq_true.mp hrow
    exact ⟨mid, last, hmid, ⟨row, hmem, of_decide_eq_true hfields⟩, hlast, 7,
      of_decide_eq_true hdeleted⟩
  · exact deletedStayOut_of_unobserved (Machine.admits_of_checks tasksBounded_step
      (fun _ _ hstate hrest => deletesUnobserved_of_atRest hstate hrest)
      (fun _ _ => rfl) (by decide +kernel))

/-- The login of "bob" is in the verification of his password when the
administrator deletes him. -/
def sampleDeletedInLogin : List Action :=
  sampleBob ++
    [sampleRequest (some 2) (.login "bob" "password"),
      sampleRequest (some 1) (.removeUser 2), sampleResume 6, sampleResume 6,
      sampleResume 6]

theorem deletedUser_gets_session :
    ∃ last, (authMachine samplePlatform).exec (.initial .empty)
        sampleDeletedInLogin = some last ∧
      (7, .answer (.removeUser 2) (.success 200 .empty)) ∈ last.trace ∧
      last.Deleted 2 ∧ last.users.findById 2 = none ∧
      ∃ row ∈ last.sessions.rows, row.2.userId = some 2 := by
  obtain ⟨last, hexec, htest⟩ := Machine.exists_of_exec_map
    (authMachine samplePlatform) (.initial .empty) sampleDeletedInLogin
    (fun last =>
      decide ((7, .answer (.removeUser 2) (.success 200 .empty)) ∈ last.trace) &&
      decide ((7, .deleteUser 2) ∈ last.trace) &&
      last.users.findById 2 == none &&
      last.sessions.rows.any fun row => row.2.userId == some 2)
    (by decide +kernel)
  simp only [Bool.and_eq_true, decide_eq_true_eq, beq_iff_eq,
    List.any_eq_true] at htest
  obtain ⟨⟨⟨hanswer, hdeleted⟩, hnone⟩, hrow⟩ := htest
  exact ⟨last, hexec, hanswer, ⟨7, hdeleted⟩, hnone, hrow⟩

end Pm2Manager
