import Pm2Manager.SessionPrivileges

/-!
# The audit of the accounts

A handler which changes something writes its row of the activity log in the
stretch which also sends the answer; `logout` writes its row before it waits
for the session to be destroyed.  So the row of an answered request can be
computed from the request, the user of its session and the answer, and a
request which is still suspended has written none.
-/

namespace Pm2Manager

open Function

variable {platform : Platform} {state next last : AuthState}
variable {action : Action} {users : UsersTable} {word : List Action}

/-- A row about what `username` has done, without metadata. -/
def auditRow (type : ActivityType) (message username ip : String) : ActivityInput where
  type := type
  message := message
  username := some username
  ipAddress := some ip

/-- A row about what an administrator has changed. -/
def adminRow (type : ActivityType) (message : String) (data : SessionData) (ip : String)
    (metadata : List (String × MetadataValue)) : ActivityInput where
  type := type
  message := message
  username := data.user.map SessionUser.username
  ipAddress := some ip
  metadata := some metadata

def logoutRow (ip : String) (user : SessionUser) : ActivityInput :=
  auditRow .logout s!"User \"{user.username}\" logged out" user.username ip

/-- The row which an answer stands for.  It is about a request from `ip`, with
`data` as its session and answered in `state`. -/
def Endpoint.audit (endpoint : Endpoint) (state : AuthState) (ip : String)
    (data : SessionData) (reply : Reply) : Option ActivityInput :=
  match endpoint, reply with
  | .login _ _, .success _ (.loggedIn user) =>
      some (auditRow .loginSuccess s!"User \"{user.username}\" logged in"
        user.username ip)
  | .login username password, .failure error =>
      if error = .unauthorized "Invalid username or password" then
        (loginSchema username password).toOption.map fun body =>
          auditRow .loginFailed s!"Failed login for \"{body.1}\"" body.1 ip
      else
        none
  | .verifyTwoFactor _, .success _ (.user user) =>
      some (auditRow .loginSuccess s!"User \"{user.username}\" logged in"
        user.username ip)
  | .verifyTwoFactor _, .failure error =>
      if error = .unauthorized "Invalid authentication code" then
        data.pending2fa.map fun pending =>
          auditRow .loginFailed s!"Failed 2FA for \"{pending.username}\""
            pending.username ip
      else
        none
  | .logout, .success _ _ => data.user.map (logoutRow ip)
  | .changePassword _ _, .success _ _ =>
      data.user.map fun user => auditRow .passwordChanged
        s!"User \"{user.username}\" changed their password" user.username ip
  | .enableTwoFactor _, .success _ _ =>
      data.user.map fun user => auditRow .twofaEnabled
        s!"User \"{user.username}\" enabled two-factor authentication"
        user.username ip
  | .disableTwoFactor _, .success _ _ =>
      data.user.map fun user => auditRow .twofaDisabled
        s!"User \"{user.username}\" disabled two-factor authentication"
        user.username ip
  | .createUser _ _ _, .success _ (.user user) =>
      some (adminRow .userCreated s!"Created user \"{user.username}\"" data ip
        [("createdUser", .text user.username), ("isAdmin", .flag user.isAdmin)])
  | .removeUser raw, .success _ _ =>
      (userIdParamSchema raw).toOption.bind fun id =>
        (state.users.findById id).map fun target =>
          adminRow .userDeleted s!"Deleted user \"{target.username}\"" data ip
            [("deletedUser", .text target.username),
              ("sessionsRevoked", .number (state.sessions.countByUserId id))]
  | .updateSettings interval retention, .success _ _ =>
      (updateSettingsSchema interval retention).toOption.map fun input =>
        adminRow .settingsChanged "Updated application settings" data ip
          (input.changes.map fun change => (change.1, .number change.2))
  | _, _ => none

def Event.recorded : Event → Option ActivityInput
  | .record input => some input
  | _ => none

/-- The rows which a task has written, in order. -/
def recordsIn (trace : Trace) (id : TaskId) : List ActivityInput :=
  (trace.filter fun entry => entry.1 = id).filterMap fun entry => entry.2.recorded

/-! ## The rows of a stretch -/

/-- The stages at which the handler of an endpoint is suspended, with what it
remembers of the request. -/
def Stage.Fits : Stage → Endpoint → SessionData → Prop
  | .arrived, _, _ => True
  | .verifyLogin _ username password, .login rawUsername rawPassword, _ =>
      loginSchema rawUsername rawPassword = .ok (username, password)
  | .challengeSaved, .login _ _, _ => True
  | .regenerated _ .password, .login _ _, _ => True
  | .established _ .password, .login _ _, _ => True
  | .regenerated _ .totp, .verifyTwoFactor _, _ => True
  | .established _ .totp, .verifyTwoFactor _, _ => True
  | .destroyed, .logout, _ => True
  | .verifyCurrent _ _ _, .changePassword _ _, _ => True
  | .hashNew _ _, .changePassword _ _, _ => True
  | .renderQr _ _, .setupTwoFactor, _ => True
  | .verifyDisable user _, .disableTwoFactor _, data =>
      data.user = some user.sessionUser
  | .hashCreate _, .createUser _ _ _, _ => True
  | _, _, _ => False

/-- What a suspended request has written. -/
def Stage.written (stage : Stage) (ip : String) (data : SessionData) :
    List ActivityInput :=
  match stage with
  | .destroyed => (data.user.map (logoutRow ip)).toList
  | _ => []

/-- The rows of a stretch, after those the request has `written` before: a
request which goes on has the rows of its stage, one which is answered the row
of its answer. -/
def Segment.Audited (segment : Segment) (state : AuthState) (endpoint : Endpoint)
    (ip : String) (data : SessionData) (written : List ActivityInput := []) : Prop :=
  match segment.outcome with
  | .awaits session stage =>
      stage.Fits endpoint session.data ∧
        written ++ segment.events.filterMap Event.recorded =
          stage.written ip session.data
  | .replies _ reply =>
      written ++ segment.events.filterMap Event.recorded =
        (endpoint.audit state ip data reply).toList

/-- The account of the session's user, while there is one, is named by the
session as the table names it. -/
def SessionData.NamedBy (data : SessionData) (users : UsersTable) : Prop :=
  ∀ user row, data.user = some user → row ∈ users.rows → row.id = user.id →
    row.sessionUser = user

section

variable {endpoint : Endpoint} {ip : String} {data : SessionData}
variable {session : RequestSession} {error : AppError}

theorem audit_failure (hcode : error.code ≠ "UNAUTHORIZED") :
    endpoint.audit state ip data (.failure error) = none := by
  have hunauthorized : ∀ message, error ≠ .unauthorized message := by
    rintro message rfl
    exact hcode rfl
  cases endpoint <;> simp [Endpoint.audit, hunauthorized]

theorem audited_fail (hnone : endpoint.audit state ip data (.failure error) = none) :
    (fail session error).Audited state endpoint ip data := by
  simp [Segment.Audited, fail, hnone]

/-- The routes which audit a failure have no guard. -/
theorem audit_guard_error {guarded : SessionData}
    (herror : endpoint.guard guarded = .error error) :
    endpoint.audit state ip data (.failure error) = none := by
  cases endpoint <;> simp_all [Endpoint.guard, Endpoint.audit]

end

theorem csrfProtection_error {request : Request} {data : SessionData}
    {error : AppError} (herror : csrfProtection request data = .error error) :
    error.code ≠ "UNAUTHORIZED" := by
  unfold csrfProtection at herror
  split at herror
  · simp at herror
  · split at herror
    · split at herror
      · simp at herror
      · obtain rfl := Except.error.inj herror
        decide
    · obtain rfl := Except.error.inj herror
      decide

theorem except_map_error {α β : Type} {result : Except AppError α} {f : α → β}
    {error : AppError} (hmap : result.map f = .error error) :
    result = .error error := by
  cases result with
  | error found => exact congrArg Except.error (Except.error.inj hmap)
  | ok value => simp [Except.map] at hmap

theorem parsed_error {α : Type} {found : List (String × String)} {value : α}
    {error : AppError} (herror : FieldCheck.parsed found value = .error error) :
    error.code ≠ "UNAUTHORIZED" := by
  unfold FieldCheck.parsed at herror
  split at herror
  · simp at herror
  · obtain rfl := Except.error.inj herror
    simp [AppError.validation]

theorem controller_error {request : Request} {session : RequestSession}
    {supply : Supply} {error : AppError}
    (herror : controller platform state request session supply = .error error) :
    error.code ≠ "UNAUTHORIZED" := by
  unfold controller at herror
  cases hendpoint : request.endpoint <;> simp only [hendpoint, reduceCtorEq] at herror
  case removeUser raw =>
    have hid := except_map_error herror
    unfold userIdParamSchema at hid
    split at hid
    · simp at hid
    · obtain rfl := Except.error.inj hid
      simp [AppError.validation]
  all_goals exact parsed_error (except_map_error herror)

theorem except_toOption {α : Type} {result : Except AppError α} {value : α}
    (hok : result = .ok value) : result.toOption = some value :=
  hok ▸ rfl

section

variable {request : Request} {session : RequestSession} {supply : Supply}
variable {ip : String}

theorem currentUser_audited {handler : SessionUser → Segment} {endpoint : Endpoint}
    (hnone : endpoint.audit state ip session.data (.failure .unauthorized) = none)
    (hhandler : ∀ user, session.data.user = some user →
      (handler user).Audited state endpoint ip session.data) :
    (currentUser session handler).Audited state endpoint ip session.data := by
  unfold currentUser
  split
  · exact audited_fail hnone
  next user huser => exact hhandler user huser

theorem verifyTwoFactor_audited {token raw : String} :
    (verifyTwoFactor platform state request session token).Audited state
      (.verifyTwoFactor raw) request.ip session.data := by
  unfold verifyTwoFactor
  split
  · exact audited_fail rfl
  next pending hpending =>
    split
    · simp [Segment.Audited, fail, loginFailed, Endpoint.audit, Event.recorded,
        hpending, auditRow]
    · exact ⟨trivial, rfl⟩

theorem logout_audited :
    (logout request session).Audited state .logout request.ip session.data := by
  unfold logout
  cases huser : session.data.user with
  | none => exact ⟨trivial, by simp [Stage.written, huser, Event.recorded]⟩
  | some user =>
      refine ⟨trivial, ?_⟩
      simp [Stage.written, huser, Event.recorded, logoutRow, auditRow]

theorem me_audited : (me state session).Audited state .me ip session.data := by
  refine currentUser_audited rfl fun user _ => ?_
  split
  · exact audited_fail rfl
  · exact rfl

theorem changePassword_audited {current new rawCurrent rawNew : String} :
    (changePassword state session current new).Audited state
      (.changePassword rawCurrent rawNew) ip session.data := by
  refine currentUser_audited rfl fun user _ => ?_
  split
  · exact audited_fail rfl
  · exact ⟨trivial, rfl⟩

theorem passwordHashed_audited {user : UserRecord} {new rawCurrent rawNew : String} :
    (passwordHashed platform request session user new supply).Audited state
      (.changePassword rawCurrent rawNew) request.ip session.data := by
  refine currentUser_audited rfl fun user huser => ?_
  simp [Segment.Audited, Endpoint.audit, Event.recorded, huser, auditRow,
    List.filterMap_cons]

theorem setupTwoFactor_audited :
    (setupTwoFactor platform state session supply).Audited state .setupTwoFactor ip
      session.data := by
  refine currentUser_audited rfl fun user _ => ?_
  split
  · exact audited_fail rfl
  · split
    · exact audited_fail rfl
    · exact ⟨trivial, rfl⟩

theorem enableTwoFactor_audited {token raw : String} :
    (enableTwoFactor platform request session token).Audited state
      (.enableTwoFactor raw) request.ip session.data := by
  refine currentUser_audited rfl fun user huser => ?_
  split
  · exact audited_fail rfl
  · split
    · simp [Segment.Audited, Endpoint.audit, Event.recorded, huser, auditRow,
        List.filterMap_cons]
    · exact audited_fail rfl

/-- The handler goes on with the row its session names: the row has the name of
the session's user. -/
theorem disableTwoFactor_audited {password raw : String}
    (hnames : session.data.NamedBy state.users) :
    (disableTwoFactor state session password).Audited state
      (.disableTwoFactor raw) ip session.data := by
  refine currentUser_audited rfl fun user huser => ?_
  split
  · exact audited_fail rfl
  next row hrow =>
    obtain ⟨hmem, hid⟩ := UsersTable.mem_of_findById hrow
    refine ⟨?_, rfl⟩
    rw [Stage.Fits, huser, hnames user row huser hmem hid]

theorem disableVerified_audited {user : UserRecord} {password raw : String}
    (huser : session.data.user = some user.sessionUser) :
    (disableVerified platform request session user password).Audited state
      (.disableTwoFactor raw) request.ip session.data := by
  unfold disableVerified
  split
  · simp [Segment.Audited, Endpoint.audit, Event.recorded, huser, auditRow,
      UserRecord.sessionUser, List.filterMap_cons]
  · exact rfl

theorem createUser_audited {input : CreateUserInput}
    {username password : String} {isAdmin : Option Bool} :
    (createUser state session input).Audited state
      (.createUser username password isAdmin) ip session.data := by
  unfold createUser
  split
  next error herror =>
    have hcode : error.code ≠ "UNAUTHORIZED" := by
      unfold checkUsername at herror
      split at herror
      · obtain rfl := Except.error.inj herror
        decide
      · simp at herror
    exact audited_fail (audit_failure hcode)
  · exact ⟨trivial, rfl⟩

theorem userHashed_audited {input : CreateUserInput}
    {username password : String} {isAdmin : Option Bool} :
    (userHashed platform state request session input supply).Audited state
      (.createUser username password isAdmin) request.ip session.data := by
  unfold userHashed
  dsimp only
  split
  · exact audited_fail rfl
  · exact rfl

theorem removeUser_audited {id : ℕ} {raw : ℤ} (hid : userIdParamSchema raw = .ok id) :
    (removeUser state request session id).Audited state (.removeUser raw) request.ip
      session.data := by
  unfold removeUser
  split
  · exact audited_fail rfl
  · split
    · exact audited_fail rfl
    next target htarget =>
      split
      · exact audited_fail rfl
      · simp [Segment.Audited, Endpoint.audit, Event.recorded, except_toOption hid,
          htarget, adminRow, List.filterMap_cons]

theorem updateSettings_audited {input : UpdateSettingsInput}
    {interval retention : Option ℤ}
    (hinput : updateSettingsSchema interval retention = .ok input) :
    (updateSettings platform state request session input).Audited state
      (.updateSettings interval retention) request.ip session.data := by
  simp only [Segment.Audited, updateSettings, Endpoint.audit, except_toOption hinput,
    List.filterMap_append]
  have hquiet : (input.changes.map fun change =>
      Event.setSetting change.1 (toString change.2)).filterMap Event.recorded = [] := by
    simp [List.filterMap_eq_nil_iff, Event.recorded]
  rw [hquiet]
  simp [Event.recorded, adminRow]

theorem controller_audited {segment : Segment}
    (hnames : session.data.NamedBy state.users)
    (hcontroller : controller platform state request session supply = .ok segment) :
    segment.Audited state request.endpoint request.ip session.data := by
  unfold controller at hcontroller
  cases hendpoint : request.endpoint <;> simp only [hendpoint] at hcontroller
  case csrfToken =>
    obtain rfl := Except.ok.inj hcontroller
    unfold csrfTokenHandler
    split <;> exact rfl
  case login =>
    obtain ⟨body, hbody, rfl⟩ := except_map_ok hcontroller
    exact ⟨hbody, rfl⟩
  case verifyTwoFactor =>
    obtain ⟨token, _, rfl⟩ := except_map_ok hcontroller
    exact verifyTwoFactor_audited
  case logout =>
    obtain rfl := Except.ok.inj hcontroller
    exact logout_audited
  case me =>
    obtain rfl := Except.ok.inj hcontroller
    exact me_audited
  case changePassword =>
    obtain ⟨body, _, rfl⟩ := except_map_ok hcontroller
    exact changePassword_audited
  case setupTwoFactor =>
    obtain rfl := Except.ok.inj hcontroller
    exact setupTwoFactor_audited
  case enableTwoFactor =>
    obtain ⟨token, _, rfl⟩ := except_map_ok hcontroller
    exact enableTwoFactor_audited
  case disableTwoFactor =>
    obtain ⟨password, _, rfl⟩ := except_map_ok hcontroller
    exact disableTwoFactor_audited hnames
  case listUsers =>
    obtain rfl := Except.ok.inj hcontroller
    exact rfl
  case createUser =>
    obtain ⟨input, _, rfl⟩ := except_map_ok hcontroller
    exact createUser_audited
  case removeUser =>
    obtain ⟨id, hid, rfl⟩ := except_map_ok hcontroller
    exact removeUser_audited hid
  case getSettings =>
    obtain rfl := Except.ok.inj hcontroller
    exact rfl
  case updateSettings =>
    obtain ⟨input, hinput, rfl⟩ := except_map_ok hcontroller
    exact updateSettings_audited hinput
  case listActivity =>
    obtain ⟨query, _, rfl⟩ := except_map_ok hcontroller
    exact rfl

theorem arrive_audited
    (hnames : session.data.NamedBy state.users) :
    (arrive platform state request session supply).Audited state request.endpoint
      request.ip session.data := by
  unfold arrive
  split
  next error hcsrf => exact audited_fail (audit_failure (csrfProtection_error hcsrf))
  next error _ hguard => exact audited_fail (audit_guard_error hguard)
  next error _ _ hcontroller =>
    exact audited_fail (audit_failure (controller_error hcontroller))
  next segment _ _ hcontroller => exact controller_audited hnames hcontroller

theorem loginVerified_audited {user : Option UserRecord}
    {username password rawUsername rawPassword : String}
    (hbody : loginSchema rawUsername rawPassword = .ok (username, password)) :
    (loginVerified platform state request session user username password).Audited state
      (.login rawUsername rawPassword) request.ip session.data := by
  unfold loginVerified
  split
  · simp [Segment.Audited, fail, loginFailed, Endpoint.audit, Event.recorded,
      except_toOption hbody, auditRow, List.filterMap_cons]
  · split
    · exact ⟨trivial, rfl⟩
    · exact ⟨trivial, rfl⟩

theorem attachUser_audited {user : UserRecord} {step : LoginStep}
    {endpoint : Endpoint} {data : SessionData}
    (hfits : (Stage.regenerated user step).Fits endpoint data) :
    (attachUser session user step).Audited state endpoint ip data := by
  have hestablished : (Stage.established user step).Fits endpoint
      (session.setUser user.sessionUser).saved.data := by
    cases step <;> cases endpoint <;> simp_all [Stage.Fits]
  exact ⟨hestablished, rfl⟩

theorem loggedIn_audited {user : UserRecord} {step : LoginStep}
    {endpoint : Endpoint} (hfits : (Stage.established user step).Fits endpoint session.data) :
    (loggedIn request session user step).Audited state endpoint request.ip
      session.data := by
  cases step <;> cases endpoint <;> first | exact rfl | exact hfits.elim

end

/-- Each stretch writes the row its answer stands for, and none before. -/
theorem segment_audited (platform : Platform) {task : HttpTask} (supply : Supply)
    (hnames : task.session.data.NamedBy state.users)
    (hfits : task.stage.Fits task.request.endpoint task.session.data) :
    (task.segment platform state supply).Audited state task.request.endpoint
      task.request.ip task.session.data
      (task.stage.written task.request.ip task.session.data) := by
  unfold HttpTask.segment
  cases hstage : task.stage with
  | arrived => exact arrive_audited hnames
  | regenerated user step => exact attachUser_audited (hstage ▸ hfits)
  | established user step => exact loggedIn_audited (hstage ▸ hfits)
  | verifyLogin user username password =>
      rw [hstage] at hfits
      cases hendpoint : task.request.endpoint <;> simp only [hendpoint, Stage.Fits] at hfits
      exact loginVerified_audited hfits
  | challengeSaved =>
      rw [hstage] at hfits
      cases hendpoint : task.request.endpoint <;> simp only [hendpoint, Stage.Fits] at hfits
      exact rfl
  | destroyed =>
      -- the row of `logout` was written before the session was destroyed
      rw [hstage] at hfits
      cases hendpoint : task.request.endpoint <;> simp only [hendpoint, Stage.Fits] at hfits
      exact List.append_nil _
  | verifyCurrent user current new =>
      rw [hstage] at hfits
      cases hendpoint : task.request.endpoint <;> simp only [hendpoint, Stage.Fits] at hfits
      show (currentVerified _ _ _ _ _).Audited _ _ _ _
      unfold currentVerified
      split
      · exact ⟨trivial, rfl⟩
      · exact rfl
  | hashNew user new =>
      rw [hstage] at hfits
      cases hendpoint : task.request.endpoint <;> simp only [hendpoint, Stage.Fits] at hfits
      exact passwordHashed_audited
  | renderQr secret url =>
      rw [hstage] at hfits
      cases hendpoint : task.request.endpoint <;> simp only [hendpoint, Stage.Fits] at hfits
      show (qrRendered _ _ _ _).Audited _ _ _ _
      unfold qrRendered
      split <;> exact rfl
  | verifyDisable user password =>
      rw [hstage] at hfits
      cases hendpoint : task.request.endpoint <;> simp only [hendpoint, Stage.Fits] at hfits
      exact disableVerified_audited hfits
  | hashCreate input =>
      rw [hstage] at hfits
      cases hendpoint : task.request.endpoint <;> simp only [hendpoint, Stage.Fits] at hfits
      exact userHashed_audited

/-! ## Traces -/

section

variable {trace more : Trace} {id other : TaskId} {events : List Event}

theorem recordsIn_append :
    recordsIn (trace ++ more) id = recordsIn trace id ++ recordsIn more id := by
  simp [recordsIn]

@[simp] theorem recordsIn_self :
    recordsIn (events.map (Prod.mk id)) id = events.filterMap Event.recorded := by
  simp [recordsIn, List.filter_map, Function.comp_def, List.filterMap_map]

theorem recordsIn_other (hne : other ≠ id) :
    recordsIn (events.map (Prod.mk other)) id = [] := by
  simp [recordsIn, List.filter_map, Function.comp_def, hne]

theorem recordsIn_fresh {bound : TaskId} (hbound : ∀ entry ∈ trace, entry.1 < bound)
    (hid : bound ≤ id) : recordsIn trace id = [] := by
  have hnone : trace.filter (fun entry => entry.1 = id) = [] := by
    refine List.filter_eq_nil_iff.mpr fun entry hentry => ?_
    simp only [decide_eq_true_eq]
    exact fun heq => absurd (heq ▸ hbound entry hentry) (Nat.not_lt.mpr hid)
  simp [recordsIn, hnone]

theorem closing_recorded {outcome : Outcome} {endpoint : Endpoint} :
    (outcome.closing endpoint).filterMap Event.recorded = [] := by
  refine List.filterMap_eq_nil_iff.mpr fun event hevent => ?_
  rcases Outcome.closing_cases hevent with ⟨_, _, _, _, rfl⟩ | ⟨_, rfl⟩ <;> rfl

end

/-! ## Runs -/

/-- What the trace says about the rows of every request, and that the log is
the rows of the trace. -/
structure AuthState.Audited (state : AuthState) : Prop where
  bounded : ∀ entry ∈ state.trace, entry.1 < state.nextTask
  tasks : state.TasksBounded
  suspended : ∀ id task, state.tasks id = some (.http task) →
    task.stage.Fits task.request.endpoint task.session.data ∧
      recordsIn state.trace id =
        task.stage.written task.request.ip task.session.data
  answered : ∀ id endpoint reply, (id, Event.answer endpoint reply) ∈ state.trace →
    state.tasks id = none
  logged : state.activity.map ActivityRecord.toActivityInput =
    state.trace.filterMap fun entry => entry.2.recorded

namespace AuthState

variable {id : TaskId} {now : String} {events : List Event} {left : Option Task}

theorem perform_logged {event : Event}
    (hlogged : state.activity.map ActivityRecord.toActivityInput =
      state.trace.filterMap fun entry => entry.2.recorded) :
    (state.perform id now event).activity.map ActivityRecord.toActivityInput =
      (state.perform id now event).trace.filterMap fun entry => entry.2.recorded := by
  rw [perform_trace, List.filterMap_append, ← hlogged]
  cases event <;>
    simp [perform, write, Event.recorded, ActivityLog.record]

theorem performAll_logged
    (hlogged : state.activity.map ActivityRecord.toActivityInput =
      state.trace.filterMap fun entry => entry.2.recorded) :
    (state.performAll id now events).activity.map ActivityRecord.toActivityInput =
      (state.performAll id now events).trace.filterMap
        fun entry => entry.2.recorded := by
  induction events generalizing state with
  | nil => exact hlogged
  | cons event rest ih => exact ih (perform_logged hlogged)

/-- A transition of task `id` leaves the other requests as they were. -/
theorem Audited.commit (hstate : state.Audited) (hid : id < state.nextTask)
    (hleft : ∀ task, left = some (.http task) →
      task.stage.Fits task.request.endpoint task.session.data ∧
        recordsIn state.trace id ++ events.filterMap Event.recorded =
          task.stage.written task.request.ip task.session.data)
    (hopen : ∀ endpoint reply, (id, Event.answer endpoint reply) ∉ state.trace)
    (hreplies : ∀ endpoint reply, .answer endpoint reply ∈ events → left = none) :
    (state.commit id now events left).Audited where
  bounded entry hentry := by
    rw [commit_trace] at hentry
    rw [commit_nextTask]
    rcases List.mem_append.mp hentry with hold | hnew
    · exact hstate.bounded entry hold
    · obtain ⟨event, _, rfl⟩ := List.mem_map.mp hnew
      exact hid
  tasks := hstate.tasks.commit hid
  suspended other task htask := by
    rw [commit_tasks] at htask
    rw [commit_trace, recordsIn_append]
    by_cases heq : other = id
    · subst heq
      rw [update_self] at htask
      rw [recordsIn_self]
      exact hleft task htask
    · rw [update_of_ne heq] at htask
      rw [recordsIn_other (Ne.symm heq), List.append_nil]
      exact hstate.suspended other task htask
  answered other endpoint reply hanswer := by
    rw [commit_trace] at hanswer
    rw [commit_tasks]
    rcases List.mem_append.mp hanswer with hold | hnew
    · have hne : other ≠ id := by
        rintro rfl
        exact hopen endpoint reply hold
      rw [update_of_ne hne]
      exact hstate.answered other endpoint reply hold
    · obtain ⟨event, hevent, heq⟩ := List.mem_map.mp hnew
      obtain ⟨rfl, rfl⟩ := Prod.mk.injEq _ _ _ _ ▸ heq
      rw [update_self]
      exact hreplies endpoint reply hevent
  logged := performAll_logged hstate.logged

theorem Audited.withNextTask (hstate : state.Audited) :
    ({ state with nextTask := state.nextTask + 1 } : AuthState).Audited where
  bounded entry hentry := (hstate.bounded entry hentry).trans (Nat.lt_succ_self _)
  tasks other hother := hstate.tasks other ((Nat.le_succ _).trans hother)
  suspended := hstate.suspended
  answered := hstate.answered
  logged := hstate.logged

/-- A task which starts has written nothing. -/
theorem Audited.start (hstate : state.Audited)
    (hquiet : ∀ event ∈ events, event.recorded = none)
    (hopen : ∀ endpoint reply, Event.answer endpoint reply ∉ events)
    (hleft : ∀ task, left = some (.http task) → task.stage = .arrived) :
    ({ state with nextTask := state.nextTask + 1 }.commit state.nextTask now
      events left).Audited := by
  have hrecords : recordsIn state.trace state.nextTask ++
      events.filterMap Event.recorded = [] := by
    rw [recordsIn_fresh hstate.bounded le_rfl, List.filterMap_eq_nil_iff.mpr hquiet]
    rfl
  refine hstate.withNextTask.commit (Nat.lt_succ_self _) ?_ ?_ ?_
  · intro task htask
    rw [hrecords, hleft task htask]
    exact ⟨trivial, rfl⟩
  · exact fun endpoint reply hanswer => absurd (hstate.bounded _ hanswer) (lt_irrefl _)
  · exact fun endpoint reply hanswer => absurd hanswer (hopen endpoint reply)

theorem Audited.accept (hstate : state.Audited) (request : Request) :
    (state.accept request now).Audited := by
  refine hstate.start ?_ ?_ ?_
  · intro event hevent
    rcases state.openSession_cases request.cookie with ⟨_, _, _, hopen⟩ | hopen
    · simp [hopen] at hevent
    · simp only [hopen, List.mem_singleton] at hevent
      subst event
      rfl
  · intro endpoint reply hanswer
    rcases state.openSession_cases request.cookie with ⟨_, _, _, hopen⟩ | hopen <;>
      simp [hopen] at hanswer
  · intro task htask
    obtain rfl := Task.http.inj (Option.some.inj htask)
    rfl

theorem Audited.opening (hstate : state.Audited) (action : Action) :
    (state.opening action).Audited := by
  cases action with
  | request request supply => exact hstate.accept request
  | _ => exact hstate

theorem Audited.job (hstate : state.Audited) (hid : id < state.nextTask)
    (hopen : ∀ endpoint reply, (id, Event.answer endpoint reply) ∉ state.trace)
    (hevents : ∀ event ∈ events, event.ofJob = true)
    (hleft : ∀ task, left ≠ some (.http task)) :
    (state.commit id now events left).Audited := by
  refine hstate.commit hid (fun task htask => absurd htask (hleft task)) hopen ?_
  intro endpoint reply hanswer
  simpa [Event.ofJob] using hevents _ hanswer

end AuthState

theorem SessionMove.not_answer {task : HttpTask} {segment : Segment}
    {endpoint : Endpoint} {reply : Reply}
    (hmove : SessionMove platform state task segment) :
    .answer endpoint reply ∉ segment.events := by
  intro hanswer
  cases hmove with
  | kept after hevents => simpa [Event.isPlain] using hevents _ hanswer
  | leaving logged hlogged =>
      rcases List.mem_append.mp hanswer with hmem | hmem
      · simpa [Event.isPlain] using hlogged _ hmem
      · simp at hmem
  | reading | challenged | passed | accepted | attached | closed =>
      simp [login, regenerateSession, attachUser, loggedOut] at hanswer

theorem Outcome.answer_mem_closing {outcome : Outcome} {endpoint other : Endpoint}
    {reply : Reply} (hanswer : .answer other reply ∈ outcome.closing endpoint) :
    other = endpoint ∧ ∃ session, outcome = .replies session reply := by
  cases outcome with
  | awaits session stage => simp [Outcome.closing] at hanswer
  | replies session found =>
      simp only [Outcome.closing, List.mem_append, List.mem_singleton] at hanswer
      rcases hanswer with hstore | heq
      · cases session with
        | none => simp at hstore
        | some session => split at hstore <;> simp at hstore
      · obtain ⟨rfl, rfl⟩ := Event.answer.inj heq
        exact ⟨rfl, session, rfl⟩

/-- A stretch which answers is one whose outcome is the reply. -/
theorem HttpTask.answer_mem_performed {task : HttpTask} {supply : Supply}
    {endpoint : Endpoint} {reply : Reply}
    (hanswer : .answer endpoint reply ∈ task.performed platform state supply) :
    endpoint = task.request.endpoint ∧
      ∃ session, (task.segment platform state supply).outcome = .replies session reply :=
  Outcome.answer_mem_closing
    ((List.mem_append.mp hanswer).resolve_left segment_sessionMove.not_answer)

theorem HttpTask.performed_recorded (platform : Platform) (state : AuthState)
    (task : HttpTask) (supply : Supply) :
    (task.performed platform state supply).filterMap Event.recorded =
      (task.segment platform state supply).events.filterMap Event.recorded := by
  simp only [HttpTask.performed, List.filterMap_append, closing_recorded, List.append_nil]

section

variable {id : TaskId} {task : HttpTask} {supply : Supply}

/-- The session of a request which runs names its user rightly. -/
theorem AuthState.NamesRightly.opening (hnames : state.NamesRightly)
    (hruns : state.Runs action id task supply) :
    task.session.data.NamedBy (state.opening action).users := by
  intro user row huser hrow hid
  rw [AuthState.opening_users] at hrow
  exact (hnames.runs hruns (.session user huser)).row row hrow hid

theorem AuthState.Audited.runHttp
    (hnames : task.session.data.NamedBy state.users)
    (hstate : state.Audited) (htask : state.tasks id = some (.http task)) :
    (state.runHttp platform id task supply).Audited := by
  obtain ⟨hfits, hbefore⟩ := hstate.suspended id task htask
  have haudited := segment_audited platform supply hnames hfits
  refine hstate.commit (hstate.tasks.lt htask) ?_ ?_ ?_
  · intro resumed hnext
    rw [hbefore]
    have hrecorded := HttpTask.performed_recorded platform state task supply
    rw [HttpTask.performed] at hrecorded
    rw [hrecorded]
    generalize task.segment platform state supply = segment at *
    cases houtcome : segment.outcome with
    | replies session reply => simp [houtcome, Outcome.next] at hnext
    | awaits session stage =>
        simp only [houtcome, Outcome.next, Option.some.injEq, Task.http.injEq] at hnext
        subst resumed
        simpa only [Segment.Audited, houtcome] using haudited
  · intro endpoint reply hanswer
    simp [hstate.answered id endpoint reply hanswer] at htask
  · intro endpoint reply hanswer
    obtain ⟨_, session, houtcome⟩ := HttpTask.answer_mem_performed hanswer
    simp [houtcome, Outcome.next]

end

theorem accountAudited_step :
    (authMachine platform).Preserves Machine.anyAction
      (fun state => state.NamesRightly ∧ state.Audited) := by
  refine namesRightly_step.and ?_
  intro state action next hnames hstate _ hstep
  cases step_cases hstep with
  | request request supply =>
      have hruns : state.Runs (.request request supply) _ _ supply :=
        .arriving request supply
      exact (hstate.accept request).runHttp (hnames.opening hruns) (by simp)
  | arrived request now => exact hstate.accept request
  | resumed id supply task htask =>
      exact hstate.runHttp (hnames.opening (.resumed id supply task htask)) htask
  | job id supply kind input stage htask =>
      refine hstate.job (hstate.tasks.lt htask) ?_ jobSegment_ofJob jobSegment_left
      intro endpoint reply hanswer
      simp [hstate.answered id endpoint reply hanswer] at htask
  | createAdmin args supply input hargs =>
      refine hstate.start ?_ ?_ ?_
      · simp [createAdminStart_events]
      · simp [createAdminStart_events]
      · exact fun task htask => absurd htask (createAdminStart_left task)
  | bootstrap supply =>
      have hjob : ∀ event ∈ (bootstrapStart platform state supply).1,
        event.ofJob = true := bootstrapStart_ofJob
      refine hstate.start ?_ ?_ ?_
      · intro event hevent
        have hevent := hjob event hevent
        cases event <;> simp [Event.ofJob, Event.recorded] at hevent ⊢
      · intro endpoint reply hanswer
        simpa [Event.ofJob] using hjob _ hanswer
      · exact fun task htask => absurd htask (bootstrapStart_left task)
  | expire sid =>
      exact ⟨hstate.bounded, hstate.tasks, hstate.suspended, hstate.answered,
        hstate.logged⟩

theorem audited_start (users : UsersTable) :
    (AuthState.initial users).NamesRightly ∧ (AuthState.initial users).Audited := by
  refine ⟨namesRightly_initial users, ?_⟩
  constructor <;> simp [AuthState.initial, AuthState.TasksBounded]

/-! ## Answered requests -/

section

variable {id : TaskId} {endpoint : Endpoint} {reply : Reply}

/-- An answered request writes no further row. -/
theorem AuthState.Audited.recordsIn_kept (hstate : state.Audited)
    (hanswer : (id, Event.answer endpoint reply) ∈ state.trace)
    (hstep : (authMachine platform).step state action = some next) :
    recordsIn next.trace id = recordsIn state.trace id := by
  have hnone := hstate.answered id endpoint reply hanswer
  have hfresh : state.nextTask ≠ id := (hstate.bounded _ hanswer).ne'
  have hacting : ∀ {acting task}, state.tasks acting = some task → acting ≠ id := by
    rintro acting task htask rfl
    simp [hnone] at htask
  cases step_cases hstep with
  | request request supply =>
      rw [AuthState.runHttp_trace, AuthState.accept_trace, recordsIn_append,
        recordsIn_append, recordsIn_other hfresh, recordsIn_other hfresh,
        List.append_nil, List.append_nil]
  | arrived request now =>
      rw [AuthState.accept_trace, recordsIn_append, recordsIn_other hfresh,
        List.append_nil]
  | resumed acting supply task htask =>
      rw [AuthState.runHttp_trace, recordsIn_append, recordsIn_other (hacting htask),
        List.append_nil]
  | job acting supply kind input stage htask =>
      rw [AuthState.commit_trace, recordsIn_append, recordsIn_other (hacting htask),
        List.append_nil]
  | createAdmin args supply input hargs =>
      rw [AuthState.startJob, AuthState.commit_trace, recordsIn_append,
        recordsIn_other hfresh, List.append_nil]
  | bootstrap supply =>
      rw [AuthState.startJob, AuthState.commit_trace, recordsIn_append,
        recordsIn_other hfresh, List.append_nil]
  | expire sid => rfl

theorem AuthState.Audited.recordsIn_last {records : List ActivityInput}
    (hstate : state.NamesRightly ∧ state.Audited)
    (hanswer : (id, Event.answer endpoint reply) ∈ state.trace)
    (hrecords : recordsIn state.trace id = records)
    (hexec : (authMachine platform).exec state word = some last) :
    recordsIn last.trace id = records := by
  have hkept : (authMachine platform).Preserves Machine.anyAction fun state =>
      (state.NamesRightly ∧ state.Audited) ∧
        (id, Event.answer endpoint reply) ∈ state.trace ∧
        recordsIn state.trace id = records := by
    refine accountAudited_step.and ?_
    intro state action next hstate hanswered _ hstep
    obtain ⟨more, hmore⟩ := trace_grows hstep
    exact ⟨hmore ▸ List.mem_append_left more hanswered.1,
      (hstate.2.recordsIn_kept hanswered.1 hstep).trans hanswered.2⟩
  exact (hkept.exec_any ⟨hstate, hanswer, hrecords⟩ hexec).2.2

theorem Endpoint.audit_opening {ip : String} {data : SessionData} :
    endpoint.audit (state.opening action) ip data reply =
      endpoint.audit state ip data reply := by
  simp only [Endpoint.audit, AuthState.opening_users, AuthState.opening_sessions]

/-- The step which answers a request has written the row of the answer. -/
theorem AuthState.Audited.answering {task : HttpTask} {supply : Supply}
    {session : Option RequestSession} (hnames : state.NamesRightly)
    (hstate : state.Audited) (hruns : state.Runs action id task supply)
    (hstep : (authMachine platform).step state action = some next)
    (houtcome : (task.segment platform (state.opening action) supply).outcome =
      .replies session reply) :
    recordsIn next.trace id = (task.request.endpoint.audit state task.request.ip
      task.session.data reply).toList := by
  obtain ⟨htask, rfl⟩ := hruns.transition hstep
  obtain ⟨hfits, hbefore⟩ := (hstate.opening action).suspended id task htask
  have haudited := segment_audited platform supply (hnames.opening hruns) hfits
  rw [AuthState.runHttp_trace, recordsIn_append, recordsIn_self,
    HttpTask.performed_recorded, hbefore, ← Endpoint.audit_opening]
  simpa only [Segment.Audited, houtcome] using haudited

end

/-- In the run, a stretch of `task` which starts in `state` answers the request
of the task with `reply`. -/
def AnsweredFrom (platform : Platform) (users : UsersTable) (word : List Action)
    (id : TaskId) (reply : Reply) (state : AuthState) (task : HttpTask) : Prop :=
  ∃ before action after supply session, word = before ++ action :: after ∧
    (authMachine platform).exec (.initial users) before = some state ∧
    state.Runs action id task supply ∧
    (task.segment platform (state.opening action) supply).outcome =
      .replies session reply

/-- In every run the activity log holds the rows its tasks have written, in
order.  A request which is still to be answered has written none, except that
`logout` writes its row first; an answered request has written the row its
answer stands for, with its message, its user and its address, and no other. -/
theorem answered_audited
    (hexec : (authMachine platform).exec (.initial users) word = some last) :
    last.activity.map ActivityRecord.toActivityInput =
        last.trace.filterMap (fun entry => entry.2.recorded) ∧
      (∀ id task, last.tasks id = some (.http task) →
        recordsIn last.trace id =
          task.stage.written task.request.ip task.session.data) ∧
      ∀ id endpoint reply, (id, Event.answer endpoint reply) ∈ last.trace →
        ∃ state task, AnsweredFrom platform users word id reply state task ∧
          task.request.endpoint = endpoint ∧
          recordsIn last.trace id = (endpoint.audit state task.request.ip
            task.session.data reply).toList := by
  have hlast := accountAudited_step.exec_any (audited_start users) hexec
  refine ⟨hlast.2.logged, fun id task htask => (hlast.2.suspended id task htask).2, ?_⟩
  intro id endpoint reply hanswer
  obtain ⟨before, action, after, state, next, rfl, hbefore, hstep, hnot, hnext⟩ :=
    Machine.exec_first (P := fun state : AuthState =>
      (id, Event.answer endpoint reply) ∈ state.trace)
      (by simp [AuthState.initial]) hanswer hexec
  have hstate := accountAudited_step.exec_any (audited_start users) hbefore
  rcases trace_step hstep hnext with hold | ⟨task, supply, hruns, hperformed⟩ |
    ⟨sid, hopened⟩ | hjob
  · exact absurd hold hnot
  · obtain ⟨rfl, session, houtcome⟩ := HttpTask.answer_mem_performed hperformed
    refine ⟨state, task, ⟨before, action, after, supply, session, rfl, hbefore,
      hruns, houtcome⟩, rfl, ?_⟩
    have hafter := Machine.exec_suffix hbefore hexec
    rw [Machine.exec_cons_some hstep] at hafter
    exact AuthState.Audited.recordsIn_last
      (accountAudited_step state action next hstate trivial hstep) hnext
      (hstate.2.answering hstate.1 hruns hstep houtcome) hafter
  · cases hopened
  · simp [Event.ofJob] at hjob

/-- The event answers a login with the user who has logged in. -/
def Event.welcomes : Event → Bool
  | .answer (.login _ _) (.success _ (.loggedIn _)) => true
  | _ => false

theorem answered_audited_sampleBootstrap :
    ∃ last id code user state task, (authMachine samplePlatform).exec
        (.initial .empty) (sampleBootstrap ++ sampleLogin 1 0 "admin" "password") =
          some last ∧
      AnsweredFrom samplePlatform .empty
        (sampleBootstrap ++ sampleLogin 1 0 "admin" "password") id
        (.success code (.loggedIn user)) state task ∧
      recordsIn last.trace id = [auditRow .loginSuccess
        s!"User \"{user.username}\" logged in" user.username task.request.ip] := by
  obtain ⟨last, hexec, htest⟩ := Machine.exists_of_exec_map
    (authMachine samplePlatform) (.initial .empty)
    (sampleBootstrap ++ sampleLogin 1 0 "admin" "password")
    (fun last => last.trace.any fun entry => entry.2.welcomes)
    (by decide +kernel)
  obtain ⟨⟨id, event⟩, hmem, hlogin⟩ := List.any_eq_true.mp htest
  simp only [Event.welcomes] at hlogin
  split at hlogin
  next username password code user =>
    obtain ⟨state, task, hanswered, _, hrecords⟩ :=
      (answered_audited hexec).2.2 id _ _ hmem
    exact ⟨last, id, code, user, state, task, hexec, hanswered, hrecords⟩
  · simp at hlogin

end Pm2Manager
