import Pm2Manager.AccountAudit

/-!
# Who may write the `users` table

The middleware decides about a request when it arrives; some handlers write
only after one or two awaits.  By then the request still stands for the user
and the token it was admitted with, and its handler works on the row of this
user, or is one which the middleware keeps for administrators.  Requests with a safe
method pass without a token, and write nothing but their session.
-/

namespace Pm2Manager

open Function

variable {platform : Platform} {state next : AuthState}
variable {action : Action} {users : UsersTable} {word : List Action}

/-- How a request of `user` changes the table: its own credentials, or, as an
administrator, by a new row or without the row of somebody else. -/
inductive AccountChange (user : SessionUser) (before after : UsersTable) : Prop
  | own (change : UserRecord → UserRecord)
      (hkept : ∀ row, (change row).id = row.id ∧
        (change row).sessionUser = row.sessionUser ∧
        (change row).createdAt = row.createdAt)
      (hrows : after.rows = before.rows.map fun row =>
        if row.id = user.id then change row else row)
  | created (row : UserRecord) (hadmin : user.isAdmin = true)
      (hid : row.id = before.nextId) (hrows : after.rows = before.rows ++ [row])
  | deleted (id : ℕ) (hadmin : user.isAdmin = true) (hother : id ≠ user.id)
      (hrows : after.rows = before.rows.filter fun row => row.id ≠ id)

/-- The action resumes `create-admin` or the start of the application. -/
def AuthState.RunsJob (state : AuthState) (action : Action) : Prop :=
  ∃ id supply kind input stage,
    action = .resume id supply ∧ state.tasks id = some (.job kind input stage)

/-- The table is written by a job, or by a request which has passed the
middleware, and then only as its user may. -/
def ChangesAuthorised (state : AuthState) (action : Action)
    (next : AuthState) : Prop :=
  next.users.rows = state.users.rows ∨ state.RunsJob action ∨
    ∃ id task supply user, state.Runs action id task supply ∧
      Admitted task.request task.session.data ∧
      task.session.data.user = some user ∧
      AccountChange user state.users next.users

/-! ## Suspended requests -/

/-- The account row which the handler is going to write. -/
def Stage.target : Stage → Option UserRecord
  | .verifyCurrent user _ _ | .hashNew user _ | .verifyDisable user _ => some user
  | _ => none

structure HttpTask.Cleared (task : HttpTask) : Prop where
  owner : ∀ row, task.stage.target = some row →
    Admitted task.request task.session.data ∧
      task.session.data.userId = some row.id
  creation : ∀ input, task.stage = .hashCreate input →
    Admitted task.request task.session.data ∧
      ∃ username password isAdmin,
        task.request.endpoint = .createUser username password isAdmin

theorem HttpTask.cleared_of_stage {task : HttpTask}
    (htarget : task.stage.target = none)
    (hcreate : ∀ input, task.stage ≠ .hashCreate input) : task.Cleared where
  owner row hrow := by simp [htarget] at hrow
  creation input hinput := absurd hinput (hcreate input)

theorem SecretChange.admitted {task : HttpTask} {after : RequestSession}
    (hchange : SecretChange platform state task after)
    (hadmitted : Admitted task.request task.session.data) :
    Admitted task.request after.data := by
  cases hchange with
  | csrf secret hendpoint hnone =>
      simp [Admitted, csrfProtection, Endpoint.guard, Endpoint.isSafe, hendpoint]
  | setup secret user row => exact hadmitted
  | enable raw token secret user => exact hadmitted

theorem arrive_awaits {request : Request} {session after : RequestSession}
    {supply : Supply} {stage : Stage}
    (hawaits : (arrive platform state request session supply).outcome =
      .awaits after stage) : Admitted request session.data := by
  unfold arrive at hawaits
  split at hawaits
  · simp [fail] at hawaits
  · simp [fail] at hawaits
  · simp [fail] at hawaits
  next segment hcsrf hguard hcontroller => exact ⟨hcsrf, hguard⟩

/-- Only the first stretch of a request looks up the row it asks to change. -/
theorem segment_verifyDisable {task : HttpTask} {supply : Supply}
    {session : RequestSession} {row : UserRecord} {password : String}
    (hawaits : (task.segment platform state supply).outcome =
      .awaits session (.verifyDisable row password)) : task.stage = .arrived := by
  unfold HttpTask.segment at hawaits
  cases hstage : task.stage with
  | arrived => rfl
  | verifyLogin user username password =>
      simp only [hstage, loginVerified] at hawaits
      split at hawaits
      · simp [fail] at hawaits
      · split at hawaits <;> simp [regenerateSession] at hawaits
  | verifyCurrent user current new =>
      simp only [hstage, currentVerified] at hawaits
      split at hawaits <;> simp [fail] at hawaits
  | hashNew user new =>
      simp only [hstage, passwordHashed, currentUser] at hawaits
      split at hawaits <;> simp at hawaits
  | renderQr secret url =>
      simp only [hstage, qrRendered] at hawaits
      split at hawaits <;> simp [fail] at hawaits
  | verifyDisable user password =>
      simp only [hstage, disableVerified] at hawaits
      split at hawaits <;> simp [fail] at hawaits
  | hashCreate input =>
      simp only [hstage, userHashed] at hawaits
      split at hawaits <;> simp [fail] at hawaits
  | challengeSaved => simp [hstage, challengeAnswer] at hawaits
  | regenerated user step => simp [hstage, attachUser] at hawaits
  | established user step => simp [hstage, loggedIn] at hawaits
  | destroyed => simp [hstage, loggedOut] at hawaits

theorem HttpTask.Cleared.resumed {task resumed : HttpTask} {supply : Supply}
    (hcleared : task.Cleared)
    (hnext : (task.segment platform state supply).outcome.next task.request =
      some (.http resumed)) : resumed.Cleared := by
  have hmove : SessionMove platform state task
      (task.segment platform state supply) := segment_sessionMove
  have harrived : ∀ session stage, task.stage = .arrived →
      (task.segment platform state supply).outcome = .awaits session stage →
      Admitted task.request task.session.data := by
    intro session stage hstage hawaits
    simp only [HttpTask.segment, hstage] at hawaits
    exact arrive_awaits hawaits
  have hdisable : ∀ session row password,
      (task.segment platform state supply).outcome =
        .awaits session (.verifyDisable row password) → task.stage = .arrived :=
    fun session row password => segment_verifyDisable
  generalize task.segment platform state supply = segment at *
  cases hmove with
  | kept after hevents houtcome hafter hstage =>
      generalize segment.outcome = outcome at *
      cases outcome with
      | replies session reply => simp [Outcome.next] at hnext
      | awaits session stage =>
          simp only [Outcome.next, Option.some.injEq, Task.http.injEq] at hnext
          obtain ⟨rfl, hplain⟩ := houtcome
          subst resumed
          have hadmitted : Admitted task.request task.session.data →
              Admitted task.request session.data := by
            intro hbefore
            rcases hafter with rfl | ⟨_, hchange⟩
            · exact hbefore
            · exact hchange.admitted hbefore
          have huser : session.data.user = task.session.data.user := by
            rcases hafter with rfl | ⟨_, hchange⟩
            · rfl
            · exact hchange.sameLogin.user
          cases hplain with
          | verifyCurrent user row current new hstage hasks hsession hrow =>
              refine ⟨fun found hfound => ?_, fun input hinput => by simp at hinput⟩
              obtain rfl := Option.some.inj hfound
              refine ⟨hadmitted (harrived _ _ hstage rfl), ?_⟩
              simp [SessionData.userId, huser, hsession,
                (UsersTable.mem_of_findById hrow).2]
          | hashNew row current new hstage hverify =>
              refine ⟨fun found hfound => ?_, fun input hinput => by simp at hinput⟩
              obtain rfl := Option.some.inj hfound
              obtain ⟨hbefore, hid⟩ := hcleared.owner row (by simp [hstage, Stage.target])
              refine ⟨hadmitted hbefore, ?_⟩
              rw [← hid, SessionData.userId, SessionData.userId, huser]
          | renderQr secret url =>
              exact HttpTask.cleared_of_stage rfl (by simp)
          | verifyDisable user row password hsession hrow =>
              refine ⟨fun found hfound => ?_, fun input hinput => by simp at hinput⟩
              obtain rfl := Option.some.inj hfound
              refine ⟨hadmitted (harrived _ _ (hdisable _ _ _ rfl) rfl), ?_⟩
              simp [SessionData.userId, huser, hsession,
                (UsersTable.mem_of_findById hrow).2]
          | hashCreate input hstage hasks hname =>
              refine ⟨fun found hfound => by simp [Stage.target] at hfound,
                fun other _ => ⟨hadmitted (harrived _ _ hstage rfl), ?_⟩⟩
              obtain ⟨username, password, isAdmin, hendpoint, _⟩ := hasks
              exact ⟨username, password, isAdmin, hendpoint⟩
  | reading username password hstage hlogin =>
      simp only [login, Outcome.next, Option.some.injEq, Task.http.injEq] at hnext
      subst resumed
      exact HttpTask.cleared_of_stage rfl (by simp)
  | passed | accepted =>
      simp only [regenerateSession, Outcome.next, Option.some.injEq,
        Task.http.injEq] at hnext
      subst resumed
      exact HttpTask.cleared_of_stage rfl (by simp)
  | attached row step hstage =>
      simp only [attachUser, Outcome.next, Option.some.injEq,
        Task.http.injEq] at hnext
      subst resumed
      exact HttpTask.cleared_of_stage rfl (by simp)
  | challenged | leaving =>
      simp only [Outcome.next, Option.some.injEq, Task.http.injEq] at hnext
      subst resumed
      exact HttpTask.cleared_of_stage rfl (by simp)
  | closed => simp [loggedOut, Outcome.next] at hnext

def AuthState.RequestsCleared (state : AuthState) : Prop :=
  ∀ id task, state.tasks id = some (.http task) → task.Cleared

theorem acceptedTask_cleared (state : AuthState) (request : Request) :
    (state.acceptedTask request).Cleared :=
  HttpTask.cleared_of_stage rfl (by simp [AuthState.acceptedTask])

theorem requestsCleared_step :
    (authMachine platform).Preserves Machine.anyAction
      AuthState.RequestsCleared := by
  intro state action next hstate _ hstep id task htask
  cases task_step hstep htask with
  | kept hbefore _ => exact hstate id task hbefore
  | held request now haction hheld =>
      subst hheld
      exact acceptedTask_cleared state request
  | ran before supply hruns hnext =>
      have hbefore : before.Cleared := by
        cases hruns with
        | arriving request supply => exact acceptedTask_cleared state request
        | resumed id supply task hcurrent => exact hstate id before hcurrent
      exact hbefore.resumed hnext

/-! ## Transitions -/

theorem Admitted.isAdmin {request : Request} {data : SessionData}
    (hadmitted : Admitted request data)
    (hendpoint : ∀ data, request.endpoint.guard data = requireAdmin data) :
    ∃ user, data.user = some user ∧ user.isAdmin = true := by
  have hguard := hadmitted.2
  rw [hendpoint, requireAdmin] at hguard
  split at hguard
  · simp at hguard
  next user huser =>
    split at hguard
    next hadmin => exact ⟨user, huser, hadmin⟩
    · simp at hguard

theorem accountChange_updatePassword {table : UsersTable} {user : SessionUser}
    {passwordHash now : String} :
    AccountChange user table (table.updatePassword user.id passwordHash now) :=
  .own (fun row => { row with passwordHash := passwordHash, updatedAt := now })
    (fun _ => ⟨rfl, rfl, rfl⟩) rfl

theorem accountChange_setTotp {table : UsersTable} {user : SessionUser}
    {secret : Option String} {enabled : Bool} {now : String} :
    AccountChange user table (table.setTotp user.id secret enabled now) :=
  .own (fun row => { row with
      totpSecret := secret, totpEnabled := enabled, updatedAt := now })
    (fun _ => ⟨rfl, rfl, rfl⟩) rfl

theorem changesAuthorised_step (hstate : state.RequestsCleared)
    (hstep : (authMachine platform).step state action = some next) :
    ChangesAuthorised state action next := by
  cases users_step hstep with
  | quiet id events hevents husers htrace => exact .inl (by rw [husers])
  | written task now event before after hcause hbefore hafter husers htrace =>
      refine .inr ?_
      cases hcause with
      | resetPassword id supply kind input existing htask
      | createInJob id supply kind input table htask hcreate =>
          exact .inl ⟨_, supply, kind, input, _, rfl, htask⟩
      | changePassword id supply task row newPassword htask hstage =>
          obtain ⟨hadmitted, hid⟩ := (hstate id task htask).owner row
            (by simp [hstage, Stage.target])
          obtain ⟨user, huser, hrow⟩ := Option.map_eq_some_iff.mp hid
          refine .inr ⟨id, task, supply, user, .resumed id supply task htask, hadmitted,
            huser, ?_⟩
          rw [husers, ← hrow]
          exact accountChange_updatePassword
      | enableTotp action id task supply raw token secret user hruns hstage hadmitted
          hendpoint htoken huser hsecret hverify =>
          refine .inr ⟨id, task, supply, user, hruns, hadmitted, huser, ?_⟩
          rw [husers]
          exact accountChange_setTotp
      | disableTotp id supply task row password htask hstage hverify =>
          obtain ⟨hadmitted, hid⟩ := (hstate id task htask).owner row
            (by simp [hstage, Stage.target])
          obtain ⟨user, huser, hrow⟩ := Option.map_eq_some_iff.mp hid
          refine .inr ⟨id, task, supply, user, .resumed id supply task htask, hadmitted,
            huser, ?_⟩
          rw [husers, ← hrow]
          exact accountChange_setTotp
      | createUser id supply task input table htask hstage hcreate =>
          obtain ⟨hadmitted, username, password, isAdmin, hendpoint⟩ :=
            (hstate id task htask).creation input hstage
          obtain ⟨user, huser, hadmin⟩ := hadmitted.isAdmin
            (fun data => by simp [hendpoint, Endpoint.guard])
          refine .inr ⟨id, task, supply, user, .resumed id supply task htask, hadmitted,
            huser, .created (state.users.newRow (newUserData platform input supply)
              supply.now) hadmin rfl ?_⟩
          rw [husers]
          simp only [AuthState.write, hcreate, Option.getD_some]
          exact (UsersTable.create_eq_some hcreate).2.1
      | deleteUser action id task supply raw other target hruns hstage hadmitted
          hendpoint hid hself htarget hlast =>
          obtain ⟨user, huser, hadmin⟩ := hadmitted.isAdmin
            (fun data => by simp [hendpoint, Endpoint.guard])
          refine .inr ⟨id, task, supply, user, hruns, hadmitted, huser,
            .deleted other hadmin ?_ ?_⟩
          · rintro rfl
            exact hself (by simp [SessionData.userId, huser])
          · rw [husers]
            rfl

/-- In every run, whatever is suspended in between, the `users` table changes
by a job, or by a request which has passed the CSRF check and the guard of its
route and changes the credentials of its own user or, as an administrator's,
adds an account or deletes another one's. -/
theorem account_changes_authorised (users : UsersTable) (word : List Action) :
    (authMachine platform).Steps ChangesAuthorised (.initial users) word := by
  refine Machine.steps_of_admits requestsCleared_step ?_ ?_
    (Machine.admits_anyAction _ _)
  · exact fun state action next hstate _ hstep => changesAuthorised_step hstate hstep
  · intro id task htask
    simp [AuthState.initial] at htask

/-! ## Requests without a token -/

/-- A request with a safe method leaves the tables and the log alone, and of
the sessions writes its own only, as the login it had loaded. -/
def SafeOnlySaves (state : AuthState) (action : Action) (next : AuthState) : Prop :=
  ∀ id task supply, state.Runs action id task supply →
    task.request.endpoint.isSafe = true →
    next.users = state.users ∧ next.settings = state.settings ∧
      next.activity = state.activity ∧
      (∀ row ∈ state.sessions.rows, row.1 ≠ task.session.sid →
        row ∈ next.sessions.rows) ∧
      ∀ row ∈ next.sessions.rows, row ∈ state.sessions.rows ∨
        row.1 = task.session.sid ∧ row.2.user = task.session.data.user ∧
          row.2.pending2fa = task.session.data.pending2fa ∧
          row.2.pendingTotpSecret = task.session.data.pendingTotpSecret

/-- The session a safe handler answers with: its copy, or its copy with a new
token. -/
inductive RequestSession.TokenAdded (session : RequestSession) : RequestSession → Prop
  | same : TokenAdded session session
  | drawn (secret : String) : TokenAdded session (session.setCsrfSecret secret)

def Segment.OnlyAnswers (segment : Segment) (session : RequestSession) : Prop :=
  segment.events = [] ∧ ∃ after reply,
    session.TokenAdded after ∧ segment.outcome = .replies (some after) reply

theorem onlyAnswers_fail {session : RequestSession} {error : AppError} :
    (fail session error).OnlyAnswers session :=
  ⟨rfl, _, _, .same, rfl⟩

theorem safe_controller {request : Request} {session : RequestSession}
    {supply : Supply} {segment : Segment}
    (hsafe : request.endpoint.isSafe = true)
    (hcontroller : controller platform state request session supply = .ok segment) :
    segment.OnlyAnswers session := by
  unfold controller at hcontroller
  cases hendpoint : request.endpoint <;> simp only [hendpoint] at hcontroller <;>
    simp only [hendpoint, Endpoint.isSafe, Bool.false_eq_true] at hsafe
  case csrfToken =>
    obtain rfl := Except.ok.inj hcontroller
    unfold csrfTokenHandler
    split
    · exact ⟨rfl, _, _, .same, rfl⟩
    · exact ⟨rfl, _, _, .drawn _, rfl⟩
  case me =>
    obtain rfl := Except.ok.inj hcontroller
    unfold me currentUser
    split
    · exact onlyAnswers_fail
    · dsimp only
      split
      · exact onlyAnswers_fail
      · exact ⟨rfl, _, _, .same, rfl⟩
  case listUsers =>
    obtain rfl := Except.ok.inj hcontroller
    exact ⟨rfl, _, _, .same, rfl⟩
  case getSettings =>
    obtain rfl := Except.ok.inj hcontroller
    exact ⟨rfl, _, _, .same, rfl⟩
  case listActivity =>
    obtain ⟨query, _, rfl⟩ := except_map_ok hcontroller
    exact ⟨rfl, _, _, .same, rfl⟩

theorem safe_segment {task : HttpTask} {supply : Supply}
    (hsafe : task.request.endpoint.isSafe = true)
    (hfits : task.stage.Fits task.request.endpoint task.session.data) :
    (task.segment platform state supply).OnlyAnswers task.session := by
  have hstage : task.stage = .arrived := by
    cases hendpoint : task.request.endpoint <;>
      simp only [hendpoint, Endpoint.isSafe, Bool.false_eq_true] at hsafe <;>
      cases hstage : task.stage <;> simp_all [Stage.Fits]
  simp only [HttpTask.segment, hstage, arrive]
  split
  · exact onlyAnswers_fail
  · exact onlyAnswers_fail
  · exact onlyAnswers_fail
  next segment _ _ hcontroller => exact safe_controller hsafe hcontroller

theorem AuthState.opening_tables (state : AuthState) (action : Action) :
    (state.opening action).settings = state.settings ∧
      (state.opening action).activity = state.activity := by
  cases action with
  | request request supply =>
      rcases state.openSession_cases request.cookie with ⟨_, _, _, hopen⟩ | hopen <;>
        simp [AuthState.opening, AuthState.accept, AuthState.commit, hopen,
          AuthState.performAll, AuthState.perform, AuthState.write]
  | _ => exact ⟨rfl, rfl⟩

theorem Outcome.closing_replies (session : RequestSession) (endpoint : Endpoint)
    (reply : Reply) :
    (Outcome.replies (some session) reply).closing endpoint =
        [.answer endpoint reply] ∨
      (Outcome.replies (some session) reply).closing endpoint =
        [.storeSession session.sid session.data, .answer endpoint reply] := by
  unfold Outcome.closing
  dsimp only
  split
  · exact .inr rfl
  · exact .inl rfl

theorem safe_step (hstate : state.Audited)
    (hstep : (authMachine platform).step state action = some next) :
    SafeOnlySaves state action next := by
  intro id task supply hruns hsafe
  have hfits : task.stage.Fits task.request.endpoint task.session.data := by
    cases hruns with
    | arriving request supply => trivial
    | resumed id supply task htask => exact (hstate.suspended id task htask).1
  obtain ⟨hnone, after, reply, hadded, houtcome⟩ :
      (task.segment platform (state.opening action) supply).OnlyAnswers task.session :=
    safe_segment hsafe hfits
  obtain ⟨hsettings, hactivity⟩ := state.opening_tables action
  have husers := state.opening_users action
  have hsessions := state.opening_sessions action
  obtain ⟨_, rfl⟩ := hruns.transition hstep
  have hsame : after.sid = task.session.sid ∧
      after.data.user = task.session.data.user ∧
      after.data.pending2fa = task.session.data.pending2fa ∧
      after.data.pendingTotpSecret = task.session.data.pendingTotpSecret := by
    cases hadded <;> exact ⟨rfl, rfl, rfl, rfl⟩
  simp only [AuthState.runHttp, hnone, houtcome, List.nil_append]
  rcases Outcome.closing_replies after task.request.endpoint reply with hclosing | hclosing
  · rw [hclosing]
    refine ⟨husers, hsettings, hactivity, fun row hrow _ => ?_, fun row hrow => .inl ?_⟩
    · exact hsessions ▸ hrow
    · exact hsessions ▸ hrow
  · rw [hclosing]
    refine ⟨husers, hsettings, hactivity, fun row hrow hother => ?_, fun row hrow => ?_⟩
    · refine SessionStore.mem_set.mpr (.inl ⟨hsessions ▸ hrow, ?_⟩)
      exact hsame.1 ▸ hother
    · rcases SessionStore.mem_set.mp hrow with ⟨hold, _⟩ | rfl
      · exact .inl (hsessions ▸ hold)
      · exact .inr hsame

/-- In every run a request with a safe method, which needs no token, changes
no table, and no session but its own, to which it gives no user, no challenge
and no secret of the second factor. -/
theorem safe_requests_only_save (users : UsersTable) (word : List Action) :
    (authMachine platform).Steps SafeOnlySaves (.initial users) word := by
  refine Machine.steps_of_admits accountAudited_step ?_ (audited_start users)
    (Machine.admits_anyAction _ _)
  exact fun state action next hstate _ hstep => safe_step hstate.2 hstep

end Pm2Manager
