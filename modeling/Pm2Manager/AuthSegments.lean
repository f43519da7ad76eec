import Pm2Manager.AuthStep

/-!
# The stretches of a request, by what they touch

`UsersUse` lists the six ways in which a stretch uses the `users` table and
`SessionMove` the eight ways in which it treats the session of its request.
Both are proved by going through the handlers once; `step_cases` does the same
for the actions of the machine.
-/

namespace Pm2Manager

open Function
open ScriptText (truthy)

/-- What `SessionMove.kept` leaves as it was: the id, the user and the pending
challenge of a session. -/
structure SameLogin (before after : RequestSession) : Prop where
  sid : after.sid = before.sid
  user : after.data.user = before.data.user
  pending2fa : after.data.pending2fa = before.data.pending2fa

/-- The handlers which change a secret of their session, the changed session
being `after`. -/
inductive SecretChange (platform : Platform) (state : AuthState)
    (task : HttpTask) : RequestSession → Prop
  | csrf (secret : String) (hendpoint : task.request.endpoint = .csrfToken)
      (hnone : truthy task.session.data.csrfSecret = none) :
      SecretChange platform state task (task.session.setCsrfSecret secret)
  | setup (secret : String) (user : SessionUser) (row : UserRecord)
      (hadmitted : Admitted task.request task.session.data)
      (hendpoint : task.request.endpoint = .setupTwoFactor)
      (huser : task.session.data.user = some user)
      (hrow : state.users.findById user.id = some row) :
      SecretChange platform state task
        (task.session.setPendingTotpSecret (some secret))
  | enable (raw token secret : String) (user : SessionUser)
      (hadmitted : Admitted task.request task.session.data)
      (hendpoint : task.request.endpoint = .enableTwoFactor raw)
      (htoken : totpCode raw = .ok token)
      (huser : task.session.data.user = some user)
      (hsecret : truthy task.session.data.pendingTotpSecret = some secret)
      (hverify : platform.totpVerify token secret = true) :
      SecretChange platform state task (task.session.setPendingTotpSecret none)

theorem SecretChange.sameLogin {platform : Platform} {state : AuthState}
    {task : HttpTask} {after : RequestSession}
    (hchange : SecretChange platform state task after) :
    SameLogin task.session after := by
  cases hchange <;> exact ⟨rfl, rfl, rfl⟩

/-- The handler of the request is `login`. -/
def HttpTask.LogsIn (task : HttpTask) : Prop :=
  Admitted task.request task.session.data ∧
    ∃ username password body,
      task.request.endpoint = .login username password ∧
      loginSchema username password = .ok body

/-- The session of the request, which has not run yet, may be changed by its
handler. -/
inductive HttpTask.Changes (platform : Platform) (task : HttpTask) : Prop
  | csrf (hendpoint : task.request.endpoint = .csrfToken)
      (hnone : truthy task.session.data.csrfSecret = none)
  | login (hlogin : task.LogsIn)
  | setup (user : SessionUser)
      (hadmitted : Admitted task.request task.session.data)
      (hendpoint : task.request.endpoint = .setupTwoFactor)
      (huser : task.session.data.user = some user)
  | enable (raw token secret : String) (user : SessionUser)
      (hadmitted : Admitted task.request task.session.data)
      (hendpoint : task.request.endpoint = .enableTwoFactor raw)
      (htoken : totpCode raw = .ok token)
      (huser : task.session.data.user = some user)
      (hsecret : truthy task.session.data.pendingTotpSecret = some secret)
      (hverify : platform.totpVerify token secret = true)

theorem SecretChange.changes {platform : Platform} {state : AuthState}
    {task : HttpTask} {after : RequestSession}
    (hchange : SecretChange platform state task after) :
    task.Changes platform := by
  cases hchange with
  | csrf secret hendpoint hnone => exact .csrf hendpoint hnone
  | setup secret user row hadmitted hendpoint huser hrow =>
      exact .setup user hadmitted hendpoint huser
  | enable raw token secret user hadmitted hendpoint htoken huser hsecret
      hverify =>
      exact .enable raw token secret user hadmitted hendpoint htoken huser
        hsecret hverify

/-- The validated body of a `changePassword` request. -/
def HttpTask.AsksChange (task : HttpTask)
    (currentPassword newPassword : String) : Prop :=
  ∃ rawCurrent rawNew,
    task.request.endpoint = .changePassword rawCurrent rawNew ∧
      changePasswordSchema rawCurrent rawNew = .ok (currentPassword, newPassword)

/-- The validated body of a `create` request. -/
def HttpTask.AsksAccount (task : HttpTask) (input : CreateUserInput) : Prop :=
  ∃ rawUsername rawPassword isAdmin,
    task.request.endpoint = .createUser rawUsername rawPassword isAdmin ∧
      createUserSchema rawUsername rawPassword isAdmin = .ok input

/-- The stages outside of login and logout which a stretch can lead to, with
what it has read or checked before. -/
inductive Stage.Plain (platform : Platform) (state : AuthState)
    (task : HttpTask) : Stage → Prop
  | verifyCurrent (sessionUser : SessionUser) (user : UserRecord)
      (currentPassword newPassword : String)
      (hstage : task.stage = .arrived)
      (hasks : task.AsksChange currentPassword newPassword)
      (huser : task.session.data.user = some sessionUser)
      (hrow : state.users.findById sessionUser.id = some user) :
      Plain platform state task
        (.verifyCurrent user currentPassword newPassword)
  | hashNew (user : UserRecord) (currentPassword newPassword : String)
      (hstage : task.stage = .verifyCurrent user currentPassword newPassword)
      (hverify :
        platform.verifyPassword user.passwordHash currentPassword = true) :
      Plain platform state task (.hashNew user newPassword)
  | renderQr (secret otpauthUrl : String) :
      Plain platform state task (.renderQr secret otpauthUrl)
  | verifyDisable (sessionUser : SessionUser) (user : UserRecord)
      (password : String)
      (huser : task.session.data.user = some sessionUser)
      (hrow : state.users.findById sessionUser.id = some user) :
      Plain platform state task (.verifyDisable user password)
  | hashCreate (input : CreateUserInput) (hstage : task.stage = .arrived)
      (hasks : task.AsksAccount input)
      (hname : checkUsername state input.username = .ok ()) :
      Plain platform state task (.hashCreate input)

/-- The session of the request is the one of its cookie, or has never been
given a user. -/
def Stage.ownsSession : Stage → Bool
  | .regenerated _ _ | .destroyed => false
  | _ => true

/-- The outcome goes on with `after` as the session, outside login. -/
def Outcome.Keeps (platform : Platform) (state : AuthState) (task : HttpTask)
    (after : RequestSession) : Outcome → Prop
  | .awaits session stage =>
      session = after ∧ stage.Plain platform state task
  | .replies session _ => session = some after

section

variable (platform : Platform) (state : AuthState) (task : HttpTask)
  (supply : Supply)

/-! ## The users table -/

inductive UsersUse : Segment → Prop
  | quiet {segment : Segment}
      (hevents : ∀ event ∈ segment.events, event.onUsers = false) :
      UsersUse segment
  | updatePassword (user : UserRecord) (newPassword : String)
      (activity : ActivityInput) (outcome : Outcome)
      (hstage : task.stage = .hashNew user newPassword) :
      UsersUse ⟨[.updatePassword user.id
        (platform.argon2Hash supply.random newPassword), .record activity],
        outcome⟩
  | enableTotp (raw token secret : String) (user : SessionUser)
      (activity : ActivityInput) (outcome : Outcome)
      (hstage : task.stage = .arrived)
      (hadmitted : Admitted task.request task.session.data)
      (hendpoint : task.request.endpoint = .enableTwoFactor raw)
      (htoken : totpCode raw = .ok token)
      (huser : task.session.data.user = some user)
      (hsecret : truthy task.session.data.pendingTotpSecret = some secret)
      (hverify : platform.totpVerify token secret = true) :
      UsersUse ⟨[.setTotp user.id (some secret) true, .record activity], outcome⟩
  | disableTotp (user : UserRecord) (password : String)
      (activity : ActivityInput) (outcome : Outcome)
      (hstage : task.stage = .verifyDisable user password)
      (hverify : platform.verifyPassword user.passwordHash password = true) :
      UsersUse ⟨[.passwordChecked task.session.sid (some user) password true,
        .setTotp user.id none false, .record activity], outcome⟩
  | insertUser (input : CreateUserInput) (after : UsersTable)
      (activity : ActivityInput) (outcome : Outcome)
      (hstage : task.stage = .hashCreate input)
      (hcreate : state.users.create (newUserData platform input supply)
        supply.now = some after) :
      UsersUse ⟨[.insertUser state.users.nextId (newUserData platform input supply),
        .record activity], outcome⟩
  | deleteUser (raw : ℤ) (id : ℕ) (target : UserRecord)
      (activity : ActivityInput)
      (hstage : task.stage = .arrived)
      (hadmitted : Admitted task.request task.session.data)
      (hendpoint : task.request.endpoint = .removeUser raw)
      (hid : userIdParamSchema raw = .ok id)
      (hself : task.session.data.userId ≠ some id)
      (htarget : state.users.findById id = some target)
      (hlast : target.isAdmin = true →
        (state.users.listAll.filter UserRecord.isAdmin).length ≠ 1) :
      UsersUse ⟨[.deleteUser id, .purgeSessions id, .record activity],
        .replies (some task.session) (.success 200 .empty)⟩

variable {platform state task supply}

theorem UsersUse.fail {error : AppError} {session : RequestSession}
    {events : List Event} (hevents : ∀ event ∈ events, event.onUsers = false) :
    UsersUse platform state task supply (fail session error events) :=
  .quiet hevents

theorem UsersUse.none {outcome : Outcome} :
    UsersUse platform state task supply ⟨[], outcome⟩ :=
  .quiet (by simp)

theorem UsersUse.currentUser {handler : SessionUser → Segment}
    {session : RequestSession}
    (hhandler : ∀ user, session.data.user = some user →
      UsersUse platform state task supply (handler user)) :
    UsersUse platform state task supply (currentUser session handler) := by
  unfold Pm2Manager.currentUser
  split
  · exact .none
  next user huser =>
    exact hhandler user huser

theorem removeUser_usersUse {raw : ℤ} {id : ℕ}
    (hstage : task.stage = .arrived)
    (hadmitted : Admitted task.request task.session.data)
    (hendpoint : task.request.endpoint = .removeUser raw)
    (hid : userIdParamSchema raw = .ok id) :
    UsersUse platform state task supply
      (removeUser state task.request task.session id) := by
  unfold removeUser
  split
  · exact .fail (by simp)
  next hself =>
    split
    · exact .fail (by simp)
    next target htarget =>
      split
      · exact .fail (by simp)
      next hlast =>
        refine .deleteUser raw id target _ hstage hadmitted hendpoint hid
          hself htarget ?_
        intro hadmin hcount
        exact hlast (by simp [hadmin, hcount])

theorem handled_usersUse {segment : Segment} (hstage : task.stage = .arrived)
    (hhandled : Handled platform state task.request task.session supply segment) :
    UsersUse platform state task supply segment := by
  cases hhandled with
  | rejected error => exact .fail (by simp)
  | csrfToken _ =>
      unfold csrfTokenHandler
      split <;> exact .none
  | login _ _ username password => exact .quiet (by simp [login, Event.onUsers])
  | verifyTwoFactor token =>
      unfold verifyTwoFactor
      split
      · exact .fail (by simp)
      · split
        · exact .fail (by simp [loginFailed, Event.onUsers])
        · exact .quiet (by simp [regenerateSession, Event.onUsers])
  | logout _ =>
      apply UsersUse.quiet
      unfold logout
      split <;> simp [Event.onUsers]
  | me =>
      apply UsersUse.currentUser
      intro user _
      split <;> first | exact .fail (by simp) | exact .none
  | changePassword _ _ currentPassword newPassword =>
      apply UsersUse.currentUser
      intro user _
      split <;> first | exact .fail (by simp) | exact .none
  | setupTwoFactor =>
      apply UsersUse.currentUser
      intro user _
      split
      · exact .fail (by simp)
      · split <;> first | exact .fail (by simp) | exact .none
  | enableTwoFactor raw token hadmitted hendpoint htoken =>
      apply UsersUse.currentUser
      intro user huser
      split
      · exact .fail (by simp)
      next secret hsecret =>
        split
        next hverify =>
          exact .enableTotp raw token secret user _ _ hstage hadmitted
            hendpoint htoken huser hsecret hverify
        · exact .fail (by simp)
  | disableTwoFactor password =>
      apply UsersUse.currentUser
      intro user _
      split <;> first | exact .fail (by simp) | exact .none
  | listUsers => exact .none
  | createUser _ _ _ input =>
      unfold createUser
      split <;> first | exact .fail (by simp) | exact .none
  | removeUser raw id hadmitted hendpoint hid =>
      exact removeUser_usersUse hstage hadmitted hendpoint hid
  | getSettings => exact .none
  | updateSettings input =>
      apply UsersUse.quiet
      intro event hevent
      rcases List.mem_append.mp hevent with hevent | hevent
      · obtain ⟨change, _, rfl⟩ := List.mem_map.mp hevent
        rfl
      · rw [List.mem_singleton.mp hevent]
        rfl
  | listActivity query => exact .none

theorem loginVerified_usersUse {user : Option UserRecord}
    {username password : String} :
    UsersUse platform state task supply
      (loginVerified platform state task.request task.session user username
        password) := by
  unfold loginVerified
  split
  · exact .fail (by simp [loginFailed, Event.onUsers])
  · split
    · exact .quiet (by simp [Event.onUsers])
    · exact .quiet (by simp [regenerateSession, Event.onUsers])

theorem segment_usersUse :
    UsersUse platform state task supply (task.segment platform state supply) := by
  unfold HttpTask.segment
  cases hstage : task.stage with
  | arrived => exact handled_usersUse hstage arrive_handled
  | verifyLogin user username password => exact loginVerified_usersUse
  | challengeSaved => exact .none
  | regenerated user step => exact .quiet (by simp [attachUser, Event.onUsers])
  | established user step => exact .quiet (by simp [loggedIn, Event.onUsers])
  | destroyed => exact .none
  | verifyCurrent user currentPassword newPassword =>
      show UsersUse platform state task supply (currentVerified _ _ _ _ _)
      unfold currentVerified
      split
      · exact .quiet (by simp [Event.onUsers])
      · exact .fail (by simp [Event.onUsers])
  | hashNew user newPassword =>
      exact .currentUser fun sessionUser _ =>
        .updatePassword user newPassword _ _ hstage
  | renderQr secret otpauthUrl =>
      show UsersUse platform state task supply (qrRendered _ _ _ _)
      unfold qrRendered
      split <;> first | exact .fail (by simp) | exact .none
  | verifyDisable user password =>
      show UsersUse platform state task supply (disableVerified _ _ _ _ _)
      unfold disableVerified
      split
      next hverify =>
        exact .disableTotp user password _ _ hstage hverify
      · exact .fail (by simp [Event.onUsers])
  | hashCreate input =>
      show UsersUse platform state task supply (userHashed _ _ _ _ _ _)
      unfold userHashed
      dsimp only
      split
      · exact .fail (by simp)
      next after hcreate =>
        exact .insertUser input after _ _ hstage hcreate

/-! ## The session of the request -/

variable (platform state task supply)

inductive SessionMove : Segment → Prop
  /-- Nothing but the two secrets of the session may have changed. -/
  | kept {segment : Segment} (after : RequestSession)
      (hevents : ∀ event ∈ segment.events, event.isPlain = true)
      (houtcome : segment.outcome.Keeps platform state task after)
      (hafter : after = task.session ∨
        task.stage = .arrived ∧ SecretChange platform state task after)
      (hstage : task.stage.ownsSession = true) : SessionMove segment
  | reading (username password : String) (hstage : task.stage = .arrived)
      (hlogin : task.LogsIn) :
      SessionMove (login state task.session username password)
  | challenged (row : UserRecord) (username password : String)
      (hstage : task.stage = .verifyLogin (some row) username password)
      (hverify : platform.verifyPassword row.passwordHash password = true)
      (htotp : row.totpEnabled = true) (after : RequestSession)
      (hafter : after = task.session.setPending2fa
        { userId := row.id, username := row.username }) :
      SessionMove ⟨[.passwordChecked task.session.sid (some row) password true,
        .storeSession after.sid after.data], .awaits after.saved .challengeSaved⟩
  | passed (row : UserRecord) (username password : String)
      (hstage : task.stage = .verifyLogin (some row) username password)
      (hverify : platform.verifyPassword row.passwordHash password = true)
      (htotp : row.totpEnabled = false) :
      SessionMove (regenerateSession state task.session row .password
        [.passwordChecked task.session.sid (some row) password true])
  | accepted (pending : PendingTwoFactor) (row : UserRecord)
      (secret token : String) (hstage : task.stage = .arrived)
      (hpending : task.session.data.pending2fa = some pending)
      (hrow : state.users.findById pending.userId = some row)
      (hsecret : truthy row.totpSecret = some secret)
      (hverify : platform.totpVerify token secret = true) :
      SessionMove (regenerateSession state task.session row .totp
        [.totpAccepted task.session.sid pending row token])
  | attached (row : UserRecord) (step : LoginStep)
      (hstage : task.stage = .regenerated row step) :
      SessionMove (attachUser task.session row step)
  | leaving (logged : List Event)
      (hlogged : ∀ event ∈ logged, event.isPlain = true)
      (hstage : task.stage = .arrived)
      (hendpoint : task.request.endpoint = .logout) :
      SessionMove ⟨logged ++ [.destroySession task.session.sid],
        .awaits task.session .destroyed⟩
  | closed (hstage : task.stage = .destroyed) : SessionMove loggedOut

variable {platform state task supply}

theorem SessionMove.fail {error : AppError} {events : List Event}
    (hevents : ∀ event ∈ events, event.isPlain = true)
    (hstage : task.stage.ownsSession = true) :
    SessionMove platform state task (fail task.session error events) :=
  .kept task.session hevents rfl (.inl rfl) hstage

theorem SessionMove.replies {reply : Reply} {events : List Event}
    (hevents : ∀ event ∈ events, event.isPlain = true)
    (hstage : task.stage.ownsSession = true) :
    SessionMove platform state task
      ⟨events, .replies (some task.session) reply⟩ :=
  .kept task.session hevents rfl (.inl rfl) hstage

theorem SessionMove.awaits {stage : Stage} {events : List Event}
    (hevents : ∀ event ∈ events, event.isPlain = true)
    (hplain : stage.Plain platform state task) (hstage : task.stage.ownsSession = true) :
    SessionMove platform state task ⟨events, .awaits task.session stage⟩ :=
  .kept task.session hevents ⟨rfl, hplain⟩ (.inl rfl) hstage

theorem SessionMove.currentUser {handler : SessionUser → Segment}
    (hstage : task.stage.ownsSession = true)
    (hhandler : ∀ user, task.session.data.user = some user →
      SessionMove platform state task (handler user)) :
    SessionMove platform state task (currentUser task.session handler) := by
  unfold Pm2Manager.currentUser
  split
  · exact .replies (by simp) hstage
  next user huser =>
    exact hhandler user huser

theorem verifyTwoFactor_sessionMove {token : String}
    (hstage : task.stage = .arrived) :
    SessionMove platform state task
      (verifyTwoFactor platform state task.request task.session token) := by
  have howns : task.stage.ownsSession = true := by simp [hstage, Stage.ownsSession]
  unfold verifyTwoFactor
  split
  · exact .fail (by simp) howns
  next pending hpending =>
    split
    · exact .fail (by simp [loginFailed, Event.isPlain]) howns
    next row hrow =>
      obtain ⟨hfind, hany⟩ := Option.filter_eq_some_iff.mp hrow
      cases hsecret : truthy row.totpSecret with
      | none => simp [hsecret] at hany
      | some secret =>
          exact .accepted pending row secret token hstage hpending hfind
            hsecret (by simpa [hsecret] using hany)

theorem handled_sessionMove {segment : Segment} (hstage : task.stage = .arrived)
    (hhandled : Handled platform state task.request task.session supply segment) :
    SessionMove platform state task segment := by
  have howns : task.stage.ownsSession = true := by simp [hstage, Stage.ownsSession]
  cases hhandled with
  | rejected error => exact .fail (by simp) howns
  | csrfToken hendpoint =>
      unfold csrfTokenHandler
      split
      · exact .replies (by simp) howns
      next hnone =>
        exact .kept (task.session.setCsrfSecret supply.random) (by simp) rfl
          (.inr ⟨hstage, .csrf _ hendpoint hnone⟩) howns
  | login rawUsername rawPassword username password hadmitted hendpoint
      hbody =>
      exact .reading username password hstage
        ⟨hadmitted, rawUsername, rawPassword, _, hendpoint, hbody⟩
  | verifyTwoFactor token => exact verifyTwoFactor_sessionMove hstage
  | logout hendpoint =>
      unfold logout
      refine .leaving _ ?_ hstage hendpoint
      split <;> simp [Event.isPlain]
  | me =>
      apply SessionMove.currentUser howns
      intro user _
      split <;> first | exact .fail (by simp) howns | exact .replies (by simp) howns
  | changePassword rawCurrent rawNew currentPassword newPassword hendpoint
      hbody =>
      apply SessionMove.currentUser howns
      intro user huser
      split
      · exact .fail (by simp) howns
      next row hrow =>
        exact .awaits (by simp) (.verifyCurrent user row _ _ hstage
          ⟨rawCurrent, rawNew, hendpoint, hbody⟩ huser hrow) howns
  | setupTwoFactor hadmitted hendpoint =>
      apply SessionMove.currentUser howns
      intro user huser
      split
      · exact .fail (by simp) howns
      next row hrow =>
        split
        · exact .fail (by simp) howns
        · exact .kept (task.session.setPendingTotpSecret (some supply.random))
            (by simp) ⟨rfl, .renderQr _ _⟩
            (.inr ⟨hstage, .setup _ user row hadmitted hendpoint huser hrow⟩)
            howns
  | enableTwoFactor raw token hadmitted hendpoint htoken =>
      apply SessionMove.currentUser howns
      intro user huser
      split
      · exact .fail (by simp) howns
      next secret hsecret =>
        split
        next hverify =>
          exact .kept (task.session.setPendingTotpSecret none)
            (by simp [Event.isPlain]) rfl
            (.inr ⟨hstage, .enable raw token secret user hadmitted hendpoint
              htoken huser hsecret hverify⟩) howns
        · exact .fail (by simp) howns
  | disableTwoFactor password =>
      apply SessionMove.currentUser howns
      intro user huser
      split
      · exact .fail (by simp) howns
      next row hrow =>
        exact .awaits (by simp) (.verifyDisable user row _ huser hrow) howns
  | listUsers => exact .replies (by simp) howns
  | createUser rawUsername rawPassword isAdmin input hendpoint hbody =>
      unfold createUser
      split
      · exact .fail (by simp) howns
      next hname =>
        exact .awaits (by simp) (.hashCreate input hstage
          ⟨rawUsername, rawPassword, isAdmin, hendpoint, hbody⟩ hname) howns
  | removeUser raw id =>
      unfold removeUser
      split
      · exact .fail (by simp) howns
      · split
        · exact .fail (by simp) howns
        · split
          · exact .fail (by simp) howns
          · exact .replies (by simp [Event.isPlain]) howns
  | getSettings => exact .replies (by simp) howns
  | updateSettings input =>
      refine .replies ?_ howns
      intro event hevent
      rcases List.mem_append.mp hevent with hevent | hevent
      · obtain ⟨change, _, rfl⟩ := List.mem_map.mp hevent
        rfl
      · rw [List.mem_singleton.mp hevent]
        rfl
  | listActivity query => exact .replies (by simp) howns

theorem loginVerified_sessionMove {user : Option UserRecord}
    {username password : String}
    (hstage : task.stage = .verifyLogin user username password) :
    SessionMove platform state task
      (loginVerified platform state task.request task.session user username
        password) := by
  have howns : task.stage.ownsSession = true := by simp [hstage, Stage.ownsSession]
  unfold loginVerified
  split
  · exact .fail (by simp [loginFailed, Event.isPlain]) howns
  next row hrow =>
    obtain ⟨rfl, hverify⟩ := Option.filter_eq_some_iff.mp hrow
    split
    next htotp =>
      exact .challenged row username password hstage hverify htotp _ rfl
    next htotp =>
      exact .passed row username password hstage hverify (by simpa using htotp)

theorem segment_sessionMove :
    SessionMove platform state task (task.segment platform state supply) := by
  unfold HttpTask.segment
  cases hstage : task.stage with
  | arrived => exact handled_sessionMove hstage arrive_handled
  | verifyLogin user username password => exact loginVerified_sessionMove hstage
  | regenerated user step => exact .attached user step hstage
  | destroyed => exact .closed hstage
  | challengeSaved =>
      exact .replies (by simp) (by simp [hstage, Stage.ownsSession])
  | established user step =>
      exact .replies (by simp [Event.isPlain])
        (by simp [hstage, Stage.ownsSession])
  | verifyCurrent user currentPassword newPassword =>
      have howns : task.stage.ownsSession = true := by
        simp [hstage, Stage.ownsSession]
      show SessionMove platform state task (currentVerified _ _ _ _ _)
      unfold currentVerified
      split
      next hverify =>
        exact .awaits (by simp [Event.isPlain])
          (.hashNew user currentPassword newPassword hstage hverify) howns
      · exact .fail (by simp [Event.isPlain]) howns
  | hashNew user newPassword =>
      have howns : task.stage.ownsSession = true := by
        simp [hstage, Stage.ownsSession]
      exact .currentUser howns fun sessionUser _ =>
        .replies (by simp [Event.isPlain]) howns
  | renderQr secret otpauthUrl =>
      have howns : task.stage.ownsSession = true := by
        simp [hstage, Stage.ownsSession]
      show SessionMove platform state task (qrRendered _ _ _ _)
      unfold qrRendered
      split
      · exact .fail (by simp) howns
      · exact .replies (by simp) howns
  | verifyDisable user password =>
      have howns : task.stage.ownsSession = true := by
        simp [hstage, Stage.ownsSession]
      show SessionMove platform state task (disableVerified _ _ _ _ _)
      unfold disableVerified
      split
      · exact .replies (by simp [Event.isPlain]) howns
      · exact .fail (by simp [Event.isPlain]) howns
  | hashCreate input =>
      have howns : task.stage.ownsSession = true := by
        simp [hstage, Stage.ownsSession]
      show SessionMove platform state task (userHashed _ _ _ _ _ _)
      unfold userHashed
      dsimp only
      split
      · exact .fail (by simp) howns
      · exact .replies (by simp [Event.isPlain]) howns

end

end Pm2Manager
