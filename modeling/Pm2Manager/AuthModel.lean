import Mathlib.Logic.Function.Basic
import Pm2Manager.ActivityLog
import Pm2Manager.SessionStore
import Pm2Manager.SettingsTable
import Pm2Manager.UsersTable

/-!
# Accounts and sessions

The shared state of the authentication and user-management routes, and the
code which runs on it between two awaits.  A request, a `create-admin`
invocation or an application start is a task; each synchronous stretch of a
task is a `Segment`, which reads the state and says what it writes, in order,
and where the task then waits or what it answers.  The writes, together with
the checks the source makes, are kept as a trace.
-/

namespace Pm2Manager

open ScriptText (truthy)

abbrev TaskId := ℕ

/-! ## What is outside the program -/

/-- The libraries and the configuration the handlers call on.
`argon2Verify` gives `none` where the library throws. -/
structure Platform where
  argon2Verify : (hashed plain : String) → Option Bool
  argon2Hash : (salt plain : String) → String
  totpVerify : (token secret : String) → Bool
  keyuri : (username issuer secret : String) → String
  toDataURL : String → Option String
  totpIssuer : String
  adminUsername : String
  adminPassword : Option String
  metrics : SettingsView

/-- The clock and the random characters one segment draws. -/
structure Supply where
  now : String
  random : String
deriving DecidableEq, Repr

/-- `authService.verifyPassword`: a malformed hash counts as a wrong password. -/
def Platform.verifyPassword (platform : Platform) (hashed plain : String) : Bool :=
  (platform.argon2Verify hashed plain).getD false

/-! ## Requests and replies -/

inductive Endpoint
  | csrfToken
  | login (username password : String)
  | verifyTwoFactor (token : String)
  | logout
  | me
  | changePassword (currentPassword newPassword : String)
  | setupTwoFactor
  | enableTwoFactor (token : String)
  | disableTwoFactor (password : String)
  | listUsers
  | createUser (username password : String) (isAdmin : Option Bool)
  | removeUser (id : ℤ)
  | getSettings
  | updateSettings (metricsIntervalSeconds metricsRetentionDays : Option ℤ)
  | listActivity (limit offset : Option ℤ) (type : Option String)
deriving DecidableEq, Repr

/-- `cookie` is the session id of a validly signed cookie, `csrfHeader` the
`x-csrf-token` header. -/
structure Request where
  cookie : Option SessionId
  csrfHeader : Option String
  ip : String
  endpoint : Endpoint
deriving DecidableEq, Repr

structure PublicUser where
  id : ℕ
  username : String
  totpEnabled : Bool
  isAdmin : Bool
  createdAt : String
  updatedAt : String
deriving DecidableEq, Repr

inductive Payload
  | empty
  | csrfToken (token : String)
  | twoFactorRequired
  | loggedIn (user : PublicUser)
  | user (user : PublicUser)
  | totpSetup (secret otpauthUrl qrDataUrl : String)
  | users (users : List PublicUser)
  | settings (view : SettingsView)
  | activity (items : List ActivityRecord) (total limit offset : ℕ)
deriving DecidableEq, Repr

inductive Reply
  | success (statusCode : ℕ) (data : Payload)
  | failure (error : AppError)
deriving DecidableEq, Repr

/-! ## Tasks -/

/-- The handler which called `establishSession`. -/
inductive LoginStep
  | password
  | totp
deriving DecidableEq, Repr

/-- The await a request is suspended at, with the locals it still needs.
`arrived` is a request which has not run yet. -/
inductive Stage
  | arrived
  /-- `login`, in the verification of the password (or the dummy one). -/
  | verifyLogin (user : Option UserRecord) (username password : String)
  /-- `login`, saving the session with its pending challenge. -/
  | challengeSaved
  /-- `establishSession`, regenerating the session. -/
  | regenerated (user : UserRecord) (step : LoginStep)
  /-- `establishSession`, saving the session with its user. -/
  | established (user : UserRecord) (step : LoginStep)
  /-- `logout`, destroying the session. -/
  | destroyed
  /-- `changePassword`, verifying the current password. -/
  | verifyCurrent (user : UserRecord) (currentPassword newPassword : String)
  /-- `changePassword`, hashing the new password. -/
  | hashNew (user : UserRecord) (newPassword : String)
  /-- `setupTwoFactor`, rendering the QR image. -/
  | renderQr (secret otpauthUrl : String)
  /-- `disableTwoFactor`, verifying the password. -/
  | verifyDisable (user : UserRecord) (password : String)
  /-- `createUser`, hashing the password. -/
  | hashCreate (input : CreateUserInput)
deriving DecidableEq, Repr

structure HttpTask where
  request : Request
  session : RequestSession
  stage : Stage
deriving DecidableEq, Repr

/-- Account creation outside a request: the command line tool, or the first
steps of the application (`ensureInitialAdmin`). -/
inductive JobKind
  | createAdmin
  | bootstrap
deriving DecidableEq, Repr

/-- The database statement a job executes next. -/
inductive JobStage
  | checkUsername
  | hashCreate
  | hashReset (existing : UserRecord)
deriving DecidableEq, Repr

inductive Task
  | http (task : HttpTask)
  | job (kind : JobKind) (input : CreateUserInput) (stage : JobStage)
deriving DecidableEq, Repr

/-! ## The state and its trace -/

/-- What a task does to the tables, and the checks it makes on the way. -/
inductive Event
  | credentialsRead (sid : SessionId) (user : Option UserRecord)
  | passwordChecked (sid : SessionId) (user : Option UserRecord)
      (password : String) (ok : Bool)
  | totpAccepted (sid : SessionId) (pending : PendingTwoFactor)
      (user : UserRecord) (token : String)
  | established (sid : SessionId) (userId : ℕ)
  | generateSession (sid : SessionId)
  | storeSession (sid : SessionId) (data : SessionData)
  | destroySession (sid : SessionId)
  | purgeSessions (userId : ℕ)
  | insertUser (id : ℕ) (data : CreateUserData)
  | updatePassword (id : ℕ) (passwordHash : String)
  | setTotp (id : ℕ) (secret : Option String) (enabled : Bool)
  | deleteUser (id : ℕ)
  | setSetting (key value : String)
  | record (input : ActivityInput)
  | answer (endpoint : Endpoint) (reply : Reply)
  | bootstrapReturned (created : Bool)
deriving DecidableEq, Repr

/-- What has happened, in order, each event with the task it belongs to. -/
abbrev Trace := List (TaskId × Event)

structure AuthState where
  users : UsersTable
  sessions : SessionStore
  settings : SettingsTable
  activity : ActivityLog
  nextSid : SessionId
  nextTask : TaskId
  tasks : TaskId → Option Task
  trace : Trace

namespace AuthState

/-- A server which has served nothing yet, over a given `users` table. -/
def initial (users : UsersTable) : AuthState where
  users := users
  sessions := .empty
  settings := .empty
  activity := []
  nextSid := 0
  nextTask := 0
  tasks := fun _ => none
  trace := []

def write (now : String) (state : AuthState) : Event → AuthState
  | .generateSession sid => { state with nextSid := sid + 1 }
  | .storeSession sid data =>
      { state with sessions := state.sessions.set sid data }
  | .destroySession sid =>
      { state with sessions := state.sessions.destroy sid }
  | .purgeSessions userId =>
      { state with sessions := state.sessions.deleteByUserId userId }
  | .insertUser _ data =>
      { state with users := (state.users.create data now).getD state.users }
  | .updatePassword id passwordHash =>
      { state with users := state.users.updatePassword id passwordHash now }
  | .setTotp id secret enabled =>
      { state with users := state.users.setTotp id secret enabled now }
  | .deleteUser id => { state with users := state.users.delete id }
  | .setSetting key value =>
      { state with settings := state.settings.set key value }
  | .record input =>
      { state with activity := state.activity.record input now }
  | _ => state

def perform (task : TaskId) (now : String) (state : AuthState)
    (event : Event) : AuthState :=
  { state.write now event with trace := state.trace ++ [(task, event)] }

def performAll (task : TaskId) (now : String) (state : AuthState)
    (events : List Event) : AuthState :=
  events.foldl (perform task now) state

end AuthState

/-! ## Segments -/

inductive Outcome
  | awaits (session : RequestSession) (stage : Stage)
  | replies (session : Option RequestSession) (reply : Reply)
deriving DecidableEq, Repr

structure Segment where
  events : List Event
  outcome : Outcome
deriving DecidableEq, Repr

namespace Outcome

/-- The end of a response: a changed session is written back, then the reply
is sent. -/
def closing (endpoint : Endpoint) : Outcome → List Event
  | .awaits _ _ => []
  | .replies session reply =>
      (match session with
        | some session =>
            if session.shouldSave then
              [.storeSession session.sid session.data]
            else
              []
        | none => []) ++ [.answer endpoint reply]

def next (request : Request) : Outcome → Option Task
  | .awaits session stage => some (.http { request, session, stage })
  | .replies _ _ => none

end Outcome

/-! ## Middleware -/

def Endpoint.isSafe : Endpoint → Bool
  | .csrfToken | .me | .listUsers | .getSettings | .listActivity _ _ _ => true
  | _ => false

/-- `constantTimeEquals` compares the bytes of two strings. -/
def csrfProtection (request : Request) (data : SessionData) :
    Except AppError Unit :=
  if request.endpoint.isSafe then
    .ok ()
  else
    match truthy data.csrfSecret, truthy request.csrfHeader with
    | some secret, some provided =>
        if provided = secret then .ok ()
        else .error (.forbidden "Invalid or missing CSRF token")
    | _, _ => .error (.forbidden "Invalid or missing CSRF token")

def requireAuth (data : SessionData) : Except AppError Unit :=
  match data.user with
  | some _ => .ok ()
  | none => .error .unauthorized

def requireAdmin (data : SessionData) : Except AppError Unit :=
  match data.user with
  | none => .error .unauthorized
  | some user =>
      if user.isAdmin then .ok ()
      else .error (.forbidden "Administrator privileges required")

/-- The guard which the router of an endpoint puts before its handler. -/
def Endpoint.guard (endpoint : Endpoint) (data : SessionData) :
    Except AppError Unit :=
  match endpoint with
  | .csrfToken | .login _ _ | .verifyTwoFactor _ | .logout => .ok ()
  | .me | .changePassword _ _ | .setupTwoFactor | .enableTwoFactor _
  | .disableTwoFactor _ | .getSettings | .listActivity _ _ _ => requireAuth data
  | .listUsers | .createUser _ _ _ | .removeUser _ | .updateSettings _ _ =>
      requireAdmin data

/-! ## Sessions -/

namespace RequestSession

def setCsrfSecret (session : RequestSession) (secret : String) : RequestSession :=
  { session with data := { session.data with csrfSecret := some secret } }

def setPending2fa (session : RequestSession) (pending : PendingTwoFactor) :
    RequestSession :=
  { session with data := { session.data with pending2fa := some pending } }

def setPendingTotpSecret (session : RequestSession) (secret : Option String) :
    RequestSession :=
  { session with data := { session.data with pendingTotpSecret := secret } }

def setUser (session : RequestSession) (user : SessionUser) : RequestSession :=
  { session with data := { session.data with user := some user } }

end RequestSession

/-- `currentUser`, behind which a handler runs as the user of its session. -/
def currentUser (session : RequestSession) (handler : SessionUser → Segment) :
    Segment :=
  match session.data.user with
  | none => ⟨[], .replies (some session) (.failure .unauthorized)⟩
  | some user => handler user

def fail (session : RequestSession) (error : AppError)
    (events : List Event := []) : Segment :=
  ⟨events, .replies (some session) (.failure error)⟩

def UserRecord.sessionUser (user : UserRecord) : SessionUser where
  id := user.id
  username := user.username
  isAdmin := user.isAdmin

def toPublicUser (user : UserRecord) : PublicUser where
  id := user.id
  username := user.username
  totpEnabled := user.totpEnabled
  isAdmin := user.isAdmin
  createdAt := user.createdAt
  updatedAt := user.updatedAt

/-- `regenerateSession`: the row is destroyed and the request goes on with an
empty session under an id which was never given before. -/
def regenerateSession (state : AuthState) (session : RequestSession)
    (user : UserRecord) (step : LoginStep) (events : List Event) : Segment :=
  ⟨events ++ [.destroySession session.sid, .generateSession state.nextSid],
    .awaits (.regenerated state.nextSid) (.regenerated user step)⟩

/-- The rest of `establishSession`: attach the user and save. -/
def attachUser (session : RequestSession) (user : UserRecord)
    (step : LoginStep) : Segment :=
  let session := session.setUser user.sessionUser
  ⟨[.storeSession session.sid session.data, .established session.sid user.id],
    .awaits session.saved (.established user step)⟩

/-! ## `authController` -/

def csrfTokenHandler (session : RequestSession) (supply : Supply) : Segment :=
  match truthy session.data.csrfSecret with
  | some secret =>
      ⟨[], .replies (some session) (.success 200 (.csrfToken secret))⟩
  | none =>
      ⟨[], .replies (some (session.setCsrfSecret supply.random))
        (.success 200 (.csrfToken supply.random))⟩

def login (state : AuthState) (session : RequestSession)
    (username password : String) : Segment :=
  let user := state.users.findByUsername username
  ⟨[.credentialsRead session.sid user],
    .awaits session (.verifyLogin user username password)⟩

/-- `verifyCredentials` once Argon2 has answered. -/
abbrev verifyCredentials (platform : Platform) (user : Option UserRecord)
    (password : String) : Option UserRecord :=
  user.filter fun user => platform.verifyPassword user.passwordHash password

def loginFailed (username ip message : String) : Event :=
  .record {
    type := .loginFailed
    message := message
    username := some username
    ipAddress := some ip }

/-- `login` after `verifyCredentials`. -/
def loginVerified (platform : Platform) (state : AuthState)
    (request : Request) (session : RequestSession)
    (user : Option UserRecord) (username password : String) : Segment :=
  match verifyCredentials platform user password with
  | none =>
      fail session (.unauthorized "Invalid username or password")
        [.passwordChecked session.sid user password false,
          loginFailed username request.ip s!"Failed login for \"{username}\""]
  | some row =>
      let checked : Event :=
        .passwordChecked session.sid (some row) password true
      if row.totpEnabled then
        let session := session.setPending2fa
          { userId := row.id, username := row.username }
        ⟨[checked, .storeSession session.sid session.data],
          .awaits session.saved .challengeSaved⟩
      else
        regenerateSession state session row .password [checked]

def challengeAnswer (session : RequestSession) : Segment :=
  ⟨[], .replies (some session) (.success 200 .twoFactorRequired)⟩

def loggedIn (request : Request) (session : RequestSession)
    (user : UserRecord) (step : LoginStep) : Segment :=
  ⟨[.record {
      type := .loginSuccess
      message := s!"User \"{user.username}\" logged in"
      username := some user.username
      ipAddress := some request.ip }],
    .replies (some session)
      (.success 200
        (match step with
          | .password => .loggedIn (toPublicUser user)
          | .totp => .user (toPublicUser user)))⟩

def verifyTwoFactor (platform : Platform) (state : AuthState)
    (request : Request) (session : RequestSession) (token : String) : Segment :=
  match session.data.pending2fa with
  | none => fail session (.unauthorized "No pending 2FA challenge")
  | some pending =>
      match (state.users.findById pending.userId).filter fun user =>
          (truthy user.totpSecret).any fun secret =>
            platform.totpVerify token secret with
      | none =>
          fail session (.unauthorized "Invalid authentication code")
            [loginFailed pending.username request.ip
              s!"Failed 2FA for \"{pending.username}\""]
      | some user =>
          regenerateSession state session user .totp
            [.totpAccepted session.sid pending user token]

def logout (request : Request) (session : RequestSession) : Segment :=
  let logged : List Event :=
    match session.data.user with
    | none => []
    | some user =>
        [.record {
          type := .logout
          message := s!"User \"{user.username}\" logged out"
          username := some user.username
          ipAddress := some request.ip }]
  ⟨logged ++ [.destroySession session.sid], .awaits session .destroyed⟩

def loggedOut : Segment :=
  ⟨[], .replies none (.success 200 .empty)⟩

def me (state : AuthState) (session : RequestSession) : Segment :=
  currentUser session fun sessionUser =>
    match state.users.findById sessionUser.id with
    | none => fail session .unauthorized
    | some user =>
        ⟨[], .replies (some session) (.success 200 (.user (toPublicUser user)))⟩

def changePassword (state : AuthState) (session : RequestSession)
    (currentPassword newPassword : String) : Segment :=
  currentUser session fun sessionUser =>
    match state.users.findById sessionUser.id with
    | none => fail session (.notFound "User not found")
    | some user =>
        ⟨[], .awaits session
          (.verifyCurrent user currentPassword newPassword)⟩

/-- `changePassword` after the verification of the current password. -/
def currentVerified (platform : Platform) (session : RequestSession)
    (user : UserRecord) (currentPassword newPassword : String) : Segment :=
  if platform.verifyPassword user.passwordHash currentPassword then
    ⟨[.passwordChecked session.sid (some user) currentPassword true],
      .awaits session (.hashNew user newPassword)⟩
  else
    fail session (.unauthorized "Current password is incorrect")
      [.passwordChecked session.sid (some user) currentPassword false]

/-- `changePassword` after the hashing of the new password. -/
def passwordHashed (platform : Platform) (request : Request)
    (session : RequestSession) (user : UserRecord) (newPassword : String)
    (supply : Supply) : Segment :=
  currentUser session fun sessionUser =>
    ⟨[.updatePassword user.id (platform.argon2Hash supply.random newPassword),
        .record {
          type := .passwordChanged
          message := s!"User \"{sessionUser.username}\" changed their password"
          username := some sessionUser.username
          ipAddress := some request.ip }],
      .replies (some session) (.success 200 .empty)⟩

def setupTwoFactor (platform : Platform) (state : AuthState)
    (session : RequestSession) (supply : Supply) : Segment :=
  currentUser session fun sessionUser =>
    match state.users.findById sessionUser.id with
    | none => fail session .unauthorized
    | some user =>
        if user.totpEnabled then
          fail session (.conflict "2FA already enabled")
        else
          ⟨[], .awaits (session.setPendingTotpSecret (some supply.random))
            (.renderQr supply.random
              (platform.keyuri user.username platform.totpIssuer
                supply.random))⟩

/-- `setupTwoFactor` after the QR image. -/
def qrRendered (platform : Platform) (session : RequestSession)
    (secret otpauthUrl : String) : Segment :=
  match platform.toDataURL otpauthUrl with
  | none => fail session .unexpected
  | some qrDataUrl =>
      ⟨[], .replies (some session)
        (.success 200 (.totpSetup secret otpauthUrl qrDataUrl))⟩

def enableTwoFactor (platform : Platform) (request : Request)
    (session : RequestSession) (token : String) : Segment :=
  currentUser session fun sessionUser =>
    match truthy session.data.pendingTotpSecret with
    | none => fail session (.badRequest "Start 2FA setup first")
    | some secret =>
        if platform.totpVerify token secret then
          ⟨[.setTotp sessionUser.id (some secret) true,
              .record {
                type := .twofaEnabled
                message := s!"User \"{sessionUser.username}\" enabled two-factor authentication"
                username := some sessionUser.username
                ipAddress := some request.ip }],
            .replies (some (session.setPendingTotpSecret none))
              (.success 200 .empty)⟩
        else
          fail session (.unauthorized "Invalid authentication code")

def disableTwoFactor (state : AuthState) (session : RequestSession)
    (password : String) : Segment :=
  currentUser session fun sessionUser =>
    match state.users.findById sessionUser.id with
    | none => fail session .unauthorized
    | some user => ⟨[], .awaits session (.verifyDisable user password)⟩

/-- `disableTwoFactor` after the verification of the password. -/
def disableVerified (platform : Platform) (request : Request)
    (session : RequestSession) (user : UserRecord) (password : String) :
    Segment :=
  if platform.verifyPassword user.passwordHash password then
    ⟨[.passwordChecked session.sid (some user) password true,
        .setTotp user.id none false,
        .record {
          type := .twofaDisabled
          message := s!"User \"{user.username}\" disabled two-factor authentication"
          username := some user.username
          ipAddress := some request.ip }],
      .replies (some session) (.success 200 .empty)⟩
  else
    fail session (.unauthorized "Password is incorrect")
      [.passwordChecked session.sid (some user) password false]

/-! ## `userController` -/

def listUsers (state : AuthState) (session : RequestSession) : Segment :=
  ⟨[], .replies (some session)
    (.success 200 (.users (state.users.listAll.map toPublicUser)))⟩

def checkUsername (state : AuthState) (username : String) :
    Except AppError Unit :=
  match state.users.findByUsername username with
  | some _ => .error (.conflict "Username already exists")
  | none => .ok ()

def newUserData (platform : Platform) (input : CreateUserInput)
    (supply : Supply) : CreateUserData where
  username := input.username
  passwordHash := platform.argon2Hash supply.random input.password
  isAdmin := input.isAdmin

def createUser (state : AuthState) (session : RequestSession)
    (input : CreateUserInput) : Segment :=
  match checkUsername state input.username with
  | .error error => fail session error
  | .ok () => ⟨[], .awaits session (.hashCreate input)⟩

/-- `create` after the hashing of the password. -/
def userHashed (platform : Platform) (state : AuthState) (request : Request)
    (session : RequestSession) (input : CreateUserInput) (supply : Supply) :
    Segment :=
  let data := newUserData platform input supply
  match state.users.create data supply.now with
  | none => fail session .unexpected
  | some _ =>
      ⟨[.insertUser state.users.nextId data,
          .record {
            type := .userCreated
            message := s!"Created user \"{input.username}\""
            username := session.data.user.map SessionUser.username
            ipAddress := some request.ip
            metadata := some [("createdUser", .text input.username),
              ("isAdmin", .flag input.isAdmin)] }],
        .replies (some session)
          (.success 201
            (.user (toPublicUser (state.users.newRow data supply.now))))⟩

/-- `remove`, a single synchronous stretch. -/
def removeUser (state : AuthState) (request : Request)
    (session : RequestSession) (id : ℕ) : Segment :=
  if session.data.userId = some id then
    fail session (.badRequest "You cannot delete your own account")
  else
    match state.users.findById id with
    | none => fail session (.notFound "User not found")
    | some target =>
        if target.isAdmin &&
            (state.users.listAll.filter UserRecord.isAdmin).length == 1 then
          fail session (.conflict "Cannot delete the last administrator")
        else
          ⟨[.deleteUser id, .purgeSessions id,
              .record {
                type := .userDeleted
                message := s!"Deleted user \"{target.username}\""
                username := session.data.user.map SessionUser.username
                ipAddress := some request.ip
                metadata := some [("deletedUser", .text target.username),
                  ("sessionsRevoked",
                    .number (state.sessions.countByUserId id))] }],
            .replies (some session) (.success 200 .empty)⟩

/-! ## `settingsController` and `activityController` -/

def getSettings (platform : Platform) (state : AuthState)
    (session : RequestSession) : Segment :=
  ⟨[], .replies (some session)
    (.success 200 (.settings (readSettings platform.metrics state.settings)))⟩

/-- The rows of the `settings` table which the body writes, in order. -/
def UpdateSettingsInput.changes (input : UpdateSettingsInput) :
    List (String × ℕ) :=
  (input.metricsIntervalSeconds.map fun value => (keyInterval, value)).toList ++
    (input.metricsRetentionDays.map fun value => (keyRetention, value)).toList

def updateSettings (platform : Platform) (state : AuthState)
    (request : Request) (session : RequestSession)
    (input : UpdateSettingsInput) : Segment :=
  let changes := input.changes
  let settings := changes.foldl
    (fun table change => table.set change.1 (toString change.2)) state.settings
  ⟨changes.map (fun change => .setSetting change.1 (toString change.2)) ++
      [.record {
        type := .settingsChanged
        message := "Updated application settings"
        username := session.data.user.map SessionUser.username
        ipAddress := some request.ip
        metadata := some
          (changes.map fun change => (change.1, .number change.2)) }],
    .replies (some session)
      (.success 200 (.settings (readSettings platform.metrics settings)))⟩

def listActivity (state : AuthState) (session : RequestSession)
    (query : ActivityQuery) : Segment :=
  ⟨[], .replies (some session)
    (.success 200 (.activity (state.activity.list query)
      (state.activity.count query.type) query.limit query.offset))⟩

/-! ## Running a request -/

/-- The body or parameter validation of an endpoint and its handler, up to
the first await. -/
def controller (platform : Platform) (state : AuthState) (request : Request)
    (session : RequestSession) (supply : Supply) : Except AppError Segment :=
  match request.endpoint with
  | .csrfToken => .ok (csrfTokenHandler session supply)
  | .login username password =>
      (loginSchema username password).map fun body =>
        login state session body.1 body.2
  | .verifyTwoFactor token =>
      (totpCode token).map (verifyTwoFactor platform state request session)
  | .logout => .ok (logout request session)
  | .me => .ok (me state session)
  | .changePassword currentPassword newPassword =>
      (changePasswordSchema currentPassword newPassword).map fun body =>
        changePassword state session body.1 body.2
  | .setupTwoFactor => .ok (setupTwoFactor platform state session supply)
  | .enableTwoFactor token =>
      (totpCode token).map (enableTwoFactor platform request session)
  | .disableTwoFactor password =>
      (disableTwoFactorSchema password).map (disableTwoFactor state session)
  | .listUsers => .ok (listUsers state session)
  | .createUser username password isAdmin =>
      (createUserSchema username password isAdmin).map
        (createUser state session)
  | .removeUser id =>
      (userIdParamSchema id).map (removeUser state request session)
  | .getSettings => .ok (getSettings platform state session)
  | .updateSettings interval retention =>
      (updateSettingsSchema interval retention).map
        (updateSettings platform state request session)
  | .listActivity limit offset type =>
      (activityQuerySchema limit offset type).map (listActivity state session)

/-- The middleware in front of a handler, then the handler. -/
def arrive (platform : Platform) (state : AuthState) (request : Request)
    (session : RequestSession) (supply : Supply) : Segment :=
  match csrfProtection request session.data,
      request.endpoint.guard session.data,
      controller platform state request session supply with
  | .error error, _, _ => fail session error
  | .ok (), .error error, _ => fail session error
  | .ok (), .ok (), .error error => fail session error
  | .ok (), .ok (), .ok segment => segment

def HttpTask.segment (platform : Platform) (state : AuthState)
    (task : HttpTask) (supply : Supply) : Segment :=
  match task.stage with
  | .arrived => arrive platform state task.request task.session supply
  | .verifyLogin user username password =>
      loginVerified platform state task.request task.session user username
        password
  | .challengeSaved => challengeAnswer task.session
  | .regenerated user step => attachUser task.session user step
  | .established user step => loggedIn task.request task.session user step
  | .destroyed => loggedOut
  | .verifyCurrent user currentPassword newPassword =>
      currentVerified platform task.session user currentPassword newPassword
  | .hashNew user newPassword =>
      passwordHashed platform task.request task.session user newPassword supply
  | .renderQr secret otpauthUrl =>
      qrRendered platform task.session secret otpauthUrl
  | .verifyDisable user password =>
      disableVerified platform task.request task.session user password
  | .hashCreate input =>
      userHashed platform state task.request task.session input supply

/-! ## Account creation outside a request -/

/-- `ensureInitialAdmin` returns once it has created its account. -/
def JobKind.returned : JobKind → List Event
  | .createAdmin => []
  | .bootstrap => [.bootstrapReturned true]

/-- The next statement of `create-admin` or of `ensureInitialAdmin`: its
writes, and the task that remains.  A failure ends the process. -/
def jobSegment (platform : Platform) (state : AuthState) (kind : JobKind)
    (input : CreateUserInput) (stage : JobStage) (supply : Supply) :
    List Event × Option Task :=
  match stage with
  | .checkUsername =>
      match checkUsername state input.username with
      | .error _ => ([], none)
      | .ok () => ([], some (.job kind input .hashCreate))
  | .hashCreate =>
      let data := newUserData platform input supply
      match state.users.create data supply.now with
      | none => ([], none)
      | some _ => (.insertUser state.users.nextId data :: kind.returned, none)
  | .hashReset existing =>
      ([.updatePassword existing.id
        (platform.argon2Hash supply.random input.password)], none)

/-- The arguments `create-admin` accepts. -/
def createAdminArgs (args : List String) : Option CreateUserInput :=
  match args.filter fun arg => !ScriptText.startsWith "--" arg with
  | username :: password :: _ =>
      if username ≠ "" ∧ 8 ≤ ScriptText.utf16Length password then
        some { username, password, isAdmin := args.contains "--admin" }
      else
        none
  | _ => none

/-- `create-admin` up to its first await or its second statement. -/
def createAdminStart (state : AuthState) (input : CreateUserInput) :
    List Event × Option Task :=
  match state.users.findByUsername input.username with
  | some existing => ([], some (.job .createAdmin input (.hashReset existing)))
  | none => ([], some (.job .createAdmin input .checkUsername))

/-- `ensureInitialAdmin` up to its second statement. -/
def bootstrapStart (platform : Platform) (state : AuthState)
    (supply : Supply) : List Event × Option Task :=
  if 0 < state.users.countAll then
    ([.bootstrapReturned false], none)
  else
    ([], some (.job .bootstrap
      { username := platform.adminUsername
        password := platform.adminPassword.getD supply.random
        isAdmin := true } .checkUsername))

/-! ## The machine -/

inductive Action
  | request (request : Request) (supply : Supply)
  /-- A request takes its copy of the session and is held in the rate limiter
  in front of its handler. -/
  | arrive (request : Request) (now : String)
  /-- `create-admin` is started with these arguments. -/
  | createAdmin (args : List String) (supply : Supply)
  | bootstrap (supply : Supply)
  /-- The promise a task awaits is resolved and the task goes on. -/
  | resume (task : TaskId) (supply : Supply)
  | expire (sid : SessionId)
deriving DecidableEq, Repr

namespace AuthState

/-- The writes of one stretch, and what becomes of its task. -/
def commit (state : AuthState) (task : TaskId) (now : String)
    (events : List Event) (next : Option Task) : AuthState :=
  let after := state.performAll task now events
  { after with tasks := Function.update after.tasks task next }

/-- `req.session` at the start of a request: the stored row of its cookie, or
a new session. -/
def openSession (state : AuthState) (cookie : Option SessionId) :
    RequestSession × List Event :=
  match cookie.bind fun sid =>
      (state.sessions.get sid).map (RequestSession.loaded sid) with
  | some session => (session, [])
  | none => (.generated state.nextSid, [.generateSession state.nextSid])

/-- A request becomes a task, with the copy of its session. -/
def accept (state : AuthState) (request : Request) (now : String) : AuthState :=
  let opened := state.openSession request.cookie
  { state with nextTask := state.nextTask + 1 }.commit state.nextTask now
    opened.2 (some (.http { request, session := opened.1, stage := .arrived }))

def runHttp (platform : Platform) (state : AuthState) (id : TaskId)
    (task : HttpTask) (supply : Supply) : AuthState :=
  let segment := task.segment platform state supply
  state.commit id supply.now
    (segment.events ++ segment.outcome.closing task.request.endpoint)
    (segment.outcome.next task.request)

def startJob (state : AuthState) (now : String)
    (started : List Event × Option Task) : AuthState :=
  { state with nextTask := state.nextTask + 1 }.commit state.nextTask now
    started.1 started.2

def resumeTask (platform : Platform) (state : AuthState) (id : TaskId)
    (supply : Supply) : Option AuthState :=
  match state.tasks id with
  | none => none
  | some (.http task) => some (state.runHttp platform id task supply)
  | some (.job kind input stage) =>
      let result := jobSegment platform state kind input stage supply
      some (state.commit id supply.now result.1 result.2)

def step (platform : Platform) (state : AuthState) : Action → Option AuthState
  | .request request supply =>
      (state.accept request supply.now).resumeTask platform state.nextTask
        supply
  | .arrive request now => some (state.accept request now)
  | .createAdmin args supply =>
      (createAdminArgs args).map fun input =>
        state.startJob supply.now (createAdminStart state input)
  | .bootstrap supply =>
      some (state.startJob supply.now (bootstrapStart platform state supply))
  | .resume id supply => state.resumeTask platform id supply
  | .expire sid =>
      some { state with sessions := state.sessions.destroy sid }

end AuthState

end Pm2Manager
