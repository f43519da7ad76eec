import Pm2Manager.AuthModel
import Pm2Manager.ProcessRequests

/-!
# The mutations of the API

What the server does with a `POST`, `PUT` or `DELETE` from the browser: the
middleware of `/api`, the router of the path with its guard, the validation
of parameters and body, and the controller.  A controller goes on at later
moments, in whatever state the server then is.
-/

namespace Pm2Manager

open ScriptText FieldCheck

/-! ## Requests -/

inductive MutationMethod
  | post | put | delete
deriving DecidableEq, Repr

/-- A value in a JSON body, as far as the schemas look at it. -/
inductive JsonValue
  | null
  | boolean (value : Bool)
  | number (text : String)
  | text (value : String)
  | array
  | object
deriving DecidableEq, Repr

def JsonValue.kind : JsonValue → String
  | .null => "null"
  | .boolean _ => "boolean"
  | .number _ => "number"
  | .text _ => "string"
  | .array => "array"
  | .object => "object"

/-- The fields of a JSON object.  `express.json` takes an absent body for an
empty one, and lets nothing else than an object or an array through. -/
inductive Body
  | object (fields : List (String × JsonValue))
  | array
deriving DecidableEq, Repr

def Body.field (body : Body) (name : String) : Option JsonValue :=
  match body with
  | .object fields => (fields.find? fun field => field.1 = name).map Prod.snd
  | .array => none

structure ApiCall where
  method : MutationMethod
  path : String
  body : Body
deriving DecidableEq, Repr

inductive ApiRequest
  /-- `GET /api/auth/csrf-token`. -/
  | csrfToken
  | mutation (call : ApiCall)
deriving DecidableEq, Repr

/-- `coerceInteger` is `z.coerce.number().int()`: the integer a value stands
for, or the message about it. -/
structure ApiLibraries where
  coerceInteger : JsonValue → Except String ℤ
  decodeURIComponent : String → Option String

/-! ## Bodies -/

def issuesOf {α : Type} (field : String) (result : Except AppError α) :
    List (String × String) :=
  match result with
  | .error { details := .fieldErrors found, .. } =>
      found.filter fun issue => issue.1 = field
  | _ => []

def textIssues {α : Type} (field : String) (schema : String → Except AppError α) :
    Option JsonValue → List (String × String)
  | some (.text text) => issuesOf field (schema text)
  | some value => [(field, s!"Expected string, received {value.kind}")]
  | none => [(field, "Required")]

def invalidBody {α : Type} (body : Body) (found : List (String × String)) :
    Except AppError α :=
  match body with
  | .object _ => .error (.validation found)
  -- `flatten` lists the issues of the whole value apart from the fields
  | .array => .error (.validation [])

def loginBody (body : Body) : Except AppError Endpoint :=
  match body.field "username", body.field "password" with
  | some (.text username), some (.text password) => .ok (.login username password)
  | username, password => invalidBody body
      (textIssues "username" (fun username => loginSchema username "") username ++
        textIssues "password" (loginSchema "") password)

def tokenBody (body : Body) (endpoint : String → Endpoint) :
    Except AppError Endpoint :=
  match body.field "token" with
  | some (.text token) => .ok (endpoint token)
  | token => invalidBody body (textIssues "token" totpCode token)

def changePasswordBody (body : Body) : Except AppError Endpoint :=
  match body.field "currentPassword", body.field "newPassword" with
  | some (.text currentPassword), some (.text newPassword) =>
      .ok (.changePassword currentPassword newPassword)
  | currentPassword, newPassword => invalidBody body
      (textIssues "currentPassword"
          (fun password => changePasswordSchema password "") currentPassword ++
        textIssues "newPassword" (changePasswordSchema "") newPassword)

def disableTwoFactorBody (body : Body) : Except AppError Endpoint :=
  match body.field "password" with
  | some (.text password) => .ok (.disableTwoFactor password)
  | password => invalidBody body
      (textIssues "password" disableTwoFactorSchema password)

/-- `z.boolean().optional()`. -/
def optionalBoolean (field : String) :
    Option JsonValue → Except (String × String) (Option Bool)
  | none => .ok none
  | some (.boolean value) => .ok (some value)
  | some value => .error (field, s!"Expected boolean, received {value.kind}")

def createUserBody (body : Body) : Except AppError Endpoint :=
  match body.field "username", body.field "password",
      optionalBoolean "isAdmin" (body.field "isAdmin") with
  | some (.text username), some (.text password), .ok isAdmin =>
      .ok (.createUser username password isAdmin)
  | username, password, isAdmin => invalidBody body
      (textIssues "username" (fun username => createUserSchema username "" none)
          username ++
        textIssues "password" (fun password => createUserSchema "" password none)
          password ++
        match isAdmin with
        | .ok _ => []
        | .error issue => [issue])

def optionalInteger (libraries : ApiLibraries) (field : String) :
    Option JsonValue → Except (String × String) (Option ℤ)
  | none => .ok none
  | some value =>
      match libraries.coerceInteger value with
      | .ok integer => .ok (some integer)
      | .error message => .error (field, message)

def updateSettingsBody (libraries : ApiLibraries) (body : Body) :
    Except AppError Endpoint :=
  match body, optionalInteger libraries keyInterval (body.field keyInterval),
      optionalInteger libraries keyRetention (body.field keyRetention) with
  | .array, _, _ => invalidBody body []
  | _, .ok interval, .ok retention => .ok (.updateSettings interval retention)
  | _, .error issue, .ok retention => invalidBody body
      (issue :: issuesOf keyRetention (updateSettingsSchema none retention))
  | _, .ok interval, .error issue => invalidBody body
      (issuesOf keyInterval (updateSettingsSchema interval none) ++ [issue])
  | _, .error issue, .error other => invalidBody body [issue, other]

/-! ## Routes -/

inductive RouteGuard
  | nobody | session | administrator
deriving DecidableEq, Repr

def RouteGuard.check (data : SessionData) : RouteGuard → Except AppError Unit
  | .nobody => .ok ()
  | .session => requireAuth data
  | .administrator => requireAdmin data

inductive ApiHandler
  | endpoint (endpoint : Endpoint)
  | process (operation : ProcessOperation)
deriving DecidableEq, Repr

/-- What the routers make of a request: the guard in front, whether the login
limiter is behind it, and the handler or the refusal that follows. -/
structure Route where
  guard : RouteGuard
  loginLimiter : Bool := false
  handler : Except AppError ApiHandler

/-- The texts between the slashes of a path, without its query. -/
def pathSegments (path : String) : List String :=
  ((path.toList.takeWhile fun c => c ≠ '?' ∧ c ≠ '#').splitOn '/').map String.ofList

/-- Routes do not tell the case of letters apart. -/
def isSegment (literal segment : String) : Bool :=
  foldCase literal == foldCase segment

/-- What a mounted router sees: a slash more after its mount point or at the
end of the path makes no difference. -/
def routerSegments (rest : List String) : List String :=
  let rest := match rest with
    | "" :: rest => rest
    | rest => rest
  if rest.getLast? = some "" then rest.dropLast else rest

def methodText : MutationMethod → String
  | .post => "POST"
  | .put => "PUT"
  | .delete => "DELETE"

def notFoundHandler (call : ApiCall) : Except AppError ApiHandler :=
  .error (.notFound (s!"Route not found: {methodText call.method} " ++
    String.ofList (call.path.toList.takeWhile fun c => c ≠ '?' ∧ c ≠ '#')))

/-- A route parameter; a malformed escape is an error with status 400. -/
def routeParam (libraries : ApiLibraries) (segment : String) :
    Except AppError String :=
  match libraries.decodeURIComponent segment with
  | some value => .ok value
  | none => .error (.badRequest "Bad request")

/-- `POST` routes of `authRouter`. -/
def authRoute (call : ApiCall) (rest : List String) : Route :=
  let missing : Route := { guard := .nobody, handler := notFoundHandler call }
  let account (handler : Except AppError Endpoint) : Route :=
    { guard := .session, handler := handler.map .endpoint }
  let credentials (handler : Except AppError Endpoint) : Route :=
    { guard := .nobody, loginLimiter := true, handler := handler.map .endpoint }
  if call.method ≠ .post then
    missing
  else
    match rest with
    | [name] =>
        if isSegment "login" name then credentials (loginBody call.body)
        else if isSegment "2fa" name then
          credentials (tokenBody call.body .verifyTwoFactor)
        else if isSegment "logout" name then
          { guard := .nobody, handler := .ok (.endpoint .logout) }
        else if isSegment "change-password" name then
          account (changePasswordBody call.body)
        else missing
    | [name, verb] =>
        if isSegment "2fa" name then
          if isSegment "setup" verb then account (.ok .setupTwoFactor)
          else if isSegment "enable" verb then
            account (tokenBody call.body .enableTwoFactor)
          else if isSegment "disable" verb then
            account (disableTwoFactorBody call.body)
          else missing
        else missing
    | _ => missing

def processHandler (request : ProcessRequest) : Except AppError ApiHandler :=
  request.operation.map .process

/-- The parameters of a route; none of them is empty. -/
def withParams (libraries : ApiLibraries) (call : ApiCall)
    (segments : List String)
    (handler : List String → Except AppError ApiHandler) :
    Except AppError ApiHandler :=
  if "" ∈ segments then
    notFoundHandler call
  else
    (segments.mapM (routeParam libraries)).bind handler

/-- `processRouter`; a parameter is decoded by every route its path fits. -/
def processRoute (libraries : ApiLibraries) (call : ApiCall)
    (rest : List String) : Route where
  guard := .session
  handler :=
    match rest with
    | [idOrName] =>
        withParams libraries call [idOrName] fun
          | [idOrName] =>
              if call.method = .delete then
                processHandler (.single (.remove idOrName))
              else
                notFoundHandler call
          | _ => notFoundHandler call
    | [idOrName, action] =>
        if isSegment "actions" idOrName && call.method == .post then
          withParams libraries call [action] fun
            | [action] => processHandler (.bulk action)
            | _ => notFoundHandler call
        else
          withParams libraries call [idOrName, action] fun
            | [idOrName, action] =>
                if call.method = .post then
                  processHandler (.single (.action idOrName action))
                else
                  notFoundHandler call
            | _ => notFoundHandler call
    | [idOrName, logs, stream] =>
        if isSegment "logs" logs && isSegment "stream" stream then
          withParams libraries call [idOrName] fun _ => notFoundHandler call
        else
          notFoundHandler call
    | _ => notFoundHandler call

def settingsRoute (libraries : ApiLibraries) (call : ApiCall)
    (rest : List String) : Route :=
  match call.method, rest with
  | .put, [] =>
      { guard := .administrator
        handler := (updateSettingsBody libraries call.body).map .endpoint }
  | _, _ => { guard := .session, handler := notFoundHandler call }

def userRoute (libraries : ApiLibraries) (call : ApiCall)
    (rest : List String) : Route where
  guard := .administrator
  handler :=
    match rest with
    | [] =>
        if call.method = .post then (createUserBody call.body).map .endpoint
        else notFoundHandler call
    | [id] =>
        withParams libraries call [id] fun
          | [id] =>
              if call.method = .delete then
                match libraries.coerceInteger (.text id) with
                | .ok id => .ok (.endpoint (.removeUser id))
                | .error message => .error (.validation [("id", message)])
              else
                notFoundHandler call
          | _ => notFoundHandler call
    | _ => notFoundHandler call

/-- The routers below `/api`; the others have no mutations. -/
def apiRoute (libraries : ApiLibraries) (call : ApiCall) : Route :=
  match pathSegments call.path with
  | "" :: api :: mount :: rest =>
      let rest := routerSegments rest
      if !isSegment "api" api then
        { guard := .nobody, handler := notFoundHandler call }
      else if isSegment "auth" mount then authRoute call rest
      else if isSegment "processes" mount then processRoute libraries call rest
      else if isSegment "settings" mount then settingsRoute libraries call rest
      else if isSegment "users" mount then userRoute libraries call rest
      else if isSegment "dashboard" mount || isSegment "history" mount ||
          isSegment "activity" mount then
        { guard := .session, handler := notFoundHandler call }
      else
        { guard := .nobody, handler := notFoundHandler call }
  | _ => { guard := .nobody, handler := notFoundHandler call }

def ApiRequest.route (libraries : ApiLibraries) : ApiRequest → Route
  | .csrfToken => { guard := .nobody, handler := .ok (.endpoint .csrfToken) }
  | .mutation call => apiRoute libraries call

/-- `csrfProtection` is mounted on `/api`. -/
def ApiRequest.isProtected : ApiRequest → Bool
  | .csrfToken => false
  | .mutation call =>
      match pathSegments call.path with
      | "" :: api :: _ => isSegment "api" api
      | _ => false

/-- What `csrfProtection` demands of a request which is not safe. -/
def presentsToken (csrfHeader : Option String) (data : SessionData) :
    Except AppError Unit :=
  match truthy data.csrfSecret, truthy csrfHeader with
  | some secret, some provided =>
      if provided = secret then .ok ()
      else .error (.forbidden "Invalid or missing CSRF token")
  | _, _ => .error (.forbidden "Invalid or missing CSRF token")

theorem csrfProtection_eq (request : Request) (data : SessionData) :
    csrfProtection request data =
      if request.endpoint.isSafe then .ok ()
      else presentsToken request.csrfHeader data := rfl

/-! ## Serving -/

/-- A state of the server.  The PM2 service is in a state it can reach. -/
structure ServerState where
  auth : AuthState
  pm2 : Pm2State
  reached : ∃ word, pm2Machine.exec .initial word = some pm2

/-- The moment a request arrives.  `refused` is for the body parser, the
session store and the API limiter, `limited` for the login limiter. -/
structure Arrival where
  state : ServerState
  supply : Supply
  cookie : Option SessionId
  ip : String
  refused : Option AppError
  limited : Option AppError

/-- A moment at which the promise a handler awaits has settled.  `rejected` is
the call of the PM2 service whose rejection it gets, if it gets one. -/
structure Moment where
  state : ServerState
  supply : Supply
  rejected : Option CallId

structure Served where
  ran : Bool
  reply : Option Reply
deriving DecidableEq, Repr

def continueHttp (platform : Platform) (task : HttpTask) :
    List Moment → Option Reply
  | [] => none
  | moment :: rest =>
      match (task.segment platform moment.state.auth moment.supply).outcome with
      | .replies _ reply => some reply
      | .awaits session stage =>
          continueHttp platform { task with session, stage } rest

def answerEndpoint (platform : Platform) (request : Request) :
    Outcome → List Moment → Option Reply
  | .replies _ reply, _ => some reply
  | .awaits session stage, moments =>
      continueHttp platform { request, session, stage } moments

/-- A process handler answers once the service has settled its calls. -/
def answerProcess : List Moment → Option Reply
  | [] => none
  | moment :: _ =>
      match moment.rejected with
      | none => some (.success 200 .empty)
      | some call => (moment.state.pm2.rejection call).map .failure

def ApiHandler.serve (platform : Platform) (csrfHeader : Option String)
    (arrival : Arrival) (session : RequestSession) (moments : List Moment) :
    ApiHandler → Served
  | .endpoint routed =>
      let request : Request :=
        { cookie := arrival.cookie, csrfHeader, ip := arrival.ip
          endpoint := routed }
      match controller platform arrival.state.auth request session
          arrival.supply with
      | .error error => { ran := false, reply := some (.failure error) }
      | .ok segment =>
          { ran := true
            reply := answerEndpoint platform request segment.outcome moments }
  | .process _ => { ran := true, reply := answerProcess moments }

/-- The error handler is the only one to answer for the middleware. -/
def refusal (error : AppError) : Served where
  ran := false
  reply := some (.failure error)

def serve (platform : Platform) (libraries : ApiLibraries)
    (request : ApiRequest) (csrfHeader : Option String) (arrival : Arrival)
    (moments : List Moment) : Served :=
  let session := (arrival.state.auth.openSession arrival.cookie).1
  let route := request.route libraries
  let csrf : Except AppError Unit :=
    if request.isProtected then presentsToken csrfHeader session.data else .ok ()
  let limited := if route.loginLimiter then arrival.limited else none
  match arrival.refused, csrf, route.guard.check session.data, limited,
      route.handler with
  | some error, _, _, _, _ => refusal error
  | none, .error error, _, _, _ => refusal error
  | none, .ok (), .error error, _, _ => refusal error
  | none, .ok (), .ok (), some error, _ => refusal error
  | none, .ok (), .ok (), none, .error error => refusal error
  | none, .ok (), .ok (), none, .ok handler =>
      handler.serve platform csrfHeader arrival session moments

end Pm2Manager
