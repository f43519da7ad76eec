import Pm2Manager.ApiServer
import Pm2Manager.ConnectionAttempts

/-!
# What controllers answer

A 403 comes from the CSRF check or from the administrator check.  No
controller answers with one: neither those of the accounts, at whatever
moment they go on, nor those of the processes, whose failures are the PM2
service's.
-/

namespace Pm2Manager

open Function

variable {platform : Platform} {state : AuthState} {request : Request}
variable {session : RequestSession} {supply : Supply} {task : HttpTask}

def Reply.statusCode : Reply → ℕ
  | .success statusCode _ => statusCode
  | .failure error => error.statusCode

/-! ## The routes of the accounts -/

def Endpoint.routeGuard : Endpoint → RouteGuard
  | .csrfToken | .login _ _ | .verifyTwoFactor _ | .logout => .nobody
  | .me | .changePassword _ _ | .setupTwoFactor | .enableTwoFactor _
  | .disableTwoFactor _ | .getSettings | .listActivity _ _ _ => .session
  | .listUsers | .createUser _ _ _ | .removeUser _ | .updateSettings _ _ =>
      .administrator

theorem Endpoint.guard_eq (endpoint : Endpoint) (data : SessionData) :
    endpoint.guard data = endpoint.routeGuard.check data := by
  cases endpoint <;> rfl

section

variable {libraries : ApiLibraries} {call : ApiCall} {body : Body}
variable {endpoint : Endpoint} {handler : Except AppError ApiHandler}

/-- A route hands a handler on only behind the guard of its endpoint, and
never a safe one. -/
def Route.Fits (route : Route) : Prop :=
  ∀ endpoint, route.handler = .ok (.endpoint endpoint) →
    route.guard = endpoint.routeGuard ∧ endpoint.isSafe = false

theorem invalidBody_ne_ok {found : List (String × String)} :
    invalidBody body found ≠ .ok endpoint := by
  unfold invalidBody
  split <;> simp

theorem Route.fits_of_handler {route : Route}
    (hhandler : ∀ endpoint, route.handler ≠ .ok (.endpoint endpoint)) : route.Fits :=
  fun endpoint heq => absurd heq (hhandler endpoint)

theorem notFound_ne_ok : notFoundHandler call ≠ .ok (.endpoint endpoint) := by
  simp [notFoundHandler]

theorem processHandler_ne_ok {request : ProcessRequest} :
    processHandler request ≠ .ok (.endpoint endpoint) := by
  unfold processHandler
  cases request.operation <;> simp [Except.map]

theorem Route.fits_of_body {guard : RouteGuard} {limiter : Bool}
    {result : Except AppError Endpoint}
    (hbody : ∀ endpoint, result = .ok endpoint →
      guard = endpoint.routeGuard ∧ endpoint.isSafe = false) :
    Route.Fits ⟨guard, limiter, result.map .endpoint⟩ := by
  intro endpoint hhandler
  obtain ⟨found, hfound, heq⟩ := except_map_ok hhandler
  obtain rfl := ApiHandler.endpoint.inj heq
  exact hbody found hfound

theorem loginBody_fits (hbody : loginBody body = .ok endpoint) :
    .nobody = endpoint.routeGuard ∧ endpoint.isSafe = false := by
  unfold loginBody at hbody
  split at hbody
  · obtain rfl := Except.ok.inj hbody
    exact ⟨rfl, rfl⟩
  · exact absurd hbody invalidBody_ne_ok

theorem tokenBody_ok {make : String → Endpoint}
    (hbody : tokenBody body make = .ok endpoint) :
    ∃ token, make token = endpoint := by
  unfold tokenBody at hbody
  split at hbody
  · exact ⟨_, Except.ok.inj hbody⟩
  · exact absurd hbody invalidBody_ne_ok

theorem changePasswordBody_fits (hbody : changePasswordBody body = .ok endpoint) :
    .session = endpoint.routeGuard ∧ endpoint.isSafe = false := by
  unfold changePasswordBody at hbody
  split at hbody
  · obtain rfl := Except.ok.inj hbody
    exact ⟨rfl, rfl⟩
  · exact absurd hbody invalidBody_ne_ok

theorem disableTwoFactorBody_fits
    (hbody : disableTwoFactorBody body = .ok endpoint) :
    .session = endpoint.routeGuard ∧ endpoint.isSafe = false := by
  unfold disableTwoFactorBody at hbody
  split at hbody
  · obtain rfl := Except.ok.inj hbody
    exact ⟨rfl, rfl⟩
  · exact absurd hbody invalidBody_ne_ok

theorem createUserBody_fits (hbody : createUserBody body = .ok endpoint) :
    .administrator = endpoint.routeGuard ∧ endpoint.isSafe = false := by
  unfold createUserBody at hbody
  split at hbody
  · obtain rfl := Except.ok.inj hbody
    exact ⟨rfl, rfl⟩
  · exact absurd hbody invalidBody_ne_ok

theorem updateSettingsBody_fits
    (hbody : updateSettingsBody libraries body = .ok endpoint) :
    .administrator = endpoint.routeGuard ∧ endpoint.isSafe = false := by
  unfold updateSettingsBody at hbody
  split at hbody
  · exact absurd hbody invalidBody_ne_ok
  · obtain rfl := Except.ok.inj hbody
    exact ⟨rfl, rfl⟩
  all_goals exact absurd hbody invalidBody_ne_ok

theorem withParams_ok {segments : List String} {handled : ApiHandler}
    {make : List String → Except AppError ApiHandler}
    (hhandler : withParams libraries call segments make = .ok handled) :
    ∃ params, make params = .ok handled := by
  unfold withParams at hhandler
  split at hhandler
  · simp [notFoundHandler] at hhandler
  · cases hparams : segments.mapM (routeParam libraries) with
    | error error => simp [hparams, Except.bind] at hhandler
    | ok params => exact ⟨params, by simpa [hparams, Except.bind] using hhandler⟩

theorem authRoute_fits (rest : List String) : (authRoute call rest).Fits := by
  have hmissing : Route.Fits ⟨.nobody, false, notFoundHandler call⟩ :=
    Route.fits_of_handler fun _ => notFound_ne_ok
  have htoken : ∀ {guard : RouteGuard} {limiter : Bool}
      (make : String → Endpoint), (∀ token, guard = (make token).routeGuard ∧
        (make token).isSafe = false) →
      Route.Fits ⟨guard, limiter, (tokenBody call.body make).map .endpoint⟩ := by
    intro guard limiter make hmake
    refine Route.fits_of_body fun endpoint hbody => ?_
    obtain ⟨token, rfl⟩ := tokenBody_ok hbody
    exact hmake token
  unfold authRoute
  dsimp only
  split
  · exact hmissing
  · split
    · split
      · exact Route.fits_of_body fun _ => loginBody_fits
      · split
        · exact htoken _ fun _ => ⟨rfl, rfl⟩
        · split
          · intro endpoint hhandler
            obtain rfl := ApiHandler.endpoint.inj (Except.ok.inj hhandler)
            exact ⟨rfl, rfl⟩
          · split
            · exact Route.fits_of_body fun _ => changePasswordBody_fits
            · exact hmissing
    · split
      · split
        · refine Route.fits_of_body fun endpoint hbody => ?_
          obtain rfl := Except.ok.inj hbody
          exact ⟨rfl, rfl⟩
        · split
          · exact htoken _ fun _ => ⟨rfl, rfl⟩
          · split
            · exact Route.fits_of_body fun _ => disableTwoFactorBody_fits
            · exact hmissing
      · exact hmissing
    · exact hmissing

theorem processRoute_fits (rest : List String) :
    (processRoute libraries call rest).Fits := by
  refine Route.fits_of_handler fun endpoint hhandler => ?_
  simp only [processRoute] at hhandler
  split at hhandler
  · obtain ⟨params, hparams⟩ := withParams_ok hhandler
    split at hparams
    · split at hparams
      · exact processHandler_ne_ok hparams
      · exact notFound_ne_ok hparams
    · exact notFound_ne_ok hparams
  · split at hhandler
    · obtain ⟨params, hparams⟩ := withParams_ok hhandler
      split at hparams
      · exact processHandler_ne_ok hparams
      · exact notFound_ne_ok hparams
    · obtain ⟨params, hparams⟩ := withParams_ok hhandler
      split at hparams
      · split at hparams
        · exact processHandler_ne_ok hparams
        · exact notFound_ne_ok hparams
      · exact notFound_ne_ok hparams
  · split at hhandler
    · obtain ⟨params, hparams⟩ := withParams_ok hhandler
      exact notFound_ne_ok hparams
    · exact notFound_ne_ok hhandler
  · exact notFound_ne_ok hhandler

theorem userRoute_fits (rest : List String) :
    (userRoute libraries call rest).Fits := by
  intro endpoint hhandler
  simp only [userRoute] at hhandler ⊢
  split at hhandler
  · split at hhandler
    · obtain ⟨found, hfound, heq⟩ := except_map_ok hhandler
      obtain rfl := ApiHandler.endpoint.inj heq
      exact createUserBody_fits hfound
    · exact absurd hhandler notFound_ne_ok
  · obtain ⟨params, hparams⟩ := withParams_ok hhandler
    split at hparams
    · split at hparams
      · split at hparams
        · obtain rfl := ApiHandler.endpoint.inj (Except.ok.inj hparams)
          exact ⟨rfl, rfl⟩
        · simp at hparams
      · exact absurd hparams notFound_ne_ok
    · exact absurd hparams notFound_ne_ok
  · exact absurd hhandler notFound_ne_ok

theorem apiRoute_fits (libraries : ApiLibraries) (call : ApiCall) :
    (apiRoute libraries call).Fits := by
  have hmissing : ∀ guard, Route.Fits ⟨guard, false, notFoundHandler call⟩ :=
    fun _ => Route.fits_of_handler fun _ => notFound_ne_ok
  unfold apiRoute
  split
  · dsimp only
    split
    · exact hmissing _
    · split
      · exact authRoute_fits _
      · split
        · exact processRoute_fits _
        · split
          · unfold settingsRoute
            split
            · exact Route.fits_of_body fun _ => updateSettingsBody_fits
            · exact hmissing _
          · split
            · exact userRoute_fits _
            · split <;> exact hmissing _
  · exact hmissing _

theorem isProtected_of_endpoint
    (hroute : (apiRoute libraries call).handler = .ok (.endpoint endpoint)) :
    (ApiRequest.mutation call).isProtected = true := by
  unfold apiRoute at hroute
  split at hroute
  next api mount rest hpath =>
    simp only [ApiRequest.isProtected, hpath]
    cases hapi : isSegment "api" api with
    | true => rfl
    | false =>
        simp only [hapi, Bool.not_false, if_true] at hroute
        exact absurd hroute notFound_ne_ok
  · exact absurd hroute notFound_ne_ok

/-- A request which no limiter holds up is answered as the accounts machine
answers it from its arrival on. -/
theorem serve_eq_arrive {csrfHeader : Option String} {arrival : Arrival}
    (moments : List Moment) (hrefused : arrival.refused = none)
    (hlimited : arrival.limited = none)
    (hroute : (apiRoute libraries call).handler = .ok (.endpoint endpoint)) :
    (serve platform libraries (.mutation call) csrfHeader arrival moments).reply =
      answerEndpoint platform ⟨arrival.cookie, csrfHeader, arrival.ip, endpoint⟩
        (arrive platform arrival.state.auth
          ⟨arrival.cookie, csrfHeader, arrival.ip, endpoint⟩
          (arrival.state.auth.openSession arrival.cookie).1
          arrival.supply).outcome moments := by
  obtain ⟨hguard, hsafe⟩ := apiRoute_fits libraries call endpoint hroute
  have hprotected := isProtected_of_endpoint hroute
  generalize hsession : (arrival.state.auth.openSession arrival.cookie).1 = session
  have hcsrf : csrfProtection ⟨arrival.cookie, csrfHeader, arrival.ip, endpoint⟩
      session.data = presentsToken csrfHeader session.data := by
    simp [csrfProtection_eq, hsafe]
  simp only [serve, ApiRequest.route, hsession, hrefused, hlimited, hprotected,
    if_true, ite_self, hroute, hguard, arrive, hcsrf, Endpoint.guard_eq]
  cases presentsToken csrfHeader session.data with
  | error error => rfl
  | ok _ =>
      cases endpoint.routeGuard.check session.data with
      | error error => rfl
      | ok _ =>
          simp only [ApiHandler.serve]
          cases controller platform arrival.state.auth
            ⟨arrival.cookie, csrfHeader, arrival.ip, endpoint⟩ session
            arrival.supply <;> rfl

end

/-! ## The controllers of the accounts -/

/-- The controller goes on past its first stretch, or answers otherwise than
with a 403. -/
def Outcome.Unforbidden : Outcome → Prop
  | .awaits _ stage => stage ≠ .arrived
  | .replies _ reply => reply.statusCode ≠ 403

theorem currentUser_unforbidden {handler : SessionUser → Segment}
    (hhandler : ∀ user, (handler user).outcome.Unforbidden) :
    (currentUser session handler).outcome.Unforbidden := by
  unfold currentUser
  split
  · simp [Outcome.Unforbidden, Reply.statusCode, AppError.unauthorized]
  · exact hhandler _

theorem fail_unforbidden {error : AppError} {events : List Event}
    (herror : error.statusCode ≠ 403) :
    (fail session error events).outcome.Unforbidden := herror

theorem verifyTwoFactor_unforbidden {token : String} :
    (verifyTwoFactor platform state request session token).outcome.Unforbidden := by
  unfold verifyTwoFactor
  split
  · exact fail_unforbidden (by simp [AppError.unauthorized])
  · split
    · exact fail_unforbidden (by simp [AppError.unauthorized])
    · simp [regenerateSession, Outcome.Unforbidden]

theorem setupTwoFactor_unforbidden :
    (setupTwoFactor platform state session supply).outcome.Unforbidden := by
  refine currentUser_unforbidden fun user => ?_
  split
  · exact fail_unforbidden (by simp [AppError.unauthorized])
  · split
    · exact fail_unforbidden (by simp [AppError.conflict])
    · simp [Outcome.Unforbidden]

theorem enableTwoFactor_unforbidden {token : String} :
    (enableTwoFactor platform request session token).outcome.Unforbidden := by
  refine currentUser_unforbidden fun user => ?_
  split
  · exact fail_unforbidden (by simp [AppError.badRequest])
  · split
    · simp [Outcome.Unforbidden, Reply.statusCode]
    · exact fail_unforbidden (by simp [AppError.unauthorized])

theorem removeUser_unforbidden {id : ℕ} :
    (removeUser state request session id).outcome.Unforbidden := by
  unfold removeUser
  split
  · exact fail_unforbidden (by simp [AppError.badRequest])
  · split
    · exact fail_unforbidden (by simp [AppError.notFound])
    · split
      · exact fail_unforbidden (by simp [AppError.conflict])
      · simp [Outcome.Unforbidden, Reply.statusCode]

theorem createUser_unforbidden {input : CreateUserInput} :
    (createUser state session input).outcome.Unforbidden := by
  unfold createUser checkUsername
  split
  next error hname =>
    split at hname
    · obtain rfl := Except.error.inj hname
      exact fail_unforbidden (by simp [AppError.conflict])
    · simp at hname
  · simp [Outcome.Unforbidden]

theorem controller_unforbidden {segment : Segment}
    (hcontroller :
      controller platform state request session supply = .ok segment) :
    segment.outcome.Unforbidden := by
  unfold controller at hcontroller
  cases hendpoint : request.endpoint <;> simp only [hendpoint] at hcontroller
  case csrfToken =>
    obtain rfl := Except.ok.inj hcontroller
    unfold csrfTokenHandler
    split <;> simp [Outcome.Unforbidden, Reply.statusCode]
  case login =>
    obtain ⟨body, _, rfl⟩ := except_map_ok hcontroller
    simp [login, Outcome.Unforbidden]
  case verifyTwoFactor =>
    obtain ⟨token, _, rfl⟩ := except_map_ok hcontroller
    exact verifyTwoFactor_unforbidden
  case logout =>
    obtain rfl := Except.ok.inj hcontroller
    simp [logout, Outcome.Unforbidden]
  case me =>
    obtain rfl := Except.ok.inj hcontroller
    refine currentUser_unforbidden fun user => ?_
    split
    · exact fail_unforbidden (by simp [AppError.unauthorized])
    · simp [Outcome.Unforbidden, Reply.statusCode]
  case changePassword =>
    obtain ⟨body, _, rfl⟩ := except_map_ok hcontroller
    refine currentUser_unforbidden fun user => ?_
    split
    · exact fail_unforbidden (by simp [AppError.notFound])
    · simp [Outcome.Unforbidden]
  case setupTwoFactor =>
    obtain rfl := Except.ok.inj hcontroller
    exact setupTwoFactor_unforbidden
  case enableTwoFactor =>
    obtain ⟨token, _, rfl⟩ := except_map_ok hcontroller
    exact enableTwoFactor_unforbidden
  case disableTwoFactor =>
    obtain ⟨password, _, rfl⟩ := except_map_ok hcontroller
    refine currentUser_unforbidden fun user => ?_
    split
    · exact fail_unforbidden (by simp [AppError.unauthorized])
    · simp [Outcome.Unforbidden]
  case createUser =>
    obtain ⟨input, _, rfl⟩ := except_map_ok hcontroller
    exact createUser_unforbidden
  case removeUser =>
    obtain ⟨id, _, rfl⟩ := except_map_ok hcontroller
    exact removeUser_unforbidden
  case listUsers | getSettings =>
    obtain rfl := Except.ok.inj hcontroller
    simp [listUsers, getSettings, Outcome.Unforbidden, Reply.statusCode]
  case updateSettings | listActivity =>
    obtain ⟨input, _, rfl⟩ := except_map_ok hcontroller
    simp [updateSettings, listActivity, Outcome.Unforbidden, Reply.statusCode]

theorem loginVerified_unforbidden {user : Option UserRecord}
    {username password : String} :
    (loginVerified platform state request session user username
      password).outcome.Unforbidden := by
  unfold loginVerified
  split
  · exact fail_unforbidden (by simp [AppError.unauthorized])
  · split <;> simp [regenerateSession, Outcome.Unforbidden]

theorem segment_unforbidden (hstage : task.stage ≠ .arrived) :
    (task.segment platform state supply).outcome.Unforbidden := by
  unfold HttpTask.segment
  cases htask : task.stage with
  | arrived => exact absurd htask hstage
  | verifyLogin user username password => exact loginVerified_unforbidden
  | challengeSaved | established | destroyed =>
      simp [challengeAnswer, loggedIn, loggedOut, Outcome.Unforbidden,
        Reply.statusCode]
  | regenerated user step => simp [attachUser, Outcome.Unforbidden]
  | verifyCurrent user currentPassword newPassword =>
      simp only [currentVerified]
      split
      · simp [Outcome.Unforbidden]
      · exact fail_unforbidden (by simp [AppError.unauthorized])
  | hashNew user newPassword =>
      exact currentUser_unforbidden fun _ => by
        simp [Outcome.Unforbidden, Reply.statusCode]
  | renderQr secret otpauthUrl =>
      simp only [qrRendered]
      split
      · exact fail_unforbidden (by simp [AppError.unexpected])
      · simp [Outcome.Unforbidden, Reply.statusCode]
  | verifyDisable user password =>
      simp only [disableVerified]
      split
      · simp [Outcome.Unforbidden, Reply.statusCode]
      · exact fail_unforbidden (by simp [AppError.unauthorized])
  | hashCreate input =>
      simp only [userHashed]
      split
      · exact fail_unforbidden (by simp [AppError.unexpected])
      · simp [Outcome.Unforbidden, Reply.statusCode]

theorem continueHttp_unforbidden {moments : List Moment} {reply : Reply}
    (hstage : task.stage ≠ .arrived)
    (hreply : continueHttp platform task moments = some reply) :
    reply.statusCode ≠ 403 := by
  induction moments generalizing task with
  | nil => simp [continueHttp] at hreply
  | cons moment rest ih =>
      have hsegment : (task.segment platform moment.state.auth
          moment.supply).outcome.Unforbidden := segment_unforbidden hstage
      simp only [continueHttp] at hreply
      generalize (task.segment platform moment.state.auth
        moment.supply).outcome = outcome at hsegment hreply
      cases outcome with
      | awaits session stage =>
          have hnext : ({ task with session, stage } : HttpTask).stage ≠ .arrived :=
            hsegment
          exact ih hnext hreply
      | replies session found =>
          obtain rfl := Option.some.inj hreply
          exact hsegment

theorem answerEndpoint_unforbidden {outcome : Outcome} {moments : List Moment}
    {reply : Reply} (houtcome : outcome.Unforbidden)
    (hreply : answerEndpoint platform request outcome moments = some reply) :
    reply.statusCode ≠ 403 := by
  cases outcome with
  | awaits session stage =>
      have hnext : (⟨request, session, stage⟩ : HttpTask).stage ≠ .arrived :=
        houtcome
      exact continueHttp_unforbidden hnext hreply
  | replies session found =>
      obtain rfl := Option.some.inj hreply
      exact houtcome

/-! ## The failures of the PM2 service -/

/-- Every error of the service has the status of `Pm2Error`. -/
structure Pm2State.ReportsPm2 (state : Pm2State) : Prop where
  attempts : ∀ id error, state.attemptResult id = some (.error error) →
    error.statusCode = 502
  calls : ∀ id job error,
    state.calls id = some { job, phase := .settled (.error error) } →
    error.statusCode = 502

section

variable {pm2 mid next : Pm2State} {action : Pm2Action}

theorem attemptResult_of_moves {id : AttemptId} {error : AppError}
    (hmoves : Pm2Moves pm2 next)
    (hresult : next.attemptResult id = some (.error error)) :
    pm2.attemptResult id = some (.error error) := by
  refine moves_preserve
    (P := fun mid => mid.attemptResult id = some (.error error) →
      pm2.attemptResult id = some (.error error)) ?_ (fun h => h) hmoves hresult
  intro before after hbefore hmove hafter
  apply hbefore
  cases hmove with
  | attempt _ _ =>
      simp only [Pm2State.openAttempt] at hafter
      by_cases heq : id = before.nextAttempt
      · simp [Pm2State.attemptResult, Pm2State.setAttempt, heq] at hafter
      · simpa [Pm2State.attemptResult, Pm2State.setAttempt, heq] using hafter
  | launch | call | fresh => exact hafter

theorem attemptResult_step {id : AttemptId} {error : AppError}
    (hresult : next.attemptResult id = some (.error error))
    (hstep : pm2Machine.step pm2 action = some next) :
    pm2.attemptResult id = some (.error error) ∨ error.statusCode = 502 := by
  -- a result which a step writes: an old one, success, or a `Pm2Error`
  have hset : ∀ other (attempt : ConnectAttempt) (after : Pm2State),
      after.attempts = (pm2.setAttempt other attempt).attempts →
      (∀ found, attempt.result = some (.error found) →
        pm2.attemptResult other = some (.error found) ∨ found.statusCode = 502) →
      after.attemptResult id = some (.error error) →
      pm2.attemptResult id = some (.error error) ∨ error.statusCode = 502 := by
    intro other attempt after hattempts hattempt hafter
    rw [Pm2State.attemptResult_congr hattempts,
      Pm2State.attemptResult_setAttempt] at hafter
    split at hafter
    next heq =>
      subst heq
      exact hattempt error hafter
    · exact .inl hafter
  cases pm2Step_cases hstep with
  | called operation =>
      exact .inl (attemptResult_of_moves (pm2.startCall_moves operation.job) hresult)
  | resumed other call _ hcall hresume =>
      exact .inl (attemptResult_of_moves (Pm2State.resume_moves hresume) hresult)
  | disconnected throws =>
      rcases closeBus_cases pm2 throws with
        ⟨hsame, _⟩ | ⟨other, bus, _, _, _, hclosed⟩
      · exact .inl (by
          simpa [Pm2State.disconnect, hsame, Pm2State.attemptResult] using hresult)
      · exact .inl (by
          simpa [Pm2State.disconnect, hclosed, Pm2State.setBus,
            Pm2State.attemptResult] using hresult)
  | timedOut other failure calledBack hattempt hfailure =>
      refine hset other _ _ rfl (fun found hfound => .inr ?_) hresult
      obtain rfl := Except.error.inj (Option.some.inj hfound)
      exact hfailure
  | refused other detail failure hattempt hfailure =>
      refine hset other _ _ rfl (fun found hfound => .inr ?_) hresult
      obtain rfl := Except.error.inj (Option.some.inj hfound)
      exact hfailure
  | calledBackLate other err result hattempt =>
      refine hset other _ _ rfl (fun found hfound => .inl ?_) hresult
      rw [Pm2State.attemptResult_of_attempts hattempt]
      exact hfound
  | connected other hattempt =>
      exact hset other _ _ rfl (fun found hfound => by simp at hfound) hresult
  | launchFailed | launched | answered | busErrored | busClosed | published =>
      exact .inl hresult

theorem Pm2State.Passes.not_failed {job : Pm2Job} {phase : CallPhase}
    {error : AppError} (hpasses : pm2.Passes job phase) :
    phase ≠ .settled (.error error) := by
  cases hpasses <;> simp

theorem Pm2State.Starts.not_failed {job : Pm2Job} {phase : CallPhase}
    {error : AppError} (hstarts : pm2.Starts job phase) :
    phase ≠ .settled (.error error) := by
  cases hstarts with
  | awaitsConnect attempt hconnected => simp
  | passes phase hconnected hpasses => exact hpasses.not_failed

theorem failed_of_startCalls {jobs : List Pm2Job} {id : CallId} {job : Pm2Job}
    {error : AppError} (hcall : (pm2.startCalls jobs).calls id =
      some { job, phase := .settled (.error error) }) :
    pm2.calls id = some { job, phase := .settled (.error error) } := by
  obtain ⟨_, hbefore, hafter, hstarted⟩ := pm2.startCalls_calls jobs
  rcases Nat.lt_or_ge id pm2.nextCall with hlt | hge
  · exact hbefore id hlt ▸ hcall
  · obtain ⟨place, rfl⟩ := Nat.exists_eq_add_of_le hge
    by_cases hplace : place < jobs.length
    · obtain ⟨phase, hstarts, hfound⟩ := hstarted place hplace
      rw [hfound, Option.some.injEq, Pm2Call.mk.injEq] at hcall
      exact absurd hcall.2 hstarts.not_failed
    · exact hafter _ (Nat.add_le_add_left (Nat.not_lt.mp hplace) _) ▸ hcall

theorem reportsPm2_initial : Pm2State.initial.ReportsPm2 where
  attempts id error hresult := by
    simp [Pm2State.initial, Pm2State.attemptResult] at hresult
  calls id job error hcall := by simp [Pm2State.initial] at hcall

theorem reportsPm2_step :
    pm2Machine.Preserves Machine.anyAction Pm2State.ReportsPm2 := by
  intro pm2 action next hstate _ hstep
  refine ⟨fun id error hresult => ?_, fun id job error hcall => ?_⟩
  · rcases attemptResult_step hresult hstep with hold | hpm2
    · exact hstate.attempts id error hold
    · exact hpm2
  · cases calls_step hstep with
    | kept hcalls hcount _ _ => exact hstate.calls id job error (hcalls ▸ hcall)
    | called operation haction hnext =>
        rw [hnext] at hcall
        have hold : (pm2.startCalls [operation.job]).calls id =
            some { job, phase := .settled (.error error) } := hcall
        exact hstate.calls id job error (failed_of_startCalls hold)
    | answered other reply waiting haction hother hnext =>
        by_cases heq : id = other
        · simp [hnext, Pm2State.setCall, heq] at hcall
        · exact hstate.calls id job error (by
            simpa [hnext, Pm2State.setCall, heq] using hcall)
    | resumed other before phase mid haction hother hgoes hcalls hcount hmoves
        hnext =>
        rw [hnext] at hcall
        have hmid := failed_of_startCalls hcall
        rw [hcalls] at hmid
        by_cases heq : id = other
        · subst heq
          rw [update_self, Option.some.injEq, Pm2Call.mk.injEq] at hmid
          obtain ⟨_, hphase⟩ := hmid
          cases hgoes with
          | refused attempt failure _ hresult =>
              obtain rfl := Except.error.inj (CallPhase.settled.inj hphase)
              exact hstate.attempts attempt failure hresult
          | fails query message detail followUp =>
              obtain rfl := Except.error.inj (CallPhase.settled.inj hphase)
              rfl
          | connected attempt _ _ hresult hpasses =>
              exact absurd hphase hpasses.not_failed
          | attached | issues | returns | succeeds => simp at hphase
        · rw [update_of_ne heq] at hmid
          exact hstate.calls id job error hmid

end

/-! ## The controllers of the processes -/

theorem answerProcess_unforbidden {moments : List Moment} {reply : Reply}
    (hreply : answerProcess moments = some reply) : reply.statusCode ≠ 403 := by
  cases moments with
  | nil => simp [answerProcess] at hreply
  | cons moment rest =>
      simp only [answerProcess] at hreply
      split at hreply
      · obtain rfl := Option.some.inj hreply
        simp [Reply.statusCode]
      next call _ =>
        obtain ⟨error, hrejection, rfl⟩ := Option.map_eq_some_iff.mp hreply
        obtain ⟨word, hexec⟩ := moment.state.reached
        have hreports : moment.state.pm2.ReportsPm2 :=
          reportsPm2_step.exec_any reportsPm2_initial hexec
        obtain ⟨job, hcall⟩ := Pm2State.callResult_eq_some.mp
          (Pm2State.rejection_eq_some.mp hrejection)
        have hstatus := hreports.calls call job error hcall
        simp [Reply.statusCode, hstatus]

/-- Once a controller body has run, the answer is no 403. -/
theorem serve_unforbidden {libraries : ApiLibraries} {request : ApiRequest}
    {csrfHeader : Option String} {arrival : Arrival} {moments : List Moment}
    {reply : Reply}
    (hran : (serve platform libraries request csrfHeader arrival moments).ran = true)
    (hreply : (serve platform libraries request csrfHeader arrival moments).reply =
      some reply) :
    reply.statusCode ≠ 403 := by
  unfold serve at hran hreply
  dsimp only at hran hreply
  split at hran
  · simp [refusal] at hran
  · simp [refusal] at hran
  · simp [refusal] at hran
  · simp [refusal] at hran
  · simp [refusal] at hran
  next handler hrefused hcsrf hguard hlimited hhandler =>
    rw [hrefused, hcsrf, hguard, hlimited, hhandler] at hreply
    cases handler with
    | process operation => exact answerProcess_unforbidden hreply
    | endpoint endpoint =>
        simp only [ApiHandler.serve] at hran hreply
        split at hran
        · simp at hran
        next segment hcontroller =>
          rw [hcontroller] at hreply
          exact answerEndpoint_unforbidden (controller_unforbidden hcontroller)
            hreply

end Pm2Manager
