import Pm2Manager.ApiClient
import Pm2Manager.CsrfTokens
import Pm2Manager.SessionPrivileges

/-!
# The guards of the routes

A mutation runs its handler behind the CSRF check and behind the guard of its
router.  However the path is spelled, the guard is the one its handler asks
for: the steps of the login and the logout are open, the settings and the
accounts want an administrator, and all else wants a user.
-/

namespace Pm2Manager

open ScriptText (truthy)

variable {platform : Platform} {libraries : ApiLibraries} {call : ApiCall}
variable {handler : ApiHandler} {operation : ProcessOperation}
variable {data : SessionData} {csrfHeader : Option String}

def ApiHandler.routeGuard : ApiHandler → RouteGuard
  | .endpoint routed => Endpoint.routeGuard routed
  | .process _ => .session

/-! ## Routes -/

/-- The route hands no handler of the processes on. -/
def Route.OnlyEndpoints (route : Route) : Prop :=
  ∀ operation, route.handler ≠ .ok (.process operation)

theorem notFoundHandler_ne : notFoundHandler call ≠ .ok handler := by
  simp [notFoundHandler]

theorem Route.onlyEndpoints_missing {guard : RouteGuard} :
    Route.OnlyEndpoints ⟨guard, false, notFoundHandler call⟩ :=
  fun _ => notFoundHandler_ne

theorem Route.onlyEndpoints_map {guard : RouteGuard} {limiter : Bool}
    {result : Except AppError Endpoint} :
    Route.OnlyEndpoints ⟨guard, limiter, result.map .endpoint⟩ := by
  intro operation hhandler
  obtain ⟨endpoint, _, heq⟩ := except_map_ok hhandler
  cases heq

theorem authRoute_onlyEndpoints (rest : List String) :
    (authRoute call rest).OnlyEndpoints := by
  unfold authRoute
  dsimp only
  split
  · exact Route.onlyEndpoints_missing
  · split
    · split
      · exact Route.onlyEndpoints_map
      · split
        · exact Route.onlyEndpoints_map
        · split
          · intro operation hhandler
            cases hhandler
          · split
            · exact Route.onlyEndpoints_map
            · exact Route.onlyEndpoints_missing
    · split
      · split
        · exact Route.onlyEndpoints_map
        · split
          · exact Route.onlyEndpoints_map
          · split
            · exact Route.onlyEndpoints_map
            · exact Route.onlyEndpoints_missing
      · exact Route.onlyEndpoints_missing
    · exact Route.onlyEndpoints_missing

theorem settingsRoute_onlyEndpoints (rest : List String) :
    (settingsRoute libraries call rest).OnlyEndpoints := by
  unfold settingsRoute
  split
  · exact Route.onlyEndpoints_map
  · exact Route.onlyEndpoints_missing

theorem userRoute_onlyEndpoints (rest : List String) :
    (userRoute libraries call rest).OnlyEndpoints := by
  intro operation hhandler
  simp only [userRoute] at hhandler
  split at hhandler
  · split at hhandler
    · obtain ⟨endpoint, _, heq⟩ := except_map_ok hhandler
      cases heq
    · exact notFoundHandler_ne hhandler
  · obtain ⟨params, hparams⟩ := withParams_ok hhandler
    split at hparams
    · split at hparams
      · split at hparams <;> cases hparams
      · exact notFoundHandler_ne hparams
    · exact notFoundHandler_ne hparams
  · exact notFoundHandler_ne hhandler

/-- A handler of the processes comes from their router alone. -/
theorem apiRoute_process
    (hhandler : (apiRoute libraries call).handler = .ok (.process operation)) :
    (apiRoute libraries call).guard = .session := by
  unfold apiRoute at hhandler ⊢
  split at hhandler
  · dsimp only at hhandler ⊢
    split at hhandler
    · exact absurd hhandler notFoundHandler_ne
    · split at hhandler
      · exact absurd hhandler (authRoute_onlyEndpoints _ _)
      · split at hhandler
        next hauth hprocesses =>
          rw [if_neg (by assumption), if_neg hauth, if_pos hprocesses]
          rfl
        · split at hhandler
          · exact absurd hhandler (settingsRoute_onlyEndpoints _ _)
          · split at hhandler
            · exact absurd hhandler (userRoute_onlyEndpoints _ _)
            · split at hhandler <;> exact absurd hhandler notFoundHandler_ne
  · exact absurd hhandler notFoundHandler_ne

/-- The guard of a route is the one of the handler behind it. -/
theorem apiRoute_guard
    (hhandler : (apiRoute libraries call).handler = .ok handler) :
    (apiRoute libraries call).guard = handler.routeGuard := by
  cases handler with
  | endpoint endpoint => exact (apiRoute_fits libraries call endpoint hhandler).1
  | process operation => exact apiRoute_process hhandler

/-- There are no routes but those below `/api`. -/
theorem isProtected_of_handler
    (hhandler : (apiRoute libraries call).handler = .ok handler) :
    (ApiRequest.mutation call).isProtected = true := by
  unfold apiRoute at hhandler
  split at hhandler
  next api mount rest hpath =>
    simp only [ApiRequest.isProtected, hpath]
    cases hapi : isSegment "api" api with
    | true => rfl
    | false =>
        simp only [hapi, Bool.not_false, if_true] at hhandler
        exact absurd hhandler notFoundHandler_ne
  · exact absurd hhandler notFoundHandler_ne

/-! ## Serving -/

theorem presentsToken_ok (htoken : presentsToken csrfHeader data = .ok ()) :
    ∃ secret, secret ≠ "" ∧ data.csrfSecret = some secret ∧
      csrfHeader = some secret := by
  unfold presentsToken at htoken
  split at htoken
  next secret provided hsecret hprovided =>
    split at htoken
    next hsame =>
      obtain ⟨hdata, hne⟩ := truthy_eq_some hsecret
      exact ⟨secret, hne, hdata, hsame ▸ (truthy_eq_some hprovided).1⟩
    · cases htoken
  · cases htoken

theorem check_user {guard : RouteGuard} (hcheck : guard.check data = .ok ())
    (hguard : guard ≠ .nobody) : ∃ user, data.user = some user := by
  cases guard with
  | nobody => exact absurd rfl hguard
  | session | administrator =>
      cases huser : data.user with
      | some user => exact ⟨user, rfl⟩
      | none => simp [RouteGuard.check, requireAuth, requireAdmin, huser] at hcheck

theorem check_administrator {user : SessionUser}
    (hcheck : RouteGuard.administrator.check data = .ok ())
    (huser : data.user = some user) : user.isAdmin = true := by
  simp only [RouteGuard.check, requireAdmin, huser] at hcheck
  split at hcheck
  · assumption
  · cases hcheck

/-- A handler runs only after the CSRF check and the guard have passed. -/
theorem serve_ran {arrival : Arrival} {moments : List Moment}
    (hran : (serve platform libraries (.mutation call) csrfHeader arrival
      moments).ran = true) :
    ∃ handler, (apiRoute libraries call).handler = .ok handler ∧
      presentsToken csrfHeader
        (arrival.state.auth.openSession arrival.cookie).1.data = .ok () ∧
      handler.routeGuard.check
        (arrival.state.auth.openSession arrival.cookie).1.data = .ok () := by
  simp only [serve, ApiRequest.route] at hran
  split at hran <;> try cases hran
  next hrefused hcsrf hcheck hlimited hhandler =>
    rw [if_pos (isProtected_of_handler hhandler)] at hcsrf
    rw [apiRoute_guard hhandler] at hcheck
    exact ⟨_, hhandler, hcsrf, hcheck⟩

/-- Whom the guard lets through: the user of the session, whom the `users`
table describes alike while the account exists. -/
def RouteGuard.Admits (state : AuthState) (data : SessionData) : RouteGuard → Prop
  | .nobody => True
  | .session => ∃ user, data.user = some user ∧
      ∀ row ∈ state.users.rows, row.id = user.id → row.sessionUser = user
  | .administrator => ∃ user, data.user = some user ∧ user.isAdmin = true ∧
      ∀ row ∈ state.users.rows, row.id = user.id → row.sessionUser = user

theorem RouteGuard.admits_of_check {state : AuthState} {sid : SessionId}
    {guard : RouteGuard} (hstate : state.NamesRightly)
    (hget : state.sessions.get sid = some data)
    (hcheck : guard.check data = .ok ()) : guard.Admits state data := by
  have hdescribes : ∀ user, data.user = some user → state.Describes user :=
    hstate.rows _ (SessionStore.mem_of_get hget)
  cases guard with
  | nobody => trivial
  | session =>
      obtain ⟨user, huser⟩ := check_user hcheck (by simp)
      exact ⟨user, huser, (hdescribes user huser).row⟩
  | administrator =>
      obtain ⟨user, huser⟩ := check_user hcheck (by simp)
      exact ⟨user, huser, check_administrator hcheck huser,
        (hdescribes user huser).row⟩

/-- Whatever a mutation's method, path and body are: when its handler runs, the
request carries the cookie and the CSRF secret of a stored session, and the
session's user is one for whom the handler is meant. -/
theorem mutation_authorised {arrival : Arrival} {moments : List Moment}
    {users : UsersTable} {word : List Action}
    (hexec : (authMachine platform).exec (.initial users) word =
      some arrival.state.auth)
    (hran : (serve platform libraries (.mutation call) csrfHeader arrival
      moments).ran = true) :
    ∃ handler sid data secret,
      (apiRoute libraries call).handler = .ok handler ∧
        arrival.cookie = some sid ∧
        arrival.state.auth.sessions.get sid = some data ∧
        data.csrfSecret = some secret ∧ csrfHeader = some secret ∧ secret ≠ "" ∧
        handler.routeGuard.Admits arrival.state.auth data := by
  have hstate : arrival.state.auth.NamesRightly :=
    namesRightly_step.exec_any (namesRightly_initial users) hexec
  obtain ⟨handler, hhandler, htoken, hcheck⟩ := serve_ran hran
  obtain ⟨secret, hne, hsecret, hheader⟩ := presentsToken_ok htoken
  obtain ⟨sid, data, hcookie, hget, hopen⟩ := AuthState.openSession_stored hsecret
  rw [hopen] at hsecret hcheck
  exact ⟨handler, sid, data, secret, hhandler, hcookie, hget, hsecret, hheader, hne,
    RouteGuard.admits_of_check hstate hget hcheck⟩

/-- A request of session `1` which nothing holds up. -/
def sampleArrival (state : AuthState) : Arrival :=
  { sampleExchange.arrival with
    state := { sampleExchange.sampleServer with auth := state }
    cookie := some 1 }

/-- The administrator who has just fetched a token writes the settings; the
path has capitals and a slash too many. -/
theorem mutation_authorised_sampleLoggedIn :
    ∃ state,
      (authMachine samplePlatform).exec (.initial .empty)
          (sampleLoggedIn ++
            [.request sampleTokenRequest (sampleSupply "csrf")]) = some state ∧
        (serve samplePlatform sampleLibraries
          (.mutation ⟨.put, "/API/settings/", .object []⟩) (some "csrf")
          (sampleArrival state) []).ran = true ∧
        ∃ handler sid data secret,
          (apiRoute sampleLibraries
            ⟨.put, "/API/settings/", .object []⟩).handler = .ok handler ∧
          (sampleArrival state).cookie = some sid ∧
          state.sessions.get sid = some data ∧
          data.csrfSecret = some secret ∧ some "csrf" = some secret ∧ secret ≠ "" ∧
          handler.routeGuard.Admits state data := by
  obtain ⟨state, hexec, hran⟩ := Machine.exists_of_exec_map
    (authMachine samplePlatform) (.initial .empty)
    (sampleLoggedIn ++ [.request sampleTokenRequest (sampleSupply "csrf")])
    (fun state => (serve samplePlatform sampleLibraries
      (.mutation ⟨.put, "/API/settings/", .object []⟩) (some "csrf")
      (sampleArrival state) []).ran)
    (by decide +kernel)
  have hauth : (authMachine samplePlatform).exec (.initial .empty)
      (sampleLoggedIn ++ [.request sampleTokenRequest (sampleSupply "csrf")]) =
        some (sampleArrival state).state.auth := hexec
  exact ⟨state, hexec, hran, mutation_authorised hauth hran⟩

end Pm2Manager
