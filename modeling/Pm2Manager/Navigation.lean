import Pm2Manager.AccountDeletion
import Pm2Manager.SessionPrivileges

/-!
# The pages of the application

The server guards its two pages by the user of the session, and the
application, once loaded, asks for its user and goes to the login page on a
401.  The guards do not look at the `users` table and the request does: a
session whose user is gone sends the browser back and forth, until a limiter
refuses the request, which is no 401.
-/

namespace Pm2Manager

/-! ## The browser and the server -/

inductive Page
  | login
  | app
deriving DecidableEq, Repr

/-- A page is being fetched, the application waits for its user, or the page
stays. -/
inductive Tab
  | visiting (page : Page)
  | starting
  | resting (page : Page)
deriving DecidableEq, Repr

/-- `requirePage`, in front of `app.html`. -/
def requirePage (data : SessionData) : Tab :=
  match data.user with
  | some _ => .starting
  | none => .visiting .login

/-- `redirectIfAuthenticated`, in front of `login.html`. -/
def redirectIfAuthenticated (data : SessionData) : Tab :=
  match data.user with
  | some _ => .visiting .app
  | none => .resting .login

def servePage (data : SessionData) : Page → Tab
  | .app => requirePage data
  | .login => redirectIfAuthenticated data

/-- The `GET /api/auth/me` of `init`. -/
def meRequest (cookie : Option SessionId) (ip : String) : Request :=
  { cookie, csrfHeader := none, ip, endpoint := .me }

/-- The answer to a request which does not wait. -/
def AuthState.reply (platform : Platform) (state : AuthState) (request : Request)
    (supply : Supply) : Option Reply :=
  match ((state.acceptedTask request).segment platform
    (state.accept request supply.now) supply).outcome with
  | .replies _ reply => some reply
  | .awaits _ _ => none

/-- `init`, the answer being there: `request` has gone to the login page on a 401. -/
def started : Option Reply → Tab
  | some (.failure error) =>
      if error.statusCode = 401 then .visiting .login else .resting .app
  | _ => .resting .app

structure TabState where
  server : AuthState
  cookie : Option SessionId
  tab : Tab

/-- `load` is what the browser waits for; `server` is anything else that happens
to the server. -/
inductive TabAction
  | load (ip : String) (supply : Supply)
  /-- `apiRateLimiter` refuses the request of `init`. -/
  | limited
  | server (action : Action)

namespace TabState

def step (platform : Platform) (state : TabState) : TabAction → Option TabState
  | .server action =>
      ((authMachine platform).step state.server action).map fun server =>
        { state with server }
  | .load ip supply =>
      match state.tab with
      | .visiting page =>
          some { state with
            tab := servePage (state.server.openSession state.cookie).1.data page }
      | .starting =>
          let request := meRequest state.cookie ip
          ((authMachine platform).step state.server (.request request supply)).map
            fun server => { state with
              server, tab := started (state.server.reply platform request supply) }
      | .resting _ => some state
  | .limited =>
      match state.tab with
      | .starting => some { state with tab := started (some (.failure .limitReached)) }
      | _ => none

def AtRest (state : TabState) : Prop :=
  ∃ page, state.tab = .resting page

end TabState

def tabMachine (platform : Platform) : Machine TabState TabAction where
  step := TabState.step platform

/-- The session of the cookie is of a user without a row. -/
def AuthState.Stale (state : AuthState) (cookie : Option SessionId) : Prop :=
  ∃ user, (state.openSession cookie).1.data.user = some user ∧
    state.users.findById user.id = none

variable {platform : Platform} {state next last : AuthState} {action : Action}
variable {cookie : Option SessionId} {ip : String} {supply : Supply}
variable {user : SessionUser}

/-! ## The request of `init` -/

theorem me_segment : (state.acceptedTask (meRequest cookie ip)).segment platform
      (state.accept (meRequest cookie ip) supply.now) supply =
    me state (state.openSession cookie).1 := by
  have husers : (state.accept (meRequest cookie ip) supply.now).users = state.users :=
    AuthState.accept_users _ _
  have hsegment : (state.acceptedTask (meRequest cookie ip)).segment platform
      (state.accept (meRequest cookie ip) supply.now) supply =
      arrive platform (state.accept (meRequest cookie ip) supply.now)
        (meRequest cookie ip) (state.openSession cookie).1 supply := rfl
  have hcsrf : csrfProtection (meRequest cookie ip)
      (state.openSession cookie).1.data = .ok () := rfl
  rw [hsegment, arrive, hcsrf]
  cases huser : (state.openSession cookie).1.data.user with
  | none =>
      have hguard : (meRequest cookie ip).endpoint.guard
          (state.openSession cookie).1.data = .error .unauthorized := by
        simp [meRequest, Endpoint.guard, requireAuth, huser]
      rw [hguard, me, currentUser, huser]
      rfl
  | some user =>
      have hguard : (meRequest cookie ip).endpoint.guard
          (state.openSession cookie).1.data = .ok () := by
        simp [meRequest, Endpoint.guard, requireAuth, huser]
      rw [hguard]
      simp only [controller, meRequest, me, currentUser, huser]
      rw [← husers]
      rfl

/-- The answer about the user of a session. -/
def AuthState.meReply (state : AuthState) (data : SessionData) : Reply :=
  match data.user with
  | none => .failure .unauthorized
  | some user =>
      match state.users.findById user.id with
      | none => .failure .unauthorized
      | some row => .success 200 (.user (toPublicUser row))

theorem me_eq (session : RequestSession) :
    me state session = ⟨[], .replies (some session) (state.meReply session.data)⟩ := by
  rw [me, currentUser, AuthState.meReply]
  cases session.data.user with
  | none => rfl
  | some user =>
      simp only
      cases state.users.findById user.id <;> rfl

theorem reply_me : state.reply platform (meRequest cookie ip) supply =
    some (state.meReply (state.openSession cookie).1.data) := by
  rw [AuthState.reply, me_segment, me_eq]

/-- The session of a request which puts nothing into it is not written back. -/
theorem AuthState.openSession_unsaved :
    (state.openSession cookie).1.shouldSave = false := by
  rcases state.openSession_cases cookie with ⟨sid, data, _, hopen⟩ | hopen
  · simp [hopen, RequestSession.loaded, RequestSession.shouldSave]
  · simp [hopen, RequestSession.generated, RequestSession.shouldSave]

/-- Asking for the user leaves the sessions as they are. -/
theorem me_sessions
    (hstep : (authMachine platform).step state (.request (meRequest cookie ip) supply) =
      some next) : next.sessions = state.sessions := by
  cases step_cases hstep with
  | request request supply =>
      have hsaved : (state.openSession cookie).1.shouldSave = false :=
        AuthState.openSession_unsaved
      rw [AuthState.runHttp, AuthState.commit_sessions, me_segment, me_eq]
      simp only [Outcome.closing, hsaved, Bool.false_eq_true, if_false, List.nil_append]
      exact AuthState.accept_sessions _ _

/-! ## Accounts which are gone -/

/-- The id has been given and is not in use any more; it will never be again. -/
structure AuthState.Orphaned (state : AuthState) (user : SessionUser) : Prop where
  given : user.id ≤ state.users.seq
  row : ∀ row ∈ state.users.rows, row.id ≠ user.id

theorem AuthState.Orphaned.step (hstate : state.Orphaned user)
    (hstep : (authMachine platform).step state action = some next) :
    next.Orphaned user := by
  have husers := users_step hstep
  refine ⟨hstate.given.trans husers.seq_le, fun row hrow => ?_⟩
  rcases husers.row_id hrow with ⟨old, hold, hid⟩ | hnew
  · exact hid ▸ hstate.row old hold
  · rw [hnew, UsersTable.nextId]
    exact (Nat.lt_succ_of_le hstate.given).ne'

theorem findById_eq_none {table : UsersTable} {id : ℕ} :
    table.findById id = none ↔ ∀ row ∈ table.rows, row.id ≠ id := by
  simp [UsersTable.findById]

theorem AuthState.NamesRightly.orphaned (hstate : state.NamesRightly)
    (huser : (state.openSession cookie).1.data.user = some user)
    (hgone : state.users.findById user.id = none) : state.Orphaned user := by
  have hnames : (state.acceptedTask (meRequest cookie "")).Names user :=
    .session user huser
  exact ⟨(hstate.acceptedTask hnames).given, findById_eq_none.mp hgone⟩

theorem openSession_congr {other : AuthState} (hsessions : other.sessions = state.sessions) :
    (other.openSession cookie).1.data = (state.openSession cookie).1.data := by
  simp only [AuthState.openSession, hsessions]
  cases cookie.bind fun sid => (state.sessions.get sid).map (RequestSession.loaded sid) <;>
    rfl

/-! ## The tab -/

/-- The server goes on without touching the session of the tab, and the limiter
lets its requests through. -/
def KeepsSession (platform : Platform) (state : TabState) : TabAction → Prop
  | .load _ _ => True
  | .limited => False
  | .server served => ∀ next, (authMachine platform).step state.server served = some next →
      (next.openSession state.cookie).1.data = (state.server.openSession state.cookie).1.data

/-- The tab is under way, in a session whose user is gone for good. -/
structure TabState.Adrift (state : TabState) (user : SessionUser) : Prop where
  session : (state.server.openSession state.cookie).1.data.user = some user
  orphaned : state.server.Orphaned user
  moving : ¬ state.AtRest

theorem adrift_preserved (user : SessionUser) :
    (tabMachine platform).Preserves (KeepsSession platform) (TabState.Adrift · user) := by
  intro state action next hstate hkeeps hstep
  cases action with
  | server served =>
      obtain ⟨server, hserver, rfl⟩ := Option.map_eq_some_iff.mp hstep
      refine ⟨?_, hstate.orphaned.step hserver, hstate.moving⟩
      rw [hkeeps server hserver]
      exact hstate.session
  | limited => cases hkeeps
  | load ip supply =>
      simp only [tabMachine, TabState.step] at hstep
      cases htab : state.tab with
      | visiting page =>
          rw [htab] at hstep
          obtain rfl := Option.some.inj hstep
          refine ⟨hstate.session, hstate.orphaned, ?_⟩
          rintro ⟨rest, hrest⟩
          cases page <;>
            simp [servePage, requirePage, redirectIfAuthenticated, hstate.session] at hrest
      | starting =>
          rw [htab] at hstep
          obtain ⟨server, hserver, rfl⟩ := Option.map_eq_some_iff.mp hstep
          refine ⟨?_, hstate.orphaned.step hserver, ?_⟩
          · rw [openSession_congr (me_sessions hserver)]
            exact hstate.session
          · have hgone := findById_eq_none.mpr hstate.orphaned.row
            rintro ⟨rest, hrest⟩
            simp [reply_me, AuthState.meReply, hstate.session, hgone, started,
              AppError.unauthorized] at hrest
      | resting page => exact absurd ⟨page, htab⟩ hstate.moving

/-! ## Coming to rest -/

theorem request_step (request : Request) :
    ∃ next, (authMachine platform).step state (.request request supply) = some next := by
  refine ⟨(state.accept request supply.now).runHttp platform state.nextTask
    (state.acceptedTask request) supply, ?_⟩
  simp [authMachine, AuthState.step, AuthState.resumeTask]

theorem load_visiting {server : AuthState} (page : Page) :
    (tabMachine platform).step ⟨server, cookie, .visiting page⟩ (.load ip supply) =
      some ⟨server, cookie, servePage (server.openSession cookie).1.data page⟩ := rfl

theorem load_resting {server : AuthState} (page : Page) :
    (tabMachine platform).step ⟨server, cookie, .resting page⟩ (.load ip supply) =
      some ⟨server, cookie, .resting page⟩ := rfl

/-- The application starts for a user who has a row. -/
theorem load_starting {row : UserRecord}
    (huser : (state.openSession cookie).1.data.user = some user)
    (hrow : state.users.findById user.id = some row) :
    ∃ server, (tabMachine platform).step ⟨state, cookie, .starting⟩ (.load ip supply) =
      some ⟨server, cookie, .resting .app⟩ := by
  obtain ⟨server, hserver⟩ : ∃ server, (authMachine platform).step state
      (.request (meRequest cookie ip) supply) = some server := request_step _
  refine ⟨server, ?_⟩
  simp [tabMachine, TabState.step, hserver, reply_me, AuthState.meReply, huser, hrow,
    started]

theorem rests_without_user (huser : (state.openSession cookie).1.data.user = none)
    (page : Page) : ∃ last,
      (tabMachine platform).exec ⟨state, cookie, .visiting page⟩
        (List.replicate 3 (.load ip supply)) = some last ∧ last.AtRest := by
  refine ⟨⟨state, cookie, .resting .login⟩, ?_, .login, rfl⟩
  cases page <;>
    simp [List.replicate, Machine.exec, load_visiting, load_resting, servePage,
      requirePage, redirectIfAuthenticated, huser]

theorem rests_with_user {row : UserRecord}
    (huser : (state.openSession cookie).1.data.user = some user)
    (hrow : state.users.findById user.id = some row) (page : Page) : ∃ last,
      (tabMachine platform).exec ⟨state, cookie, .visiting page⟩
        (List.replicate 3 (.load ip supply)) = some last ∧ last.AtRest := by
  obtain ⟨server, hserver⟩ : ∃ server, (tabMachine platform).step
      ⟨state, cookie, .starting⟩ (.load ip supply) =
        some ⟨server, cookie, .resting .app⟩ := load_starting huser hrow
  refine ⟨⟨server, cookie, .resting .app⟩, ?_, .app, rfl⟩
  cases page <;>
    simp [List.replicate, Machine.exec, load_visiting, load_resting, servePage,
      requirePage, redirectIfAuthenticated, huser, hserver]

/-- A tab comes to rest within three loads, unless the session of its cookie
is of a user who is gone; then it goes back and forth, whatever else happens,
for as long as the session is not written or destroyed and no limiter refuses
the request about the user. -/
theorem tab_rests_iff {users : UsersTable} {before : List Action}
    (hexec : (authMachine platform).exec (.initial users) before = some state)
    (page : Page) (cookie : Option SessionId) (ip : String) (supply : Supply) :
    (¬ state.Stale cookie → ∃ last,
      (tabMachine platform).exec ⟨state, cookie, .visiting page⟩
          (List.replicate 3 (.load ip supply)) = some last ∧ last.AtRest) ∧
      (state.Stale cookie → ∀ word last,
        (tabMachine platform).Admits (KeepsSession platform)
          ⟨state, cookie, .visiting page⟩ word →
        (tabMachine platform).exec ⟨state, cookie, .visiting page⟩ word = some last →
        ¬ last.AtRest) := by
  constructor
  · intro hfresh
    cases huser : (state.openSession cookie).1.data.user with
    | none => exact rests_without_user huser page
    | some user =>
        cases hrow : state.users.findById user.id with
        | none => exact absurd ⟨user, huser, hrow⟩ hfresh
        | some row => exact rests_with_user huser hrow page
  · rintro ⟨user, huser, hgone⟩ word last hkeeps hlast
    have hnames : state.NamesRightly :=
      namesRightly_step.exec_any (namesRightly_initial users) hexec
    have hadrift : TabState.Adrift ⟨state, cookie, .visiting page⟩ user := by
      refine ⟨huser, hnames.orphaned huser hgone, ?_⟩
      rintro ⟨rest, hrest⟩
      cases hrest
    exact ((adrift_preserved user).exec hadrift hkeeps hlast).moving

/-- The session "bob" gets from a login which his deletion overtakes. -/
theorem tab_rests_iff_sampleDeletedInLogin :
    ∃ state, (authMachine samplePlatform).exec (.initial .empty) sampleDeletedInLogin =
        some state ∧
      state.Stale (some 3) ∧ ∀ word last,
        (tabMachine samplePlatform).Admits (KeepsSession samplePlatform)
          ⟨state, some 3, .visiting .app⟩ word →
        (tabMachine samplePlatform).exec ⟨state, some 3, .visiting .app⟩ word = some last →
        ¬ last.AtRest := by
  obtain ⟨state, hexec, htest⟩ := Machine.exists_of_exec_map
    (authMachine samplePlatform) (.initial .empty) sampleDeletedInLogin
    (fun state => (state.openSession (some 3)).1.data.user.any fun user =>
      state.users.findById user.id == none)
    (by decide +kernel)
  obtain ⟨user, huser, hgone⟩ := (Option.any_eq_true _ _).mp htest
  have hstale : state.Stale (some 3) := ⟨user, huser, beq_iff_eq.mp hgone⟩
  exact ⟨state, hexec, hstale,
    (tab_rests_iff hexec .app (some 3) "127.0.0.1" (sampleSupply "salt")).2 hstale⟩

end Pm2Manager
