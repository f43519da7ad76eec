import Pm2Manager.CsrfTokens
import Pm2Manager.Navigation

/-!
# The login page

Each submission of a form fetches the CSRF token of the session and posts the
form with it; the server answers after several stretches, between which it
serves others, unless a limiter refuses the request.  A new session reaches the
browser with the answer that puts something into it.
-/

namespace Pm2Manager

open Function
open ScriptText (trim truthy)

/-! ## The page -/

inductive LoginForm
  | password
  | code
deriving DecidableEq, Repr

structure LoginInputs where
  username : String
  password : String
  code : String
deriving DecidableEq, Repr

/-- A form waits for its submission, under the error that is shown; or its
token is being fetched, or there and the form about to be posted, or the post
is at the server. -/
inductive LoginPhase
  | shown (form : LoginForm) (error : Option String)
  | fetching (form : LoginForm)
  | posting (form : LoginForm) (token : String)
  | waiting (form : LoginForm) (task : TaskId)
  | left
deriving DecidableEq, Repr

def LoginForm.endpoint (inputs : LoginInputs) : LoginForm → Endpoint
  | .password => .login inputs.username inputs.password
  | .code => .verifyTwoFactor (trim inputs.code)

/-- The rest of `fetchCsrfToken`. -/
def LoginForm.receiveToken (form : LoginForm) : Reply → LoginPhase
  | .success _ (.csrfToken token) => .posting form token
  | _ => .shown form (some "Could not initialise session.")

/-- The rest of `postJson` and of the handler of the form. -/
def LoginForm.receive : LoginForm → Reply → LoginPhase
  | form, .failure error => .shown form (some error.message)
  | .password, .success _ .twoFactorRequired => .shown .code none
  | _, .success _ _ => .left

/-- The cookie after a response: a session which the cookie did not name is
sent along once something is in it. -/
def RequestSession.sentCookie (session : RequestSession) (cookie : Option SessionId) :
    Option SessionId :=
  if !session.fromCookie && session.shouldSave then some session.sid else cookie

/-- The stretches of the request of the page are its own steps. -/
def LoginPhase.owns : LoginPhase → Action → Bool
  | .waiting _ id, .resume other _ => other == id
  | _, _ => false

structure LoginTab where
  server : AuthState
  cookie : Option SessionId
  phase : LoginPhase

/-- `proceed` is the next stretch of the request of the page; `server` is
anything else that happens to the server. -/
inductive LoginAction
  | submit
  | back
  | proceed (ip : String) (supply : Supply)
  /-- `apiRateLimiter` or `loginRateLimiter` refuses the request of the page. -/
  | limited
  | server (action : Action)

namespace LoginTab

/-- The session a request of the browser gets. -/
def data (tab : LoginTab) : SessionData :=
  (tab.server.openSession tab.cookie).1.data

/-- The server runs a stretch of `task`, and the browser takes the answer if
there is one. -/
def run (platform : Platform) (tab : LoginTab) (form : LoginForm) (action : Action)
    (id : TaskId) (task : HttpTask) (supply : Supply)
    (receive : Reply → LoginPhase) : Option LoginTab :=
  ((authMachine platform).step tab.server action).map fun server =>
    match (task.segment platform (tab.server.opening action) supply).outcome with
    | .awaits _ _ => { tab with server, phase := .waiting form id }
    | .replies session reply =>
        { server
          cookie := (session.map fun session => session.sentCookie tab.cookie).getD tab.cookie
          phase := receive reply }

def request (tab : LoginTab) (endpoint : Endpoint) (csrfHeader : Option String)
    (ip : String) : Request :=
  { cookie := tab.cookie, csrfHeader, ip, endpoint }

/-- A request of the page arrives. -/
def send (platform : Platform) (tab : LoginTab) (form : LoginForm) (request : Request)
    (supply : Supply) (receive : Reply → LoginPhase) : Option LoginTab :=
  tab.run platform form (.request request supply) tab.server.nextTask
    (tab.server.acceptedTask request) supply receive

def step (platform : Platform) (inputs : LoginInputs) (tab : LoginTab) :
    LoginAction → Option LoginTab
  | .submit =>
      match tab.phase with
      | .shown form _ => some { tab with phase := .fetching form }
      | _ => none
  | .back =>
      match tab.phase with
      | .shown .code _ => some { tab with phase := .shown .password none }
      | _ => none
  | .proceed ip supply =>
      match tab.phase with
      | .fetching form =>
          tab.send platform form (tab.request .csrfToken none ip) supply form.receiveToken
      | .posting form token =>
          tab.send platform form (tab.request (form.endpoint inputs) (some token) ip)
            supply form.receive
      | .waiting form id =>
          match tab.server.tasks id with
          | some (.http task) =>
              tab.run platform form (.resume id supply) id task supply form.receive
          | _ => none
      | _ => none
  | .limited =>
      match tab.phase with
      | .fetching form =>
          some { tab with phase := form.receiveToken (.failure .limitReached) }
      | .posting form _ => some { tab with phase := form.receive (.failure .limitReached) }
      | _ => none
  | .server action =>
      if tab.phase.owns action then none
      else
        ((authMachine platform).step tab.server action).map fun server =>
          { tab with server }

end LoginTab

def loginMachine (platform : Platform) (inputs : LoginInputs) :
    Machine LoginTab LoginAction where
  step := LoginTab.step platform inputs

variable {platform : Platform} {tab next : LoginTab} {state after : AuthState}
variable {action : Action} {form : LoginForm} {ip : String} {supply : Supply}
variable {id : TaskId} {task : HttpTask} {receive : Reply → LoginPhase}

/-! ## What the server does with a stretch -/

/-- The tasks of others stay as they are. -/
theorem tasks_step_of_ne
    (hstep : (authMachine platform).step state action = some after)
    (hid : id < state.nextTask) (hother : ∀ supply, action ≠ .resume id supply) :
    after.tasks id = state.tasks id := by
  cases step_cases hstep with
  | request request supply =>
      rw [AuthState.runHttp_accept_tasks, update_of_ne hid.ne]
  | arrived request now => rw [AuthState.accept_tasks, update_of_ne hid.ne]
  | resumed acting supply before hbefore =>
      have hne : id ≠ acting := fun heq => hother supply (heq ▸ rfl)
      rw [AuthState.runHttp_tasks, update_of_ne hne]
  | job acting supply kind input stage hjob =>
      have hne : id ≠ acting := fun heq => hother supply (heq ▸ rfl)
      rw [AuthState.commit_tasks, update_of_ne hne]
  | createAdmin args supply input hargs =>
      rw [AuthState.startJob_tasks, update_of_ne hid.ne]
  | bootstrap supply => rw [AuthState.startJob_tasks, update_of_ne hid.ne]
  | expire sid => rfl

theorem SessionStore.get_set {store : SessionStore} {sid : SessionId} {data : SessionData} :
    (store.set sid data).get sid = some data := by
  unfold SessionStore.get SessionStore.set
  rw [List.find?_append, List.find?_eq_none.mpr]
  · simp
  · intro row hrow
    simpa using (SessionStore.mem_destroy.mp hrow).2

namespace LoginTab

/-- The stretch ends at an await: the page waits on. -/
theorem run_awaits {events : List Event} {session : RequestSession} {stage : Stage}
    (hruns : tab.server.Runs action id task supply)
    (hsegment : task.segment platform (tab.server.opening action) supply =
      ⟨events, .awaits session stage⟩)
    (hquiet : ∀ event ∈ events, event.onUsers = false)
    (hrun : tab.run platform form action id task supply receive = some next) :
    next.phase = .waiting form id ∧ next.cookie = tab.cookie ∧
      next.server.tasks id = some (.http { request := task.request, session, stage }) ∧
      next.server.users = tab.server.users ∧
      next.server.sessions =
        ((tab.server.opening action).performAll id supply.now events).sessions := by
  obtain ⟨server, hstep, rfl⟩ := Option.map_eq_some_iff.mp hrun
  have hserver := (hruns.transition hstep).2
  rw [AuthState.runHttp, hsegment] at hserver
  simp only [Outcome.closing, List.append_nil, Outcome.next] at hserver
  rw [hsegment]
  subst hserver
  refine ⟨rfl, rfl, by simp, ?_, rfl⟩
  exact (AuthState.performAll_users hquiet).trans (AuthState.opening_users _ _)

/-- The stretch ends with an answer: the page takes it. -/
theorem run_replies {events : List Event} {session : RequestSession} {reply : Reply}
    (hruns : tab.server.Runs action id task supply)
    (hsegment : task.segment platform (tab.server.opening action) supply =
      ⟨events, .replies (some session) reply⟩)
    (hquiet : ∀ event ∈ events, event.onUsers = false)
    (hrun : tab.run platform form action id task supply receive = some next) :
    next.phase = receive reply ∧ next.cookie = session.sentCookie tab.cookie ∧
      next.server.users = tab.server.users ∧
      next.server.sessions =
        if session.shouldSave then
          ((tab.server.opening action).performAll id supply.now events).sessions.set
            session.sid session.data
        else ((tab.server.opening action).performAll id supply.now events).sessions := by
  obtain ⟨server, hstep, rfl⟩ := Option.map_eq_some_iff.mp hrun
  have hserver := (hruns.transition hstep).2
  rw [AuthState.runHttp, hsegment] at hserver
  rw [hsegment]
  subst hserver
  refine ⟨rfl, rfl, ?_, ?_⟩
  · have hall : ∀ event ∈ events ++
        Outcome.closing task.request.endpoint (.replies (some session) reply),
        event.onUsers = false := by
      intro event hevent
      rcases List.mem_append.mp hevent with hmem | hclosing
      · exact hquiet event hmem
      · exact AuthState.closing_quiet event hclosing
    exact (AuthState.performAll_users hall).trans (AuthState.opening_users _ _)
  · rw [AuthState.commit_sessions, AuthState.performAll_append]
    by_cases hsave : session.shouldSave = true
    · simp [Outcome.closing, hsave, AuthState.perform, AuthState.write]
    · simp [Outcome.closing, hsave, AuthState.perform, AuthState.write]

/-- The session of the cookie once it has been stored. -/
theorem data_of_stored {sid : SessionId} {data : SessionData}
    (hcookie : tab.cookie = some sid) (hget : tab.server.sessions.get sid = some data) :
    tab.data = data := by
  simp [LoginTab.data, AuthState.openSession, hcookie, hget, RequestSession.loaded]

theorem data_congr (hcookie : next.cookie = tab.cookie)
    (hsessions : next.server.sessions = tab.server.sessions) : next.data = tab.data := by
  rw [LoginTab.data, LoginTab.data, hcookie]
  exact openSession_congr hsessions

/-- Wherever the session comes from, the cookie names it once it is stored. -/
theorem sentCookie_openSession (state : AuthState) (cookie : Option SessionId)
    {session : RequestSession} (hsid : session.sid = (state.openSession cookie).1.sid)
    (hfrom : session.fromCookie = (state.openSession cookie).1.fromCookie)
    (hsave : session.shouldSave = true) :
    session.sentCookie cookie = some session.sid := by
  unfold RequestSession.sentCookie
  rw [hsave, hfrom]
  unfold AuthState.openSession at hsid ⊢
  split
  next found hfound =>
    obtain ⟨sid, rfl, hloaded⟩ := Option.bind_eq_some_iff.mp hfound
    obtain ⟨data, hget, rfl⟩ := Option.map_eq_some_iff.mp hloaded
    rw [hfound] at hsid
    simpa [RequestSession.loaded] using hsid.symm
  · simp [RequestSession.generated]

/-- The session of a request is as it is stored, or empty as it was made. -/
theorem openSession_baseline (state : AuthState) (cookie : Option SessionId) :
    (state.openSession cookie).1.baseline = some (state.openSession cookie).1.data := by
  rcases state.openSession_cases cookie with ⟨sid, data, _, hopen⟩ | hopen
  · rw [hopen]
    rfl
  · rw [hopen]
    rfl

/-- The page gets the secret of its session, which it has from now on. -/
theorem fetch_token (hrandom : supply.random ≠ "")
    (hsend : tab.send platform form (tab.request .csrfToken none ip) supply
      form.receiveToken = some next) :
    ∃ token, token ≠ "" ∧ next.phase = .posting form token ∧
      next.data = { tab.data with csrfSecret := some token } ∧
      next.server.users = tab.server.users := by
  let request := tab.request .csrfToken none ip
  have hruns : tab.server.Runs (.request request supply) tab.server.nextTask
      (tab.server.acceptedTask request) supply := .arriving request supply
  have hsegment : (tab.server.acceptedTask request).segment platform
      (tab.server.opening (.request request supply)) supply =
        csrfTokenHandler (tab.server.openSession tab.cookie).1 supply :=
    csrfToken_segment rfl rfl
  cases hsecret : truthy tab.data.csrfSecret with
  | some secret =>
      have hhandler : csrfTokenHandler (tab.server.openSession tab.cookie).1 supply =
          ⟨[], .replies (some (tab.server.openSession tab.cookie).1)
            (.success 200 (.csrfToken secret))⟩ := by
        rw [csrfTokenHandler, ← LoginTab.data, hsecret]
      have hsame : (tab.server.openSession tab.cookie).1.shouldSave = false :=
        AuthState.openSession_unsaved
      obtain ⟨hphase, hcookie, husers, hsessions⟩ :=
        run_replies hruns (hsegment.trans hhandler) (by simp) hsend
      obtain ⟨hdata, hne⟩ := truthy_eq_some hsecret
      rw [hsame, if_neg Bool.false_ne_true, AuthState.performAll_nil] at hsessions
      have hkept : next.cookie = tab.cookie := by
        rw [hcookie, RequestSession.sentCookie, hsame, Bool.and_false]
        rfl
      refine ⟨secret, hne, hphase, ?_, husers⟩
      rw [data_congr hkept (hsessions.trans (AuthState.opening_sessions _ _)), ← hdata]
  | none =>
      have hhandler : csrfTokenHandler (tab.server.openSession tab.cookie).1 supply =
          ⟨[], .replies
            (some ((tab.server.openSession tab.cookie).1.setCsrfSecret supply.random))
            (.success 200 (.csrfToken supply.random))⟩ := by
        rw [csrfTokenHandler, ← LoginTab.data, hsecret]
      have hchanged : ((tab.server.openSession tab.cookie).1.setCsrfSecret
          supply.random).shouldSave = true := by
        have hne : tab.data ≠ { tab.data with csrfSecret := some supply.random } := by
          intro heq
          rw [heq, truthy_some hrandom] at hsecret
          cases hsecret
        simpa [RequestSession.shouldSave, RequestSession.setCsrfSecret,
          openSession_baseline, LoginTab.data] using hne
      have hsent : ((tab.server.openSession tab.cookie).1.setCsrfSecret
          supply.random).sentCookie tab.cookie =
            some (tab.server.openSession tab.cookie).1.sid :=
        sentCookie_openSession tab.server tab.cookie rfl rfl hchanged
      obtain ⟨hphase, hcookie, husers, hsessions⟩ :=
        run_replies hruns (hsegment.trans hhandler) (by simp) hsend
      rw [hchanged, if_pos rfl] at hsessions
      rw [hsent] at hcookie
      refine ⟨supply.random, hrandom, hphase, ?_, husers⟩
      exact data_of_stored hcookie (hsessions ▸ SessionStore.get_set)

end LoginTab

end Pm2Manager
