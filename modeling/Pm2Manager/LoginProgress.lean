import Pm2Manager.LoginPage

/-!
# Logging in from the page

With the right name, password and code no submission of the login page is
refused, the limiters apart.  Each step of the page's own leaves one step less to take, and the
steps of others leave as many; so the page is left after a number of steps
which only depends on whether the account has a second factor.
-/

namespace Pm2Manager

open ScriptText (trim truthy)

variable {platform : Platform} {inputs : LoginInputs} {tab next last : LoginTab}
variable {state : AuthState} {action : Action} {form : LoginForm}
variable {name token ip : String} {supply : Supply} {row : UserRecord}
variable {cookie : Option SessionId} {id : TaskId} {n : ℕ}

/-! ## The right inputs -/

/-- The inputs are those of the account `row`, which a login finds by `name`. -/
structure LoginInputs.Right (inputs : LoginInputs) (platform : Platform) (name : String)
    (row : UserRecord) : Prop where
  body : loginSchema inputs.username inputs.password = .ok (name, inputs.password)
  password : platform.verifyPassword row.passwordHash inputs.password = true
  code : row.totpEnabled = true → ∃ code secret, totpCode (trim inputs.code) = .ok code ∧
    truthy row.totpSecret = some secret ∧ platform.totpVerify code secret = true

/-- The steps of the page after the password has been verified. -/
def UserRecord.stepsAfterPassword (row : UserRecord) : ℕ :=
  if row.totpEnabled then 6 else 2

/-- Where the login of `row` stands, and how many steps of its own the page
has still to take. -/
inductive LoginTab.Stands (inputs : LoginInputs) (name : String) (row : UserRecord)
    (tab : LoginTab) : ℕ → Prop
  | typed (hphase : tab.phase = .shown .password none) :
      Stands inputs name row tab (row.stepsAfterPassword + 4)
  | fetching (hphase : tab.phase = .fetching .password) :
      Stands inputs name row tab (row.stepsAfterPassword + 3)
  | posting (token : String) (hphase : tab.phase = .posting .password token)
      (htoken : token ≠ "") (hsecret : tab.data.csrfSecret = some token) :
      Stands inputs name row tab (row.stepsAfterPassword + 2)
  | verifying (id : TaskId) (request : Request) (sid : SessionId) (data : SessionData)
      (hphase : tab.phase = .waiting .password id) (hcookie : tab.cookie = some sid)
      (htask : tab.server.tasks id = some (.http {
        request, session := .loaded sid data
        stage := .verifyLogin (some row) name inputs.password })) :
      Stands inputs name row tab (row.stepsAfterPassword + 1)
  | challenged (id : TaskId) (request : Request) (session : RequestSession)
      (hphase : tab.phase = .waiting .password id) (htotp : row.totpEnabled = true)
      (hstored : session.fromCookie = true) (hsaved : session.shouldSave = false)
      (htask : tab.server.tasks id = some (.http {
        request, session, stage := .challengeSaved }))
      (hpending : tab.data.pending2fa = some { userId := row.id, username := row.username }) :
      Stands inputs name row tab 6
  | asked (hphase : tab.phase = .shown .code none) (htotp : row.totpEnabled = true)
      (hpending : tab.data.pending2fa = some { userId := row.id, username := row.username }) :
      Stands inputs name row tab 5
  | fetchingAgain (hphase : tab.phase = .fetching .code) (htotp : row.totpEnabled = true)
      (hpending : tab.data.pending2fa = some { userId := row.id, username := row.username }) :
      Stands inputs name row tab 4
  | postingCode (token : String) (hphase : tab.phase = .posting .code token)
      (htotp : row.totpEnabled = true) (htoken : token ≠ "")
      (hsecret : tab.data.csrfSecret = some token)
      (hpending : tab.data.pending2fa = some { userId := row.id, username := row.username }) :
      Stands inputs name row tab 3
  | regenerated (form : LoginForm) (id : TaskId) (request : Request) (sid : SessionId)
      (step : LoginStep) (hphase : tab.phase = .waiting form id)
      (htask : tab.server.tasks id = some (.http {
        request, session := .regenerated sid, stage := .regenerated row step })) :
      Stands inputs name row tab 2
  | established (form : LoginForm) (id : TaskId) (request : Request) (sid : SessionId)
      (step : LoginStep) (hphase : tab.phase = .waiting form id)
      (htask : tab.server.tasks id = some (.http {
        request, session := (RequestSession.regenerated sid).setUser row.sessionUser
        stage := .established row step })) :
      Stands inputs name row tab 1
  | left (hphase : tab.phase = .left) (huser : tab.data.user = some row.sessionUser) :
      Stands inputs name row tab 0

/-- The account is the one which a login with the name finds, and the server
can go on. -/
structure LoginTab.Known (name : String) (row : UserRecord) (tab : LoginTab) : Prop where
  found : tab.server.users.findByUsername name = some row
  bounded : tab.server.TasksBounded

/-! ## The steps of the page -/

theorem UsersTable.findById_of_found {table : UsersTable}
    (hfind : table.findByUsername name = some row) : table.findById row.id = some row := by
  obtain ⟨hmem, -⟩ := UsersTable.mem_of_findByUsername hfind
  cases hfound : table.findById row.id with
  | none => exact absurd rfl (findById_eq_none.mp hfound row hmem)
  | some other =>
      obtain ⟨hother, hid⟩ := UsersTable.mem_of_findById hfound
      rw [UsersTable.eq_of_id hother hmem hid]

namespace LoginTab

/-- A form posted with the secret of its session reaches its handler. -/
theorem posted_segment {endpoint : Endpoint} {segment : Segment} (htoken : token ≠ "")
    (hsecret : tab.data.csrfSecret = some token)
    (hguard : endpoint.guard tab.data = .ok ())
    (hcontroller : controller platform
      (tab.server.opening (.request (tab.request endpoint (some token) ip) supply))
      (tab.request endpoint (some token) ip) (tab.server.openSession tab.cookie).1 supply =
        .ok segment) :
    (tab.server.acceptedTask (tab.request endpoint (some token) ip)).segment platform
      (tab.server.opening (.request (tab.request endpoint (some token) ip) supply)) supply =
        segment := by
  have hadmitted : Admitted (tab.request endpoint (some token) ip)
      (tab.server.openSession tab.cookie).1.data := by
    refine ⟨?_, hguard⟩
    rw [← LoginTab.data]
    simp [csrfProtection, LoginTab.request, hsecret, truthy_some htoken]
  exact arrive_of_admitted hadmitted hcontroller

/-- The login arrives and has the password verified. -/
theorem post_password (hinputs : inputs.Right platform name row)
    (hknown : tab.Known name row) (htoken : token ≠ "")
    (hsecret : tab.data.csrfSecret = some token)
    (hsend : tab.send platform .password
      (tab.request (LoginForm.password.endpoint inputs) (some token) ip) supply
      (LoginForm.password.receive) = some next) :
    next.Stands inputs name row (row.stepsAfterPassword + 1) ∧
      next.server.users = tab.server.users := by
  obtain ⟨sid, data, hcookie, -, hopen⟩ := AuthState.openSession_stored hsecret
  let request := tab.request (LoginForm.password.endpoint inputs) (some token) ip
  have hcontroller : controller platform (tab.server.opening (.request request supply))
      request (tab.server.openSession tab.cookie).1 supply =
        .ok (login (tab.server.opening (.request request supply))
          (tab.server.openSession tab.cookie).1 name inputs.password) := by
    simp [controller, request, LoginTab.request, LoginForm.endpoint, hinputs.body, Except.map]
  have hsegment : (tab.server.acceptedTask request).segment platform
      (tab.server.opening (.request request supply)) supply = _ :=
    posted_segment htoken hsecret rfl hcontroller
  rw [login, AuthState.opening_users, hknown.found, hopen] at hsegment
  obtain ⟨hphase, hsame, htask, husers, -⟩ :=
    run_awaits (.arriving request supply) hsegment (by simp [Event.onUsers]) hsend
  exact ⟨.verifying _ _ sid _ hphase (hsame.trans hcookie) htask, husers⟩

theorem loginVerified_challenge {request : Request} {session : RequestSession}
    {username password : String}
    (hpassword : platform.verifyPassword row.passwordHash password = true)
    (htotp : row.totpEnabled = true) :
    loginVerified platform state request session (some row) username password =
      ⟨[.passwordChecked session.sid (some row) password true,
          .storeSession session.sid { session.data with
            pending2fa := some { userId := row.id, username := row.username } }],
        .awaits (session.setPending2fa { userId := row.id, username := row.username }).saved
          .challengeSaved⟩ := by
  have hverified : verifyCredentials platform (some row) password = some row := by
    simp [verifyCredentials, hpassword]
  rw [loginVerified, hverified]
  simp only [htotp, if_true]
  rfl

theorem loginVerified_regenerate {request : Request} {session : RequestSession}
    {username password : String}
    (hpassword : platform.verifyPassword row.passwordHash password = true)
    (htotp : row.totpEnabled = false) :
    loginVerified platform state request session (some row) username password =
      regenerateSession state session row .password
        [.passwordChecked session.sid (some row) password true] := by
  have hverified : verifyCredentials platform (some row) password = some row := by
    simp [verifyCredentials, hpassword]
  rw [loginVerified, hverified]
  simp only [htotp, Bool.false_eq_true, if_false]

/-- The password is right: the session is regenerated, or gets its challenge. -/
theorem password_verified {request : Request} {sid : SessionId} {data : SessionData}
    (hinputs : inputs.Right platform name row) (hcookie : tab.cookie = some sid)
    (htask : tab.server.tasks id = some (.http {
      request, session := .loaded sid data
      stage := .verifyLogin (some row) name inputs.password }))
    (hrun : tab.run platform .password (.resume id supply) id {
      request, session := .loaded sid data
      stage := .verifyLogin (some row) name inputs.password } supply
      (LoginForm.password.receive) = some next) :
    next.Stands inputs name row row.stepsAfterPassword ∧
      next.server.users = tab.server.users := by
  have hruns : tab.server.Runs (.resume id supply) id _ supply := .resumed id supply _ htask
  cases htotp : row.totpEnabled with
  | true =>
      obtain ⟨hphase, hsame, hnext, husers, hsessions⟩ := run_awaits hruns
        (loginVerified_challenge hinputs.password htotp) (by simp [Event.onUsers]) hrun
      have hget : next.server.sessions.get sid = some { data with
          pending2fa := some { userId := row.id, username := row.username } } := by
        rw [hsessions]
        exact SessionStore.get_set
      have hdata := data_of_stored (hsame.trans hcookie) hget
      rw [UserRecord.stepsAfterPassword, htotp, if_pos rfl]
      exact ⟨.challenged id _ _ hphase htotp rfl (by simp [RequestSession.saved,
        RequestSession.setPending2fa, RequestSession.loaded, RequestSession.shouldSave])
        hnext (by rw [hdata]), husers⟩
  | false =>
      obtain ⟨hphase, hsame, hnext, husers, -⟩ := run_awaits hruns
        (loginVerified_regenerate hinputs.password htotp)
        (by simp [Event.onUsers]) hrun
      rw [UserRecord.stepsAfterPassword, htotp, if_neg Bool.false_ne_true]
      exact ⟨.regenerated .password id _ _ .password hphase hnext, husers⟩

/-- The page shows the form for the code. -/
theorem challenge_answered {request : Request} {session : RequestSession}
    (htotp : row.totpEnabled = true) (hstored : session.fromCookie = true)
    (hsaved : session.shouldSave = false)
    (htask : tab.server.tasks id = some (.http {
      request, session, stage := .challengeSaved }))
    (hpending : tab.data.pending2fa = some { userId := row.id, username := row.username })
    (hrun : tab.run platform .password (.resume id supply) id {
      request, session, stage := .challengeSaved } supply
      (LoginForm.password.receive) = some next) :
    next.Stands inputs name row 5 ∧ next.server.users = tab.server.users := by
  have hruns : tab.server.Runs (.resume id supply) id _ supply := .resumed id supply _ htask
  have hsegment : HttpTask.segment platform (tab.server.opening (.resume id supply)) {
      request, session, stage := .challengeSaved } supply =
        ⟨[], .replies (some session) (.success 200 .twoFactorRequired)⟩ := rfl
  obtain ⟨hphase, hcookie, husers, hsessions⟩ :=
    run_replies hruns hsegment (by simp) hrun
  rw [hsaved, if_neg Bool.false_ne_true] at hsessions
  rw [RequestSession.sentCookie, hstored] at hcookie
  have hdata : next.data = tab.data := data_congr hcookie hsessions
  exact ⟨.asked hphase htotp (hdata ▸ hpending), husers⟩

/-- The code is right: the session of the challenge is regenerated. -/
theorem post_code (hinputs : inputs.Right platform name row)
    (hknown : tab.Known name row) (htotp : row.totpEnabled = true) (htoken : token ≠ "")
    (hsecret : tab.data.csrfSecret = some token)
    (hpending : tab.data.pending2fa = some { userId := row.id, username := row.username })
    (hsend : tab.send platform .code
      (tab.request (LoginForm.code.endpoint inputs) (some token) ip) supply
      (LoginForm.code.receive) = some next) :
    next.Stands inputs name row 2 ∧ next.server.users = tab.server.users := by
  obtain ⟨code, secret, hcode, hkept, hverify⟩ := hinputs.code htotp
  let request := tab.request (LoginForm.code.endpoint inputs) (some token) ip
  have hcontroller : controller platform (tab.server.opening (.request request supply))
      request (tab.server.openSession tab.cookie).1 supply =
        .ok (verifyTwoFactor platform (tab.server.opening (.request request supply))
          request (tab.server.openSession tab.cookie).1 code) := by
    simp [controller, request, LoginTab.request, LoginForm.endpoint, hcode, Except.map]
  have hsegment : (tab.server.acceptedTask request).segment platform
      (tab.server.opening (.request request supply)) supply = _ :=
    posted_segment htoken hsecret rfl hcontroller
  have hfound : (tab.server.users.findById row.id).filter (fun user =>
      (truthy user.totpSecret).any fun secret => platform.totpVerify code secret) =
        some row := by
    rw [UsersTable.findById_of_found hknown.found]
    simp [hkept, hverify]
  rw [verifyTwoFactor, ← LoginTab.data, hpending] at hsegment
  simp only [AuthState.opening_users, hfound] at hsegment
  obtain ⟨hphase, -, htask, husers, -⟩ :=
    run_awaits (.arriving request supply) hsegment (by simp [Event.onUsers]) hsend
  exact ⟨.regenerated .code _ _ _ .totp hphase htask, husers⟩

/-- The new session gets its user. -/
theorem user_attached {request : Request} {sid : SessionId} {step : LoginStep}
    (htask : tab.server.tasks id = some (.http {
      request, session := .regenerated sid, stage := .regenerated row step }))
    (hrun : tab.run platform form (.resume id supply) id {
      request, session := .regenerated sid, stage := .regenerated row step } supply
      form.receive = some next) :
    next.Stands inputs name row 1 ∧ next.server.users = tab.server.users := by
  have hruns : tab.server.Runs (.resume id supply) id _ supply := .resumed id supply _ htask
  have hsegment : HttpTask.segment platform (tab.server.opening (.resume id supply)) {
      request, session := .regenerated sid, stage := .regenerated row step } supply =
        attachUser (.regenerated sid) row step := rfl
  obtain ⟨hphase, -, hnext, husers, -⟩ :=
    run_awaits hruns hsegment (by simp [Event.onUsers]) hrun
  exact ⟨.established form id _ sid step hphase hnext, husers⟩

/-- The page is left with the cookie of the new session. -/
theorem login_answered {request : Request} {sid : SessionId} {step : LoginStep}
    (htask : tab.server.tasks id = some (.http {
      request, session := (RequestSession.regenerated sid).setUser row.sessionUser
      stage := .established row step }))
    (hrun : tab.run platform form (.resume id supply) id {
      request, session := (RequestSession.regenerated sid).setUser row.sessionUser
      stage := .established row step } supply form.receive = some next) :
    next.Stands inputs name row 0 ∧ next.server.users = tab.server.users := by
  have hruns : tab.server.Runs (.resume id supply) id _ supply := .resumed id supply _ htask
  have hsegment : HttpTask.segment platform (tab.server.opening (.resume id supply)) {
      request, session := (RequestSession.regenerated sid).setUser row.sessionUser
      stage := .established row step } supply =
        loggedIn request ((RequestSession.regenerated sid).setUser row.sessionUser) row
          step := rfl
  obtain ⟨hphase, hcookie, husers, hsessions⟩ :=
    run_replies hruns hsegment (by simp [Event.onUsers]) hrun
  have hget : next.server.sessions.get sid =
      some { user := some row.sessionUser } := by
    rw [hsessions]
    exact SessionStore.get_set
  refine ⟨.left ?_ ?_, husers⟩
  · rw [hphase]
    cases form <;> cases step <;> rfl
  · rw [data_of_stored hcookie hget]

end LoginTab

/-- The steps of the page and of its own requests. -/
def LoginAction.own : LoginAction → Bool
  | .submit | .proceed _ _ => true
  | .back | .limited | .server _ => false

/-- The user does not go back, the limiters let the requests through, drawn
secrets are not empty, and the server does not touch the account and the session
of the browser meanwhile. -/
def KeepsLogin (platform : Platform) (name : String) (tab : LoginTab) :
    LoginAction → Prop
  | .submit => True
  | .back | .limited => False
  | .proceed _ supply => supply.random ≠ ""
  | .server action => ∀ server, (authMachine platform).step tab.server action = some server →
      server.users.findByUsername name = tab.server.users.findByUsername name ∧
        (server.openSession tab.cookie).1.data = tab.data

namespace LoginTab

/-- Each step of the page's own is one step less to take. -/
theorem Stands.own_step (hinputs : inputs.Right platform name row)
    (hknown : tab.Known name row) (hstands : tab.Stands inputs name row n)
    {action : LoginAction} (hkeeps : KeepsLogin platform name tab action)
    (hown : action.own = true) (hstep : tab.step platform inputs action = some next) :
    ∃ m, n = m + 1 ∧ next.Stands inputs name row m ∧
      next.server.users = tab.server.users := by
  cases action with
  | back | limited | server => cases hown
  | submit =>
      cases hstands with
      | typed hphase =>
          simp only [step, hphase] at hstep
          obtain rfl := Option.some.inj hstep
          exact ⟨_, rfl, .fetching rfl, rfl⟩
      | asked hphase htotp hpending =>
          simp only [step, hphase] at hstep
          obtain rfl := Option.some.inj hstep
          exact ⟨_, rfl, .fetchingAgain rfl htotp hpending, rfl⟩
      | fetching hphase | posting _ hphase | verifying _ _ _ _ hphase
      | challenged _ _ _ hphase | fetchingAgain hphase | postingCode _ hphase
      | regenerated _ _ _ _ _ hphase | established _ _ _ _ _ hphase
      | left hphase => simp [step, hphase] at hstep
  | proceed ip supply =>
      cases hstands with
      | typed hphase | asked hphase | left hphase => simp [step, hphase] at hstep
      | fetching hphase =>
          simp only [step, hphase] at hstep
          obtain ⟨token, htoken, hnext, hdata, husers⟩ := fetch_token hkeeps hstep
          exact ⟨_, rfl, .posting token hnext htoken (by rw [hdata]), husers⟩
      | posting token hphase htoken hsecret =>
          simp only [step, hphase] at hstep
          obtain ⟨hnext, husers⟩ := post_password hinputs hknown htoken hsecret hstep
          exact ⟨_, rfl, hnext, husers⟩
      | verifying id request sid data hphase hcookie htask =>
          simp only [step, hphase, htask] at hstep
          obtain ⟨hnext, husers⟩ := password_verified hinputs hcookie htask hstep
          exact ⟨_, rfl, hnext, husers⟩
      | challenged id request session hphase htotp hstored hsaved htask hpending =>
          simp only [step, hphase, htask] at hstep
          obtain ⟨hnext, husers⟩ :=
            challenge_answered htotp hstored hsaved htask hpending hstep
          exact ⟨_, rfl, hnext, husers⟩
      | fetchingAgain hphase htotp hpending =>
          simp only [step, hphase] at hstep
          obtain ⟨token, htoken, hnext, hdata, husers⟩ := fetch_token hkeeps hstep
          exact ⟨_, rfl, .postingCode token hnext htotp htoken (by rw [hdata])
            (by rw [hdata]; exact hpending), husers⟩
      | postingCode token hphase htotp htoken hsecret hpending =>
          simp only [step, hphase] at hstep
          obtain ⟨hnext, husers⟩ :=
            post_code hinputs hknown htotp htoken hsecret hpending hstep
          exact ⟨_, rfl, hnext, husers⟩
      | regenerated form id request sid step hphase htask =>
          simp only [LoginTab.step, hphase, htask] at hstep
          obtain ⟨hnext, husers⟩ := user_attached htask hstep
          exact ⟨_, rfl, hnext, husers⟩
      | established form id request sid step hphase htask =>
          simp only [LoginTab.step, hphase, htask] at hstep
          obtain ⟨hnext, husers⟩ := login_answered htask hstep
          exact ⟨_, rfl, hnext, husers⟩

/-- The steps of others do not matter. -/
theorem Stands.server_step (hknown : tab.Known name row)
    (hstands : tab.Stands inputs name row n)
    (hkeeps : KeepsLogin platform name tab (.server action))
    (hstep : tab.step platform inputs (.server action) = some next) :
    next.Stands inputs name row n ∧
      next.server.users.findByUsername name = some row := by
  simp only [step] at hstep
  split at hstep
  · cases hstep
  next howns =>
    obtain ⟨server, hserver, rfl⟩ := Option.map_eq_some_iff.mp hstep
    obtain ⟨hfound, hdata⟩ := hkeeps server hserver
    have hsame : LoginTab.data { tab with server } = tab.data := hdata
    have htasks : ∀ {form id task}, tab.phase = .waiting form id →
        tab.server.tasks id = some task → server.tasks id = some task := by
      intro form id task hphase htask
      refine (tasks_step_of_ne hserver (hknown.bounded.lt htask) ?_).trans htask
      rintro supply rfl
      simp [hphase, LoginPhase.owns] at howns
    refine ⟨?_, hfound.trans hknown.found⟩
    cases hstands with
    | typed hphase => exact .typed hphase
    | fetching hphase => exact .fetching hphase
    | posting token hphase htoken hsecret =>
        exact .posting token hphase htoken (hsame ▸ hsecret)
    | verifying id request sid data hphase hcookie htask =>
        exact .verifying id request sid data hphase hcookie (htasks hphase htask)
    | challenged id request session hphase htotp hstored hsaved htask hpending =>
        exact .challenged id request session hphase htotp hstored hsaved
          (htasks hphase htask) (hsame ▸ hpending)
    | asked hphase htotp hpending => exact .asked hphase htotp (hsame ▸ hpending)
    | fetchingAgain hphase htotp hpending =>
        exact .fetchingAgain hphase htotp (hsame ▸ hpending)
    | postingCode token hphase htotp htoken hsecret hpending =>
        exact .postingCode token hphase htotp htoken (hsame ▸ hsecret) (hsame ▸ hpending)
    | regenerated form id request sid step hphase htask =>
        exact .regenerated form id request sid step hphase (htasks hphase htask)
    | established form id request sid step hphase htask =>
        exact .established form id request sid step hphase (htasks hphase htask)
    | left hphase huser => exact .left hphase (hsame ▸ huser)

/-- The server goes on as it can, or not at all. -/
theorem step_server {action : LoginAction}
    (hstep : tab.step platform inputs action = some next) :
    next.server = tab.server ∨
      ∃ served, (authMachine platform).step tab.server served = some next.server := by
  have hrun : ∀ {form served id task supply receive},
      tab.run platform form served id task supply receive = some next →
      (authMachine platform).step tab.server served = some next.server := by
    intro form served id task supply receive hrun
    obtain ⟨server, hserver, rfl⟩ := Option.map_eq_some_iff.mp hrun
    rw [hserver]
    split <;> rfl
  cases action with
  | submit | back =>
      simp only [step] at hstep
      split at hstep
      · obtain rfl := Option.some.inj hstep
        exact .inl rfl
      · cases hstep
  | limited =>
      simp only [step] at hstep
      split at hstep
      · obtain rfl := Option.some.inj hstep
        exact .inl rfl
      · obtain rfl := Option.some.inj hstep
        exact .inl rfl
      · cases hstep
  | proceed ip supply =>
      simp only [step] at hstep
      split at hstep
      · exact .inr ⟨_, hrun hstep⟩
      · exact .inr ⟨_, hrun hstep⟩
      · split at hstep
        · exact .inr ⟨_, hrun hstep⟩
        · cases hstep
      · cases hstep
  | server action =>
      simp only [step] at hstep
      split at hstep
      · cases hstep
      · obtain ⟨server, hserver, rfl⟩ := Option.map_eq_some_iff.mp hstep
        exact .inr ⟨action, hserver⟩

/-- Over a run the steps taken and the steps left add up. -/
theorem Stands.exec (hinputs : inputs.Right platform name row)
    (hknown : tab.Known name row) (hstands : tab.Stands inputs name row n)
    {word : List LoginAction}
    (hkeeps : (loginMachine platform inputs).Admits (KeepsLogin platform name) tab word)
    (hexec : (loginMachine platform inputs).exec tab word = some last) :
    ∃ m, last.Stands inputs name row m ∧ word.countP LoginAction.own + m = n := by
  induction word generalizing tab n with
  | nil =>
      obtain rfl := Option.some.inj hexec
      exact ⟨n, hstands, by simp⟩
  | cons action rest ih =>
      obtain ⟨next, hstep, hrest⟩ := Machine.exec_cons_inv hexec
      have hadmits := hkeeps.2 next hstep
      have hbounded : next.server.TasksBounded := by
        rcases step_server hstep with hsame | ⟨served, hserved⟩
        · exact hsame ▸ hknown.bounded
        · exact tasksBounded_step _ _ _ hknown.bounded trivial hserved
      cases hown : action.own with
      | true =>
          obtain ⟨m, rfl, hnext, husers⟩ :=
            hstands.own_step hinputs hknown hkeeps.1 hown hstep
          obtain ⟨left, hlast, hcount⟩ :=
            ih ⟨husers ▸ hknown.found, hbounded⟩ hnext hadmits hrest
          refine ⟨left, hlast, ?_⟩
          rw [List.countP_cons_of_pos hown]
          omega
      | false =>
          cases action with
          | submit | proceed => cases hown
          | back | limited => exact absurd hkeeps.1 id
          | server served =>
              obtain ⟨hnext, hfound⟩ := hstands.server_step hknown hkeeps.1 hstep
              obtain ⟨left, hlast, hcount⟩ := ih ⟨hfound, hbounded⟩ hnext hadmits hrest
              refine ⟨left, hlast, ?_⟩
              rw [List.countP_cons_of_neg (by simp [hown])]
              exact hcount

/-- A step of the page's own is possible until the page has been left. -/
theorem Stands.can_step (hstands : tab.Stands inputs name row (n + 1)) (ip : String)
    (supply : Supply) : ∃ action ∈ [LoginAction.submit, .proceed ip supply],
      ∃ next, tab.step platform inputs action = some next := by
  have hsend : ∀ (form : LoginForm) (request : Request) (receive : Reply → LoginPhase),
      ∃ next, tab.send platform form request supply receive = some next := by
    intro form request receive
    obtain ⟨server, hserver⟩ : ∃ server, (authMachine platform).step tab.server
        (.request request supply) = some server := request_step request
    exact ⟨_, Option.map_eq_some_iff.mpr ⟨server, hserver, rfl⟩⟩
  have hresume : ∀ {form : LoginForm} {id : TaskId} {task : HttpTask},
      tab.phase = .waiting form id → tab.server.tasks id = some (.http task) →
      ∃ next, tab.step platform inputs (.proceed ip supply) = some next := by
    intro form id task hphase htask
    have hserver : (authMachine platform).step tab.server (.resume id supply) =
        some (tab.server.runHttp platform id task supply) := by
      simp [authMachine, AuthState.step, AuthState.resumeTask, htask]
    simp only [step, hphase, htask]
    exact ⟨_, Option.map_eq_some_iff.mpr ⟨_, hserver, rfl⟩⟩
  cases hphase : tab.phase with
  | shown form error =>
      exact ⟨.submit, by simp, { tab with phase := .fetching form }, by simp [step, hphase]⟩
  | fetching form =>
      obtain ⟨next, hnext⟩ := hsend form (tab.request .csrfToken none ip) form.receiveToken
      exact ⟨.proceed ip supply, by simp, next, by simpa [step, hphase] using hnext⟩
  | posting form token =>
      obtain ⟨next, hnext⟩ :=
        hsend form (tab.request (form.endpoint inputs) (some token) ip) form.receive
      exact ⟨.proceed ip supply, by simp, next, by simpa [step, hphase] using hnext⟩
  | waiting form id =>
      refine ⟨.proceed ip supply, by simp, ?_⟩
      generalize hleft : n + 1 = left at hstands
      cases hstands with
      | verifying _ _ _ _ hwaiting _ htask | challenged _ _ _ hwaiting _ _ _ htask
      | regenerated _ _ _ _ _ hwaiting htask | established _ _ _ _ _ hwaiting htask =>
          exact hresume hwaiting htask
      | typed hother | fetching hother | posting _ hother | asked hother
      | fetchingAgain hother | postingCode _ hother | left hother =>
          rw [hphase] at hother
          cases hother
  | left =>
      generalize hleft : n + 1 = left at hstands
      cases hstands <;> simp_all

theorem Stands.no_error (hstands : tab.Stands inputs name row n) (form : LoginForm)
    (message : String) : tab.phase ≠ .shown form (some message) := by
  cases hstands <;> simp_all

theorem Stands.left_iff (hstands : tab.Stands inputs name row n) :
    tab.phase = .left ↔ n = 0 := by
  have hpositive : row.stepsAfterPassword ≠ 0 := by
    unfold UserRecord.stepsAfterPassword
    split <;> simp
  cases hstands <;> simp_all

end LoginTab

/-- A login with the right inputs which the limiters let through is never
refused, whatever else the server does in between: after six steps of the page's
own, ten with a code, the page is left with a session of the account, and until
then it has a next step. -/
theorem right_inputs_log_in {users : UsersTable} {before : List Action}
    {word : List LoginAction}
    (hbefore : (authMachine platform).exec (.initial users) before = some state)
    (hinputs : inputs.Right platform name row)
    (hfound : state.users.findByUsername name = some row)
    (hkeeps : (loginMachine platform inputs).Admits (KeepsLogin platform name)
      ⟨state, cookie, .shown .password none⟩ word)
    (hexec : (loginMachine platform inputs).exec ⟨state, cookie, .shown .password none⟩
      word = some last) :
    (∀ form message, last.phase ≠ .shown form (some message)) ∧
      (last.phase = .left ↔
        word.countP LoginAction.own = if row.totpEnabled then 10 else 6) ∧
      (last.phase = .left → last.data.user = some row.sessionUser) ∧
      (last.phase ≠ .left → ∀ ip supply,
        ∃ action ∈ [LoginAction.submit, .proceed ip supply],
          ∃ next, (loginMachine platform inputs).step last action = some next) := by
  have hbounded : state.TasksBounded :=
    tasksBounded_step.exec_any (fun _ _ => rfl) hbefore
  have hsteps : row.stepsAfterPassword + 4 = if row.totpEnabled then 10 else 6 := by
    unfold UserRecord.stepsAfterPassword
    split <;> rfl
  obtain ⟨n, hlast, hcount⟩ := LoginTab.Stands.exec hinputs ⟨hfound, hbounded⟩
    (.typed rfl) hkeeps hexec
  refine ⟨hlast.no_error, ?_, ?_, ?_⟩
  · rw [hlast.left_iff, ← hsteps]
    omega
  · intro hleft
    cases hlast with
    | left _ huser => exact huser
    | _ => simp_all
  · intro hleft ip supply
    rw [Ne, hlast.left_iff] at hleft
    obtain ⟨m, rfl⟩ := Nat.exists_eq_succ_of_ne_zero hleft
    exact hlast.can_step ip supply

def sampleInputs : LoginInputs where
  username := " admin"
  password := "password"
  code := ""

/-- The page submits its form and proceeds until it is left. -/
def samplePageSteps : List LoginAction :=
  .submit :: List.replicate 5 (.proceed "127.0.0.1" (sampleSupply "csrf"))

theorem right_inputs_log_in_sampleBootstrap :
    ∃ (state : AuthState) (row : UserRecord) (last : LoginTab),
      (authMachine samplePlatform).exec (.initial .empty) sampleBootstrap =
        some state ∧
      (loginMachine samplePlatform sampleInputs).exec ⟨state, none, .shown .password none⟩
        samplePageSteps = some last ∧
      last.phase = .left ∧ last.data.user = some row.sessionUser := by
  obtain ⟨state, hstate, htest⟩ := Machine.exists_of_exec_map (authMachine samplePlatform)
    (.initial .empty) sampleBootstrap
    (fun state => ((state.users.findByUsername "admin").any fun row =>
        samplePlatform.verifyPassword row.passwordHash "password" && !row.totpEnabled) &&
      ((loginMachine samplePlatform sampleInputs).exec
        ⟨state, none, .shown .password none⟩ samplePageSteps).isSome)
    (by decide +kernel)
  simp only [Bool.and_eq_true, Option.any_eq_true, Option.isSome_iff_exists,
    Bool.not_eq_true'] at htest
  obtain ⟨⟨row, hfound, hpassword, htotp⟩, last, hlast⟩ := htest
  have hinputs : sampleInputs.Right samplePlatform "admin" row :=
    ⟨by decide +kernel, hpassword, fun henabled => by simp [htotp] at henabled⟩
  have hkeeps : (loginMachine samplePlatform sampleInputs).Admits
      (KeepsLogin samplePlatform "admin") ⟨state, none, .shown .password none⟩
      samplePageSteps := by
    simp [samplePageSteps, List.replicate, Machine.Admits, KeepsLogin, sampleSupply]
  obtain ⟨-, hleft, huser, -⟩ :=
    right_inputs_log_in hstate hinputs hfound hkeeps hlast
  have hphase : last.phase = .left := hleft.mpr (by simp [htotp, samplePageSteps]; decide)
  exact ⟨state, row, last, hstate, hlast, hphase, huser hphase⟩

end Pm2Manager
