import Pm2Manager.TwoRuns

/-!
# Which accounts exist

A visitor who never presents a correct name and password cannot tell one
`users` table from another.  Two runs over any two tables are followed side by
side: no session carries a user or a pending challenge, so the only stretches
that look at the table are those of `login`, and these answer alike whether
the name is unknown, the password wrong or the hash malformed.
-/

namespace Pm2Manager

open Function
open ScriptText (foldCase)

/-! ## Unauthenticated requests -/

/-- The name and the password are those of an account. -/
def UsersTable.Accepts (users : UsersTable) (platform : Platform)
    (username password : String) : Prop :=
  ∃ row ∈ users.rows, foldCase row.username = foldCase username ∧
    platform.verifyPassword row.passwordHash password = true

/-- The requests of the login page; a `login` which its schema lets through
has no correct credentials. -/
def Endpoint.Unauthenticated (platform : Platform) (users : UsersTable) :
    Endpoint → Prop
  | .csrfToken | .verifyTwoFactor _ | .logout => True
  | .login username password =>
      ∀ body, loginSchema username password = .ok body →
        ¬ users.Accepts platform body.1 body.2
  | _ => False

/-- Requests, with every interleaving of their stretches and with sessions
that expire; nothing is run from the command line. -/
def Action.Unauthenticated (platform : Platform) (users : UsersTable) :
    Action → Prop
  | .request sent _ | .arrive sent _ =>
      sent.endpoint.Unauthenticated platform users
  | .resume _ _ | .expire _ => True
  | .createAdmin _ _ | .bootstrap _ => False

def SessionData.Anonymous (data : SessionData) : Prop :=
  data.user = none ∧ data.pending2fa = none

theorem verifyCredentials_rejected {platform : Platform} {users : UsersTable}
    {username password : String}
    (hwrong : ¬ users.Accepts platform username password) :
    verifyCredentials platform (users.findByUsername username) password = none := by
  rw [Option.filter_eq_none_iff]
  intro row hfind hverify
  obtain ⟨hrow, hname⟩ := UsersTable.mem_of_findByUsername hfind
  exact hwrong ⟨row, hrow, hname, hverify⟩

/-! ## The two runs side by side -/

abbrev anyRows : Option UserRecord → Option UserRecord → Prop := fun _ _ => True

section

variable (platform : Platform) (users₁ users₂ : UsersTable)

inductive VisitorTask : Task → Task → Prop
  | arrived (request : Request) (session : RequestSession)
      (hendpoint : request.endpoint.Unauthenticated platform users₁ ∧
        request.endpoint.Unauthenticated platform users₂)
      (hsession : session.data.Anonymous) :
      VisitorTask (.http { request, session, stage := .arrived })
        (.http { request, session, stage := .arrived })
  | verifyLogin (request : Request) (session : RequestSession)
      {user₁ user₂ : Option UserRecord} (username password : String)
      (hwrong₁ : verifyCredentials platform user₁ password = none)
      (hwrong₂ : verifyCredentials platform user₂ password = none)
      (hsession : session.data.Anonymous) :
      VisitorTask
        (.http { request, session, stage := .verifyLogin user₁ username password })
        (.http { request, session, stage := .verifyLogin user₂ username password })
  | destroyed (request : Request) (session : RequestSession) :
      VisitorTask (.http { request, session, stage := .destroyed })
        (.http { request, session, stage := .destroyed })

structure VisitorStretch (request : Request) (segment₁ segment₂ : Segment) :
    Prop where
  alike : segment₁.Alike anyRows segment₂
  quiet₁ : ∀ event ∈ segment₁.events, event.onUsers = false
  quiet₂ : ∀ event ∈ segment₂.events, event.onUsers = false
  stores : ∀ sid data, .storeSession sid data ∉ segment₁.events
  writesBack : ∀ session reply, segment₁.outcome = .replies (some session) reply →
    session.data.Anonymous
  next : Option.Rel (VisitorTask platform users₁ users₂)
    (segment₁.outcome.next request) (segment₂.outcome.next request)

structure SameToVisitors (state₁ state₂ : AuthState) : Prop where
  alike : state₁.Alike anyRows state₂
  table₁ : state₁.users = users₁
  table₂ : state₂.users = users₂
  rows : ∀ row ∈ state₁.sessions.rows, row.2.Anonymous
  tasks : ∀ id, Option.Rel (VisitorTask platform users₁ users₂)
    (state₁.tasks id) (state₂.tasks id)

end

variable {platform : Platform} {users₁ users₂ : UsersTable}
variable {state₁ state₂ : AuthState} {request : Request}
variable {session : RequestSession} {supply : Supply}

/-! ## Stretches -/

theorem VisitorStretch.replies (reply : Reply) {events₁ events₂ : List Event}
    (halike : List.Forall₂ Event.Alike events₁ events₂)
    (hquiet₁ : ∀ event ∈ events₁, event.onUsers = false)
    (hquiet₂ : ∀ event ∈ events₂, event.onUsers = false)
    (hstores : ∀ sid data, .storeSession sid data ∉ events₁)
    (hsession : session.data.Anonymous) :
    VisitorStretch platform users₁ users₂ request
      ⟨events₁, .replies (some session) reply⟩
      ⟨events₂, .replies (some session) reply⟩ where
  alike := replies_alike _ reply halike
  quiet₁ := hquiet₁
  quiet₂ := hquiet₂
  stores := hstores
  writesBack := by
    intro answered reply houtcome
    simp only [Outcome.replies.injEq, Option.some.injEq] at houtcome
    exact houtcome.1 ▸ hsession
  next := .none

theorem VisitorStretch.refused (error : AppError)
    (hsession : session.data.Anonymous) :
    VisitorStretch platform users₁ users₂ request
      (Pm2Manager.fail session error) (Pm2Manager.fail session error) :=
  .replies _ .nil (by simp) (by simp) (by simp) hsession

theorem csrfTokenHandler_visitor (hsession : session.data.Anonymous) :
    VisitorStretch platform users₁ users₂ request
      (csrfTokenHandler session supply) (csrfTokenHandler session supply) := by
  unfold csrfTokenHandler
  split
  · exact .replies _ .nil (by simp) (by simp) (by simp) hsession
  · exact .replies _ .nil (by simp) (by simp) (by simp) hsession

theorem login_visitor {username password : String}
    (husers₁ : state₁.users = users₁) (husers₂ : state₂.users = users₂)
    (hwrong₁ : ¬ users₁.Accepts platform username password)
    (hwrong₂ : ¬ users₂.Accepts platform username password)
    (hsession : session.data.Anonymous) :
    VisitorStretch platform users₁ users₂ request
      (login state₁ session username password)
      (login state₂ session username password) := by
  subst husers₁ husers₂
  refine ⟨awaits_alike _ (.cons (.credentialsRead _ _ _) .nil)
      (.verifyLogin _ _ trivial), by simp [login, Event.onUsers],
    by simp [login, Event.onUsers], by simp [login], by simp [login], ?_⟩
  exact .some (.verifyLogin request session username password
    (verifyCredentials_rejected hwrong₁) (verifyCredentials_rejected hwrong₂)
    hsession)

/-- No challenge is pending, whatever the code. -/
theorem verifyTwoFactor_visitor {token : String}
    (hsession : session.data.Anonymous) :
    VisitorStretch platform users₁ users₂ request
      (verifyTwoFactor platform state₁ request session token)
      (verifyTwoFactor platform state₂ request session token) := by
  simp only [verifyTwoFactor, hsession.2]
  exact .refused _ hsession

theorem logout_visitor (hsession : session.data.Anonymous) :
    VisitorStretch platform users₁ users₂ request
      (logout request session) (logout request session) := by
  simp only [logout, hsession.1, List.nil_append]
  refine ⟨awaits_alike _ (events_alike _) .destroyed, by simp [Event.onUsers],
    by simp [Event.onUsers], by simp, by simp, ?_⟩
  exact .some (.destroyed request session)

/-- An unknown name, a wrong password and a malformed hash are one answer. -/
theorem loginVerified_visitor {user₁ user₂ : Option UserRecord}
    {username password : String}
    (hwrong₁ : verifyCredentials platform user₁ password = none)
    (hwrong₂ : verifyCredentials platform user₂ password = none)
    (hsession : session.data.Anonymous) :
    VisitorStretch platform users₁ users₂ request
      (loginVerified platform state₁ request session user₁ username password)
      (loginVerified platform state₂ request session user₂ username password) := by
  simp only [loginVerified, hwrong₁, hwrong₂]
  exact .replies _ (.cons (.passwordChecked _ _ _ _ _) (events_alike _))
    (by simp [loginFailed, Event.onUsers]) (by simp [loginFailed, Event.onUsers])
    (by simp [loginFailed]) hsession

theorem arrive_visitor
    (husers₁ : state₁.users = users₁) (husers₂ : state₂.users = users₂)
    (hendpoint₁ : request.endpoint.Unauthenticated platform users₁)
    (hendpoint₂ : request.endpoint.Unauthenticated platform users₂)
    (hsession : session.data.Anonymous) :
    VisitorStretch platform users₁ users₂ request
      (arrive platform state₁ request session supply)
      (arrive platform state₂ request session supply) := by
  have hguard : request.endpoint.guard session.data = .ok () := by
    cases hendpoint : request.endpoint <;> simp only [hendpoint] at hendpoint₁ <;>
      first | rfl | exact hendpoint₁.elim
  simp only [arrive, hguard]
  cases csrfProtection request session.data with
  | error error => exact .refused error hsession
  | ok =>
      unfold controller
      cases hendpoint : request.endpoint <;>
        simp only [hendpoint] at hendpoint₁ hendpoint₂ ⊢
      case csrfToken => exact csrfTokenHandler_visitor hsession
      case logout => exact logout_visitor hsession
      case login username password =>
        cases hbody : loginSchema username password with
        | error error => exact .refused error hsession
        | ok body =>
            exact login_visitor husers₁ husers₂ (hendpoint₁ body hbody)
              (hendpoint₂ body hbody) hsession
      case verifyTwoFactor token =>
        cases totpCode token with
        | error error => exact .refused error hsession
        | ok token => exact verifyTwoFactor_visitor hsession
      all_goals exact hendpoint₁.elim

/-! ## Steps -/

namespace SameToVisitors

theorem initial (users₁ users₂ : UsersTable) :
    SameToVisitors platform users₁ users₂ (.initial users₁) (.initial users₂) where
  alike := initial_alike users₁ users₂
  table₁ := rfl
  table₂ := rfl
  rows := by simp [AuthState.initial, SessionStore.empty]
  tasks := fun _ => .none

theorem openSession_anonymous
    (hsame : SameToVisitors platform users₁ users₂ state₁ state₂)
    (cookie : Option SessionId) :
    (state₁.openSession cookie).1.data.Anonymous := by
  rcases state₁.openSession_cases cookie with ⟨sid, data, hrow, hopen⟩ | hopen
  · rw [hopen]
    exact hsame.rows (sid, data) hrow
  · rw [hopen]
    exact ⟨rfl, rfl⟩

theorem accept (hsame : SameToVisitors platform users₁ users₂ state₁ state₂)
    (hendpoint : request.endpoint.Unauthenticated platform users₁ ∧
      request.endpoint.Unauthenticated platform users₂) (now : String) :
    SameToVisitors platform users₁ users₂ (state₁.accept request now)
      (state₂.accept request now) where
  alike := hsame.alike.accept request
  table₁ := (AuthState.accept_users request now).trans hsame.table₁
  table₂ := (AuthState.accept_users request now).trans hsame.table₂
  rows := fun row hrow => hsame.rows row (AuthState.accept_rows hrow)
  tasks := by
    intro id
    rw [AuthState.accept_tasks, AuthState.accept_tasks, hsame.alike.nextTask,
      hsame.alike.acceptedTask]
    refine rel_update hsame.tasks _ (.some (.arrived request _ hendpoint ?_)) id
    rw [← hsame.alike.openSession]
    exact hsame.openSession_anonymous request.cookie

theorem runHttp (hsame : SameToVisitors platform users₁ users₂ state₁ state₂)
    (id : TaskId) {task₁ task₂ : HttpTask}
    (hrequest : task₁.request = task₂.request)
    (hsegment : VisitorStretch platform users₁ users₂ task₁.request
      (task₁.segment platform state₁ supply)
      (task₂.segment platform state₂ supply)) :
    SameToVisitors platform users₁ users₂
      (state₁.runHttp platform id task₁ supply)
      (state₂.runHttp platform id task₂ supply) where
  alike := hsame.alike.runHttp id supply hrequest hsegment.alike
  table₁ := by
    rw [AuthState.runHttp, AuthState.commit_users, AuthState.performAll_users]
    · exact hsame.table₁
    · exact List.forall_mem_append.mpr ⟨hsegment.quiet₁, AuthState.closing_quiet⟩
  table₂ := by
    rw [AuthState.runHttp, AuthState.commit_users, AuthState.performAll_users]
    · exact hsame.table₂
    · exact List.forall_mem_append.mpr ⟨hsegment.quiet₂, AuthState.closing_quiet⟩
  rows := by
    intro row hrow
    rcases AuthState.runHttp_rows hrow with hold | hstored
    · exact hsame.rows row hold
    · rcases List.mem_append.mp hstored with hevent | hclosing
      · exact absurd hevent (hsegment.stores row.1 row.2)
      · rcases Outcome.closing_cases hclosing with
          ⟨session, reply, houtcome, _, heq⟩ | ⟨reply, heq⟩
        · rw [(Event.storeSession.inj heq).2]
          exact hsegment.writesBack session reply houtcome
        · cases heq
  tasks := by
    intro other
    rw [AuthState.runHttp_tasks, AuthState.runHttp_tasks, ← hrequest]
    exact rel_update hsame.tasks id hsegment.next other

theorem resumeTask (hsame : SameToVisitors platform users₁ users₂ state₁ state₂)
    (id : TaskId) (supply : Supply) :
    Option.Rel (SameToVisitors platform users₁ users₂)
      (state₁.resumeTask platform id supply)
      (state₂.resumeTask platform id supply) := by
  have htask := hsame.tasks id
  unfold AuthState.resumeTask
  generalize state₁.tasks id = suspended₁, state₂.tasks id = suspended₂ at htask ⊢
  cases htask with
  | none => exact .none
  | some hvisitor =>
      cases hvisitor with
      | arrived request session hendpoint hsession =>
          exact .some (hsame.runHttp id rfl (arrive_visitor hsame.table₁
            hsame.table₂ hendpoint.1 hendpoint.2 hsession))
      | verifyLogin request session username password hwrong₁ hwrong₂ hsession =>
          exact .some (hsame.runHttp id rfl
            (loginVerified_visitor hwrong₁ hwrong₂ hsession))
      | destroyed request session =>
          refine .some (hsame.runHttp id rfl
            ⟨replies_alike _ _ .nil, ?_, ?_, ?_, ?_, .none⟩) <;>
            simp [HttpTask.segment, loggedOut]

end SameToVisitors

theorem sameToVisitors_lockstep :
    (authMachine platform).Lockstep (authMachine platform)
      (fun _ _ action => action.Unauthenticated platform users₁ ∧
        action.Unauthenticated platform users₂)
      (SameToVisitors platform users₁ users₂) := by
  intro state₁ state₂ action hsame hok
  cases action with
  | request request supply =>
      show Option.Rel _
        ((state₁.accept request supply.now).resumeTask platform state₁.nextTask
          supply)
        ((state₂.accept request supply.now).resumeTask platform state₂.nextTask
          supply)
      rw [hsame.alike.nextTask]
      exact (hsame.accept hok supply.now).resumeTask state₂.nextTask supply
  | arrive request now => exact .some (hsame.accept hok now)
  | createAdmin args supply => exact hok.1.elim
  | bootstrap supply => exact hok.1.elim
  | resume id supply => exact hsame.resumeTask id supply
  | expire sid =>
      exact .some { hsame with
        alike := hsame.alike.expire sid
        rows := fun row hrow =>
          hsame.rows row (SessionStore.mem_destroy.mp hrow).1 }

/-! ## Any two tables -/

/-- Two runs of the same unauthenticated requests, over any two `users`
tables: the same answers, the same sessions and as many verifications of a
password. -/
theorem visitors_learn_nothing (platform : Platform) (users₁ users₂ : UsersTable)
    (word : List Action)
    (hword : ∀ action ∈ word, action.Unauthenticated platform users₁ ∧
      action.Unauthenticated platform users₂) :
    Option.Rel
      (fun last₁ last₂ => last₁.responses = last₂.responses ∧
        last₁.sessions = last₂.sessions ∧
        last₁.verifications = last₂.verifications)
      ((authMachine platform).exec (.initial users₁) word)
      ((authMachine platform).exec (.initial users₂) word) := by
  have hstart : SameToVisitors platform users₁ users₂ (.initial users₁)
      (.initial users₂) := .initial users₁ users₂
  have hrun := sameToVisitors_lockstep.exec hstart
    (Machine.admitsBoth_of_forall hword)
  exact hrun.imp fun last₁ last₂ hsame =>
    ⟨hsame.alike.responses, hsame.alike.sessions, hsame.alike.verifications⟩

/-- Argon2 throws for a hash without its mark. -/
def strictPlatform : Platform :=
  { samplePlatform with
    argon2Verify := fun hashed plain =>
      if hashed.toList.getLast? = some '#' then some (hashed == plain ++ "#")
      else none }

def sampleGuesses : List Action :=
  [sampleRequest none .csrfToken,
    sampleRequest (some 0) (.login "admin" "guess"), sampleResume 1,
    sampleRequest (some 0) (.login "operator" "guess"), sampleResume 2,
    sampleRequest (some 0) (.verifyTwoFactor "123456"),
    sampleRequest (some 0) .logout, sampleResume 4]

theorem sampleGuesses_unauthenticated (users : UsersTable)
    (hadmin : ¬ users.Accepts strictPlatform "admin" "guess")
    (hoperator : ¬ users.Accepts strictPlatform "operator" "guess") :
    ∀ action ∈ sampleGuesses, action.Unauthenticated strictPlatform users := by
  have hlogin : ∀ username, username = "admin" ∨ username = "operator" →
      (Endpoint.login username "guess").Unauthenticated strictPlatform users := by
    intro username husername body hbody
    rcases husername with rfl | rfl
    · have hadminBody : loginSchema "admin" "guess" = .ok ("admin", "guess") := by
        decide +kernel
      obtain rfl := Except.ok.inj (hbody.symm.trans hadminBody)
      exact hadmin
    · have hoperatorBody :
          loginSchema "operator" "guess" = .ok ("operator", "guess") := by
        decide +kernel
      obtain rfl := Except.ok.inj (hbody.symm.trans hoperatorBody)
      exact hoperator
  simp only [sampleGuesses, List.forall_mem_cons]
  exact ⟨trivial, hlogin _ (.inl rfl), trivial, hlogin _ (.inr rfl), trivial,
    trivial, trivial, trivial, List.forall_mem_nil _⟩

/-- An administrator with a second factor against an operator whose hash is
malformed. -/
theorem visitors_learn_nothing_sampleGuesses :
    ∃ last₁ last₂,
      (authMachine strictPlatform).exec
          (.initial (sampleAccount "admin" "password#" (some "SECRET")))
          sampleGuesses = some last₁ ∧
        (authMachine strictPlatform).exec
          (.initial (sampleAccount "operator" "broken" none))
          sampleGuesses = some last₂ ∧
        last₁.responses = last₂.responses ∧ last₁.sessions = last₂.sessions ∧
        last₁.verifications = 2 ∧ last₂.verifications = 2 := by
  obtain ⟨last₁, hexec₁, htest⟩ := Machine.exists_of_exec_map
    (authMachine strictPlatform)
    (.initial (sampleAccount "admin" "password#" (some "SECRET"))) sampleGuesses
    (fun state => state.verifications == 2) (by decide +kernel)
  have hadmin := sampleGuesses_unauthenticated
    (sampleAccount "admin" "password#" (some "SECRET"))
    (by unfold UsersTable.Accepts; decide +kernel)
    (by unfold UsersTable.Accepts; decide +kernel)
  have hoperator := sampleGuesses_unauthenticated
    (sampleAccount "operator" "broken" none)
    (by unfold UsersTable.Accepts; decide +kernel)
    (by unfold UsersTable.Accepts; decide +kernel)
  have hrel := visitors_learn_nothing strictPlatform
    (sampleAccount "admin" "password#" (some "SECRET"))
    (sampleAccount "operator" "broken" none) sampleGuesses
    fun action haction => ⟨hadmin action haction, hoperator action haction⟩
  rw [hexec₁] at hrel
  generalize hexec₂ : (authMachine strictPlatform).exec
    (.initial (sampleAccount "operator" "broken" none)) sampleGuesses = ended at hrel
  cases hrel with
  | some hsame =>
      have hcount : last₁.verifications = 2 := by simpa using htest
      exact ⟨last₁, _, hexec₁, rfl, hsame.1, hsame.2.1, hcount,
        hsame.2.2.symm.trans hcount⟩

end Pm2Manager
