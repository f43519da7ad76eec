import Pm2Manager.AuthModel
import Pm2Manager.Machine

/-!
# What one step of the accounts machine does

The writes of a stretch are a list of events, so a step is described by its
events and by what becomes of its task.  This file reads off, once and for
all, which handler ran (`Handled`), what it did to the `users` table
(`UsersUse`) and what it did to its session (`SessionMove`).  The invariants
of the later files are proved from these descriptions only.
-/

namespace Pm2Manager

open Function

def authMachine (platform : Platform) : Machine AuthState Action where
  step := AuthState.step platform

def Event.onUsers : Event → Bool
  | .insertUser _ _ | .updatePassword _ _ | .setTotp _ _ _ | .deleteUser _ => true
  | _ => false

/-- The events of the handlers outside of login and logout. -/
def Event.isPlain : Event → Bool
  | .passwordChecked _ _ _ _ | .purgeSessions _ | .insertUser _ _
  | .updatePassword _ _ | .setTotp _ _ _ | .deleteUser _ | .setSetting _ _
  | .record _ => true
  | _ => false

def Event.ofJob : Event → Bool
  | .insertUser _ _ | .updatePassword _ _ | .bootstrapReturned _ => true
  | _ => false

namespace AuthState

variable {state : AuthState} {task : TaskId} {now : String}
variable {event : Event} {events more : List Event}

@[simp] theorem write_tasks : (state.write now event).tasks = state.tasks := by
  cases event <;> rfl

@[simp] theorem write_nextTask :
    (state.write now event).nextTask = state.nextTask := by
  cases event <;> rfl

@[simp] theorem perform_tasks :
    (state.perform task now event).tasks = state.tasks := by
  simp [perform]

@[simp] theorem perform_nextTask :
    (state.perform task now event).nextTask = state.nextTask := by
  simp [perform]

@[simp] theorem perform_trace :
    (state.perform task now event).trace = state.trace ++ [(task, event)] := rfl

@[simp] theorem performAll_nil : state.performAll task now [] = state := rfl

@[simp] theorem performAll_cons :
    state.performAll task now (event :: events) =
      (state.perform task now event).performAll task now events := rfl

theorem performAll_append :
    state.performAll task now (events ++ more) =
      (state.performAll task now events).performAll task now more := by
  simp [performAll]

@[simp] theorem performAll_tasks :
    (state.performAll task now events).tasks = state.tasks := by
  induction events generalizing state with
  | nil => rfl
  | cons event rest ih => simp [ih]

@[simp] theorem performAll_nextTask :
    (state.performAll task now events).nextTask = state.nextTask := by
  induction events generalizing state with
  | nil => rfl
  | cons event rest ih => simp [ih]

@[simp] theorem performAll_trace :
    (state.performAll task now events).trace =
      state.trace ++ events.map (Prod.mk task) := by
  induction events generalizing state with
  | nil => simp
  | cons event rest ih => simp [ih]

theorem perform_users (hquiet : event.onUsers = false) :
    (state.perform task now event).users = state.users := by
  cases event <;> simp_all [perform, write, Event.onUsers]

theorem performAll_users (hquiet : ∀ event ∈ events, event.onUsers = false) :
    (state.performAll task now events).users = state.users := by
  induction events generalizing state with
  | nil => rfl
  | cons event rest ih =>
      rw [performAll_cons, ih fun event hevent =>
        hquiet event (List.mem_cons_of_mem _ hevent)]
      exact perform_users (hquiet event List.mem_cons_self)

theorem perform_rows {row : SessionId × SessionData}
    (hrow : row ∈ (state.perform task now event).sessions.rows) :
    row ∈ state.sessions.rows ∨ event = .storeSession row.1 row.2 := by
  cases event with
  | storeSession sid data =>
      have hset : row ∈ (state.sessions.set sid data).rows := hrow
      rcases SessionStore.mem_set.mp hset with ⟨hold, _⟩ | rfl
      · exact .inl hold
      · exact .inr rfl
  | destroySession sid =>
      have hdestroy : row ∈ (state.sessions.destroy sid).rows := hrow
      exact .inl (SessionStore.mem_destroy.mp hdestroy).1
  | purgeSessions userId =>
      have hpurge : row ∈ (state.sessions.deleteByUserId userId).rows := hrow
      exact .inl (SessionStore.mem_deleteByUserId.mp hpurge).1
  | _ => exact .inl hrow

theorem performAll_rows {row : SessionId × SessionData}
    (hrow : row ∈ (state.performAll task now events).sessions.rows) :
    row ∈ state.sessions.rows ∨ .storeSession row.1 row.2 ∈ events := by
  induction events generalizing state with
  | nil => exact .inl hrow
  | cons event rest ih =>
      rcases ih hrow with hold | hnew
      · rcases perform_rows hold with hold | rfl
        · exact .inl hold
        · exact .inr List.mem_cons_self
      · exact .inr (List.mem_cons_of_mem _ hnew)

@[simp] theorem commit_trace {next : Option Task} :
    (state.commit task now events next).trace =
      state.trace ++ events.map (Prod.mk task) := by
  simp [commit]

@[simp] theorem commit_tasks {next : Option Task} :
    (state.commit task now events next).tasks =
      update state.tasks task next := by
  simp [commit]

@[simp] theorem commit_nextTask {next : Option Task} :
    (state.commit task now events next).nextTask = state.nextTask := by
  simp [commit]

@[simp] theorem commit_users {next : Option Task} :
    (state.commit task now events next).users =
      (state.performAll task now events).users := rfl

@[simp] theorem commit_sessions {next : Option Task} :
    (state.commit task now events next).sessions =
      (state.performAll task now events).sessions := rfl

end AuthState

theorem Outcome.closing_cases {outcome : Outcome} {endpoint : Endpoint}
    {event : Event} (hevent : event ∈ outcome.closing endpoint) :
    (∃ session reply, outcome = .replies (some session) reply ∧
        session.shouldSave = true ∧
        event = .storeSession session.sid session.data) ∨
      ∃ reply, event = .answer endpoint reply := by
  cases outcome with
  | awaits session stage => simp [Outcome.closing] at hevent
  | replies session reply =>
      simp only [Outcome.closing, List.mem_append, List.mem_singleton] at hevent
      rcases hevent with hstore | hanswer
      · left
        cases session with
        | none => simp at hstore
        | some session =>
            by_cases hsave : session.shouldSave = true
            · have hequal : event = .storeSession session.sid session.data := by
                simpa [hsave] using hstore
              exact ⟨session, reply, rfl, hsave, hequal⟩
            · simp [hsave] at hstore
      · exact .inr ⟨reply, hanswer⟩

/-! ## Which handler ran -/

section

variable (platform : Platform) (state : AuthState) (request : Request)
  (session : RequestSession) (supply : Supply)

/-- The request passes the middleware in front of its handler. -/
def Admitted (request : Request) (data : SessionData) : Prop :=
  csrfProtection request data = .ok () ∧
    request.endpoint.guard data = .ok ()

/-- The first stretch of a request: refused before its handler, or the
handler of its endpoint with the validated input. -/
inductive Handled : Segment → Prop
  | rejected (error : AppError) : Handled (fail session error)
  | csrfToken (hendpoint : request.endpoint = .csrfToken) :
      Handled (csrfTokenHandler session supply)
  | login (rawUsername rawPassword username password : String)
      (hadmitted : Admitted request session.data)
      (hendpoint : request.endpoint = .login rawUsername rawPassword)
      (hbody : loginSchema rawUsername rawPassword = .ok (username, password)) :
      Handled (login state session username password)
  | verifyTwoFactor (token : String) :
      Handled (verifyTwoFactor platform state request session token)
  | logout (hendpoint : request.endpoint = .logout) :
      Handled (logout request session)
  | me : Handled (me state session)
  | changePassword (rawCurrent rawNew currentPassword newPassword : String)
      (hendpoint : request.endpoint = .changePassword rawCurrent rawNew)
      (hbody : changePasswordSchema rawCurrent rawNew =
        .ok (currentPassword, newPassword)) :
      Handled (changePassword state session currentPassword newPassword)
  | setupTwoFactor (hadmitted : Admitted request session.data)
      (hendpoint : request.endpoint = .setupTwoFactor) :
      Handled (setupTwoFactor platform state session supply)
  | enableTwoFactor (raw token : String)
      (hadmitted : Admitted request session.data)
      (hendpoint : request.endpoint = .enableTwoFactor raw)
      (htoken : totpCode raw = .ok token) :
      Handled (enableTwoFactor platform request session token)
  | disableTwoFactor (password : String) :
      Handled (disableTwoFactor state session password)
  | listUsers : Handled (listUsers state session)
  | createUser (rawUsername rawPassword : String) (isAdmin : Option Bool)
      (input : CreateUserInput)
      (hendpoint : request.endpoint =
        .createUser rawUsername rawPassword isAdmin)
      (hbody : createUserSchema rawUsername rawPassword isAdmin = .ok input) :
      Handled (createUser state session input)
  | removeUser (raw : ℤ) (id : ℕ)
      (hadmitted : Admitted request session.data)
      (hendpoint : request.endpoint = .removeUser raw)
      (hid : userIdParamSchema raw = .ok id) :
      Handled (removeUser state request session id)
  | getSettings : Handled (getSettings platform state session)
  | updateSettings (input : UpdateSettingsInput) :
      Handled (updateSettings platform state request session input)
  | listActivity (query : ActivityQuery) :
      Handled (listActivity state session query)

variable {platform state request session supply}

theorem controller_handled {segment : Segment}
    (hadmitted : Admitted request session.data)
    (hcontroller :
      controller platform state request session supply = .ok segment) :
    Handled platform state request session supply segment := by
  unfold controller at hcontroller
  cases hendpoint : request.endpoint <;> simp only [hendpoint] at hcontroller
  case csrfToken =>
    rw [Except.ok.injEq] at hcontroller
    exact hcontroller ▸ .csrfToken hendpoint
  case logout =>
    rw [Except.ok.injEq] at hcontroller
    exact hcontroller ▸ .logout hendpoint
  case me =>
    rw [Except.ok.injEq] at hcontroller
    exact hcontroller ▸ .me
  case setupTwoFactor =>
    rw [Except.ok.injEq] at hcontroller
    exact hcontroller ▸ .setupTwoFactor hadmitted hendpoint
  case listUsers =>
    rw [Except.ok.injEq] at hcontroller
    exact hcontroller ▸ .listUsers
  case login rawUsername rawPassword =>
    obtain ⟨body, hbody, rfl⟩ := except_map_ok hcontroller
    exact .login rawUsername rawPassword body.1 body.2 hadmitted hendpoint hbody
  case verifyTwoFactor =>
    obtain ⟨token, _, rfl⟩ := except_map_ok hcontroller
    exact .verifyTwoFactor token
  case changePassword rawCurrent rawNew =>
    obtain ⟨body, hbody, rfl⟩ := except_map_ok hcontroller
    exact .changePassword rawCurrent rawNew body.1 body.2 hendpoint hbody
  case enableTwoFactor raw =>
    obtain ⟨token, htoken, rfl⟩ := except_map_ok hcontroller
    exact .enableTwoFactor raw token hadmitted hendpoint htoken
  case disableTwoFactor =>
    obtain ⟨password, _, rfl⟩ := except_map_ok hcontroller
    exact .disableTwoFactor password
  case createUser rawUsername rawPassword isAdmin =>
    obtain ⟨input, hbody, rfl⟩ := except_map_ok hcontroller
    exact .createUser rawUsername rawPassword isAdmin input hendpoint hbody
  case removeUser raw =>
    obtain ⟨id, hid, rfl⟩ := except_map_ok hcontroller
    exact .removeUser raw id hadmitted hendpoint hid
  case getSettings =>
    rw [Except.ok.injEq] at hcontroller
    exact hcontroller ▸ .getSettings
  case updateSettings =>
    obtain ⟨input, _, rfl⟩ := except_map_ok hcontroller
    exact .updateSettings input
  case listActivity =>
    obtain ⟨query, _, rfl⟩ := except_map_ok hcontroller
    exact .listActivity query

theorem arrive_handled :
    Handled platform state request session supply
      (arrive platform state request session supply) := by
  unfold arrive
  split
  · exact .rejected _
  · exact .rejected _
  · exact .rejected _
  next segment hcsrf hguard hcontroller =>
    exact controller_handled ⟨hcsrf, hguard⟩ hcontroller

theorem arrive_of_admitted {segment : Segment}
    (hadmitted : Admitted request session.data)
    (hcontroller :
      controller platform state request session supply = .ok segment) :
    arrive platform state request session supply = segment := by
  unfold arrive
  rw [hadmitted.1, hadmitted.2, hcontroller]

end

end Pm2Manager
