import Pm2Manager.AuthTransitions
import Pm2Manager.Lockstep

/-!
# Two runs over two `users` tables

Two servers are given the same requests, moments and random characters.  They
are alike when they differ in nothing but their tables and the rows which
their suspended tasks and their traces hold; `Q` says how two rows held in one
place, or the absence of one, may differ.  What clients are answered and how
often Argon2 is asked is then the same.  How the tables themselves are related
is left to the files that use this one.
-/

namespace Pm2Manager

open Function

/-! ## What the runs are compared on -/

/-- The answers sent so far, each with its task and its endpoint. -/
def AuthState.responses (state : AuthState) : List (TaskId × Endpoint × Reply) :=
  state.trace.filterMap fun entry =>
    match entry.2 with
    | .answer endpoint reply => some (entry.1, endpoint, reply)
    | _ => none

def Event.isVerification : Event → Bool
  | .passwordChecked _ _ _ _ => true
  | _ => false

/-- How often Argon2 has verified a password, against a stored hash or against
the dummy one. -/
def AuthState.verifications (state : AuthState) : ℕ :=
  state.trace.countP fun entry => entry.2.isVerification

/-! ## Alike up to rows -/

inductive Event.Alike : Event → Event → Prop
  | same (event : Event) : Alike event event
  | credentialsRead (sid : SessionId) (user₁ user₂ : Option UserRecord) :
      Alike (.credentialsRead sid user₁) (.credentialsRead sid user₂)
  | passwordChecked (sid : SessionId) (user₁ user₂ : Option UserRecord)
      (password : String) (ok : Bool) :
      Alike (.passwordChecked sid user₁ password ok)
        (.passwordChecked sid user₂ password ok)
  | totpAccepted (sid : SessionId) (pending : PendingTwoFactor)
      (user₁ user₂ : UserRecord) (token : String) :
      Alike (.totpAccepted sid pending user₁ token)
        (.totpAccepted sid pending user₂ token)

section

variable (Q : Option UserRecord → Option UserRecord → Prop)

inductive Stage.Alike : Stage → Stage → Prop
  | arrived : Alike .arrived .arrived
  | verifyLogin {user₁ user₂ : Option UserRecord} (username password : String)
      (husers : Q user₁ user₂) :
      Alike (.verifyLogin user₁ username password)
        (.verifyLogin user₂ username password)
  | challengeSaved : Alike .challengeSaved .challengeSaved
  | regenerated {user₁ user₂ : UserRecord} (step : LoginStep)
      (husers : Q (some user₁) (some user₂)) :
      Alike (.regenerated user₁ step) (.regenerated user₂ step)
  | established {user₁ user₂ : UserRecord} (step : LoginStep)
      (husers : Q (some user₁) (some user₂)) :
      Alike (.established user₁ step) (.established user₂ step)
  | destroyed : Alike .destroyed .destroyed
  | verifyCurrent {user₁ user₂ : UserRecord} (currentPassword newPassword : String)
      (husers : Q (some user₁) (some user₂)) :
      Alike (.verifyCurrent user₁ currentPassword newPassword)
        (.verifyCurrent user₂ currentPassword newPassword)
  | hashNew {user₁ user₂ : UserRecord} (newPassword : String)
      (husers : Q (some user₁) (some user₂)) :
      Alike (.hashNew user₁ newPassword) (.hashNew user₂ newPassword)
  | renderQr (secret otpauthUrl : String) :
      Alike (.renderQr secret otpauthUrl) (.renderQr secret otpauthUrl)
  | verifyDisable {user₁ user₂ : UserRecord} (password : String)
      (husers : Q (some user₁) (some user₂)) :
      Alike (.verifyDisable user₁ password) (.verifyDisable user₂ password)
  | hashCreate (input : CreateUserInput) :
      Alike (.hashCreate input) (.hashCreate input)

inductive JobStage.Alike : JobStage → JobStage → Prop
  | checkUsername : Alike .checkUsername .checkUsername
  | hashCreate : Alike .hashCreate .hashCreate
  | hashReset {existing₁ existing₂ : UserRecord}
      (husers : Q (some existing₁) (some existing₂)) :
      Alike (.hashReset existing₁) (.hashReset existing₂)

inductive Task.Alike : Task → Task → Prop
  | http (request : Request) (session : RequestSession) {stage₁ stage₂ : Stage}
      (hstage : stage₁.Alike Q stage₂) :
      Alike (.http { request, session, stage := stage₁ })
        (.http { request, session, stage := stage₂ })
  | job (kind : JobKind) (input : CreateUserInput) {stage₁ stage₂ : JobStage}
      (hstage : stage₁.Alike Q stage₂) :
      Alike (.job kind input stage₁) (.job kind input stage₂)

inductive Outcome.Alike : Outcome → Outcome → Prop
  | awaits (session : RequestSession) {stage₁ stage₂ : Stage}
      (hstage : stage₁.Alike Q stage₂) :
      Alike (.awaits session stage₁) (.awaits session stage₂)
  | replies (session : Option RequestSession) (reply : Reply) :
      Alike (.replies session reply) (.replies session reply)

structure Segment.Alike (segment₁ segment₂ : Segment) : Prop where
  events : List.Forall₂ Event.Alike segment₁.events segment₂.events
  outcome : segment₁.outcome.Alike Q segment₂.outcome

/-- Alike in everything but the `users` tables. -/
structure AuthState.Alike (state₁ state₂ : AuthState) : Prop where
  sessions : state₁.sessions = state₂.sessions
  settings : state₁.settings = state₂.settings
  activity : state₁.activity = state₂.activity
  nextSid : state₁.nextSid = state₂.nextSid
  nextTask : state₁.nextTask = state₂.nextTask
  tasks : ∀ id, Option.Rel (Task.Alike Q) (state₁.tasks id) (state₂.tasks id)
  trace : List.Forall₂
    (fun entry₁ entry₂ => entry₁.1 = entry₂.1 ∧ entry₁.2.Alike entry₂.2)
    state₁.trace state₂.trace

end

theorem rel_update {R : Task → Task → Prop} {tasks₁ tasks₂ : TaskId → Option Task}
    {next₁ next₂ : Option Task}
    (htasks : ∀ id, Option.Rel R (tasks₁ id) (tasks₂ id)) (task : TaskId)
    (hnext : Option.Rel R next₁ next₂) (id : TaskId) :
    Option.Rel R (update tasks₁ task next₁ id) (update tasks₂ task next₂ id) := by
  by_cases hid : id = task
  · subst hid
    rw [update_self, update_self]
    exact hnext
  · rw [update_of_ne hid, update_of_ne hid]
    exact htasks id

theorem events_alike (events : List Event) :
    List.Forall₂ Event.Alike events events :=
  List.forall₂_same.mpr fun event _ => .same event

theorem Event.Alike.isVerification {event₁ event₂ : Event}
    (hevent : event₁.Alike event₂) :
    event₁.isVerification = event₂.isVerification := by
  cases hevent <;> rfl

variable {Q : Option UserRecord → Option UserRecord → Prop}
variable {platform : Platform} {state₁ state₂ : AuthState}
variable {event₁ event₂ : Event} {events₁ events₂ : List Event}
variable {task : TaskId} {now : String}

theorem initial_alike (users₁ users₂ : UsersTable) :
    (AuthState.initial users₁).Alike Q (.initial users₂) where
  sessions := rfl
  settings := rfl
  activity := rfl
  nextSid := rfl
  nextTask := rfl
  tasks := fun _ => .none
  trace := .nil

namespace AuthState.Alike

theorem responses (halike : state₁.Alike Q state₂) :
    state₁.responses = state₂.responses := by
  have htrace := halike.trace
  unfold AuthState.responses
  generalize state₁.trace = trace₁, state₂.trace = trace₂ at htrace ⊢
  induction htrace with
  | nil => rfl
  | @cons entry₁ entry₂ _ _ hentry _ ih =>
      obtain ⟨id₁, event₁⟩ := entry₁
      obtain ⟨id₂, event₂⟩ := entry₂
      obtain ⟨rfl, hevent⟩ := hentry
      cases hevent with
      | same => cases event₁ <;> simp [ih]
      | credentialsRead | passwordChecked | totpAccepted => simpa using ih

theorem verifications (halike : state₁.Alike Q state₂) :
    state₁.verifications = state₂.verifications := by
  have htrace := halike.trace
  unfold AuthState.verifications
  generalize state₁.trace = trace₁, state₂.trace = trace₂ at htrace ⊢
  induction htrace with
  | nil => rfl
  | @cons entry₁ entry₂ _ _ hentry _ ih =>
      have hkind : entry₁.2.isVerification = entry₂.2.isVerification :=
        hentry.2.isVerification
      rw [List.countP_cons, List.countP_cons, ih, hkind]

/-! ## Writes -/

theorem write (halike : state₁.Alike Q state₂) (hevent : event₁.Alike event₂) :
    (state₁.write now event₁).Alike Q (state₂.write now event₂) := by
  cases hevent with
  | credentialsRead | passwordChecked | totpAccepted => exact halike
  | same =>
      cases event₁ with
      | generateSession sid => exact { halike with nextSid := rfl }
      | storeSession sid data =>
          exact { halike with
            sessions := congrArg (SessionStore.set · sid data) halike.sessions }
      | destroySession sid =>
          exact { halike with
            sessions := congrArg (SessionStore.destroy · sid) halike.sessions }
      | purgeSessions userId =>
          exact { halike with
            sessions :=
              congrArg (SessionStore.deleteByUserId · userId) halike.sessions }
      | setSetting key value =>
          exact { halike with
            settings := congrArg (SettingsTable.set · key value) halike.settings }
      | record input =>
          exact { halike with
            activity := congrArg (ActivityLog.record · input now) halike.activity }
      | insertUser | updatePassword | setTotp | deleteUser =>
          exact { halike with }
      | credentialsRead | passwordChecked | totpAccepted | established | answer
      | bootstrapReturned => exact halike

theorem perform (halike : state₁.Alike Q state₂) (hevent : event₁.Alike event₂) :
    (state₁.perform task now event₁).Alike Q (state₂.perform task now event₂) := by
  have htrace₁ : (state₁.write now event₁).trace = state₁.trace := by
    cases event₁ <;> rfl
  have htrace₂ : (state₂.write now event₂).trace = state₂.trace := by
    cases event₂ <;> rfl
  exact { halike.write hevent with
    trace := List.rel_append halike.trace (.cons ⟨rfl, hevent⟩ .nil) }

theorem performAll (halike : state₁.Alike Q state₂)
    (hevents : List.Forall₂ Event.Alike events₁ events₂) :
    (state₁.performAll task now events₁).Alike Q
      (state₂.performAll task now events₂) := by
  induction hevents generalizing state₁ state₂ with
  | nil => exact halike
  | cons hevent _ ih => exact ih (halike.perform hevent)

theorem commit {next₁ next₂ : Option Task} (halike : state₁.Alike Q state₂)
    (hevents : List.Forall₂ Event.Alike events₁ events₂)
    (hnext : Option.Rel (Task.Alike Q) next₁ next₂) :
    (state₁.commit task now events₁ next₁).Alike Q
      (state₂.commit task now events₂ next₂) := by
  have hafter : (state₁.performAll task now events₁).Alike Q
      (state₂.performAll task now events₂) := halike.performAll hevents
  exact { hafter with tasks := rel_update hafter.tasks task hnext }

theorem openSession (halike : state₁.Alike Q state₂) (cookie : Option SessionId) :
    state₁.openSession cookie = state₂.openSession cookie := by
  simp only [AuthState.openSession, halike.sessions, halike.nextSid]

/-! ## Steps -/

theorem startTask {next₁ next₂ : Option Task} (halike : state₁.Alike Q state₂)
    (hevents : List.Forall₂ Event.Alike events₁ events₂)
    (hnext : Option.Rel (Task.Alike Q) next₁ next₂) :
    ({ state₁ with nextTask := state₁.nextTask + 1 }.commit state₁.nextTask now
        events₁ next₁).Alike Q
      ({ state₂ with nextTask := state₂.nextTask + 1 }.commit state₂.nextTask now
        events₂ next₂) := by
  rw [halike.nextTask]
  exact commit { halike with nextTask := rfl } hevents hnext

theorem acceptedTask (halike : state₁.Alike Q state₂) (request : Request) :
    state₁.acceptedTask request = state₂.acceptedTask request := by
  simp only [AuthState.acceptedTask, halike.openSession]

theorem accept (halike : state₁.Alike Q state₂) (request : Request) :
    (state₁.accept request now).Alike Q (state₂.accept request now) := by
  unfold AuthState.accept
  rw [halike.openSession]
  exact halike.startTask (events_alike _) (.some (.http _ _ .arrived))

theorem startJob {started₁ started₂ : List Event × Option Task}
    (halike : state₁.Alike Q state₂)
    (hevents : List.Forall₂ Event.Alike started₁.1 started₂.1)
    (hnext : Option.Rel (Task.Alike Q) started₁.2 started₂.2) :
    (state₁.startJob now started₁).Alike Q (state₂.startJob now started₂) :=
  halike.startTask hevents hnext

theorem expire (halike : state₁.Alike Q state₂) (sid : SessionId) :
    AuthState.Alike Q { state₁ with sessions := state₁.sessions.destroy sid }
      { state₂ with sessions := state₂.sessions.destroy sid } :=
  { halike with sessions := congrArg (SessionStore.destroy · sid) halike.sessions }

end AuthState.Alike

theorem Outcome.Alike.closing {outcome₁ outcome₂ : Outcome}
    (houtcome : outcome₁.Alike Q outcome₂) (endpoint : Endpoint) :
    outcome₁.closing endpoint = outcome₂.closing endpoint := by
  cases houtcome <;> rfl

theorem Outcome.Alike.next {outcome₁ outcome₂ : Outcome}
    (houtcome : outcome₁.Alike Q outcome₂) (request : Request) :
    Option.Rel (Task.Alike Q) (outcome₁.next request) (outcome₂.next request) := by
  cases houtcome with
  | awaits session hstage => exact .some (.http request session hstage)
  | replies session reply => exact .none

theorem AuthState.Alike.runHttp (halike : state₁.Alike Q state₂) (id : TaskId)
    {task₁ task₂ : HttpTask} (supply : Supply)
    (hrequest : task₁.request = task₂.request)
    (hsegment : (task₁.segment platform state₁ supply).Alike Q
      (task₂.segment platform state₂ supply)) :
    (state₁.runHttp platform id task₁ supply).Alike Q
      (state₂.runHttp platform id task₂ supply) := by
  unfold AuthState.runHttp
  dsimp only
  rw [hrequest, hsegment.outcome.closing]
  exact halike.commit (List.rel_append hsegment.events (events_alike _))
    (hsegment.outcome.next _)

/-! ## Stretches -/

theorem fail_alike (session : RequestSession) (error : AppError)
    (hevents : List.Forall₂ Event.Alike events₁ events₂) :
    (fail session error events₁).Alike Q (fail session error events₂) :=
  ⟨hevents, .replies _ _⟩

theorem replies_alike (session : Option RequestSession) (reply : Reply)
    (hevents : List.Forall₂ Event.Alike events₁ events₂) :
    Segment.Alike Q ⟨events₁, .replies session reply⟩
      ⟨events₂, .replies session reply⟩ :=
  ⟨hevents, .replies _ _⟩

theorem awaits_alike (session : RequestSession) {stage₁ stage₂ : Stage}
    (hevents : List.Forall₂ Event.Alike events₁ events₂)
    (hstage : stage₁.Alike Q stage₂) :
    Segment.Alike Q ⟨events₁, .awaits session stage₁⟩
      ⟨events₂, .awaits session stage₂⟩ :=
  ⟨hevents, .awaits _ hstage⟩

theorem Stage.alike_refl (hQ : ∀ user, Q user user) (stage : Stage) :
    stage.Alike Q stage := by
  cases stage with
  | arrived => exact .arrived
  | verifyLogin user username password => exact .verifyLogin _ _ (hQ _)
  | challengeSaved => exact .challengeSaved
  | regenerated user step => exact .regenerated _ (hQ _)
  | established user step => exact .established _ (hQ _)
  | destroyed => exact .destroyed
  | verifyCurrent user currentPassword newPassword => exact .verifyCurrent _ _ (hQ _)
  | hashNew user newPassword => exact .hashNew _ (hQ _)
  | renderQr secret otpauthUrl => exact .renderQr _ _
  | verifyDisable user password => exact .verifyDisable _ (hQ _)
  | hashCreate input => exact .hashCreate _

theorem Segment.alike_refl (hQ : ∀ user, Q user user) (segment : Segment) :
    segment.Alike Q segment := by
  refine ⟨events_alike _, ?_⟩
  cases segment.outcome with
  | awaits session stage => exact .awaits _ (stage.alike_refl hQ)
  | replies session reply => exact .replies _ _

/-- Both handlers refuse with one error, or both run. -/
inductive ControllerAlike (Q : Option UserRecord → Option UserRecord → Prop) :
    Except AppError Segment → Except AppError Segment → Prop
  | error (error : AppError) : ControllerAlike Q (.error error) (.error error)
  | ok {segment₁ segment₂ : Segment} (hsegment : segment₁.Alike Q segment₂) :
      ControllerAlike Q (.ok segment₁) (.ok segment₂)

theorem controllerAlike_map {α : Type} {handler₁ handler₂ : α → Segment}
    (schema : Except AppError α)
    (hhandler : ∀ body, schema = .ok body →
      (handler₁ body).Alike Q (handler₂ body)) :
    ControllerAlike Q (schema.map handler₁) (schema.map handler₂) := by
  cases schema with
  | error error => exact .error error
  | ok body => exact .ok (hhandler body rfl)

theorem arrive_alike {request : Request} {session : RequestSession}
    {supply : Supply}
    (hcontroller : Admitted request session.data →
      ControllerAlike Q (controller platform state₁ request session supply)
        (controller platform state₂ request session supply)) :
    (arrive platform state₁ request session supply).Alike Q
      (arrive platform state₂ request session supply) := by
  have hrefused : ∀ error, (fail session error).Alike Q (fail session error) :=
    fun error => fail_alike session error .nil
  unfold arrive
  cases hcsrf : csrfProtection request session.data with
  | error error => exact hrefused error
  | ok =>
      cases hguard : request.endpoint.guard session.data with
      | error error => exact hrefused error
      | ok =>
          have hrun := hcontroller ⟨hcsrf, hguard⟩
          generalize controller platform state₁ request session supply = first,
            controller platform state₂ request session supply = second at hrun ⊢
          cases hrun with
          | error error => exact hrefused error
          | ok hsegment => exact hsegment

def sampleAccount (username passwordHash : String) (totpSecret : Option String) :
    UsersTable where
  rows := [{
    id := 1
    username := username
    passwordHash := passwordHash
    totpSecret := totpSecret
    totpEnabled := totpSecret.isSome
    isAdmin := true
    createdAt := "2024-01-01 00:00:00"
    updatedAt := "2024-01-01 00:00:00" }]
  seq := 1
  idBound := by simp
  idUnique := by simp
  usernameUnique := by simp

end Pm2Manager
