import Pm2Manager.CsrfTokens

/-!
# Where a second factor comes from

`setupTwoFactor` draws a secret, keeps it in its copy of the session and
answers with it once the image is rendered; the copy is stored with the answer.
A secret which is pending in a stored session has therefore been offered to the
user of that session, and `enableTwoFactor` takes no other.
-/

namespace Pm2Manager

open Function
open ScriptText (truthy)

variable {platform : Platform} {state next : AuthState} {action : Action}
variable {users : UsersTable} {trace more : Trace} {sid : SessionId}
variable {data : SessionData} {secret otpauthUrl : String} {userId : ℕ}
variable {task after : HttpTask} {supply : Supply}

/-- How `setupTwoFactor` ends once it has drawn `secret`; the session is stored
in both cases. -/
inductive SetupReply (platform : Platform) (secret otpauthUrl : String) : Reply → Prop
  | shown (qrDataUrl : String) (himage : platform.toDataURL otpauthUrl = some qrDataUrl) :
      SetupReply platform secret otpauthUrl
        (.success 200 (.totpSetup secret otpauthUrl qrDataUrl))
  | noImage (himage : platform.toDataURL otpauthUrl = none) :
      SetupReply platform secret otpauthUrl (.failure .unexpected)

/-- `setup` has stored `data` and has answered with the secret in it. -/
structure Offer (platform : Platform) (userId : ℕ) (secret : String)
    (data : SessionData) (reply : Reply) : Prop where
  user : data.userId = some userId
  pending : data.pendingTotpSecret = some secret
  reply : ∃ username, SetupReply platform secret
    (platform.keyuri username platform.totpIssuer secret) reply

def offerSteps (setup : TaskId) (sid : SessionId) (data : SessionData)
    (reply : Reply) : Trace :=
  [(setup, .storeSession sid data), (setup, .answer .setupTwoFactor reply)]

def Offered (platform : Platform) (trace : Trace) (sid : SessionId) (userId : ℕ)
    (secret : String) : Prop :=
  ∃ setup data reply, Offer platform userId secret data reply ∧
    (offerSteps setup sid data reply).Sublist trace

/-- Afterwards `enable` has brought a code for the secret. -/
def Enrolled (platform : Platform) (trace : Trace) (userId : ℕ) (secret : String) :
    Prop :=
  ∃ setup sid data reply enable raw token, Offer platform userId secret data reply ∧
    totpCode raw = .ok token ∧ platform.totpVerify token secret = true ∧
    (offerSteps setup sid data reply ++
      [(enable, Event.setTotp userId (some secret) true),
        (enable, Event.answer (.enableTwoFactor raw) (.success 200 .empty))]).Sublist trace

/-- The second factors which were not there from the start have been set up by
their users. -/
def AuthState.SecretsEnrolled (platform : Platform) (users : UsersTable)
    (state : AuthState) : Prop :=
  ∀ row ∈ state.users.rows, row.totpEnabled = true →
    (∃ old ∈ users.rows, old.id = row.id ∧ old.totpEnabled = true ∧
      old.totpSecret = row.totpSecret) ∨
    ∃ secret, row.totpSecret = some secret ∧
      Enrolled platform state.trace row.id secret

/-- What is pending in the session has been offered to its user. -/
def Pending (platform : Platform) (trace : Trace) (sid : SessionId)
    (data : SessionData) : Prop :=
  ∀ userId secret, data.userId = some userId → data.pendingTotpSecret = some secret →
    Offered platform trace sid userId secret

/-- Not on the way to a new session, nor to the image of a new secret. -/
def Stage.keepsSecret : Stage → Bool
  | .regenerated _ _ | .renderQr _ _ => false
  | _ => true

/-- The request draws the image of a secret which nobody has seen yet. -/
structure HttpTask.Renders (platform : Platform) (task : HttpTask) (secret : String)
    (otpauthUrl : String) : Prop where
  endpoint : task.request.endpoint = .setupTwoFactor
  pending : task.session.data.pendingTotpSecret = some secret
  url : ∃ username, otpauthUrl = platform.keyuri username platform.totpIssuer secret

structure AuthState.PendingOffered (platform : Platform) (state : AuthState) :
    Prop where
  rows : ∀ row ∈ state.sessions.rows, Pending platform state.trace row.1 row.2
  tasks : ∀ id task, state.tasks id = some (.http task) →
    task.stage.keepsSecret = true →
    Pending platform state.trace task.session.sid task.session.data
  fresh : ∀ id task row step, state.tasks id = some (.http task) →
    task.stage = .regenerated row step → task.session.data.pendingTotpSecret = none
  rendering : ∀ id task secret otpauthUrl, state.tasks id = some (.http task) →
    task.stage = .renderQr secret otpauthUrl → task.Renders platform secret otpauthUrl

theorem Offered.append (hoffered : Offered platform trace sid userId secret) :
    Offered platform (trace ++ more) sid userId secret := by
  obtain ⟨setup, data, reply, hoffer, hsub⟩ := hoffered
  exact ⟨setup, data, reply, hoffer, hsub.trans (List.sublist_append_left _ _)⟩

theorem Enrolled.append (henrolled : Enrolled platform trace userId secret) :
    Enrolled platform (trace ++ more) userId secret := by
  obtain ⟨setup, sid, data, reply, enable, raw, token, hoffer, htoken, hverify, hsub⟩ :=
    henrolled
  exact ⟨setup, sid, data, reply, enable, raw, token, hoffer, htoken, hverify,
    hsub.trans (List.sublist_append_left _ _)⟩

theorem Pending.append (hpending : Pending platform trace sid data) :
    Pending platform (trace ++ more) sid data :=
  fun userId secret huser hsecret => (hpending userId secret huser hsecret).append

theorem Pending.cleared (hnone : data.pendingTotpSecret = none) :
    Pending platform trace sid data :=
  fun userId secret _ hsecret => by simp [hnone] at hsecret

/-! ## What a stretch makes of the pending secret -/

/-- Nothing is pending in the session that was not pending in the request's. -/
inductive HttpTask.NothingNew (task : HttpTask) (sid : SessionId)
    (data : SessionData) : Prop
  | cleared (hnone : data.pendingTotpSecret = none)
  | kept (hsid : sid = task.session.sid) (huser : data.user = task.session.data.user)
      (hsecret : data.pendingTotpSecret = task.session.data.pendingTotpSecret)

def Outcome.session : Outcome → Option RequestSession
  | .awaits session _ => some session
  | .replies session _ => session

def Outcome.stage : Outcome → Option Stage
  | .awaits _ stage => some stage
  | .replies _ _ => none

inductive SecretMove (platform : Platform) (state : AuthState) (task : HttpTask) :
    Segment → Prop
  | plain {segment : Segment} (hstage : task.stage.keepsSecret = true)
      (hevents : ∀ sid data, .storeSession sid data ∈ segment.events →
        task.NothingNew sid data)
      (hsession : ∀ session, segment.outcome.session = some session →
        task.NothingNew session.sid session.data)
      (hnext : ∀ stage, segment.outcome.stage = some stage →
        stage.keepsSecret = true) :
      SecretMove platform state task segment
  | regenerated (row : UserRecord) (step : LoginStep) (events : List Event)
      (hevents : ∀ event ∈ events, ∀ sid data, event ≠ .storeSession sid data) :
      SecretMove platform state task
        (regenerateSession state task.session row step events)
  | attached (row : UserRecord) (step : LoginStep)
      (hstage : task.stage = .regenerated row step) :
      SecretMove platform state task (attachUser task.session row step)
  | drawn (secret username : String)
      (hendpoint : task.request.endpoint = .setupTwoFactor) :
      SecretMove platform state task
        ⟨[], .awaits (task.session.setPendingTotpSecret (some secret))
          (.renderQr secret (platform.keyuri username platform.totpIssuer secret))⟩
  | answered (secret otpauthUrl : String) (reply : Reply)
      (hstage : task.stage = .renderQr secret otpauthUrl)
      (hreply : SetupReply platform secret otpauthUrl reply) :
      SecretMove platform state task ⟨[], .replies (some task.session) reply⟩

/-- The stretch stores nothing and goes on with the session it had. -/
theorem SecretMove.stays {segment : Segment} (hstage : task.stage.keepsSecret = true)
    (hevents : ∀ event ∈ segment.events, event.isPlain = true)
    (hsession : segment.outcome.session = some task.session)
    (hnext : ∀ stage, segment.outcome.stage = some stage → stage.keepsSecret = true) :
    SecretMove platform state task segment := by
  apply SecretMove.plain hstage
  · intro sid data hmem
    simpa [Event.isPlain] using hevents _ hmem
  · intro session hfound
    rw [hsession, Option.some.injEq] at hfound
    exact hfound ▸ .kept rfl rfl rfl
  · exact hnext

theorem SecretMove.replies {reply : Reply} {events : List Event}
    (hstage : task.stage.keepsSecret = true)
    (hevents : ∀ event ∈ events, event.isPlain = true) :
    SecretMove platform state task ⟨events, .replies (some task.session) reply⟩ :=
  .stays hstage hevents rfl (by simp [Outcome.stage])

theorem SecretMove.awaits {stage : Stage} (hstage : task.stage.keepsSecret = true)
    (hnext : stage.keepsSecret = true) :
    SecretMove platform state task ⟨[], .awaits task.session stage⟩ :=
  .stays hstage (by simp) rfl (by simpa [Outcome.stage] using hnext)

theorem SecretMove.currentUser {handler : SessionUser → Segment}
    (hstage : task.stage.keepsSecret = true)
    (hhandler : ∀ user, SecretMove platform state task (handler user)) :
    SecretMove platform state task (currentUser task.session handler) := by
  unfold Pm2Manager.currentUser
  split
  · exact .replies hstage (by simp)
  next user _ => exact hhandler user

theorem setupTwoFactor_secretMove (hstage : task.stage.keepsSecret = true)
    (hendpoint : task.request.endpoint = .setupTwoFactor) :
    SecretMove platform state task
      (setupTwoFactor platform state task.session supply) := by
  apply SecretMove.currentUser hstage
  intro user
  split
  · exact .replies hstage (by simp)
  next row hrow =>
    split
    · exact .replies hstage (by simp)
    · exact .drawn supply.random row.username hendpoint

theorem enableTwoFactor_secretMove {token : String}
    (hstage : task.stage.keepsSecret = true) :
    SecretMove platform state task
      (enableTwoFactor platform task.request task.session token) := by
  apply SecretMove.currentUser hstage
  intro user
  split
  · exact .replies hstage (by simp)
  · split
    · apply SecretMove.plain hstage
      · simp
      · intro session hfound
        obtain rfl := Option.some.inj hfound
        exact .cleared rfl
      · simp [Outcome.stage]
    · exact .replies hstage (by simp)

theorem handled_secretMove {segment : Segment}
    (hstage : task.stage.keepsSecret = true)
    (hhandled : Handled platform state task.request task.session supply segment) :
    SecretMove platform state task segment := by
  cases hhandled with
  | rejected error => exact .replies hstage (by simp)
  | csrfToken hendpoint =>
      unfold csrfTokenHandler
      split
      · exact .replies hstage (by simp)
      · apply SecretMove.plain hstage
        · simp
        · intro session hfound
          obtain rfl := Option.some.inj hfound
          exact .kept rfl rfl rfl
        · simp [Outcome.stage]
  | login rawUsername rawPassword username password =>
      apply SecretMove.plain hstage
      · simp [login]
      · intro session hfound
        obtain rfl := Option.some.inj hfound
        exact .kept rfl rfl rfl
      · simp [login, Outcome.stage, Stage.keepsSecret]
  | verifyTwoFactor token =>
      unfold verifyTwoFactor
      split
      · exact .replies hstage (by simp)
      · split
        · exact .replies hstage (by simp [loginFailed, Event.isPlain])
        · exact .regenerated _ .totp _ (by simp)
  | logout hendpoint =>
      unfold logout
      apply SecretMove.plain hstage
      · intro sid data hmem
        split at hmem <;> simp at hmem
      · intro session hfound
        obtain rfl := Option.some.inj hfound
        exact .kept rfl rfl rfl
      · simp [Outcome.stage, Stage.keepsSecret]
  | me =>
      apply SecretMove.currentUser hstage
      intro user
      split <;> exact .replies hstage (by simp)
  | changePassword rawCurrent rawNew currentPassword newPassword =>
      apply SecretMove.currentUser hstage
      intro user
      split
      · exact .replies hstage (by simp)
      · exact .awaits hstage rfl
  | setupTwoFactor hadmitted hendpoint =>
      exact setupTwoFactor_secretMove hstage hendpoint
  | enableTwoFactor raw token => exact enableTwoFactor_secretMove hstage
  | disableTwoFactor password =>
      apply SecretMove.currentUser hstage
      intro user
      split
      · exact .replies hstage (by simp)
      · exact .awaits hstage rfl
  | createUser _ _ _ input =>
      unfold createUser
      split
      · exact .replies hstage (by simp)
      · exact .awaits hstage rfl
  | removeUser raw id =>
      unfold removeUser
      split
      · exact .replies hstage (by simp)
      · split
        · exact .replies hstage (by simp)
        · split
          · exact .replies hstage (by simp)
          · exact .replies hstage (by simp [Event.isPlain])
  | updateSettings input =>
      apply SecretMove.replies hstage
      intro event hevent
      rcases List.mem_append.mp hevent with hevent | hevent
      · obtain ⟨change, _, rfl⟩ := List.mem_map.mp hevent
        rfl
      · rw [List.mem_singleton.mp hevent]
        rfl
  | listUsers | getSettings | listActivity query => exact .replies hstage (by simp)

theorem loginVerified_secretMove {user : Option UserRecord} {username password : String}
    (hstage : task.stage.keepsSecret = true) :
    SecretMove platform state task
      (loginVerified platform state task.request task.session user username
        password) := by
  unfold loginVerified
  split
  · exact .replies hstage (by simp [loginFailed, Event.isPlain])
  · split
    · apply SecretMove.plain hstage
      · intro sid data hmem
        simp only [List.mem_cons, reduceCtorEq, Event.storeSession.injEq,
          List.not_mem_nil, or_false, false_or] at hmem
        obtain ⟨rfl, rfl⟩ := hmem
        exact .kept rfl rfl rfl
      · intro session hfound
        obtain rfl := Option.some.inj hfound
        exact .kept (by simp [RequestSession.setPending2fa])
          (by simp [RequestSession.setPending2fa])
          (by simp [RequestSession.setPending2fa])
      · simp [Outcome.stage, Stage.keepsSecret]
    · exact .regenerated _ .password _ (by simp)

theorem HttpTask.keeps {stage : Stage} (hstage : task.stage = stage)
    (hkeeps : stage.keepsSecret = true) : task.stage.keepsSecret = true :=
  hstage ▸ hkeeps

theorem segment_secretMove :
    SecretMove platform state task (task.segment platform state supply) := by
  unfold HttpTask.segment
  cases hstage : task.stage with
  | arrived => exact handled_secretMove (task.keeps hstage rfl) arrive_handled
  | verifyLogin user username password =>
      exact loginVerified_secretMove (task.keeps hstage rfl)
  | regenerated user step => exact .attached user step hstage
  | renderQr secret otpauthUrl =>
      show SecretMove platform state task (qrRendered _ _ _ _)
      unfold qrRendered
      split
      next himage => exact .answered secret otpauthUrl _ hstage (.noImage himage)
      next himage => exact .answered secret otpauthUrl _ hstage (.shown _ himage)
  | destroyed =>
      exact .plain (task.keeps hstage rfl) (by simp [loggedOut])
        (by simp [loggedOut, Outcome.session]) (by simp [loggedOut, Outcome.stage])
  | challengeSaved => exact .replies (task.keeps hstage rfl) (by simp)
  | established user step =>
      exact .replies (task.keeps hstage rfl) (by simp [Event.isPlain])
  | verifyCurrent user currentPassword newPassword =>
      have hkeeps := task.keeps hstage rfl
      show SecretMove platform state task (currentVerified _ _ _ _ _)
      unfold currentVerified
      split
      · exact .stays hkeeps (by simp [Event.isPlain]) rfl
          (by simp [Outcome.stage, Stage.keepsSecret])
      · exact .replies hkeeps (by simp [Event.isPlain])
  | hashNew user newPassword =>
      have hkeeps := task.keeps hstage rfl
      exact .currentUser hkeeps fun _ => .replies hkeeps (by simp [Event.isPlain])
  | verifyDisable user password =>
      have hkeeps := task.keeps hstage rfl
      show SecretMove platform state task (disableVerified _ _ _ _ _)
      unfold disableVerified
      split <;> exact .replies hkeeps (by simp [Event.isPlain])
  | hashCreate input =>
      have hkeeps := task.keeps hstage rfl
      show SecretMove platform state task (userHashed _ _ _ _ _ _)
      unfold userHashed
      dsimp only
      split
      · exact .replies hkeeps (by simp)
      · exact .replies hkeeps (by simp [Event.isPlain])

/-! ## Stored sessions and requests -/

theorem Pending.nothingNew
    (hpending : Pending platform trace task.session.sid task.session.data)
    (hnew : task.NothingNew sid data) : Pending platform trace sid data := by
  cases hnew with
  | cleared hnone => exact .cleared hnone
  | kept hsid huser hsecret =>
      intro userId secret hid hfound
      rw [SessionData.userId, huser] at hid
      rw [hsecret] at hfound
      exact hsid ▸ hpending userId secret hid hfound

/-- What is stored has been pending before, or it is the secret of the answer
which is given right after. -/
theorem SecretMove.stored {segment : Segment} {endpoint : Endpoint}
    (hmove : SecretMove platform state task segment)
    (hfresh : ∀ row step, task.stage = .regenerated row step →
      task.session.data.pendingTotpSecret = none)
    (hstored : .storeSession sid data ∈
      segment.events ++ segment.outcome.closing endpoint) :
    (task.stage.keepsSecret = true ∧ task.NothingNew sid data) ∨
      data.pendingTotpSecret = none ∨
      ∃ secret otpauthUrl reply, task.stage = .renderQr secret otpauthUrl ∧
        SetupReply platform secret otpauthUrl reply ∧ sid = task.session.sid ∧
        data = task.session.data ∧
        segment.events ++ segment.outcome.closing endpoint =
          [.storeSession sid data, .answer endpoint reply] := by
  cases hmove with
  | plain hstage hevents hsession hnext =>
      refine .inl ⟨hstage, ?_⟩
      rcases List.mem_append.mp hstored with hmem | hmem
      · exact hevents sid data hmem
      · obtain ⟨session, reply, heq, _, rfl, rfl⟩ := Outcome.closing_stored hmem
        exact hsession session (by rw [heq, Outcome.session])
  | regenerated row step events hevents =>
      simp only [regenerateSession, Outcome.closing, List.append_nil, List.mem_append,
        List.mem_cons, reduceCtorEq, List.not_mem_nil, or_self, or_false] at hstored
      exact absurd rfl (hevents _ hstored sid data)
  | attached row step hstage =>
      simp only [attachUser, Outcome.closing, List.append_nil, List.mem_cons,
        reduceCtorEq, Event.storeSession.injEq, List.not_mem_nil,
        or_false] at hstored
      exact .inr (.inl (hstored.2 ▸ hfresh row step hstage))
  | drawn secret username hendpoint => simp [Outcome.closing] at hstored
  | answered secret otpauthUrl reply hstage hreply =>
      right
      right
      by_cases hsave : task.session.shouldSave = true
      · simp only [Outcome.closing, hsave, if_true, List.nil_append, List.mem_append,
          List.mem_singleton, reduceCtorEq, or_false, Event.storeSession.injEq]
          at hstored
        obtain ⟨rfl, rfl⟩ := hstored
        exact ⟨secret, otpauthUrl, reply, hstage, hreply, rfl, rfl, by
          simp [Outcome.closing, hsave]⟩
      · simp [Outcome.closing, hsave] at hstored

theorem SecretMove.continues {segment : Segment} {request : Request}
    (hmove : SecretMove platform state task segment)
    (hfresh : ∀ row step, task.stage = .regenerated row step →
      task.session.data.pendingTotpSecret = none)
    (hnext : segment.outcome.next request = some (.http after)) :
    (task.stage.keepsSecret = true ∧ after.stage.keepsSecret = true ∧
        task.NothingNew after.session.sid after.session.data) ∨
      after.session.data.pendingTotpSecret = none ∧
        (∀ secret otpauthUrl, after.stage ≠ .renderQr secret otpauthUrl) ∨
      ∃ secret username, task.request.endpoint = .setupTwoFactor ∧
        after.session.data.pendingTotpSecret = some secret ∧
        after.stage = .renderQr secret
          (platform.keyuri username platform.totpIssuer secret) ∧
        after.request = request := by
  cases hmove with
  | @plain segment hstage hevents hsession hkeeps =>
      obtain ⟨events, outcome⟩ := segment
      cases outcome with
      | replies session reply => simp [Outcome.next] at hnext
      | awaits session stage =>
          simp only [Outcome.next, Option.some.injEq, Task.http.injEq] at hnext
          subst hnext
          exact .inl ⟨hstage, hkeeps stage rfl, hsession session rfl⟩
  | regenerated row step events hevents =>
      simp only [regenerateSession, Outcome.next, Option.some.injEq,
        Task.http.injEq] at hnext
      subst hnext
      exact .inr (.inl ⟨rfl, by simp⟩)
  | attached row step hstage =>
      simp only [attachUser, Outcome.next, Option.some.injEq, Task.http.injEq] at hnext
      subst hnext
      refine .inr (.inl ⟨?_, by simp⟩)
      rw [RequestSession.saved_data]
      exact hfresh row step hstage
  | drawn secret username hendpoint =>
      simp only [Outcome.next, Option.some.injEq, Task.http.injEq] at hnext
      subst hnext
      exact .inr (.inr ⟨secret, username, hendpoint, rfl, rfl, rfl⟩)
  | answered secret otpauthUrl reply => simp [Outcome.next] at hnext

namespace AuthState.PendingOffered

theorem accepted (hstate : state.PendingOffered platform) (request : Request) :
    Pending platform state.trace (state.acceptedTask request).session.sid
      (state.acceptedTask request).session.data := by
  rcases state.acceptedTask_cases request with ⟨row, hrow, hsession⟩ | hsession
  · rw [hsession]
    exact hstate.rows row hrow
  · rw [hsession]
    exact .cleared rfl

theorem runs {id : TaskId} (hstate : state.PendingOffered platform)
    (hruns : state.Runs action id task supply)
    (hstage : task.stage.keepsSecret = true) :
    Pending platform state.trace task.session.sid task.session.data := by
  cases hruns with
  | arriving request supply => exact hstate.accepted request
  | resumed id supply task htask => exact hstate.tasks id task htask hstage

theorem runs_fresh {id : TaskId} (hstate : state.PendingOffered platform)
    (hruns : state.Runs action id task supply) (row : UserRecord) (step : LoginStep)
    (hstage : task.stage = .regenerated row step) :
    task.session.data.pendingTotpSecret = none := by
  cases hruns with
  | arriving request supply => simp [AuthState.acceptedTask] at hstage
  | resumed id supply task htask => exact hstate.fresh id task row step htask hstage

theorem runs_rendering {id : TaskId} (hstate : state.PendingOffered platform)
    (hruns : state.Runs action id task supply)
    (hstage : task.stage = .renderQr secret otpauthUrl) :
    task.Renders platform secret otpauthUrl := by
  cases hruns with
  | arriving request supply => simp [AuthState.acceptedTask] at hstage
  | resumed id supply task htask =>
      exact hstate.rendering id task secret otpauthUrl htask hstage

end AuthState.PendingOffered

/-- The events of a stretch come after everything that has happened. -/
theorem AuthState.Runs.performs {id : TaskId} (hruns : state.Runs action id task supply)
    (hstep : (authMachine platform).step state action = some next) :
    ∃ opened, next.trace = state.trace ++ opened ++
      (task.performed platform (state.opening action) supply).map (Prod.mk id) := by
  obtain ⟨htask, rfl⟩ := hruns.transition hstep
  rw [AuthState.runHttp_trace]
  cases hruns with
  | arriving request supply => exact ⟨_, by rw [AuthState.opening, AuthState.accept_trace]⟩
  | resumed id supply task htask => exact ⟨[], by rw [List.append_nil]; rfl⟩

theorem pendingOffered_rows (hstate : state.PendingOffered platform)
    (hstep : (authMachine platform).step state action = some next)
    {row : SessionId × SessionData} (hrow : row ∈ next.sessions.rows) :
    Pending platform next.trace row.1 row.2 := by
  obtain ⟨more, hmore⟩ := trace_grows hstep
  rcases rows_step hstep hrow with hold | ⟨id, task, supply, hruns, hstored⟩
  · rw [hmore]
    exact (hstate.rows row hold).append
  · rcases segment_secretMove.stored (hstate.runs_fresh hruns) hstored with
      ⟨hstage, hnew⟩ | hnone | ⟨secret, otpauthUrl, reply, hstage, hreply, hsid, hdata,
        hperformed⟩
    · rw [hmore]
      exact ((hstate.runs hruns hstage).nothingNew hnew).append
    · exact .cleared hnone
    · have hrenders := hstate.runs_rendering hruns hstage
      obtain ⟨opened, htrace⟩ := hruns.performs hstep
      obtain ⟨username, rfl⟩ := hrenders.url
      intro userId found huser hfound
      have hsame : found = secret := by
        rw [hdata, hrenders.pending] at hfound
        exact (Option.some.inj hfound).symm
      subst hsame
      refine ⟨id, row.2, reply, ⟨huser, hfound, username, hreply⟩, ?_⟩
      rw [htrace, HttpTask.performed, hperformed, hrenders.endpoint]
      exact List.sublist_append_right _ _

theorem pendingOffered_step :
    (authMachine platform).Preserves Machine.anyAction
      (AuthState.PendingOffered platform) := by
  intro state action next hstate _ hstep
  obtain ⟨more, hmore⟩ := trace_grows hstep
  have htask : ∀ id task, next.tasks id = some (.http task) →
      (task.stage.keepsSecret = true →
        Pending platform next.trace task.session.sid task.session.data) ∧
      (∀ row step, task.stage = .regenerated row step →
        task.session.data.pendingTotpSecret = none) ∧
      ∀ secret otpauthUrl, task.stage = .renderQr secret otpauthUrl →
        task.Renders platform secret otpauthUrl := by
    intro id task htask
    rw [hmore]
    cases task_step hstep htask with
    | kept hkept hother =>
        exact ⟨fun hstage => (hstate.tasks id task hkept hstage).append,
          fun row step => hstate.fresh id task row step hkept,
          fun secret url => hstate.rendering id task secret url hkept⟩
    | held request now haction hheld =>
        subst hheld
        exact ⟨fun _ => (hstate.accepted request).append,
          fun row step hstage => by simp [AuthState.acceptedTask] at hstage,
          fun secret url hstage => by simp [AuthState.acceptedTask] at hstage⟩
    | ran before supply hruns hnext =>
        rcases segment_secretMove.continues (hstate.runs_fresh hruns) hnext with
          ⟨hbefore, hstage, hnew⟩ | ⟨hnone, hstage⟩ | ⟨secret, username, hendpoint,
            hpending, hstage, hrequest⟩
        · refine ⟨fun _ => ((hstate.runs hruns hbefore).nothingNew hnew).append, ?_, ?_⟩
          · intro row step heq
            rw [heq] at hstage
            cases hstage
          · intro secret url heq
            rw [heq] at hstage
            cases hstage
        · exact ⟨fun _ => .cleared hnone, fun _ _ _ => hnone,
            fun secret url heq => absurd heq (hstage secret url)⟩
        · refine ⟨fun hkeeps => ?_, fun row step heq => ?_, fun found url heq => ?_⟩
          · rw [hstage] at hkeeps
            cases hkeeps
          · rw [hstage] at heq
            cases heq
          · rw [hstage] at heq
            cases heq
            exact ⟨hrequest ▸ hendpoint, hpending, username, rfl⟩
  exact ⟨fun row hrow => pendingOffered_rows hstate hstep hrow,
    fun id task hfound => (htask id task hfound).1,
    fun id task row step hfound => (htask id task hfound).2.1 row step,
    fun id task secret url hfound => (htask id task hfound).2.2 secret url⟩

/-! ## The users table -/

/-- An `enableTwoFactor` whose code is accepted writes the secret and says so. -/
theorem enable_performed {raw token : String} {user : SessionUser} (opened : AuthState)
    (supply : Supply) (hstage : task.stage = .arrived)
    (hadmitted : Admitted task.request task.session.data)
    (hendpoint : task.request.endpoint = .enableTwoFactor raw)
    (htoken : totpCode raw = .ok token) (huser : task.session.data.user = some user)
    (hsecret : truthy task.session.data.pendingTotpSecret = some secret)
    (hverify : platform.totpVerify token secret = true) :
    [Event.setTotp user.id (some secret) true,
      Event.answer (.enableTwoFactor raw) (.success 200 .empty)].Sublist
        (task.performed platform opened supply) := by
  have hcontroller : controller platform opened task.request task.session supply =
      .ok (enableTwoFactor platform task.request task.session token) := by
    simp only [controller, hendpoint, htoken, Except.map]
  have hsegment : task.segment platform opened supply =
      enableTwoFactor platform task.request task.session token := by
    rw [HttpTask.segment, hstage]
    exact arrive_of_admitted hadmitted hcontroller
  rw [HttpTask.performed, hsegment, hendpoint]
  simp only [enableTwoFactor, currentUser, huser, hsecret, hverify, if_true,
    List.cons_append, List.nil_append, Outcome.closing]
  exact ((List.sublist_append_right _ _).cons _).cons_cons _

theorem secretsEnrolled_step (hstate : state.PendingOffered platform)
    (henrolled : state.SecretsEnrolled platform users)
    (hstep : (authMachine platform).step state action = some next) :
    next.SecretsEnrolled platform users := by
  obtain ⟨more, hmore⟩ := trace_grows hstep
  intro row hrow henabled
  have hkept : ∀ old ∈ state.users.rows, row.id = old.id →
      row.totpEnabled = old.totpEnabled → row.totpSecret = old.totpSecret →
      (∃ first ∈ users.rows, first.id = row.id ∧ first.totpEnabled = true ∧
        first.totpSecret = row.totpSecret) ∨
      ∃ secret, row.totpSecret = some secret ∧
        Enrolled platform next.trace row.id secret := by
    intro old hold hid hsame hsecret
    rw [hid, hsecret]
    rcases henrolled old hold (hsame ▸ henabled) with hfirst | ⟨secret, hfound, hchain⟩
    · exact .inl hfirst
    · exact .inr ⟨secret, hfound, hmore ▸ hchain.append⟩
  cases users_step hstep with
  | quiet id events hevents husers htrace =>
      exact hkept row (husers ▸ hrow) rfl rfl rfl
  | written id now event before after hcause hbefore hafter husers htrace =>
      rw [husers] at hrow
      cases hcause with
      | changePassword | resetPassword =>
          obtain ⟨old, hold, rfl⟩ := UsersTable.mem_rows_updatePassword.mp hrow
          refine hkept old hold ?_ ?_ ?_ <;> split <;> rfl
      | enableTotp action id task supply raw token secret user hruns hstage hadmitted
          hendpoint htoken huser hsecret hverify =>
          obtain ⟨old, hold, rfl⟩ := UsersTable.mem_rows_setTotp.mp hrow
          by_cases hsame : old.id = user.id
          · rw [if_pos hsame]
            have hkeeps := task.keeps hstage rfl
            obtain ⟨setup, data, reply, hoffer, hsub⟩ := hstate.runs hruns hkeeps user.id
              secret (by rw [SessionData.userId, huser]; rfl) (truthy_eq_some hsecret).1
            obtain ⟨opened, htrace⟩ := hruns.performs hstep
            refine .inr ⟨secret, rfl, setup, task.session.sid, data, reply, id, raw, token,
              hsame ▸ hoffer, htoken, hverify, ?_⟩
            have hlast := (enable_performed (state.opening action) supply hstage hadmitted
              hendpoint htoken huser hsecret hverify).map (Prod.mk id)
            rw [htrace, hsame]
            exact (hsub.trans (List.sublist_append_left _ _)).append hlast
          · rw [if_neg hsame] at hkept ⊢
            exact hkept old hold rfl rfl rfl
      | disableTotp =>
          obtain ⟨old, hold, rfl⟩ := UsersTable.mem_rows_setTotp.mp hrow
          split at henabled
          · cases henabled
          · rename_i hother
            rw [if_neg hother] at hkept ⊢
            exact hkept old hold rfl rfl rfl
      | createUser id supply task input table htask hstage hcreate
      | createInJob id supply kind input table htask hcreate =>
          simp only [AuthState.write, hcreate, Option.getD_some] at hrow
          rw [(UsersTable.create_eq_some hcreate).2.1] at hrow
          rcases List.mem_append.mp hrow with hold | hnew
          · exact hkept row hold rfl rfl rfl
          · rw [List.mem_singleton.mp hnew] at henabled
            cases henabled
      | deleteUser =>
          exact hkept row (UsersTable.mem_rows_delete.mp hrow).1 rfl rfl rfl

/-- In every reachable state a second factor which was not there from the start
asks for codes of a secret which has been drawn in a session of its account,
answered there with its image, unless that could not be drawn, and confirmed
later on with a code. -/
theorem secrets_enrolled (users : UsersTable) (word : List Action) :
    (authMachine platform).Along (AuthState.SecretsEnrolled platform users)
      (.initial users) word := by
  have hinitial : (AuthState.initial users).PendingOffered platform := by
    refine ⟨?_, ?_, ?_, ?_⟩ <;> simp [AuthState.initial, SessionStore.empty]
  have hpres : (authMachine platform).Preserves Machine.anyAction fun state =>
      state.PendingOffered platform ∧ state.SecretsEnrolled platform users := by
    refine pendingOffered_step.and ?_
    exact fun state action next hstate henrolled _ hstep =>
      secretsEnrolled_step hstate henrolled hstep
  have hstart : (AuthState.initial users).SecretsEnrolled platform users :=
    fun row hrow henabled => .inl ⟨row, hrow, rfl, henabled, rfl⟩
  have halong := hpres.along ⟨hinitial, hstart⟩ (Machine.admits_anyAction _ word)
  exact fun before after mid hsplit hexec => (halong before after mid hsplit hexec).2

end Pm2Manager
