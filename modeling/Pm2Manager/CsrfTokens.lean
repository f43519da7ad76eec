import Pm2Manager.SessionWrites

/-!
# CSRF tokens which have been given out

`getCsrfToken` reads the secret of the request's copy of the session, or puts
a new one there, and the copy is stored at the end of the response.  A token
stays valid when it is the secret of every copy which can still be stored: of
the row, and of the suspended requests of the session which may save theirs.
-/

namespace Pm2Manager

open Function
open ScriptText (truthy)

variable {platform : Platform} {state next last : AuthState} {action : Action}
variable {users : UsersTable} {before after : List Action}
variable {sid : SessionId} {token : String} {id : TaskId} {task : HttpTask}
variable {supply : Supply}

/-- The step answers `GET /csrf-token` on the session `sid` with `token`. -/
structure AuthState.IssuesToken (platform : Platform) (state : AuthState)
    (action : Action) (sid : SessionId) (token : String) (id : TaskId)
    (task : HttpTask) (supply : Supply) : Prop where
  runs : state.Runs action id task supply
  stage : task.stage = .arrived
  endpoint : task.request.endpoint = .csrfToken
  own : task.session.sid = sid
  answer : .answer .csrfToken (.success 200 (.csrfToken token)) ∈
    task.performed platform (state.opening action) supply

/-- A token which was in the copy of the request is the stored one, and the
other requests of the session which may save their copy have the same token in
it. -/
structure AuthState.TokenSettled (platform : Platform) (state : AuthState)
    (sid : SessionId) (token : String) (id : TaskId) (task : HttpTask) :
    Prop where
  stored : truthy task.session.data.csrfSecret ≠ none →
    ∀ row ∈ state.sessions.rows, row.1 = sid → row.2.csrfSecret = some token
  others : ∀ other suspended, other ≠ id →
    state.tasks other = some (.http suspended) → suspended.session.sid = sid →
    suspended.MaySave platform → suspended.session.data.csrfSecret = some token

theorem truthy_some (htoken : token ≠ "") : truthy (some token) = some token := by
  simp [truthy, htoken]

theorem truthy_eq_some {text : Option String} (htruthy : truthy text = some token) :
    text = some token ∧ token ≠ "" := by
  cases text with
  | none => simp [truthy] at htruthy
  | some value =>
      by_cases hempty : value = ""
      · simp [truthy, hempty] at htruthy
      · rw [truthy_some hempty] at htruthy
        exact ⟨htruthy, Option.some.inj htruthy ▸ hempty⟩

/-! ## Requests which have not run yet -/

def AuthState.HeldFresh (state : AuthState) : Prop :=
  ∀ id task, state.tasks id = some (.http task) → task.stage = .arrived →
    task.session.baseline = some task.session.data

theorem acceptedTask_fresh (state : AuthState) (request : Request) :
    (state.acceptedTask request).session.baseline =
      some (state.acceptedTask request).session.data := by
  rcases state.acceptedTask_cases request with ⟨row, _, hloaded⟩ | hgenerated
  · rw [hloaded]
    rfl
  · rw [hgenerated]
    rfl

theorem SessionMove.next_not_arrived {before after : HttpTask} {segment : Segment}
    (hmove : SessionMove platform state before segment)
    (hnext : segment.outcome.next before.request = some (.http after)) :
    after.stage ≠ .arrived := by
  cases hmove with
  | kept session hevents houtcome hafter hstage =>
      generalize segment.outcome = outcome at houtcome hnext
      cases outcome with
      | replies found reply => simp [Outcome.next] at hnext
      | awaits found stage =>
          simp only [Outcome.next, Option.some.injEq, Task.http.injEq] at hnext
          obtain ⟨_, hplain⟩ := houtcome
          subst hnext
          rintro hstage
          simp only at hstage
          subst hstage
          cases hplain
  | closed hstage => simp [loggedOut, Outcome.next] at hnext
  | reading | challenged | passed | accepted | attached | leaving =>
      simp only [login, regenerateSession, attachUser, Outcome.next,
        Option.some.injEq, Task.http.injEq] at hnext
      subst hnext
      simp

theorem heldFresh_step :
    (authMachine platform).Preserves Machine.anyAction AuthState.HeldFresh := by
  intro state action next hstate _ hstep id task htask hstage
  cases task_step hstep htask with
  | kept hkept hother => exact hstate id task hkept hstage
  | held request now haction hheld =>
      rw [hheld]
      exact acceptedTask_fresh state request
  | ran before supply hruns hnext =>
      exact absurd hstage (segment_sessionMove.next_not_arrived hnext)

theorem AuthState.HeldFresh.runs (hstate : state.HeldFresh)
    (hruns : state.Runs action id task supply) (hstage : task.stage = .arrived) :
    task.session.baseline = some task.session.data := by
  cases hruns with
  | arriving request supply => exact acceptedTask_fresh state request
  | resumed id supply task htask => exact hstate id task htask hstage

/-! ## A token every copy carries -/

/-- The token is the secret of the stored row and of every copy which can
still be stored. -/
structure AuthState.Carries (platform : Platform) (sid : SessionId)
    (token : String) (state : AuthState) : Prop where
  bound : sid < state.nextSid
  rows : ∀ row ∈ state.sessions.rows, row.1 = sid → row.2.csrfSecret = some token
  tasks : ∀ id task, state.tasks id = some (.http task) →
    task.session.sid = sid →
    ¬ task.Regenerated ∧
      (task.MaySave platform → task.session.data.csrfSecret = some token)

theorem AuthState.Carries.acceptedTask (hstate : state.Carries platform sid token)
    {request : Request} (hsid : (state.acceptedTask request).session.sid = sid) :
    ¬ (state.acceptedTask request).Regenerated ∧
      (state.acceptedTask request).session.data.csrfSecret = some token := by
  constructor
  · rintro ⟨row, step, hstage⟩
    simp [AuthState.acceptedTask] at hstage
  · rcases state.acceptedTask_cases request with ⟨row, hrow, hloaded⟩ | hgenerated
    · rw [hloaded] at hsid ⊢
      exact hstate.rows row hrow hsid
    · rw [hgenerated] at hsid
      have heq : state.nextSid = sid := hsid
      exact absurd (heq ▸ hstate.bound) (lt_irrefl _)

theorem AuthState.Carries.runs (hstate : state.Carries platform sid token)
    (hruns : state.Runs action id task supply) (hsid : task.session.sid = sid) :
    ¬ task.Regenerated ∧
      (task.MaySave platform → task.session.data.csrfSecret = some token) := by
  cases hruns with
  | arriving request supply =>
      obtain ⟨hnot, hsecret⟩ := hstate.acceptedTask hsid
      exact ⟨hnot, fun _ => hsecret⟩
  | resumed id supply task htask => exact hstate.tasks id task htask hsid

/-- A copy which can be stored carries the token, so its handler does not draw
another one. -/
theorem AuthState.Carries.not_redrawn (htoken : token ≠ "")
    (hsecret : task.MaySave platform → task.session.data.csrfSecret = some token) :
    ¬ (task.stage = .arrived ∧ task.request.endpoint = .csrfToken ∧
      truthy task.session.data.csrfSecret = none) := by
  rintro ⟨hstage, hendpoint, hnone⟩
  rw [hsecret (.held hstage (.csrf hendpoint hnone)), truthy_some htoken] at hnone
  simp at hnone

theorem carries_step (htoken : token ≠ "")
    (hstate : state.Carries platform sid token)
    (hstep : (authMachine platform).step state action = some next) :
    next.Carries platform sid token := by
  refine ⟨hstate.bound.trans_le (nextSid_step hstep), ?_, ?_⟩
  · intro row hrow hsid
    rcases rows_step hstep hrow with hold | ⟨id, task, supply, hruns, hstored⟩
    · exact hstate.rows row hold hsid
    · obtain ⟨hown, hcases⟩ := segment_sessionMove.stores hstored
      obtain ⟨hnot, hsecret⟩ := hstate.runs hruns (hown.symm.trans hsid)
      rcases hcases with hregenerated | hsaves
      · exact absurd hregenerated hnot
      · rcases hsaves.csrfSecret with hsame | hredrawn
        · exact hsame.trans (hsecret hsaves.maySave)
        · exact absurd hredrawn (AuthState.Carries.not_redrawn htoken hsecret)
  · intro id task htask hsid
    cases task_step hstep htask with
    | kept hkept hother => exact hstate.tasks id task hkept hsid
    | held request now haction hheld =>
        rw [hheld] at hsid ⊢
        obtain ⟨hnot, hsecret⟩ := hstate.acceptedTask hsid
        exact ⟨hnot, fun _ => hsecret⟩
    | ran before supply hruns hnext =>
        cases segment_sessionMove.continues hnext with
        | regenerated hnew =>
            have hle := state.opening_nextSid action
            have hlt := hstate.bound.trans_le hle
            rw [← hnew, hsid] at hlt
            exact absurd hlt (lt_irrefl _)
        | attached hbefore hsame =>
            exact absurd hbefore (hstate.runs hruns (hsame.symm.trans hsid)).1
        | same hsame huser hcsrf hstage hsave =>
            obtain ⟨_, hsecret⟩ := hstate.runs hruns (hsame.symm.trans hsid)
            refine ⟨hstage, fun hsaves => ?_⟩
            rcases hcsrf with hkept | hredrawn
            · exact hkept.trans (hsecret (hsave hsaves))
            · exact absurd hredrawn (AuthState.Carries.not_redrawn htoken hsecret)

theorem carries_exec (htoken : token ≠ "")
    (hstate : state.Carries platform sid token)
    (hexec : (authMachine platform).exec state after = some last) :
    last.Carries platform sid token := by
  have hpres : (authMachine platform).Preserves Machine.anyAction
      (AuthState.Carries platform sid token) :=
    fun _ _ _ hcarries _ hstep => carries_step htoken hcarries hstep
  exact hpres.exec_any hstate hexec

/-! ## The step which gives the token out -/

theorem csrfToken_segment (hstage : task.stage = .arrived)
    (hendpoint : task.request.endpoint = .csrfToken) :
    task.segment platform state supply =
      csrfTokenHandler task.session supply := by
  have hadmitted : Admitted task.request task.session.data := by
    constructor
    · simp [csrfProtection, hendpoint, Endpoint.isSafe]
    · simp [hendpoint, Endpoint.guard]
  have hcontroller : controller platform state task.request task.session supply =
      .ok (csrfTokenHandler task.session supply) := by
    simp [controller, hendpoint]
  rw [HttpTask.segment, hstage]
  exact arrive_of_admitted hadmitted hcontroller

/-- The token is the secret of the copy, or a new one with which the copy is
stored. -/
theorem AuthState.IssuesToken.cases
    (hissues : state.IssuesToken platform action sid token id task supply)
    (hfresh : task.session.baseline = some task.session.data)
    (htoken : token ≠ "") :
    (task.session.data.csrfSecret = some token ∧
        task.performed platform (state.opening action) supply =
          [.answer .csrfToken (.success 200 (.csrfToken token))]) ∨
      task.performed platform (state.opening action) supply =
        [.storeSession sid { task.session.data with csrfSecret := some token },
          .answer .csrfToken (.success 200 (.csrfToken token))] := by
  have hanswer := hissues.answer
  unfold HttpTask.performed at hanswer ⊢
  rw [csrfToken_segment hissues.stage hissues.endpoint, hissues.endpoint]
    at hanswer ⊢
  unfold csrfTokenHandler at hanswer ⊢
  cases hsecret : truthy task.session.data.csrfSecret with
  | some secret =>
      have hsame : task.session.shouldSave = false := by
        simp [RequestSession.shouldSave, hfresh]
      simp only [hsecret, Outcome.closing, hsame, Bool.false_eq_true, if_false,
        List.nil_append, List.mem_singleton, Event.answer.injEq,
        Reply.success.injEq, Payload.csrfToken.injEq, true_and] at hanswer ⊢
      subst hanswer
      exact .inl ⟨(truthy_eq_some hsecret).1, rfl⟩
  | none =>
      simp only [hsecret, Outcome.closing, List.nil_append, List.mem_append,
        List.mem_singleton, Event.answer.injEq, Reply.success.injEq,
        Payload.csrfToken.injEq, true_and] at hanswer ⊢
      -- the copy has changed, so it is stored
      have hrandom : token = supply.random := by
        rcases hanswer with hstore | hdrawn
        · split at hstore <;> simp at hstore
        · exact hdrawn
      have hchanged : (task.session.setCsrfSecret token).shouldSave = true := by
        have hne : task.session.data ≠
            { task.session.data with csrfSecret := some token } := by
          intro heq
          rw [heq, truthy_some htoken] at hsecret
          simp at hsecret
        simpa [RequestSession.shouldSave, RequestSession.setCsrfSecret, hfresh]
          using hne
      rw [← hrandom, if_pos hchanged]
      right
      simp [RequestSession.setCsrfSecret, hissues.own]

theorem carries_of_issued (hstate : Provenance platform state)
    (hfresh : state.HeldFresh)
    (hissues : state.IssuesToken platform action sid token id task supply)
    (htoken : token ≠ "") (hsettled : state.TokenSettled platform sid token id task)
    (hstep : (authMachine platform).step state action = some next) :
    next.Carries platform sid token := by
  obtain ⟨htask, hnext⟩ := hissues.runs.transition hstep
  have hopened := hstate.opening action
  have hbaseline := hfresh.runs hissues.runs hissues.stage
  have hperformed := hissues.cases hbaseline htoken
  have hsegment : task.segment platform (state.opening action) supply =
      csrfTokenHandler task.session supply :=
    csrfToken_segment hissues.stage hissues.endpoint
  refine ⟨?_, ?_, ?_⟩
  · have hbound := hopened.taskBound id task htask
    rw [hissues.own] at hbound
    refine hbound.trans_le ?_
    rw [hnext]
    refine AuthState.le_performAll_nextSid le_rfl fun other hother => ?_
    have heq : other = (state.opening action).nextSid :=
      segment_sessionMove.generates hother
    exact heq ▸ Nat.le_succ _
  · intro row hrow hsid
    rw [hnext] at hrow
    have hsessions : row ∈ ((state.opening action).performAll id supply.now
        (task.performed platform (state.opening action) supply)).sessions.rows :=
      hrow
    rcases hperformed with ⟨hsecret, hquiet⟩ | hstored
    · rw [hquiet] at hsessions
      have hkept : row ∈ (state.opening action).sessions.rows := hsessions
      have hbefore : row ∈ state.sessions.rows := by
        cases hissues.runs with
        | arriving request supply => exact AuthState.accept_rows hkept
        | resumed id supply task _ => exact hkept
      refine hsettled.stored ?_ row hbefore hsid
      rw [hsecret, truthy_some htoken]
      simp
    · rw [hstored] at hsessions
      have hset : row ∈ ((state.opening action).sessions.set sid
          { task.session.data with csrfSecret := some token }).rows := hsessions
      rcases SessionStore.mem_set.mp hset with ⟨_, hne⟩ | rfl
      · exact absurd hsid hne
      · rfl
  · intro other suspended hother hsid
    rw [hnext, AuthState.runHttp_tasks, hsegment] at hother
    by_cases heq : other = id
    · rw [heq, update_self] at hother
      unfold csrfTokenHandler at hother
      split at hother <;> simp [Outcome.next] at hother
    · rw [update_of_ne heq] at hother
      refine ⟨hopened.not_regenerated (Ne.symm heq) htask hother
        (hissues.own.trans hsid.symm), ?_⟩
      have hbefore : state.tasks other = some (.http suspended) := by
        cases hissues.runs with
        | arriving request supply =>
            simpa [AuthState.opening, update_of_ne heq] using hother
        | resumed id supply task _ => exact hother
      exact hsettled.others other suspended heq hbefore hsid

/-- A token which is given out while it is, or becomes, the secret of every
copy that can be stored: in every later state, a request on the session which
carries it passes the CSRF check as long as the session is stored. -/
theorem csrfToken_stays_valid {request : Request} {data : SessionData}
    (hbefore : (authMachine platform).exec (.initial users) before = some state)
    (hissues : state.IssuesToken platform action sid token id task supply)
    (htoken : token ≠ "") (hsettled : state.TokenSettled platform sid token id task)
    (hstep : (authMachine platform).step state action = some next)
    (hafter : (authMachine platform).exec next after = some last)
    (hstored : last.sessions.get sid = some data)
    (hcookie : request.cookie = some sid)
    (hheader : request.csrfHeader = some token) :
    csrfProtection request (last.acceptedTask request).session.data = .ok () := by
  have hfresh : state.HeldFresh :=
    heldFresh_step.exec_any (fun _ _ htask => by simp [AuthState.initial] at htask)
      hbefore
  have hcarries : next.Carries platform sid token :=
    carries_of_issued (provenance_of_exec hbefore) hfresh hissues htoken hsettled
      hstep
  have hlast := carries_exec htoken hcarries hafter
  have hopened : (last.acceptedTask request).session = .loaded sid data := by
    simp [AuthState.acceptedTask, AuthState.openSession, hcookie, hstored]
  have hsecret : data.csrfSecret = some token :=
    hlast.rows (sid, data) (SessionStore.mem_of_get hstored) rfl
  unfold csrfProtection
  split
  · rfl
  · simp [hopened, RequestSession.loaded, hsecret, hheader, truthy_some htoken]

/-- The administrator has just logged in, as user `1` with session `1`. -/
def sampleLoggedIn : List Action :=
  sampleBootstrap ++ sampleLogin 1 0 "admin" "password"

def sampleTokenRequest : Request :=
  { cookie := some 1, csrfHeader := none, ip := "127.0.0.1", endpoint := .csrfToken }

def sampleLogoutRequest : Request :=
  { cookie := some 1, csrfHeader := some "csrf", ip := "127.0.0.1",
    endpoint := .logout }

theorem tokenSettled_of_alone (hstate : state.TasksBounded)
    (halone : actsAlone state action = true)
    (hruns : state.Runs action id task supply)
    (hnone : truthy task.session.data.csrfSecret = none) :
    state.TokenSettled platform sid token id task := by
  refine ⟨fun hsome => absurd hnone hsome, ?_⟩
  intro other suspended hne hother
  exact absurd (hruns.alone hstate halone hother) hne

theorem csrfToken_stays_valid_sampleLoggedIn :
    ∃ state next,
      (authMachine samplePlatform).exec (.initial .empty) sampleLoggedIn =
          some state ∧
        (authMachine samplePlatform).step state
            (.request sampleTokenRequest (sampleSupply "csrf")) = some next ∧
        csrfProtection sampleLogoutRequest
          (next.acceptedTask sampleLogoutRequest).session.data = .ok () := by
  obtain ⟨state, hstate, htest⟩ := Machine.exists_of_exec_map
    (authMachine samplePlatform) (.initial .empty) sampleLoggedIn
    (fun state =>
      let action : Action := .request sampleTokenRequest (sampleSupply "csrf")
      let task := state.acceptedTask sampleTokenRequest
      actsAlone state action && task.session.sid == 1 &&
        decide (truthy task.session.data.csrfSecret = none) &&
        decide (.answer .csrfToken (.success 200 (.csrfToken "csrf")) ∈
          task.performed samplePlatform (state.opening action)
            (sampleSupply "csrf")) &&
        ((authMachine samplePlatform).step state action).any fun next =>
          (next.sessions.get 1).isSome)
    (by decide +kernel)
  simp only [Bool.and_eq_true, beq_iff_eq, decide_eq_true_eq, Option.any_eq_true,
    Option.isSome_iff_exists] at htest
  obtain ⟨⟨⟨⟨halone, hsid⟩, hnone⟩, hanswer⟩, next, hstep, data, hdata⟩ := htest
  have hruns : state.Runs (.request sampleTokenRequest (sampleSupply "csrf"))
      state.nextTask (state.acceptedTask sampleTokenRequest)
      (sampleSupply "csrf") :=
    .arriving _ _
  have hbounded : state.TasksBounded :=
    tasksBounded_step.exec_any (fun _ _ => rfl) hstate
  have hissues : state.IssuesToken samplePlatform
      (.request sampleTokenRequest (sampleSupply "csrf")) 1 "csrf" state.nextTask
      (state.acceptedTask sampleTokenRequest) (sampleSupply "csrf") :=
    ⟨hruns, rfl, rfl, hsid, hanswer⟩
  have hsettled : state.TokenSettled samplePlatform 1 "csrf" state.nextTask
      (state.acceptedTask sampleTokenRequest) :=
    tokenSettled_of_alone hbounded halone hruns hnone
  exact ⟨state, next, hstate, hstep, csrfToken_stays_valid hstate hissues
    (by decide) hsettled hstep (Machine.exec_nil) hdata rfl rfl⟩

/-- Two requests for a token take their copies of the session before either of
them is answered; the first token is used afterwards. -/
def sampleTwoTokens : List Action :=
  sampleLoggedIn ++
    [sampleArrive (some 1) .csrfToken, sampleArrive (some 1) .csrfToken,
      .resume 3 (sampleSupply "csrf"), .resume 4 (sampleSupply "other"),
      .request sampleLogoutRequest (sampleSupply "salt")]

theorem token_rejected :
    ∃ last, (authMachine samplePlatform).exec (.initial .empty) sampleTwoTokens =
        some last ∧
      List.Sublist
        [(3, .answer .csrfToken (.success 200 (.csrfToken "csrf"))),
          (4, .answer .csrfToken (.success 200 (.csrfToken "other"))),
          (5, .answer .logout
            (.failure (.forbidden "Invalid or missing CSRF token")))]
        last.trace ∧
      (∀ task, (task, Event.destroySession 1) ∉ last.trace) ∧
      ∃ row ∈ last.sessions.rows, row.1 = 1 ∧ row.2.userId = some 1 := by
  obtain ⟨last, hexec, htest⟩ := Machine.exists_of_exec_map
    (authMachine samplePlatform) (.initial .empty) sampleTwoTokens
    (fun last =>
      List.isSublist
        [(3, .answer .csrfToken (.success 200 (.csrfToken "csrf"))),
          (4, .answer .csrfToken (.success 200 (.csrfToken "other"))),
          (5, .answer .logout
            (.failure (.forbidden "Invalid or missing CSRF token")))]
        last.trace &&
      (last.trace.all fun entry => decide (entry.2 ≠ .destroySession 1)) &&
      last.sessions.rows.any fun row => row.1 == 1 && row.2.userId == some 1)
    (by decide +kernel)
  simp only [Bool.and_eq_true, List.all_eq_true, decide_eq_true_eq,
    List.any_eq_true, beq_iff_eq] at htest
  obtain ⟨⟨hanswers, hkept⟩, hrow⟩ := htest
  exact ⟨last, hexec, List.isSublist_iff_sublist.mp hanswers,
    fun task hmem => hkept _ hmem rfl, hrow⟩

end Pm2Manager
