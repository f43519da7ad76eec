import Pm2Manager.SessionProvenance

/-!
# What a session says about its user

A session keeps the id, the name and the administrator flag which its user had
when the login read the row.  No route writes the name or the flag of a row,
and an id is never given twice, so what a session says stays true for as long
as the account exists.
-/

namespace Pm2Manager

open Function

variable {platform : Platform} {state next last : AuthState}
variable {action : Action} {users : UsersTable} {word : List Action}
variable {user : SessionUser} {row : UserRecord}

/-- The account of `user`, while there is one, has this name and this flag. -/
structure AuthState.Describes (state : AuthState) (user : SessionUser) : Prop where
  given : user.id ≤ state.users.seq
  row : ∀ row ∈ state.users.rows, row.id = user.id → row.sessionUser = user

/-- The user a request runs as, and those it may attach to its session. -/
inductive HttpTask.Names (task : HttpTask) : SessionUser → Prop
  | session (user : SessionUser) (huser : task.session.data.user = some user) :
      Names task user
  | read (row : UserRecord) (username password : String)
      (hstage : task.stage = .verifyLogin (some row) username password) :
      Names task row.sessionUser
  | attaching (row : UserRecord) (step : LoginStep)
      (hstage : task.stage = .regenerated row step) :
      Names task row.sessionUser

/-- Everyone whom a stored session or a request names is described rightly. -/
structure AuthState.NamesRightly (state : AuthState) : Prop where
  rows : ∀ entry ∈ state.sessions.rows, ∀ user, entry.2.user = some user →
    state.Describes user
  tasks : ∀ id task, state.tasks id = some (.http task) →
    ∀ user, task.Names user → state.Describes user

/-! ## Accounts -/

theorem UsersTable.eq_of_id {table : UsersTable} {row other : UserRecord}
    (hrow : row ∈ table.rows) (hother : other ∈ table.rows)
    (hid : row.id = other.id) : row = other :=
  List.inj_on_of_nodup_map table.idUnique hrow hother hid

theorem AuthState.describes_of_row (hrow : row ∈ state.users.rows) :
    state.Describes row.sessionUser where
  given := state.users.idBound row hrow
  row _ hother hid := congrArg UserRecord.sessionUser
    (UsersTable.eq_of_id hother hrow hid)

/-- No transition writes the name or the flag of a row. -/
theorem UsersStep.sessionUser (hstep : UsersStep platform state action next)
    (hrow : row ∈ next.users.rows) :
    (∃ old ∈ state.users.rows, old.sessionUser = row.sessionUser) ∨
      row.id = state.users.nextId := by
  cases hstep with
  | quiet id events hevents husers htrace => exact .inl ⟨row, husers ▸ hrow, rfl⟩
  | written id now event before after hcause hbefore hafter husers htrace =>
      rw [husers] at hrow
      cases hcause with
      | changePassword | resetPassword =>
          obtain ⟨old, hold, rfl⟩ := UsersTable.mem_rows_updatePassword.mp hrow
          exact .inl ⟨old, hold, by split <;> rfl⟩
      | enableTotp | disableTotp =>
          obtain ⟨old, hold, rfl⟩ := UsersTable.mem_rows_setTotp.mp hrow
          exact .inl ⟨old, hold, by split <;> rfl⟩
      | deleteUser =>
          exact .inl ⟨row, (UsersTable.mem_rows_delete.mp hrow).1, rfl⟩
      | createUser id supply task input table htask hstage hcreate
      | createInJob id supply kind input table htask hcreate =>
          simp only [AuthState.write, hcreate, Option.getD_some] at hrow
          rw [(UsersTable.create_eq_some hcreate).2.1] at hrow
          rcases List.mem_append.mp hrow with hold | hnew
          · exact .inl ⟨row, hold, rfl⟩
          · exact .inr (List.mem_singleton.mp hnew ▸ rfl)

theorem AuthState.Describes.step (hstate : state.Describes user)
    (hstep : (authMachine platform).step state action = some next) :
    next.Describes user := by
  have husers := users_step hstep
  refine ⟨hstate.given.trans husers.seq_le, fun row hrow hid => ?_⟩
  rcases husers.sessionUser hrow with ⟨old, hold, hsame⟩ | hnew
  · have holdId : old.id = user.id := (congrArg SessionUser.id hsame).trans hid
    exact hsame.symm.trans (hstate.row old hold holdId)
  · have hgiven := hstate.given
    rw [← hid, hnew, UsersTable.nextId] at hgiven
    omega

/-! ## Requests -/

theorem SessionMove.stored_names {task : HttpTask} {segment : Segment}
    {endpoint : Endpoint} {sid : SessionId} {data : SessionData}
    (hmove : SessionMove platform state task segment)
    (hstored : .storeSession sid data ∈
      segment.events ++ segment.outcome.closing endpoint)
    (huser : data.user = some user) : task.Names user := by
  cases hmove with
  | kept after hevents houtcome hafter hstage =>
      rcases List.mem_append.mp hstored with hmem | hmem
      · simpa [Event.isPlain] using hevents _ hmem
      · obtain ⟨session, reply, heq, hsave, rfl, rfl⟩ := Outcome.closing_stored hmem
        rw [heq] at houtcome
        obtain rfl := Option.some.inj houtcome
        rcases hafter with rfl | ⟨_, hchange⟩
        · exact .session user huser
        · exact .session user (hchange.sameLogin.user ▸ huser)
  | challenged row username password hstage hverify htotp after hafter =>
      simp only [Outcome.closing, List.append_nil, List.mem_cons, reduceCtorEq,
        Event.storeSession.injEq, List.not_mem_nil, or_false, false_or] at hstored
      rw [hstored.2, hafter] at huser
      exact .session user huser
  | attached row step hstage =>
      simp only [attachUser, Outcome.closing, List.append_nil, List.mem_cons,
        reduceCtorEq, Event.storeSession.injEq, List.not_mem_nil,
        or_false] at hstored
      rw [hstored.2] at huser
      obtain rfl := Option.some.inj huser
      exact .attaching row step hstage
  | leaving logged hlogged =>
      simp only [Outcome.closing, List.append_nil, List.mem_append,
        List.mem_singleton, reduceCtorEq, or_false] at hstored
      simpa [Event.isPlain] using hlogged _ hstored
  | reading | passed | accepted | closed =>
      simp [login, regenerateSession, loggedOut, Outcome.closing] at hstored

/-- A request goes on naming whom it has named, or somebody it has just read. -/
theorem SessionMove.next_names {task resumed : HttpTask} {segment : Segment}
    {request : Request} (hmove : SessionMove platform state task segment)
    (hnext : segment.outcome.next request = some (.http resumed))
    (hnames : resumed.Names user) :
    task.Names user ∨ ∃ row ∈ state.users.rows, row.sessionUser = user := by
  cases hmove with
  | kept after hevents houtcome hafter hstage =>
      generalize segment.outcome = outcome at houtcome hnext
      cases outcome with
      | replies session reply => simp [Outcome.next] at hnext
      | awaits session stage =>
          simp only [Outcome.next, Option.some.injEq, Task.http.injEq] at hnext
          obtain ⟨rfl, hplain⟩ := houtcome
          subst resumed
          cases hnames with
          | session user huser =>
              rcases hafter with rfl | ⟨_, hchange⟩
              · exact .inl (.session user huser)
              · exact .inl (.session user (hchange.sameLogin.user ▸ huser))
          | read row username password hread =>
              simp only at hread
              subst hread
              cases hplain
          | attaching row step hread =>
              simp only at hread
              subst hread
              cases hplain
  | reading username password hstage hlogin =>
      simp only [login, Outcome.next, Option.some.injEq, Task.http.injEq] at hnext
      subst resumed
      cases hnames with
      | session user huser => exact .inl (.session user huser)
      | read row name typed hread =>
          simp only [Stage.verifyLogin.injEq] at hread
          exact .inr ⟨row, (UsersTable.mem_of_findByUsername hread.1).1, rfl⟩
      | attaching row step hread => simp at hread
  | challenged row username password hstage hverify htotp after hafter =>
      simp only [Outcome.next, Option.some.injEq, Task.http.injEq] at hnext
      subst resumed
      cases hnames with
      | session user huser =>
          rw [RequestSession.saved_data, hafter] at huser
          exact .inl (.session user huser)
      | read row name typed hread => simp at hread
      | attaching row step hread => simp at hread
  | passed row username password hstage hverify htotp =>
      simp only [regenerateSession, Outcome.next, Option.some.injEq,
        Task.http.injEq] at hnext
      subst resumed
      cases hnames with
      | session user huser => simp [RequestSession.regenerated] at huser
      | read other name typed hread => simp at hread
      | attaching other step hread =>
          simp only [Stage.regenerated.injEq] at hread
          exact .inl (hread.1 ▸ .read row username password hstage)
  | accepted pending row secret token hstage hpending hrow =>
      simp only [regenerateSession, Outcome.next, Option.some.injEq,
        Task.http.injEq] at hnext
      subst resumed
      cases hnames with
      | session user huser => simp [RequestSession.regenerated] at huser
      | read other name typed hread => simp at hread
      | attaching other step hread =>
          simp only [Stage.regenerated.injEq] at hread
          exact .inr ⟨row, (UsersTable.mem_of_findById hrow).1, hread.1 ▸ rfl⟩
  | attached row step hstage =>
      simp only [attachUser, Outcome.next, Option.some.injEq,
        Task.http.injEq] at hnext
      subst resumed
      cases hnames with
      | session user huser =>
          rw [RequestSession.saved_data] at huser
          obtain rfl := Option.some.inj huser
          exact .inl (.attaching row step hstage)
      | read other name typed hread => simp at hread
      | attaching other step hread => simp at hread
  | leaving logged hlogged hstage =>
      simp only [Outcome.next, Option.some.injEq, Task.http.injEq] at hnext
      subst resumed
      cases hnames with
      | session user huser => exact .inl (.session user huser)
      | read row name typed hread => simp at hread
      | attaching row step hread => simp at hread
  | closed => simp [loggedOut, Outcome.next] at hnext

/-! ## Runs -/

theorem AuthState.NamesRightly.acceptedTask (hstate : state.NamesRightly)
    {request : Request} (hnames : (state.acceptedTask request).Names user) :
    state.Describes user := by
  cases hnames with
  | session user huser =>
      rcases state.openSession_cases request.cookie with
        ⟨sid, data, hrow, hopen⟩ | hopen
      · simp only [AuthState.acceptedTask, hopen] at huser
        exact hstate.rows _ hrow user huser
      · simp [AuthState.acceptedTask, hopen, RequestSession.generated] at huser
  | read row username password hstage => simp [AuthState.acceptedTask] at hstage
  | attaching row step hstage => simp [AuthState.acceptedTask] at hstage

theorem AuthState.NamesRightly.runs (hstate : state.NamesRightly)
    {id : TaskId} {task : HttpTask} {supply : Supply}
    (hruns : state.Runs action id task supply) (hnames : task.Names user) :
    state.Describes user := by
  cases hruns with
  | arriving request supply => exact hstate.acceptedTask hnames
  | resumed id supply task htask => exact hstate.tasks id task htask user hnames

theorem namesRightly_step :
    (authMachine platform).Preserves Machine.anyAction AuthState.NamesRightly := by
  intro state action next hstate _ hstep
  constructor
  · intro entry hentry user huser
    rcases rows_step hstep hentry with hold | ⟨id, task, supply, hruns, hstored⟩
    · exact (hstate.rows entry hold user huser).step hstep
    · have hnames := segment_sessionMove.stored_names hstored huser
      exact (hstate.runs hruns hnames).step hstep
  · intro id task htask user hnames
    cases task_step hstep htask with
    | kept hbefore _ => exact (hstate.tasks id task hbefore user hnames).step hstep
    | held request now haction hheld =>
        subst hheld
        exact (hstate.acceptedTask hnames).step hstep
    | ran before supply hruns hnext =>
        rcases segment_sessionMove.next_names hnext hnames with
          hbefore | ⟨row, hrow, rfl⟩
        · exact (hstate.runs hruns hbefore).step hstep
        · rw [AuthState.opening_users] at hrow
          exact (AuthState.describes_of_row hrow).step hstep

theorem namesRightly_initial (users : UsersTable) :
    (AuthState.initial users).NamesRightly := by
  constructor <;> simp [AuthState.initial, SessionStore.empty]

/-- In every run the sessions and the requests name their users as the `users`
table does: the name and the administrator flag are those of the row of the
id, if there still is one. -/
theorem session_user_current
    (hexec : (authMachine platform).exec (.initial users) word = some last) :
    (∀ sid data user row, (sid, data) ∈ last.sessions.rows →
        data.user = some user → row ∈ last.users.rows → row.id = user.id →
        user = row.sessionUser) ∧
      ∀ id task user row, last.tasks id = some (.http task) →
        task.session.data.user = some user → row ∈ last.users.rows →
        row.id = user.id → user = row.sessionUser := by
  have hlast : last.NamesRightly :=
    namesRightly_step.exec_any (namesRightly_initial users) hexec
  constructor
  · intro sid data user row hrow huser hmem hid
    exact ((hlast.rows _ hrow user huser).row row hmem hid).symm
  · intro id task user row htask huser hmem hid
    exact ((hlast.tasks id task htask user (.session user huser)).row row hmem hid).symm

theorem session_user_current_sampleBootstrap :
    ∃ last data user row, (authMachine samplePlatform).exec (.initial .empty)
        (sampleBootstrap ++ sampleLogin 1 0 "admin" "password") = some last ∧
      ((1, data) : SessionId × SessionData) ∈ last.sessions.rows ∧
      data.user = some user ∧ row ∈ last.users.rows ∧ row.id = user.id ∧
      user = row.sessionUser := by
  obtain ⟨last, hexec, htest⟩ := Machine.exists_of_exec_map
    (authMachine samplePlatform) (.initial .empty)
    (sampleBootstrap ++ sampleLogin 1 0 "admin" "password")
    (fun last => (last.sessions.get 1).any fun data =>
      data.user.any fun user => last.users.rows.any fun row => row.id == user.id)
    (by decide +kernel)
  obtain ⟨data, hget, hdata⟩ := (Option.any_eq_true _ _).mp htest
  obtain ⟨user, huser, hrows⟩ := (Option.any_eq_true _ _).mp hdata
  obtain ⟨row, hmem, hid⟩ := List.any_eq_true.mp hrows
  have hrow := SessionStore.mem_of_get hget
  exact ⟨last, data, user, row, hexec, hrow, huser, hmem, beq_iff_eq.mp hid,
    (session_user_current hexec).1 1 data user row hrow huser hmem (beq_iff_eq.mp hid)⟩

end Pm2Manager
