import Pm2Manager.UsernameCollisions

/-!
# Logging in to a new account

The three ways to create an account store the name as it is given, while a
login looks up the trimmed name and bounds both texts.  `createUserSchema`
keeps within these bounds; the command line and the configuration do not.
-/

namespace Pm2Manager

open ScriptText FieldCheck

variable {platform : Platform} {state next : AuthState} {action : Action}
variable {word : List Action} {id : TaskId} {input : CreateUserInput}
variable {supply : Supply}

/-- Name and password pass `loginSchema`, and the name as it stands. -/
structure CreateUserInput.Typeable (input : CreateUserInput) : Prop where
  trimmed : trim input.username = input.username
  username : 1 ≤ utf16Length input.username ∧ utf16Length input.username ≤ 64
  password : 1 ≤ utf16Length input.password ∧ utf16Length input.password ≤ 256

theorem loginSchema_eq_ok {username password : String} {body : String × String} :
    loginSchema username password = .ok body ↔
      body = (trim username, password) ∧
        (1 ≤ utf16Length (trim username) ∧ utf16Length (trim username) ≤ 64) ∧
        1 ≤ utf16Length password ∧ utf16Length password ≤ 256 := by
  simp only [loginSchema, parsed, passwordChecks, List.append_eq_nil_iff,
    issues_eq_nil_iff, List.mem_cons, List.not_mem_nil, or_false,
    forall_eq_or_imp, forall_eq, minLength, maxLength, decide_eq_true_eq]
  split
  next hchecks => simp [hchecks, eq_comm]
  next hchecks =>
    simp only [reduceCtorEq, false_iff]
    exact fun hbody => hchecks hbody.2

/-- The body of `POST /api/users` is stricter than that of a login. -/
theorem typeable_of_createUserSchema {username password : String}
    {isAdmin : Option Bool}
    (hbody : createUserSchema username password isAdmin = .ok input) :
    input.Typeable := by
  obtain ⟨hchecks, rfl⟩ := parsed_eq_ok hbody
  simp only [List.append_eq_nil_iff, issues_eq_nil_iff, List.mem_cons,
    List.not_mem_nil, or_false, forall_eq_or_imp, forall_eq, minLength,
    maxLength, decide_eq_true_eq] at hchecks
  obtain ⟨⟨hlow, hhigh, _⟩, hshort, hlong⟩ := hchecks
  refine ⟨trim_trim username, ⟨?_, hhigh⟩, ⟨?_, hlong⟩⟩
  · exact Nat.le_trans (by decide) hlow
  · exact Nat.le_trans (by decide) hshort

/-! ## The account of a request -/

/-- A request which is about to insert an account has a body for it. -/
def AuthState.CreatesAsAsked (state : AuthState) : Prop :=
  ∀ id task input, state.tasks id = some (.http task) →
    task.stage = .hashCreate input → task.AsksAccount input

theorem createsAsAsked_step (platform : Platform) :
    (authMachine platform).Preserves Machine.anyAction
      AuthState.CreatesAsAsked := by
  intro state action next hstate _ hstep id task input htask hstage
  cases task_step hstep htask with
  | kept hbefore _ => exact hstate id task input hbefore hstage
  | held request now haction hheld =>
      simp [hheld, AuthState.acceptedTask] at hstage
  | ran before supply hruns hnext =>
      have hcreating : (Outcome.next before.request
          (before.segment platform (state.opening action) supply).outcome).bind
          Task.creating = some input := by
        rw [hnext]
        exact creating_http.mpr hstage
      obtain ⟨_, hasks, _⟩ := segment_sessionMove.next_creating hcreating
      have hrequest : task.request = before.request := by
        generalize (before.segment platform (state.opening action)
          supply).outcome = outcome at hnext
        cases outcome with
        | awaits session stage =>
            simp only [Outcome.next, Option.some.injEq, Task.http.injEq] at hnext
            rw [← hnext]
        | replies session reply => simp [Outcome.next] at hnext
      unfold HttpTask.AsksAccount
      rw [hrequest]
      exact hasks

/-- What `POST /api/users` inserts can be typed in at the login. -/
theorem typeable_of_request {users : UsersTable} {task : HttpTask}
    (hexec : (authMachine platform).exec (.initial users) word = some state)
    (htask : state.tasks id = some (.http task))
    (hstage : task.stage = .hashCreate input) : input.Typeable := by
  have hasked : state.CreatesAsAsked :=
    (createsAsAsked_step platform).exec_any
      (fun _ _ _ hnone => by simp [AuthState.initial] at hnone) hexec
  obtain ⟨_, _, _, _, hbody⟩ := hasked id task input htask hstage
  exact typeable_of_createUserSchema hbody

/-! ## The row of a new account -/

theorem UsersTable.findByUsername_create {table after : UsersTable}
    {data : CreateUserData} {now username : String}
    (hcreate : table.create data now = some after) :
    after.findByUsername username = (table.findByUsername username).or
      (if foldCase data.username = foldCase username then
        some (table.newRow data now) else none) := by
  rw [findByUsername, (create_eq_some hcreate).2.1, List.find?_append]
  congr 1
  by_cases hfold : foldCase data.username = foldCase username
  · simp [newRow, hfold]
  · simp [newRow, hfold]

theorem users_of_creating (hcreating : state.creating id = some input)
    (hfresh : input.username ∉ state.users.names)
    (hstep : (authMachine platform).step state (.resume id supply) = some next) :
    state.users.create (newUserData platform input supply) supply.now =
      some next.users := by
  obtain ⟨after, hcreate⟩ := UsersTable.create_isSome
    (newUserData platform input supply) supply.now hfresh
  obtain ⟨task, htask, hinput⟩ := Option.bind_eq_some_iff.mp hcreating
  have hstep : state.resumeTask platform id supply = some next := hstep
  rw [AuthState.resumeTask, htask] at hstep
  rw [hcreate]
  cases task with
  | http task =>
      obtain rfl := Option.some.inj hstep
      have hstage := creating_http.mp hinput
      rw [AuthState.runHttp, AuthState.commit_users, HttpTask.segment, hstage]
      simp only [userHashed, hcreate, List.cons_append, List.nil_append]
      rw [AuthState.performAll_users_head]
      · simp [AuthState.write, hcreate]
      · intro event hevent
        rcases List.mem_cons.mp hevent with rfl | hclosing
        · rfl
        · exact AuthState.closing_quiet event hclosing
  | job kind other stage =>
      obtain ⟨rfl, rfl⟩ := creating_job.mp hinput
      obtain rfl := Option.some.inj hstep
      have hquiet : ∀ event ∈ kind.returned, event.onUsers = false := by
        cases kind <;> simp [JobKind.returned, Event.onUsers]
      simp only [jobSegment, hcreate, AuthState.commit_users]
      rw [AuthState.performAll_users_head hquiet]
      simp [AuthState.write, hcreate]

/-! ## Logging in -/

/-- A login with these two texts passes its schema, and its credentials are
those of the account. -/
def AuthState.LogsIn (state : AuthState) (platform : Platform)
    (username password : String) (id : ℕ) : Prop :=
  ∃ body row, loginSchema username password = .ok body ∧
    verifyCredentials platform (state.users.findByUsername body.1) body.2 =
      some row ∧ row.id = id

/-- A new account can be logged in to with the name and the password it was
created with exactly when both are texts a login accepts as they stand and no
older account has the name. -/
theorem created_logsIn_iff (hcreating : state.creating id = some input)
    (hfresh : input.username ∉ state.users.names)
    (hstep : (authMachine platform).step state (.resume id supply) = some next)
    (hargon2 : platform.argon2Verify
      (platform.argon2Hash supply.random input.password) input.password =
        some true) :
    next.LogsIn platform input.username input.password state.users.nextId ↔
      input.Typeable ∧ state.users.findByUsername input.username = none := by
  have hcreate := users_of_creating hcreating hfresh hstep
  have hfind : ∀ username, next.users.findByUsername username =
      (state.users.findByUsername username).or
        (if foldCase input.username = foldCase username then
          some (state.users.newRow (newUserData platform input supply) supply.now)
        else none) :=
    fun _ => UsersTable.findByUsername_create hcreate
  have hverify : platform.verifyPassword
      (newUserData platform input supply).passwordHash input.password = true := by
    simp [Platform.verifyPassword, newUserData, hargon2]
  unfold AuthState.LogsIn
  constructor
  · rintro ⟨body, row, hbody, hrow, hid⟩
    obtain ⟨rfl, husername, hpassword⟩ := loginSchema_eq_ok.mp hbody
    obtain ⟨hrow, _⟩ := Option.filter_eq_some_iff.mp hrow
    rw [hfind] at hrow
    rcases Option.or_eq_some_iff.mp hrow with hold | ⟨hnone, hnew⟩
    · have hmem := (UsersTable.mem_of_findByUsername hold).1
      have hbound := state.users.idBound row hmem
      rw [hid] at hbound
      exact absurd hbound (Nat.not_succ_le_self _)
    · split at hnew
      next hfold =>
        have htrim := trim_eq_of_foldCase hfold.symm
        rw [htrim] at husername hnone
        exact ⟨⟨htrim, husername, hpassword⟩, hnone⟩
      · simp at hnew
  · rintro ⟨hinput, hnone⟩
    refine ⟨(input.username, input.password),
      state.users.newRow (newUserData platform input supply) supply.now,
      loginSchema_eq_ok.mpr ?_, ?_, rfl⟩
    · rw [hinput.trimmed]
      exact ⟨rfl, hinput.username, hinput.password⟩
    · simp only [hfind, hnone, newUserData, if_true, Option.none_or]
      exact Option.filter_eq_some_iff.mpr ⟨rfl, hverify⟩

/-- The administrator of a first start logs in. -/
theorem created_logsIn_iff_sampleBootstrap :
    ∃ state next, (authMachine samplePlatform).exec (.initial .empty)
        [.bootstrap (sampleSupply "password"), sampleResume 0] = some state ∧
      (authMachine samplePlatform).step state (sampleResume 0) = some next ∧
      next.LogsIn samplePlatform "admin" "password" state.users.nextId := by
  obtain ⟨state, hexec, htest⟩ := Machine.exists_of_exec_map
    (authMachine samplePlatform) (.initial .empty)
    [.bootstrap (sampleSupply "password"), sampleResume 0]
    (fun state =>
      state.creating 0 == some (⟨"admin", "password", true⟩ : CreateUserInput) &&
        state.users.rows.isEmpty &&
        ((authMachine samplePlatform).step state (sampleResume 0)).isSome)
    (by decide +kernel)
  simp only [Bool.and_eq_true, beq_iff_eq, List.isEmpty_iff,
    Option.isSome_iff_exists] at htest
  obtain ⟨⟨hcreating, hrows⟩, next, hstep⟩ := htest
  have htypeable : CreateUserInput.Typeable ⟨"admin", "password", true⟩ :=
    ⟨by decide +kernel, by decide +kernel, by decide +kernel⟩
  refine ⟨state, next, hexec, hstep, (created_logsIn_iff hcreating ?_ hstep ?_).mpr
    ⟨htypeable, ?_⟩⟩
  · simp [UsersTable.names, hrows]
  · decide +kernel
  · simp [UsersTable.findByUsername, hrows]

/-- `ADMIN_USERNAME` with a space in front. -/
def spacedPlatform : Platform :=
  { samplePlatform with adminUsername := " admin" }

theorem created_admin_locked_out :
    ∃ state next, (authMachine spacedPlatform).exec (.initial .empty)
        [.bootstrap (sampleSupply "password"), sampleResume 0] = some state ∧
      (authMachine spacedPlatform).step state (sampleResume 0) = some next ∧
      state.creating 0 = some ⟨" admin", "password", true⟩ ∧
      next.users.rows.map UserRecord.username = [" admin"] ∧
      ¬ next.LogsIn spacedPlatform " admin" "password" state.users.nextId := by
  obtain ⟨state, hexec, htest⟩ := Machine.exists_of_exec_map
    (authMachine spacedPlatform) (.initial .empty)
    [.bootstrap (sampleSupply "password"), sampleResume 0]
    (fun state =>
      state.creating 0 == some (⟨" admin", "password", true⟩ : CreateUserInput) &&
        state.users.rows.isEmpty &&
        ((authMachine spacedPlatform).step state (sampleResume 0)).any
          fun next => next.users.rows.map UserRecord.username == [" admin"])
    (by decide +kernel)
  simp only [Bool.and_eq_true, beq_iff_eq, List.isEmpty_iff,
    Option.any_eq_true] at htest
  obtain ⟨⟨hcreating, hrows⟩, next, hstep, hnext⟩ := htest
  refine ⟨state, next, hexec, hstep, hcreating, hnext, ?_⟩
  rintro ⟨body, row, hbody, hrow, hid⟩
  obtain ⟨rfl, _, _⟩ := loginSchema_eq_ok.mp hbody
  obtain ⟨hrow, _⟩ := Option.filter_eq_some_iff.mp hrow
  obtain ⟨hmem, hfold⟩ := UsersTable.mem_of_findByUsername hrow
  have hname : row.username ∈ next.users.rows.map UserRecord.username :=
    List.mem_map_of_mem hmem
  rw [hnext, List.mem_singleton] at hname
  rw [hname] at hfold
  revert hfold
  decide +kernel

end Pm2Manager
