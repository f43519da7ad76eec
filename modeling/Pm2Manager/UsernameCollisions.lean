import Pm2Manager.AuthTransitions

/-!
# Usernames up to case

A creation looks its name up case-insensitively, hashes the password, and then
inserts a row which `UNIQUE` compares case-sensitively.  A creation which has
passed its lookup reserves the spellings of its name: the invariant is that
the rows agree with every reservation, and only an insertion next to another
reservation of the same name can break it.
-/

namespace Pm2Manager

open Function ScriptText

variable {platform : Platform} {state next : AuthState} {action : Action}
variable {word : List Action}

/-! ## The names of the table -/

namespace UsersTable

def names (table : UsersTable) : List String :=
  table.rows.map UserRecord.username

/-- No two rows have usernames which differ in case only, or not at all. -/
def CaseDistinct (table : UsersTable) : Prop :=
  (table.names.map foldCase).Nodup

variable {table after : UsersTable}

theorem names_update {id : ℕ} {change : UserRecord → UserRecord}
    (hid : ∀ row, (change row).id = row.id)
    (hname : ∀ row, (change row).username = row.username) :
    (table.update id change hid hname).names = table.names := by
  simp only [names, update, List.map_map]
  refine List.map_congr_left fun row _ => ?_
  simp only [comp_apply]
  split <;> simp [hname]

theorem names_updatePassword {id : ℕ} {passwordHash now : String} :
    (table.updatePassword id passwordHash now).names = table.names := by
  unfold updatePassword
  exact names_update _ _

theorem names_setTotp {id : ℕ} {secret : Option String} {enabled : Bool}
    {now : String} :
    (table.setTotp id secret enabled now).names = table.names := by
  unfold setTotp
  exact names_update _ _

theorem names_delete (id : ℕ) :
    (table.delete id).names.Sublist table.names :=
  List.filter_sublist.map _

theorem names_create {data : CreateUserData} {now : String}
    (hcreate : table.create data now = some after) :
    data.username ∉ table.names ∧
      after.names = table.names ++ [data.username] := by
  obtain ⟨hfresh, hrows, _⟩ := create_eq_some hcreate
  constructor
  · exact hfresh
  · rw [names, hrows, List.map_append]
    rfl

theorem create_isSome (data : CreateUserData) (now : String)
    (hfresh : data.username ∉ table.names) :
    ∃ after, table.create data now = some after := by
  unfold names at hfresh
  unfold create
  rw [dif_neg hfresh]
  exact ⟨_, rfl⟩

theorem CaseDistinct.matches_le_one (hdistinct : table.CaseDistinct)
    (username : String) :
    (table.rows.filter fun row =>
      foldCase row.username = foldCase username).length ≤ 1 := by
  have hsub : ((table.rows.filter fun row =>
      foldCase row.username = foldCase username).map
        fun row => foldCase row.username).Nodup := by
    apply List.Nodup.sublist (List.filter_sublist.map _)
    simpa [CaseDistinct, names, comp_def] using hdistinct
  have hsame : ∀ name ∈ (table.rows.filter fun row =>
      foldCase row.username = foldCase username).map
        fun row => foldCase row.username, name = foldCase username := by
    intro name hname
    obtain ⟨row, hrow, rfl⟩ := List.mem_map.mp hname
    simpa using (List.mem_filter.mp hrow).2
  rw [List.eq_replicate_of_mem hsame, List.nodup_replicate] at hsub
  simpa using hsub

theorem CaseDistinct.eq_of_foldCase (hdistinct : table.CaseDistinct)
    {a b : String} (ha : a ∈ table.names) (hb : b ∈ table.names)
    (hfold : foldCase a = foldCase b) : a = b :=
  List.inj_on_of_nodup_map hdistinct ha hb hfold

end UsersTable

theorem checkUsername_ok {name username : String}
    (hcheck : checkUsername state username = .ok ())
    (hname : name ∈ state.users.names) : foldCase name ≠ foldCase username := by
  unfold checkUsername at hcheck
  split at hcheck
  · simp at hcheck
  next hnone =>
    obtain ⟨row, hrow, rfl⟩ := List.mem_map.mp hname
    exact UsersTable.findByUsername_eq_none_iff.mp hnone row hrow

/-! ## Reservations -/

/-- The account a task is about to insert, its name being looked up. -/
def Task.creating : Task → Option CreateUserInput
  | .http { stage := .hashCreate input, .. } => some input
  | .job _ input .hashCreate => some input
  | _ => none

def AuthState.creating (state : AuthState) (id : TaskId) :
    Option CreateUserInput :=
  (state.tasks id).bind Task.creating

/-- A creation inserts only while no other one has reserved its name in
another spelling. -/
def InsertsUncontested (state : AuthState) (action : Action) : Prop :=
  ∀ id supply input other reserved, action = .resume id supply →
    state.creating id = some input → input.username ∉ state.users.names →
    other ≠ id → state.creating other = some reserved →
    foldCase reserved.username = foldCase input.username →
    reserved.username = input.username

/-- A row which answers to a reserved name has exactly that name. -/
def AuthState.Reserved (state : AuthState) : Prop :=
  ∀ id input, state.creating id = some input → ∀ name ∈ state.users.names,
    foldCase name = foldCase input.username → name = input.username

theorem AuthState.creating_update {after : AuthState} {id other : TaskId}
    {left : Option Task} (htasks : after.tasks = update state.tasks id left) :
    after.creating other =
      if other = id then left.bind Task.creating else state.creating other := by
  unfold AuthState.creating
  rw [htasks]
  by_cases heq : other = id
  · subst other
    simp
  · simp [heq]

theorem creating_http {task : HttpTask} {input : CreateUserInput} :
    Task.creating (.http task) = some input ↔ task.stage = .hashCreate input := by
  obtain ⟨request, session, stage⟩ := task
  cases stage <;> simp [Task.creating]

theorem creating_job {kind : JobKind} {input found : CreateUserInput}
    {stage : JobStage} :
    Task.creating (.job kind input stage) = some found ↔
      stage = .hashCreate ∧ input = found := by
  cases stage <;> simp [Task.creating]

theorem SessionMove.next_creating {task : HttpTask} {segment : Segment}
    {request : Request} {input : CreateUserInput}
    (hmove : SessionMove platform state task segment)
    (hnext : (segment.outcome.next request).bind Task.creating = some input) :
    task.stage = .arrived ∧ task.AsksAccount input ∧
      checkUsername state input.username = .ok () := by
  obtain ⟨left, hleft, hcreating⟩ := Option.bind_eq_some_iff.mp hnext
  cases hmove with
  | kept after hevents houtcome hafter hstage =>
      generalize segment.outcome = outcome at houtcome hleft
      cases outcome with
      | awaits session stage =>
          simp only [Outcome.next, Option.some.injEq] at hleft
          subst left
          rw [creating_http] at hcreating
          obtain ⟨_, hplain⟩ := houtcome
          simp only at hcreating
          rw [hcreating] at hplain
          cases hplain with
          | hashCreate input hstage hasks hname => exact ⟨hstage, hasks, hname⟩
      | replies session reply => simp [Outcome.next] at hleft
  | closed _ => simp [loggedOut, Outcome.next] at hleft
  | reading | challenged | passed | accepted | attached | leaving =>
      simp only [login, regenerateSession, attachUser, Outcome.next,
        Option.some.injEq] at hleft
      subst left
      simp [Task.creating] at hcreating

inductive NamesStep (state : AuthState) (action : Action) (next : AuthState) :
    Prop
  | shrunk (hnames : next.users.names.Sublist state.users.names)
  | inserted (id : TaskId) (supply : Supply) (input : CreateUserInput)
      (haction : action = .resume id supply)
      (hcreating : state.creating id = some input)
      (hfresh : input.username ∉ state.users.names)
      (hnames : next.users.names = state.users.names ++ [input.username])

theorem names_step
    (hstep : (authMachine platform).step state action = some next) :
    NamesStep state action next := by
  cases users_step hstep with
  | quiet id events hevents husers htrace =>
      exact .shrunk (husers ▸ List.Sublist.refl _)
  | written id now event before after hcause hbefore hafter husers htrace =>
      cases hcause with
      | changePassword | resetPassword =>
          have hnames : next.users.names = state.users.names :=
            husers ▸ UsersTable.names_updatePassword
          exact .shrunk (hnames ▸ List.Sublist.refl _)
      | enableTotp | disableTotp =>
          have hnames : next.users.names = state.users.names :=
            husers ▸ UsersTable.names_setTotp
          exact .shrunk (hnames ▸ List.Sublist.refl _)
      | deleteUser _ _ _ _ _ id _ =>
          exact .shrunk (husers ▸ UsersTable.names_delete id)
      | createUser id supply task input table htask hstage hcreate =>
          obtain ⟨hfresh, hnames⟩ := UsersTable.names_create hcreate
          refine .inserted id supply input rfl ?_ hfresh ?_
          · rw [AuthState.creating, htask]
            exact creating_http.mpr hstage
          · simp only [husers, AuthState.write, hcreate, Option.getD_some]
            exact hnames
      | createInJob id supply kind input table htask hcreate =>
          obtain ⟨hfresh, hnames⟩ := UsersTable.names_create hcreate
          refine .inserted id supply input rfl ?_ hfresh ?_
          · simp [AuthState.creating, htask, Task.creating]
          · simp only [husers, AuthState.write, hcreate, Option.getD_some]
            exact hnames

theorem creating_step {id : TaskId} {input : CreateUserInput}
    (hstep : (authMachine platform).step state action = some next)
    (hcreating : next.creating id = some input) :
    (state.creating id = some input ∧ ∀ supply, action ≠ .resume id supply) ∨
      (checkUsername state input.username = .ok () ∧
        ∀ other supply found, action = .resume other supply →
          state.creating other ≠ some found) := by
  cases step_cases hstep with
  | request request supply =>
      rw [AuthState.creating_update
        (AuthState.runHttp_accept_tasks request supply)] at hcreating
      split at hcreating
      · obtain ⟨_, _, hcheck⟩ := segment_sessionMove.next_creating hcreating
        refine .inr ⟨?_, by simp⟩
        simpa only [checkUsername, AuthState.accept_users] using hcheck
      · exact .inl ⟨hcreating, by simp⟩
  | arrived request now =>
      rw [AuthState.creating_update (AuthState.accept_tasks request now)]
        at hcreating
      split at hcreating
      · simp [AuthState.acceptedTask, Task.creating] at hcreating
      · exact .inl ⟨hcreating, by simp⟩
  | resumed acting supply task htask =>
      rw [AuthState.creating_update (AuthState.runHttp_tasks _ _ _)] at hcreating
      split at hcreating
      · obtain ⟨harrived, _, hcheck⟩ :=
          segment_sessionMove.next_creating hcreating
        refine .inr ⟨hcheck, ?_⟩
        intro other supply found haction hother
        injection haction with heq _
        subst other
        rw [AuthState.creating, htask] at hother
        simp [creating_http.mp hother] at harrived
      next hne =>
        exact .inl ⟨hcreating, fun supply haction => hne (by
          injection haction with heq _
          exact heq.symm)⟩
  | job acting supply kind found stage htask =>
      rw [AuthState.creating_update AuthState.commit_tasks] at hcreating
      split at hcreating
      · unfold jobSegment at hcreating
        cases stage with
        | checkUsername =>
            simp only at hcreating
            split at hcreating
            · simp at hcreating
            next hcheck =>
              have hjob : Task.creating (.job kind found .hashCreate) =
                  some input := hcreating
              obtain ⟨_, rfl⟩ := creating_job.mp hjob
              refine .inr ⟨hcheck, ?_⟩
              intro other supply created haction hother
              injection haction with heq _
              subst other
              simp [AuthState.creating, htask, Task.creating] at hother
        | hashCreate =>
            simp only at hcreating
            split at hcreating <;> simp at hcreating
        | hashReset existing => simp at hcreating
      next hne =>
        exact .inl ⟨hcreating, fun supply haction => hne (by
          injection haction with heq _
          exact heq.symm)⟩
  | createAdmin args supply found hargs =>
      rw [AuthState.creating_update (AuthState.startJob_tasks _ _)] at hcreating
      split at hcreating
      · unfold createAdminStart at hcreating
        split at hcreating <;> simp [Task.creating] at hcreating
      · exact .inl ⟨hcreating, by simp⟩
  | bootstrap supply =>
      rw [AuthState.creating_update (AuthState.startJob_tasks _ _)] at hcreating
      split at hcreating
      · unfold bootstrapStart at hcreating
        split at hcreating <;> simp [Task.creating] at hcreating
      · exact .inl ⟨hcreating, by simp⟩
  | expire sid => exact .inl ⟨hcreating, by simp⟩

/-! ## Reservations are kept -/

/-- A state of the machine in which the table and the reservations agree. -/
structure AuthState.NamesInvariant (state : AuthState) : Prop where
  reserved : state.Reserved
  distinct : state.users.CaseDistinct

theorem caseDistinct_step (hstate : state.NamesInvariant)
    (hstep : (authMachine platform).step state action = some next) :
    next.users.CaseDistinct := by
  unfold UsersTable.CaseDistinct
  cases names_step hstep with
  | shrunk hnames => exact hstate.distinct.sublist (hnames.map _)
  | inserted id supply input haction hcreating hfresh hnames =>
      rw [hnames, List.map_append, List.nodup_append]
      refine ⟨hstate.distinct, by simp, ?_⟩
      intro a ha b hb heq
      obtain ⟨name, hname, rfl⟩ := List.mem_map.mp ha
      simp only [List.map_cons, List.map_nil, List.mem_singleton] at hb
      have hsame := hstate.reserved id input hcreating name hname (heq.trans hb)
      exact hfresh (hsame ▸ hname)

theorem reserved_step (hstate : state.NamesInvariant)
    (hguard : InsertsUncontested state action)
    (hstep : (authMachine platform).step state action = some next) :
    next.Reserved := by
  intro id input hcreating name hname hfold
  rcases creating_step hstep hcreating with
    ⟨hold, hothers⟩ | ⟨hcheck, hnone⟩
  · cases names_step hstep with
    | shrunk hnames =>
        exact hstate.reserved id input hold name (hnames.subset hname) hfold
    | inserted acting supply inserted haction hactingCreating hfresh hnames =>
        rw [hnames] at hname
        rcases List.mem_append.mp hname with hname | hname
        · exact hstate.reserved id input hold name hname hfold
        · rw [List.mem_singleton.mp hname] at hfold ⊢
          have hne : id ≠ acting := fun heq =>
            hothers supply (heq ▸ haction)
          exact (hguard acting supply inserted id input haction
            hactingCreating hfresh hne hold hfold.symm).symm
  · cases names_step hstep with
    | shrunk hnames =>
        exact absurd hfold (checkUsername_ok hcheck (hnames.subset hname))
    | inserted acting supply inserted haction hactingCreating =>
        exact absurd hactingCreating (hnone acting supply inserted haction)

theorem namesInvariant_step :
    (authMachine platform).Preserves InsertsUncontested
      AuthState.NamesInvariant := by
  intro state action next hstate hguard hstep
  exact ⟨reserved_step hstate hguard hstep, caseDistinct_step hstate hstep⟩

/-- As long as no creation inserts next to another one which has reserved its
name in another spelling, no two usernames ever differ in case only and every
name has at most one match. -/
theorem usernames_caseDistinct {users : UsersTable}
    (husers : users.CaseDistinct)
    (hguard : (authMachine platform).Admits InsertsUncontested (.initial users)
      word) :
    (authMachine platform).Along (fun state => state.users.CaseDistinct ∧
        ∀ username, (state.users.rows.filter fun row =>
          foldCase row.username = foldCase username).length ≤ 1)
      (.initial users) word := by
  have hstart : (AuthState.initial users).NamesInvariant :=
    ⟨fun id input hcreating => by
        simp [AuthState.creating, AuthState.initial] at hcreating,
      husers⟩
  intro before after mid hsplit hexec
  have hmid := namesInvariant_step.along hstart hguard before after mid hsplit
    hexec
  exact ⟨hmid.distinct, hmid.distinct.matches_le_one⟩

theorem creating_other {id other : TaskId} {supply : Supply}
    (hne : other ≠ id)
    (hstep : (authMachine platform).step state (.resume id supply) =
      some next) : next.creating other = state.creating other := by
  cases step_cases hstep with
  | resumed id supply task htask =>
      rw [AuthState.creating_update (AuthState.runHttp_tasks _ _ _), if_neg hne]
  | job id supply kind found stage htask =>
      rw [AuthState.creating_update AuthState.commit_tasks, if_neg hne]

/-- No other task has the name of a task which goes on in another spelling. -/
def spelledAlike (state : AuthState) : Action → Bool
  | .resume id _ =>
      (state.creating id).all fun input =>
        (List.range state.nextTask).all fun other =>
          (state.creating other).all fun reserved =>
            foldCase reserved.username = foldCase input.username →
              reserved.username = input.username
  | _ => true

theorem insertsUncontested_of_spelledAlike (hbounded : state.TasksBounded)
    (halike : spelledAlike state action = true) : InsertsUncontested state action := by
  rintro id supply input other reserved rfl hinput _ _ hother
  have hlt : other < state.nextTask := by
    obtain ⟨task, htask, _⟩ := Option.bind_eq_some_iff.mp hother
    exact hbounded.lt htask
  rw [spelledAlike, hinput, Option.all_some] at halike
  have hall := List.all_eq_true.mp halike other (List.mem_range.mpr hlt)
  rw [hother, Option.all_some] at hall
  exact of_decide_eq_true hall

/-- The administrator creates "Bob" twice at the same time: the second
insertion fails on the row of the first one. -/
def sampleOneSpelling : List Action :=
  sampleBootstrap ++ sampleLogin 1 0 "admin" "password" ++
    [sampleRequest (some 1) .csrfToken,
      sampleRequest (some 1) (.createUser "Bob" "password" none),
      sampleRequest (some 1) (.createUser "Bob" "passw0rd" none),
      sampleResume 4, sampleResume 5]

theorem usernames_caseDistinct_sampleOneSpelling :
    (∃ last, (authMachine samplePlatform).exec (.initial .empty) sampleOneSpelling =
        some last ∧ last.users.names = ["admin", "Bob"]) ∧
      (authMachine samplePlatform).Along (fun state => state.users.CaseDistinct ∧
          ∀ username, (state.users.rows.filter fun row =>
            foldCase row.username = foldCase username).length ≤ 1)
        (.initial .empty) sampleOneSpelling := by
  have hchecks : (authMachine samplePlatform).checks spelledAlike (.initial .empty)
      sampleOneSpelling = true := by decide +kernel
  constructor
  · obtain ⟨last, hexec, htest⟩ := Machine.exists_of_exec_map
      (authMachine samplePlatform) (.initial .empty) sampleOneSpelling
      (fun last => decide (last.users.names = ["admin", "Bob"])) (by decide +kernel)
    exact ⟨last, hexec, of_decide_eq_true htest⟩
  · refine usernames_caseDistinct List.nodup_nil ?_
    refine Machine.admits_of_checks tasksBounded_step ?_ (fun _ _ => rfl) hchecks
    exact fun state action hbounded halike =>
      insertsUncontested_of_spelledAlike hbounded halike

/-! ## Contested insertions -/

theorem UsersTable.not_caseDistinct {table : UsersTable} {a b : String}
    (ha : a ∈ table.names) (hb : b ∈ table.names)
    (hfold : foldCase a = foldCase b) (hne : a ≠ b) : ¬ table.CaseDistinct :=
  fun hdistinct => hne (hdistinct.eq_of_foldCase ha hb hfold)

theorem insert_names {id : TaskId} {supply : Supply} {input : CreateUserInput}
    (hcreating : state.creating id = some input)
    (hfresh : input.username ∉ state.users.names)
    (hstep : (authMachine platform).step state (.resume id supply) =
      some next) :
    next.users.names = state.users.names ++ [input.username] := by
  obtain ⟨after, hcreate⟩ := UsersTable.create_isSome
    (newUserData platform input supply) supply.now hfresh
  have hwrite : (state.write supply.now
      (.insertUser state.users.nextId (newUserData platform input supply))).users = after := by
    simp only [AuthState.write, hcreate, Option.getD_some]
  have husers : next.users = after := by
    cases step_cases hstep with
    | resumed id supply task htask =>
        rw [AuthState.creating, htask] at hcreating
        have hstage := creating_http.mp hcreating
        rw [AuthState.runHttp, AuthState.commit_users, HttpTask.segment, hstage]
        simp only [userHashed, hcreate, List.cons_append]
        rw [AuthState.performAll_users_head, hwrite]
        intro event hevent
        simp only [List.mem_cons, List.nil_append] at hevent
        rcases hevent with rfl | hevent
        · rfl
        · exact AuthState.closing_quiet event hevent
    | job id supply kind found stage htask =>
        rw [AuthState.creating, htask] at hcreating
        obtain ⟨rfl, rfl⟩ := creating_job.mp hcreating
        rw [AuthState.commit_users]
        simp only [jobSegment, hcreate]
        rw [AuthState.performAll_users_head, hwrite]
        cases kind <;> simp [JobKind.returned, Event.onUsers]
  rw [husers]
  exact (UsersTable.names_create hcreate).2

theorem resume_isSome {id : TaskId} {input : CreateUserInput}
    (platform : Platform) (supply : Supply)
    (hcreating : state.creating id = some input) :
    ∃ next, (authMachine platform).step state (.resume id supply) =
      some next := by
  obtain ⟨task, htask, _⟩ := Option.bind_eq_some_iff.mp hcreating
  cases task with
  | http task =>
      exact ⟨state.runHttp platform id task supply, by
        simp only [authMachine, AuthState.step, AuthState.resumeTask, htask]⟩
  | job kind input stage =>
      refine ⟨state.commit id supply.now
        (jobSegment platform state kind input stage supply).1
        (jobSegment platform state kind input stage supply).2, ?_⟩
      simp only [authMachine, AuthState.step, AuthState.resumeTask, htask]

/-- A contested insertion always does harm: the two spellings are in the table
at once, or as soon as the other creation goes on. -/
theorem contested_insert_breaks
    (hcontested : ¬ InsertsUncontested state action)
    (hstep : (authMachine platform).step state action = some next) :
    ¬ next.users.CaseDistinct ∨
      ∃ other, ∀ supply, ∃ last, (authMachine platform).step next
          (.resume other supply) = some last ∧ ¬ last.users.CaseDistinct := by
  simp only [InsertsUncontested, not_forall] at hcontested
  obtain ⟨id, supply, input, other, reserved, rfl, hcreating, hfresh, hne,
    hother, hfold, hdifferent⟩ := hcontested
  have hnames := insert_names hcreating hfresh hstep
  have hinput : input.username ∈ next.users.names := by simp [hnames]
  by_cases hpresent : reserved.username ∈ next.users.names
  · exact .inl (UsersTable.not_caseDistinct hpresent hinput hfold hdifferent)
  · refine .inr ⟨other, fun supply => ?_⟩
    have hstill := (creating_other hne hstep).trans hother
    obtain ⟨last, hlast⟩ := resume_isSome platform supply hstill
    have hlastNames := insert_names hstill hpresent hlast
    refine ⟨last, hlast, UsersTable.not_caseDistinct ?_ ?_ hfold hdifferent⟩
    · simp [hlastNames]
    · rw [hlastNames]
      exact List.mem_append_left _ hinput

/-- The administrator creates "Bob" and "bob" at the same time. -/
def sampleTwoSpellings : List Action :=
  sampleBootstrap ++ sampleLogin 1 0 "admin" "password" ++
    [sampleRequest (some 1) .csrfToken,
      sampleRequest (some 1) (.createUser "Bob" "password" none),
      sampleRequest (some 1) (.createUser "bob" "password" none),
      sampleResume 4, sampleResume 5]

/-- Both lookups come before both insertions, and both insertions succeed. -/
theorem usernames_collide :
    ∃ last, (authMachine samplePlatform).exec (.initial .empty)
        sampleTwoSpellings = some last ∧
      ¬ last.users.CaseDistinct ∧
      (last.users.rows.filter fun row =>
        foldCase row.username = foldCase "bob").length = 2 := by
  obtain ⟨last, hexec, htest⟩ := Machine.exists_of_exec_map
    (authMachine samplePlatform) (.initial .empty) sampleTwoSpellings
    (fun last =>
      (last.users.rows.filter fun row =>
        foldCase row.username = foldCase "bob").length == 2)
    (by decide +kernel)
  have hmatches := beq_iff_eq.mp htest
  refine ⟨last, hexec, fun hdistinct => ?_, hmatches⟩
  have hle := hdistinct.matches_le_one "bob"
  omega

end Pm2Manager
