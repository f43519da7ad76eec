import Pm2Manager.AuthTransitions

/-!
# The presence of an administrator

`ensureInitialAdmin` looks at the number of rows only.  Deletion keeps the
last administrator, creation never takes one away, so what matters is the
table each start of the application finds: an empty one is given an
administrator, and one without administrators is left without.
-/

namespace Pm2Manager

open Function

variable {platform : Platform} {state last next : AuthState}
variable {action : Action} {word : List Action}

/-- Once `ensureInitialAdmin` has returned there is an administrator. -/
def AuthState.AdminOnceReturned (state : AuthState) : Prop :=
  (∃ task created, (task, Event.bootstrapReturned created) ∈ state.trace) →
    state.users.HasAdmin

/-- A start of the application finds no account, or an administrator. -/
def StartsEmptyOrAdministered (state : AuthState) : Action → Prop
  | .bootstrap _ => state.users.countAll = 0 ∨ state.users.HasAdmin
  | _ => True

/-! ## The jobs of the application -/

/-- The account which a start of the application creates is an
administrator. -/
def AuthState.BootstrapJobs (state : AuthState) : Prop :=
  ∀ id input stage,
    state.tasks id = some (.job .bootstrap input stage) → input.isAdmin = true

theorem Outcome.next_ne_job {outcome : Outcome} {request : Request}
    {kind : JobKind} {input : CreateUserInput} {stage : JobStage} :
    outcome.next request ≠ some (.job kind input stage) := by
  cases outcome <;> simp [Outcome.next]

theorem AuthState.BootstrapJobs.update {state after : AuthState} {id : TaskId}
    {left : Option Task} (hstate : state.BootstrapJobs)
    (htasks : after.tasks = update state.tasks id left)
    (hleft : ∀ input stage, left = some (.job .bootstrap input stage) →
      input.isAdmin = true) : after.BootstrapJobs := by
  intro other input stage htask
  rw [htasks] at htask
  by_cases heq : other = id
  · subst other
    rw [update_self] at htask
    exact hleft input stage htask
  · rw [update_of_ne heq] at htask
    exact hstate other input stage htask

theorem bootstrapJobs_step :
    (authMachine platform).Preserves Machine.anyAction
      AuthState.BootstrapJobs := by
  intro state action next hstate _ hstep
  cases step_cases hstep with
  | request request supply =>
      apply hstate.update (AuthState.runHttp_accept_tasks request supply)
      intro input stage hleft
      exact absurd hleft Outcome.next_ne_job
  | arrived request now =>
      exact hstate.update (AuthState.accept_tasks request now) (by simp)
  | resumed id supply task htask =>
      apply hstate.update AuthState.commit_tasks
      intro input stage hleft
      exact absurd hleft Outcome.next_ne_job
  | job id supply kind input stage htask =>
      apply hstate.update AuthState.commit_tasks
      intro after left hleft
      unfold jobSegment at hleft
      cases stage with
      | checkUsername =>
          simp only at hleft
          split at hleft
          · simp at hleft
          · simp only [Option.some.injEq, Task.job.injEq] at hleft
            obtain ⟨rfl, rfl, rfl⟩ := hleft
            exact hstate id _ _ htask
      | hashCreate =>
          simp only at hleft
          split at hleft <;> simp at hleft
      | hashReset existing => simp at hleft
  | createAdmin args supply input hargs =>
      apply hstate.update (AuthState.startJob_tasks _ _)
      intro after left hleft
      unfold createAdminStart at hleft
      split at hleft <;> simp at hleft
  | bootstrap supply =>
      apply hstate.update (AuthState.startJob_tasks _ _)
      intro after left hleft
      unfold bootstrapStart at hleft
      split at hleft
      · simp at hleft
      · simp only [Option.some.injEq, Task.job.injEq] at hleft
        obtain ⟨_, rfl, _⟩ := hleft
        rfl
  | expire sid => exact hstate

/-! ## Who returns from `ensureInitialAdmin` -/

theorem SessionMove.not_returned {task : HttpTask} {segment : Segment}
    (hmove : SessionMove platform state task segment) (created : Bool) :
    .bootstrapReturned created ∉ segment.events := by
  intro hmem
  cases hmove with
  | kept after hevents => simpa [Event.isPlain] using hevents _ hmem
  | leaving logged hlogged =>
      simp only [List.mem_append, List.mem_singleton, reduceCtorEq,
        or_false] at hmem
      simpa [Event.isPlain] using hlogged _ hmem
  | _ => simp [login, regenerateSession, attachUser, loggedOut] at hmem

theorem Outcome.closing_not_returned {outcome : Outcome} {endpoint : Endpoint}
    (created : Bool) : .bootstrapReturned created ∉ outcome.closing endpoint := by
  intro hmem
  rcases Outcome.closing_cases hmem with ⟨_, _, _, _, heq⟩ | ⟨_, heq⟩
  · cases heq
  · cases heq

inductive Returns (platform : Platform) (state : AuthState) :
    Action → Prop
  | found (supply : Supply) (hcount : 0 < state.users.countAll) :
      Returns platform state (.bootstrap supply)
  | created (id : TaskId) (supply : Supply) (input : CreateUserInput)
      (after : UsersTable)
      (htask : state.tasks id = some (.job .bootstrap input .hashCreate))
      (hcreate : state.users.create (newUserData platform input supply)
        supply.now = some after) :
      Returns platform state (.resume id supply)

theorem runHttp_returned {id task : TaskId} {http : HttpTask} {supply : Supply}
    {created : Bool} (hmem : (task, Event.bootstrapReturned created) ∈
      (state.runHttp platform id http supply).trace) :
    (task, Event.bootstrapReturned created) ∈ state.trace := by
  simp only [AuthState.runHttp, AuthState.commit_trace, List.mem_append,
    List.mem_map, Prod.mk.injEq] at hmem
  rcases hmem with hold | ⟨event, hevent, _, rfl⟩
  · exact hold
  · rcases hevent with hevent | hevent
    · exact absurd hevent (segment_sessionMove.not_returned created)
    · exact absurd hevent (Outcome.closing_not_returned created)

theorem accept_returned {request : Request} {now : String} {task : TaskId}
    {created : Bool} (hmem : (task, Event.bootstrapReturned created) ∈
      (state.accept request now).trace) :
    (task, Event.bootstrapReturned created) ∈ state.trace := by
  rw [AuthState.accept_trace, List.mem_append] at hmem
  refine hmem.resolve_right fun hopened => ?_
  rcases state.openSession_cases request.cookie with
    ⟨sid, data, _, hopen⟩ | hopen <;> simp [hopen] at hopened

theorem returned_cases {task : TaskId} {created : Bool}
    (hstep : (authMachine platform).step state action = some next)
    (hmem : (task, Event.bootstrapReturned created) ∈ next.trace) :
    (task, Event.bootstrapReturned created) ∈ state.trace ∨
      Returns platform state action := by
  cases step_cases hstep with
  | request request supply => exact .inl (accept_returned (runHttp_returned hmem))
  | arrived request now => exact .inl (accept_returned hmem)
  | resumed id supply http htask => exact .inl (runHttp_returned hmem)
  | job id supply kind input stage htask =>
      rw [AuthState.commit_trace, List.mem_append] at hmem
      rcases hmem with hold | hnew
      · exact .inl hold
      · unfold jobSegment at hnew
        cases stage with
        | checkUsername =>
            simp only at hnew
            split at hnew <;> simp at hnew
        | hashReset existing => simp at hnew
        | hashCreate =>
            simp only at hnew
            split at hnew
            · simp at hnew
            next after hcreate =>
              cases kind with
              | createAdmin => simp [JobKind.returned] at hnew
              | bootstrap => exact .inr (.created id supply input after htask hcreate)
  | createAdmin args supply input hargs =>
      rw [AuthState.startJob, AuthState.commit_trace, List.mem_append] at hmem
      rcases hmem with hold | hnew
      · exact .inl hold
      · unfold createAdminStart at hnew
        split at hnew <;> simp at hnew
  | bootstrap supply =>
      rw [AuthState.startJob, AuthState.commit_trace, List.mem_append] at hmem
      rcases hmem with hold | hnew
      · exact .inl hold
      · unfold bootstrapStart at hnew
        split at hnew
        next hcount =>
          exact .inr (.found supply hcount)
        · simp at hnew
  | expire sid => exact .inl hmem

/-! ## Administrators stay -/

theorem UsersTable.hasAdmin_delete {table : UsersTable} {id : ℕ}
    {target : UserRecord} (hadmin : table.HasAdmin)
    (htarget : table.findById id = some target)
    (hlast : target.isAdmin = true →
      (table.listAll.filter UserRecord.isAdmin).length ≠ 1) :
    (table.delete id).HasAdmin := by
  obtain ⟨admin, hmem, hflag⟩ := hadmin
  obtain ⟨htargetMem, rfl⟩ := UsersTable.mem_of_findById htarget
  by_cases hsame : admin.id = target.id
  · have heq : admin = target :=
      List.inj_on_of_nodup_map table.idUnique hmem htargetMem hsame
    subst admin
    have hperm : (table.listAll.filter UserRecord.isAdmin).length =
        (table.rows.filter UserRecord.isAdmin).length :=
      ((List.perm_insertionSort _ table.rows).filter _).length_eq
    by_contra hnone
    refine hlast hflag (hperm.trans ?_)
    have honly : ∀ row ∈ table.rows.filter UserRecord.isAdmin, row = target := by
      intro row hrow
      obtain ⟨hrow, hrowAdmin⟩ := List.mem_filter.mp hrow
      by_contra hne
      refine hnone ⟨row, UsersTable.mem_rows_delete.mpr ⟨hrow, fun hid => ?_⟩,
        hrowAdmin⟩
      exact hne (List.inj_on_of_nodup_map table.idUnique hrow hmem hid)
    have hnodup : (table.rows.filter UserRecord.isAdmin).Nodup :=
      (List.Nodup.of_map _ table.idUnique).filter _
    have hsome : target ∈ table.rows.filter UserRecord.isAdmin :=
      List.mem_filter.mpr ⟨hmem, hflag⟩
    rw [List.eq_replicate_of_mem honly, List.nodup_replicate] at hnodup
    exact le_antisymm hnodup (List.length_pos_of_mem hsome)
  · exact ⟨admin, UsersTable.mem_rows_delete.mpr ⟨hmem, hsame⟩, hflag⟩


theorem UsersTable.hasAdmin_create {table after : UsersTable}
    {data : CreateUserData} {now : String}
    (hcreate : table.create data now = some after)
    (hadmin : table.HasAdmin ∨ data.isAdmin = true) : after.HasAdmin := by
  have hrows := (UsersTable.create_eq_some hcreate).2.1
  rcases hadmin with ⟨admin, hmem, hflag⟩ | hflag
  · exact ⟨admin, hrows ▸ List.mem_append_left _ hmem, hflag⟩
  · exact ⟨table.newRow data now, hrows ▸ List.mem_append_right _
      List.mem_cons_self, hflag⟩

theorem UsersTable.hasAdmin_update {table : UsersTable} {id : ℕ}
    {change : UserRecord → UserRecord}
    (hid : ∀ row, (change row).id = row.id)
    (hname : ∀ row, (change row).username = row.username)
    (hflag : ∀ row, (change row).isAdmin = row.isAdmin)
    (hadmin : table.HasAdmin) : (table.update id change hid hname).HasAdmin := by
  obtain ⟨admin, hmem, hadminFlag⟩ := hadmin
  refine ⟨_, UsersTable.mem_rows_update.mpr ⟨admin, hmem, rfl⟩, ?_⟩
  split
  · rw [hflag, hadminFlag]
  · exact hadminFlag

theorem UsersTable.hasAdmin_updatePassword {table : UsersTable} {id : ℕ}
    {passwordHash now : String} (hadmin : table.HasAdmin) :
    (table.updatePassword id passwordHash now).HasAdmin := by
  unfold updatePassword
  exact hasAdmin_update _ _ (fun _ => rfl) hadmin

theorem UsersTable.hasAdmin_setTotp {table : UsersTable} {id : ℕ}
    {secret : Option String} {enabled : Bool} {now : String}
    (hadmin : table.HasAdmin) :
    (table.setTotp id secret enabled now).HasAdmin := by
  unfold setTotp
  exact hasAdmin_update _ _ (fun _ => rfl) hadmin

theorem hasAdmin_step (hadmin : state.users.HasAdmin)
    (hstep : (authMachine platform).step state action = some next) :
    next.users.HasAdmin := by
  cases users_step hstep with
  | quiet id events hevents husers htrace => exact husers ▸ hadmin
  | written id now event before after hcause hbefore hafter husers htrace =>
      rw [husers]
      cases hcause with
      | changePassword | resetPassword =>
          exact UsersTable.hasAdmin_updatePassword hadmin
      | enableTotp | disableTotp => exact UsersTable.hasAdmin_setTotp hadmin
      | createUser id supply task input table htask hstage hcreate
      | createInJob id supply kind input table htask hcreate =>
          simp only [AuthState.write, hcreate, Option.getD_some]
          exact UsersTable.hasAdmin_create hcreate (.inl hadmin)
      | deleteUser action acting task supply raw id target hruns hstage
          hadmitted hendpoint hid hself htarget hlast =>
          exact UsersTable.hasAdmin_delete hadmin htarget hlast

theorem hasAdmin_created {id : TaskId} {supply : Supply}
    {input : CreateUserInput} {after : UsersTable}
    (hjobs : state.BootstrapJobs)
    (htask : state.tasks id = some (.job .bootstrap input .hashCreate))
    (hcreate : state.users.create (newUserData platform input supply)
      supply.now = some after)
    (hstep : (authMachine platform).step state (.resume id supply) =
      some next) : next.users.HasAdmin := by
  have hnext : next.users = after := by
    cases step_cases hstep with
    | resumed id supply task hhttp => simp [htask] at hhttp
    | job id supply kind found stage hfound =>
        rw [htask, Option.some.injEq, Task.job.injEq] at hfound
        obtain ⟨rfl, rfl, rfl⟩ := hfound
        simp only [jobSegment, hcreate, AuthState.commit_users,
          JobKind.returned, AuthState.performAll_cons, AuthState.performAll_nil]
        simp [AuthState.perform, AuthState.write, hcreate]
  rw [hnext]
  exact UsersTable.hasAdmin_create hcreate (.inr (hjobs _ _ _ htask))

theorem adminOnceReturned_step (hjobs : state.BootstrapJobs)
    (hstate : state.AdminOnceReturned)
    (hstart : StartsEmptyOrAdministered state action)
    (hstep : (authMachine platform).step state action = some next) :
    next.AdminOnceReturned := by
  rintro ⟨task, created, hmem⟩
  rcases returned_cases hstep hmem with hold | hreturns
  · exact hasAdmin_step (hstate ⟨task, created, hold⟩) hstep
  · cases hreturns with
    | found supply hcount =>
        have hadmin : state.users.HasAdmin := hstart.resolve_left hcount.ne'
        exact hasAdmin_step hadmin hstep
    | created id supply input after htask hcreate =>
        exact hasAdmin_created hjobs htask hcreate hstep

/-- A start which finds accounts but no administrator returns all the same. -/
theorem not_adminOnceReturned_step
    (hstart : ¬ StartsEmptyOrAdministered state action)
    (hstep : (authMachine platform).step state action = some next) :
    ¬ next.AdminOnceReturned := by
  intro hnext
  cases action with
  | bootstrap supply =>
      simp only [StartsEmptyOrAdministered, not_or] at hstart
      obtain ⟨hcount, hadmin⟩ := hstart
      cases step_cases hstep with
      | bootstrap supply =>
          have hstarted : bootstrapStart platform state supply =
              ([.bootstrapReturned false], none) := by
            rw [bootstrapStart, if_pos (Nat.pos_of_ne_zero hcount)]
          rw [hstarted] at hnext
          exact hadmin (hnext ⟨state.nextTask, false, by simp [AuthState.startJob]⟩)
  | _ => exact hstart trivial

/-- Over an empty database, the runs in which there is an administrator from
the first return of `ensureInitialAdmin` on are the ones in which every start
of the application finds an empty table or an administrator. -/
theorem adminOnceReturned_iff
    (hexec : (authMachine platform).exec (.initial .empty) word = some last) :
    (authMachine platform).Along AuthState.AdminOnceReturned (.initial .empty)
        word ↔
      (authMachine platform).Admits StartsEmptyOrAdministered (.initial .empty)
        word := by
  refine Machine.along_iff_admits bootstrapJobs_step ?_ ?_ ?_ ?_
    (Machine.admits_anyAction _ _) hexec
  · intro state action next hjobs hstate _ hstart hstep
    exact adminOnceReturned_step hjobs hstate hstart hstep
  · intro state action next _ _ _ hstart hstep
    exact not_adminOnceReturned_step hstart hstep
  · intro id input stage htask
    simp [AuthState.initial] at htask
  · rintro ⟨task, created, hmem⟩
    simp [AuthState.initial] at hmem

/-- An account is created from the command line without `--admin`, then the
application is started. -/
def sampleOrdinaryFirst : List Action :=
  [.createAdmin ["bob", "password"] (sampleSupply "salt"), sampleResume 0,
    sampleResume 0, .bootstrap (sampleSupply "password")]

theorem sampleOrdinaryFirst_exec :
    ∃ last, (authMachine samplePlatform).exec (.initial .empty)
        sampleOrdinaryFirst = some last ∧ ¬ last.AdminOnceReturned := by
  obtain ⟨last, hexec, htest⟩ := Machine.exists_of_exec_map
    (authMachine samplePlatform) (.initial .empty) sampleOrdinaryFirst
    (fun last =>
      decide ((1, .bootstrapReturned false) ∈ last.trace) &&
        last.users.rows.all fun row => !row.isAdmin)
    (by decide +kernel)
  simp only [Bool.and_eq_true, decide_eq_true_eq, List.all_eq_true,
    Bool.not_eq_true'] at htest
  refine ⟨last, hexec, fun hstate => ?_⟩
  obtain ⟨admin, hmem, hflag⟩ := hstate ⟨1, false, htest.1⟩
  simp [htest.2 admin hmem] at hflag

theorem adminOnceReturned_iff_sampleOrdinaryFirst :
    (authMachine samplePlatform).Along AuthState.AdminOnceReturned
        (.initial .empty) sampleOrdinaryFirst ↔
      (authMachine samplePlatform).Admits StartsEmptyOrAdministered
        (.initial .empty) sampleOrdinaryFirst := by
  obtain ⟨last, hexec, _⟩ := sampleOrdinaryFirst_exec
  exact adminOnceReturned_iff hexec

/-- The start returns and nobody is an administrator. -/
theorem sampleOrdinaryFirst_unadministered :
    ∃ last, (authMachine samplePlatform).exec (.initial .empty)
        sampleOrdinaryFirst = some last ∧
      (∃ task created, (task, Event.bootstrapReturned created) ∈ last.trace) ∧
      ¬ last.users.HasAdmin := by
  obtain ⟨last, hexec, hlast⟩ := sampleOrdinaryFirst_exec
  exact ⟨last, hexec, Classical.not_imp.mp hlast⟩

end Pm2Manager
