import Pm2Manager.AuthTransitions

/-!
# What a password change overwrites

`changePassword` reads the row, verifies the current password and hashes the
new one, each behind an await, and then updates the row by its id.  The update
overwrites the hash which was verified as long as nothing else has written the
row since it was read.
-/

namespace Pm2Manager

open Function

variable {platform : Platform} {state next : AuthState} {action : Action}
variable {users : UsersTable} {word : List Action}

/-- The request changes the password of the row it has read: the current
password is right for that row. -/
inductive HttpTask.Changing (platform : Platform) (task : HttpTask)
    (user : UserRecord) : Prop
  | verifying (currentPassword newPassword : String)
      (hstage : task.stage = .verifyCurrent user currentPassword newPassword)
      (hverify :
        platform.verifyPassword user.passwordHash currentPassword = true)
  | hashing (newPassword : String)
      (hstage : task.stage = .hashNew user newPassword)

/-- A write of a password hash leaves the hash which each other change of that
user has read. -/
def WritesLeaveReads (platform : Platform) (state : AuthState)
    (action : Action) : Prop :=
  ∀ now userId passwordHash,
    UsersCause platform state action now (.updatePassword userId passwordHash) →
    ∀ id task user, state.tasks id = some (.http task) →
      (∀ supply, action ≠ .resume id supply) → task.Changing platform user →
      user.id = userId → user.passwordHash = passwordHash

structure UserRecord.Unchanged (user : UserRecord) (users : UsersTable) :
    Prop where
  given : user.id ≤ users.seq
  hash : ∀ row ∈ users.rows, row.id = user.id →
    row.passwordHash = user.passwordHash

/-- The update which ends a change of `user` to `newPassword` overwrites the
hash against which the `currentPassword` of the request was verified. -/
def HttpTask.OverwritesVerified (platform : Platform) (task : HttpTask)
    (users : UsersTable) (user : UserRecord) (newPassword : String) : Prop :=
  ∃ currentPassword, task.AsksChange currentPassword newPassword ∧
    platform.verifyPassword user.passwordHash currentPassword = true ∧
    ∀ row ∈ users.rows, row.id = user.id → row.passwordHash = user.passwordHash

/-! ## The row of a change -/

theorem UserRecord.Unchanged.of_found {user : UserRecord} {id : ℕ}
    (hfind : users.findById id = some user) : user.Unchanged users := by
  obtain ⟨hmem, _⟩ := UsersTable.mem_of_findById hfind
  constructor
  · exact users.idBound user hmem
  · intro row hrow hid
    have hsame : row = user :=
      List.inj_on_of_nodup_map users.idUnique hrow hmem hid
    rw [hsame]

theorem UserRecord.Unchanged.step {user : UserRecord}
    (hread : user.Unchanged state.users)
    (hstep : UsersStep platform state action next)
    (hwrite : ∀ now passwordHash, UsersCause platform state action now
      (.updatePassword user.id passwordHash) → user.passwordHash = passwordHash) :
    user.Unchanged next.users := by
  refine ⟨hread.given.trans hstep.seq_le, fun row hrow hid => ?_⟩
  cases hstep with
  | quiet id events hevents husers htrace =>
      exact hread.hash row (husers ▸ hrow) hid
  | written id now event before after hcause hbefore hafter husers htrace =>
      have hupdated : ∀ userId passwordHash,
          event = .updatePassword userId passwordHash →
          row.passwordHash = user.passwordHash := by
        rintro userId passwordHash rfl
        rw [husers] at hrow
        obtain ⟨old, hold, rfl⟩ := UsersTable.mem_rows_updatePassword.mp hrow
        by_cases hsame : old.id = userId
        · rw [if_pos hsame] at hid ⊢
          have huser : userId = user.id := hsame.symm.trans hid
          exact (hwrite now passwordHash (huser ▸ hcause)).symm
        · rw [if_neg hsame] at hid ⊢
          exact hread.hash old hold hid
      cases hcause with
      | changePassword | resetPassword => exact hupdated _ _ rfl
      | enableTotp | disableTotp =>
          rw [husers] at hrow
          obtain ⟨old, hold, hset⟩ := UsersTable.mem_rows_setTotp.mp hrow
          have hsameId : row.id = old.id := by
            rw [hset]
            split <;> rfl
          have hsameHash : row.passwordHash = old.passwordHash := by
            rw [hset]
            split <;> rfl
          exact hsameHash.trans (hread.hash old hold (hsameId ▸ hid))
      | deleteUser =>
          rw [husers] at hrow
          exact hread.hash row (UsersTable.mem_rows_delete.mp hrow).1 hid
      | createUser id supply task input table htask hstage hcreate
      | createInJob id supply kind input table htask hcreate =>
          rw [husers] at hrow
          simp only [AuthState.write, hcreate, Option.getD_some] at hrow
          rw [(UsersTable.create_eq_some hcreate).2.1] at hrow
          rcases List.mem_append.mp hrow with hold | hnew
          · exact hread.hash row hold hid
          · have hfresh : row.id = state.users.seq + 1 :=
              List.mem_singleton.mp hnew ▸ rfl
            have hgiven := hread.given
            omega

/-! ## The changes of a state -/

/-- What the suspended changes of a state have read and verified. -/
structure AuthState.ChangesVerified (platform : Platform) (state : AuthState) :
    Prop where
  asked : ∀ id task user currentPassword newPassword,
    state.tasks id = some (.http task) →
    task.stage = .verifyCurrent user currentPassword newPassword →
    task.AsksChange currentPassword newPassword
  verified : ∀ id task user newPassword, state.tasks id = some (.http task) →
    task.stage = .hashNew user newPassword →
    ∃ currentPassword, task.AsksChange currentPassword newPassword ∧
      platform.verifyPassword user.passwordHash currentPassword = true
  unchanged : ∀ id task user, state.tasks id = some (.http task) →
    task.Changing platform user → user.Unchanged state.users

/-- Where a change comes from: its first stretch reads the row, its second one
verifies the password. -/
theorem SessionMove.next_changing {before task : HttpTask} {segment : Segment}
    (hmove : SessionMove platform state before segment)
    (hnext : segment.outcome.next before.request = some (.http task)) :
    task.request = before.request ∧
      (∀ user currentPassword newPassword,
        task.stage = .verifyCurrent user currentPassword newPassword →
        before.stage = .arrived ∧
          before.AsksChange currentPassword newPassword ∧
          user.Unchanged state.users) ∧
      ∀ user newPassword, task.stage = .hashNew user newPassword →
        ∃ currentPassword,
          before.stage = .verifyCurrent user currentPassword newPassword ∧
          platform.verifyPassword user.passwordHash currentPassword = true := by
  cases hmove with
  | kept after hevents houtcome hafter hstage =>
      generalize segment.outcome = outcome at houtcome hnext
      cases outcome with
      | replies session reply => simp [Outcome.next] at hnext
      | awaits session stage =>
          simp only [Outcome.next, Option.some.injEq, Task.http.injEq] at hnext
          obtain ⟨_, hplain⟩ := houtcome
          subst hnext
          refine ⟨rfl, ?_, ?_⟩
          · intro user currentPassword newPassword hread
            simp only at hread
            rw [hread] at hplain
            cases hplain with
            | verifyCurrent sessionUser _ _ _ harrived hasks huser hrow =>
                exact ⟨harrived, hasks, .of_found hrow⟩
          · intro user newPassword hhashed
            simp only at hhashed
            rw [hhashed] at hplain
            cases hplain with
            | hashNew _ currentPassword _ hverifying hverify =>
                exact ⟨currentPassword, hverifying, hverify⟩
  | closed _ => simp [loggedOut, Outcome.next] at hnext
  | reading | challenged | passed | accepted | attached | leaving =>
      simp only [login, regenerateSession, attachUser, Outcome.next,
        Option.some.injEq, Task.http.injEq] at hnext
      subst hnext
      exact ⟨rfl, by simp, by simp⟩

theorem AuthState.Runs.resumes {id : TaskId} {task : HttpTask} {supply : Supply}
    (hruns : state.Runs action id task supply) (hstage : task.stage ≠ .arrived) :
    action = .resume id supply ∧ state.tasks id = some (.http task) := by
  cases hruns with
  | arriving request supply => exact absurd rfl hstage
  | resumed id supply task htask => exact ⟨rfl, htask⟩

theorem HttpTask.AsksChange.congr {before task : HttpTask}
    {currentPassword newPassword : String} (hrequest : task.request = before.request)
    (hasks : before.AsksChange currentPassword newPassword) :
    task.AsksChange currentPassword newPassword := by
  unfold HttpTask.AsksChange
  rw [hrequest]
  exact hasks

/-- A stretch behind which a change goes on writes no password. -/
theorem AuthState.Runs.not_updatePassword {id : TaskId} {before task : HttpTask}
    {supply : Supply} {user : UserRecord} {now passwordHash : String} {userId : ℕ}
    (hruns : state.Runs action id before supply)
    (hnext : (before.segment platform (state.opening action) supply).outcome.next
      before.request = some (.http task))
    (hchanging : task.Changing platform user) :
    ¬ UsersCause platform state action now
      (.updatePassword userId passwordHash) := by
  obtain ⟨_, hread, hhashed⟩ := segment_sessionMove.next_changing hnext
  intro hcause
  cases hcause with
  | changePassword acting supply http other newPassword hacting hstage =>
      cases hruns with
      | resumed id supply before hbefore =>
          rw [hacting, Option.some.injEq, Task.http.injEq] at hbefore
          subst hbefore
          cases hchanging with
          | verifying currentPassword new hverifying =>
              have harrived := (hread user currentPassword new hverifying).1
              simp [hstage] at harrived
          | hashing new hhashing =>
              obtain ⟨currentPassword, hverifying, _⟩ := hhashed user new hhashing
              simp [hstage] at hverifying
  | resetPassword acting supply kind input existing hjob =>
      cases hruns with
      | resumed id supply before hbefore => simp [hjob] at hbefore

theorem changesVerified_step :
    (authMachine platform).Preserves (WritesLeaveReads platform)
      (AuthState.ChangesVerified platform) := by
  intro state action next hstate hguard hstep
  have husers := users_step hstep
  constructor
  · intro id task user currentPassword newPassword htask hstage
    cases task_step hstep htask with
    | kept hkept _ => exact hstate.asked id task user _ _ hkept hstage
    | held request now haction hheld => simp [hheld, AuthState.acceptedTask] at hstage
    | ran before supply hruns hnext =>
        obtain ⟨hrequest, hread, _⟩ := segment_sessionMove.next_changing hnext
        exact .congr hrequest (hread user currentPassword newPassword hstage).2.1
  · intro id task user newPassword htask hstage
    cases task_step hstep htask with
    | kept hkept _ => exact hstate.verified id task user _ hkept hstage
    | held request now haction hheld => simp [hheld, AuthState.acceptedTask] at hstage
    | ran before supply hruns hnext =>
        obtain ⟨hrequest, _, hhashed⟩ := segment_sessionMove.next_changing hnext
        obtain ⟨currentPassword, hverifying, hverify⟩ :=
          hhashed user newPassword hstage
        obtain ⟨_, hbefore⟩ := hruns.resumes (by simp [hverifying])
        have hasks := hstate.asked id before user _ _ hbefore hverifying
        exact ⟨currentPassword, .congr hrequest hasks, hverify⟩
  · intro id task user htask hchanging
    cases task_step hstep htask with
    | kept hkept hother =>
        refine (hstate.unchanged id task user hkept hchanging).step husers ?_
        intro now passwordHash hcause
        exact hguard now user.id passwordHash hcause id task user hkept hother
          hchanging rfl
    | held request now haction hheld =>
        cases hchanging with
        | verifying currentPassword newPassword hstage =>
            simp [hheld, AuthState.acceptedTask] at hstage
        | hashing newPassword hstage =>
            simp [hheld, AuthState.acceptedTask] at hstage
    | ran before supply hruns hnext =>
        have hread : user.Unchanged state.users := by
          obtain ⟨_, hread, hhashed⟩ := segment_sessionMove.next_changing hnext
          cases hchanging with
          | verifying currentPassword newPassword hstage =>
              have hfound := (hread user currentPassword newPassword hstage).2.2
              rwa [AuthState.opening_users] at hfound
          | hashing newPassword hstage =>
              obtain ⟨currentPassword, hverifying, hverify⟩ :=
                hhashed user newPassword hstage
              obtain ⟨_, hbefore⟩ := hruns.resumes (by simp [hverifying])
              exact hstate.unchanged id before user hbefore
                (.verifying currentPassword newPassword hverifying hverify)
        refine hread.step husers fun now passwordHash hcause => ?_
        exact absurd hcause (hruns.not_updatePassword hnext hchanging)

/-- In the runs in which no password hash is written while another change of
the same user has read a different one, every change that is about to update
its row finds there the hash against which its current password was
verified. -/
theorem changePassword_overwrites_verified
    (hguard : (authMachine platform).Admits (WritesLeaveReads platform)
      (.initial users) word) :
    (authMachine platform).Along (fun state =>
      ∀ id task user newPassword, state.tasks id = some (.http task) →
        task.stage = .hashNew user newPassword →
        task.OverwritesVerified platform state.users user newPassword)
      (.initial users) word := by
  have hstart : (AuthState.initial users).ChangesVerified platform := by
    constructor <;> simp [AuthState.initial]
  intro before after mid hsplit hexec id task user newPassword htask hstage
  have hmid : mid.ChangesVerified platform :=
    changesVerified_step.along hstart hguard before after mid hsplit hexec
  obtain ⟨currentPassword, hasks, hverify⟩ :=
    hmid.verified id task user newPassword htask hstage
  have hunchanged := hmid.unchanged id task user htask (.hashing newPassword hstage)
  exact ⟨currentPassword, hasks, hverify, hunchanged.hash⟩

/-- The administrator changes the password, and afterwards the command line
tool resets it. -/
def sampleChangeThenReset : List Action :=
  sampleBootstrap ++ sampleLogin 1 0 "admin" "password" ++
    [sampleRequest (some 1) .csrfToken,
      sampleRequest (some 1) (.changePassword "password" "new-password"),
      sampleResume 4, sampleResume 4,
      .createAdmin ["admin", "reset-password"] (sampleSupply "salt"),
      sampleResume 5]

theorem writesLeaveReads_of_alone (hstate : state.TasksBounded)
    (halone : actsAlone state action = true) :
    WritesLeaveReads platform state action := by
  intro now userId passwordHash hcause id task user htask hother
  have hresumed : ∀ acting supply, action ≠ .resume acting supply := by
    rintro acting supply rfl
    exact hother supply (resumes_alone hstate halone htask ▸ rfl)
  cases hcause with
  | changePassword acting supply => exact absurd rfl (hresumed acting supply)
  | resetPassword acting supply => exact absurd rfl (hresumed acting supply)

theorem changePassword_overwrites_verified_sampleChangeThenReset :
    (authMachine samplePlatform).Along (fun state =>
      ∀ id task user newPassword, state.tasks id = some (.http task) →
        task.stage = .hashNew user newPassword →
        task.OverwritesVerified samplePlatform state.users user newPassword)
      (.initial .empty) sampleChangeThenReset :=
  changePassword_overwrites_verified
    (Machine.admits_of_checks tasksBounded_step
      (fun _ _ hstate halone => writesLeaveReads_of_alone hstate halone)
      (fun _ _ => rfl) (by decide +kernel))

/-- The reset falls between the verification of the old password and the
update. -/
def sampleResetInChange : List Action :=
  sampleBootstrap ++ sampleLogin 1 0 "admin" "password" ++
    [sampleRequest (some 1) .csrfToken,
      sampleRequest (some 1) (.changePassword "password" "new-password"),
      sampleResume 4,
      .createAdmin ["admin", "reset-password"] (sampleSupply "salt"),
      sampleResume 5]

def HttpTask.hashesStale (task : HttpTask) (users : UsersTable)
    (newPassword : String) : Bool :=
  match task.stage with
  | .hashNew user new =>
      new == newPassword && users.rows.any fun row =>
        row.id == user.id && row.passwordHash != user.passwordHash
  | _ => false

def Task.hashesStale (users : UsersTable) (newPassword : String) : Task → Bool
  | .http task => task.hashesStale users newPassword
  | .job _ _ _ => false

theorem Task.not_overwritesVerified {task : Task} {newPassword : String}
    (hstale : task.hashesStale users newPassword = true) :
    ∃ http user, task = .http http ∧ http.stage = .hashNew user newPassword ∧
      ¬ http.OverwritesVerified platform users user newPassword := by
  cases task with
  | http http =>
      have hstale : http.hashesStale users newPassword = true := hstale
      unfold HttpTask.hashesStale at hstale
      split at hstale
      next user new hstage =>
        simp only [Bool.and_eq_true, beq_iff_eq, List.any_eq_true, bne_iff_ne]
          at hstale
        obtain ⟨rfl, row, hrow, hid, hdifferent⟩ := hstale
        refine ⟨http, user, rfl, hstage, ?_⟩
        rintro ⟨currentPassword, _, _, hsame⟩
        exact hdifferent (hsame row hrow hid)
      · simp at hstale
  | job kind input stage => exact absurd hstale (by simp [Task.hashesStale])

/-- The change answers success and overwrites the password of the reset. -/
theorem reset_overwritten :
    ∃ mid last task user,
      (authMachine samplePlatform).exec (.initial .empty) sampleResetInChange =
          some mid ∧
        (authMachine samplePlatform).step mid (sampleResume 4) = some last ∧
        (4, .answer (.changePassword "password" "new-password")
          (.success 200 .empty)) ∈ last.trace ∧
        mid.tasks 4 = some (.http task) ∧
        task.stage = .hashNew user "new-password" ∧
        ¬ task.OverwritesVerified samplePlatform mid.users user "new-password" := by
  obtain ⟨mid, hmid, htest⟩ := Machine.exists_of_exec_map
    (authMachine samplePlatform) (.initial .empty) sampleResetInChange
    (fun mid =>
      (mid.tasks 4).any (Task.hashesStale mid.users "new-password") &&
      ((authMachine samplePlatform).step mid (sampleResume 4)).any fun last : AuthState =>
        decide ((4, .answer (.changePassword "password" "new-password")
          (.success 200 .empty)) ∈ last.trace))
    (by decide +kernel)
  simp only [Bool.and_eq_true, Option.any_eq_true, decide_eq_true_eq] at htest
  obtain ⟨⟨suspended, hfound, hstale⟩, last, hlast, hanswer⟩ := htest
  obtain ⟨task, user, rfl, hstage, hnot⟩ := Task.not_overwritesVerified hstale
  exact ⟨mid, last, task, user, hmid, hlast, hanswer, hfound, hstage, hnot⟩

end Pm2Manager
