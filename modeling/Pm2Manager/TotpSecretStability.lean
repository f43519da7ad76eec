import Pm2Manager.AuthTransitions

/-!
# The second factor of an account

`setupTwoFactor` refuses an account which has a second factor already, and
`disableTwoFactor` asks for the password again.  The secret is written by
`enableTwoFactor`, from the session, without either check.  So a secret stays
in place exactly as long as no accepted code of another session of the user
meets a row whose second factor is on.
-/

namespace Pm2Manager

open ScriptText (truthy)

variable {platform : Platform} {state mid last next : AuthState}
variable {action : Action} {before after : List Action} {id : ℕ}
variable {secret : String}

/-- The row of `id`, while there is one, has a second factor with `secret`. -/
def AuthState.KeepsTotp (id : ℕ) (secret : String) (state : AuthState) : Prop :=
  ∀ row ∈ state.users.rows, row.id = id →
    row.totpEnabled = true ∧ row.totpSecret = some secret

/-- The action completes a `disableTwoFactor` of `id` with the right password. -/
def DisablesTotp (platform : Platform) (id : ℕ) (state : AuthState)
    (action : Action) : Prop :=
  ∃ taskId supply task user password,
    action = .resume taskId supply ∧
      state.tasks taskId = some (.http task) ∧
      task.stage = .verifyDisable user password ∧
      user.id = id ∧
      platform.verifyPassword user.passwordHash password = true

/-- An `enableTwoFactor` of `id` which would be accepted finds the second
factor of the row off, or on with the secret it brings. -/
def EnablesUnset (platform : Platform) (id : ℕ) (state : AuthState)
    (action : Action) : Prop :=
  ∀ acting task supply raw token secret user row,
    state.Runs action acting task supply →
    task.stage = .arrived →
    Admitted task.request task.session.data →
    task.request.endpoint = .enableTwoFactor raw →
    totpCode raw = .ok token →
    task.session.data.user = some user →
    user.id = id →
    truthy task.session.data.pendingTotpSecret = some secret →
    platform.totpVerify token secret = true →
    row ∈ state.users.rows → row.id = id → row.totpEnabled = true →
    row.totpSecret = some secret

def AuthState.Given (id : ℕ) (state : AuthState) : Prop :=
  id ≤ state.users.seq

theorem given_step :
    (authMachine platform).Preserves Machine.anyAction (AuthState.Given id) := by
  intro state action next hstate _ hstep
  exact Nat.le_trans hstate (users_step hstep).seq_le

theorem keepsTotp_step (hstate : state.Given id)
    (hkeeps : state.KeepsTotp id secret)
    (hdisable : ¬ DisablesTotp platform id state action)
    (henable : EnablesUnset platform id state action)
    (hstep : (authMachine platform).step state action = some next) :
    next.KeepsTotp id secret := by
  intro row hrow hid
  cases users_step hstep with
  | quiet task events hevents husers htrace =>
      rw [husers] at hrow
      exact hkeeps row hrow hid
  | written task now event before after hcause hbefore hafter husers htrace =>
      rw [husers] at hrow
      cases hcause with
      | changePassword | resetPassword =>
          obtain ⟨old, hold, rfl⟩ := UsersTable.mem_rows_updatePassword.mp hrow
          have hkept := hkeeps old hold (by split at hid <;> exact hid)
          split <;> exact hkept
      | enableTotp action acting http supply raw token found user hruns hstage
          hadmitted hendpoint htoken huser hsecret hverify =>
          obtain ⟨old, hold, rfl⟩ := UsersTable.mem_rows_setTotp.mp hrow
          by_cases hsame : old.id = user.id
          · simp only [hsame, if_true] at hid ⊢
            have holdId : old.id = id := hsame.trans hid
            have hkept := hkeeps old hold holdId
            have hfound := henable acting http supply raw token found user old
              hruns hstage hadmitted hendpoint htoken huser hid hsecret hverify
              hold holdId hkept.1
            exact ⟨trivial, hfound.symm.trans hkept.2⟩
          · simp only [hsame, if_false] at hid ⊢
            exact hkeeps old hold hid
      | disableTotp taskId supply http user password htask hstage hverify =>
          obtain ⟨old, hold, rfl⟩ := UsersTable.mem_rows_setTotp.mp hrow
          have hother : user.id ≠ id := fun huser =>
            hdisable ⟨taskId, supply, http, user, password, rfl, htask, hstage,
              huser, hverify⟩
          by_cases hsame : old.id = user.id
          · simp only [hsame, if_true] at hid
            exact absurd (hsame ▸ hid) hother
          · simp only [hsame, if_false] at hid ⊢
            exact hkeeps old hold hid
      | createUser taskId supply http input table htask hstage hcreate
      | createInJob taskId supply kind input table htask hcreate =>
          simp only [AuthState.write, hcreate, Option.getD_some] at hrow
          rw [(UsersTable.create_eq_some hcreate).2.1] at hrow
          rcases List.mem_append.mp hrow with hold | hnew
          · exact hkeeps row hold hid
          · have hfresh : id = state.users.seq + 1 := by
              rw [← hid, List.mem_singleton.mp hnew]
              rfl
            have hgiven : id ≤ state.users.seq := hstate
            omega
      | deleteUser action acting http supply raw other target =>
          exact hkeeps row (UsersTable.mem_rows_delete.mp hrow).1 hid

theorem runHttp_enableTwoFactor {opened : AuthState} {acting : TaskId}
    {task : HttpTask} {supply : Supply} {raw token : String}
    {user : SessionUser} (hstage : task.stage = .arrived)
    (hadmitted : Admitted task.request task.session.data)
    (hendpoint : task.request.endpoint = .enableTwoFactor raw)
    (htoken : totpCode raw = .ok token)
    (huser : task.session.data.user = some user)
    (hsecret : truthy task.session.data.pendingTotpSecret = some secret)
    (hverify : platform.totpVerify token secret = true) :
    (opened.runHttp platform acting task supply).users =
      opened.users.setTotp user.id (some secret) true supply.now := by
  have hcontroller : controller platform opened task.request task.session
      supply = .ok (enableTwoFactor platform task.request task.session token) := by
    simp only [controller, hendpoint, htoken, Except.map]
  have hsegment : task.segment platform opened supply =
      enableTwoFactor platform task.request task.session token := by
    unfold HttpTask.segment
    rw [hstage]
    exact arrive_of_admitted hadmitted hcontroller
  rw [AuthState.runHttp, AuthState.commit_users, hsegment]
  simp only [enableTwoFactor, currentUser, huser, hsecret, hverify, if_true,
    List.cons_append]
  rw [AuthState.performAll_users_head]
  · rfl
  · intro event hevent
    simp only [List.mem_cons] at hevent
    rcases hevent with rfl | hevent
    · rfl
    · exact AuthState.closing_quiet event (by simpa using hevent)

theorem enableTwoFactor_users {acting : TaskId} {task : HttpTask}
    {supply : Supply} {raw token : String} {user : SessionUser}
    (hruns : state.Runs action acting task supply)
    (hstage : task.stage = .arrived)
    (hadmitted : Admitted task.request task.session.data)
    (hendpoint : task.request.endpoint = .enableTwoFactor raw)
    (htoken : totpCode raw = .ok token)
    (huser : task.session.data.user = some user)
    (hsecret : truthy task.session.data.pendingTotpSecret = some secret)
    (hverify : platform.totpVerify token secret = true)
    (hstep : (authMachine platform).step state action = some next) :
    next.users = state.users.setTotp user.id (some secret) true supply.now := by
  cases hruns with
  | arriving request supply =>
      cases step_cases hstep with
      | request request supply =>
          rw [runHttp_enableTwoFactor rfl hadmitted hendpoint htoken huser
            hsecret hverify, AuthState.accept_users]
  | resumed acting supply task htask =>
      cases step_cases hstep with
      | resumed id supply http hhttp =>
          rw [htask, Option.some.injEq, Task.http.injEq] at hhttp
          subst http
          exact runHttp_enableTwoFactor hstage hadmitted hendpoint htoken huser
            hsecret hverify
      | job id supply kind input stage hjob => simp [htask] at hjob

theorem not_keepsTotp_step (hkeeps : state.KeepsTotp id secret)
    (henable : ¬ EnablesUnset platform id state action)
    (hstep : (authMachine platform).step state action = some next) :
    ¬ next.KeepsTotp id secret := by
  intro hnext
  simp only [EnablesUnset, not_forall] at henable
  obtain ⟨acting, task, supply, raw, token, found, user, row, hruns, hstage,
    hadmitted, hendpoint, htoken, huser, huserId, hsecret, hverify, hrow, hid,
    _, hdifferent⟩ := henable
  have husers := enableTwoFactor_users hruns hstage hadmitted hendpoint htoken
    huser hsecret hverify hstep
  have hmem : { row with
      totpSecret := some found, totpEnabled := true, updatedAt := supply.now } ∈
      next.users.rows := by
    rw [husers]
    refine UsersTable.mem_rows_setTotp.mpr ⟨row, hrow, ?_⟩
    rw [if_pos (hid.trans huserId.symm)]
  have hfound := (hnext _ hmem hid).2
  exact hdifferent ((hkeeps row hrow hid).2.trans hfound.symm)

/-- From the moment an account has a second factor with some secret, and as
long as no `disableTwoFactor` of it succeeds, the runs which leave the secret
in place are the ones in which every accepted `enableTwoFactor` of the account
finds the second factor off. -/
theorem totpSecret_kept_iff {users : UsersTable} {row : UserRecord}
    (_hreach : (authMachine platform).exec (.initial users) before = some mid)
    (hrow : row ∈ mid.users.rows) (hid : row.id = id)
    (henabled : row.totpEnabled = true) (hsecret : row.totpSecret = some secret)
    (hexec : (authMachine platform).exec mid after = some last)
    (hdisable : (authMachine platform).Admits
      (fun state action => ¬ DisablesTotp platform id state action) mid after) :
    (authMachine platform).Along (AuthState.KeepsTotp id secret) mid after ↔
      (authMachine platform).Admits (EnablesUnset platform id) mid after := by
  have hgiven : mid.Given id := hid ▸ mid.users.idBound row hrow
  have hkeeps : mid.KeepsTotp id secret := by
    intro other hother hotherId
    have hsame : other = row := List.inj_on_of_nodup_map mid.users.idUnique
      hother hrow (hotherId.trans hid.symm)
    exact hsame ▸ ⟨henabled, hsecret⟩
  refine Machine.along_iff_admits given_step ?_ ?_ hgiven hkeeps hdisable hexec
  · intro state action next hstate hkept hallowed hok hstep
    exact keepsTotp_step hstate hkept hallowed hok hstep
  · intro state action next _ hkept _ hnot hstep
    exact not_keepsTotp_step hkept hnot hstep

/-- Two sessions of the administrator have both run the setup; the first one
then enables the second factor. -/
def sampleTwoSetups : List Action :=
  sampleBootstrap ++ sampleLogin 1 0 "admin" "password" ++
    sampleLogin 3 2 "admin" "password" ++
    [sampleRequest (some 1) .csrfToken, sampleRequest (some 3) .csrfToken,
      sampleRequest (some 1) .setupTwoFactor "111111", sampleResume 7,
      sampleRequest (some 3) .setupTwoFactor "222222", sampleResume 8,
      sampleRequest (some 1) (.enableTwoFactor "111111")]

/-- The other session then enables it again, with its own secret. -/
def sampleSecondEnable : List Action :=
  [sampleRequest (some 3) (.enableTwoFactor "222222")]

theorem sampleSecondEnable_disables (mid : AuthState) :
    (authMachine samplePlatform).Admits
      (fun state action => ¬ DisablesTotp samplePlatform 1 state action) mid
      sampleSecondEnable := by
  constructor
  · rintro ⟨task, supply, http, user, password, haction, _⟩
    cases haction
  · exact fun _ _ => trivial

theorem sampleSecondEnable_exec :
    ∃ mid last, ∃ row ∈ mid.users.rows, ∃ new ∈ last.users.rows,
      (authMachine samplePlatform).exec (.initial .empty) sampleTwoSetups =
          some mid ∧
        (authMachine samplePlatform).exec mid sampleSecondEnable = some last ∧
        row.id = 1 ∧ row.totpEnabled = true ∧ row.totpSecret = some "111111" ∧
        new.id = 1 ∧ new.totpSecret = some "222222" := by
  obtain ⟨mid, hmid, htest⟩ := Machine.exists_of_exec_map
    (authMachine samplePlatform) (.initial .empty) sampleTwoSetups
    (fun mid =>
      (mid.users.findById 1).any (fun row =>
        row.totpEnabled && row.totpSecret == some "111111") &&
      ((authMachine samplePlatform).exec mid sampleSecondEnable).map
        (fun last => (last.users.findById 1).any fun row =>
          row.totpSecret == some "222222") == some true)
    (by decide +kernel)
  simp only [Bool.and_eq_true, beq_iff_eq] at htest
  obtain ⟨hbefore, hafter⟩ := htest
  obtain ⟨last, hlast, hreplaced⟩ := Machine.exists_of_exec_map _ _ _ _ hafter
  obtain ⟨row, hrow, hset⟩ := (Option.any_eq_true _ _).mp hbefore
  obtain ⟨new, hnew, hnewSecret⟩ := (Option.any_eq_true _ _).mp hreplaced
  obtain ⟨hmem, hid⟩ := UsersTable.mem_of_findById hrow
  obtain ⟨hnewMem, hnewId⟩ := UsersTable.mem_of_findById hnew
  simp only [Bool.and_eq_true, beq_iff_eq] at hset hnewSecret
  exact ⟨mid, last, row, hmem, new, hnewMem, hmid, hlast, hid, hset.1, hset.2,
    hnewId, hnewSecret⟩

theorem totpSecret_kept_iff_sampleSecondEnable :
    ∃ mid last, (authMachine samplePlatform).exec (.initial .empty)
        sampleTwoSetups = some mid ∧
      (authMachine samplePlatform).exec mid sampleSecondEnable = some last ∧
      ((authMachine samplePlatform).Along (AuthState.KeepsTotp 1 "111111") mid
          sampleSecondEnable ↔
        (authMachine samplePlatform).Admits (EnablesUnset samplePlatform 1) mid
          sampleSecondEnable) := by
  obtain ⟨mid, last, row, hrow, _, _, hmid, hlast, hid, henabled, hsecret, _⟩ :=
    sampleSecondEnable_exec
  exact ⟨mid, last, hmid, hlast, totpSecret_kept_iff hmid hrow hid henabled
    hsecret hlast (sampleSecondEnable_disables mid)⟩

/-- The secret is replaced although no password was asked for. -/
theorem totpSecret_replaced :
    ∃ mid last, ∃ row ∈ mid.users.rows,
      (authMachine samplePlatform).exec (.initial .empty) sampleTwoSetups =
          some mid ∧
        (authMachine samplePlatform).exec mid sampleSecondEnable = some last ∧
        (authMachine samplePlatform).Admits
          (fun state action => ¬ DisablesTotp samplePlatform 1 state action) mid
          sampleSecondEnable ∧
        row.id = 1 ∧ row.totpEnabled = true ∧ row.totpSecret = some "111111" ∧
        ¬ last.KeepsTotp 1 "111111" := by
  obtain ⟨mid, last, row, hrow, new, hnew, hmid, hlast, hid, henabled, hsecret,
    hnewId, hnewSecret⟩ := sampleSecondEnable_exec
  refine ⟨mid, last, row, hrow, hmid, hlast, sampleSecondEnable_disables mid,
    hid, henabled, hsecret, ?_⟩
  intro hkeeps
  have hkept := (hkeeps new hnew hnewId).2
  rw [hnewSecret] at hkept
  simp at hkept

end Pm2Manager
