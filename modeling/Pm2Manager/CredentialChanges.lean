import Mathlib.Data.List.Basic
import Pm2Manager.SessionProvenance

/-!
# Credential changes and logins

A login decides on the row it has read.  The trace records every write of a
password hash and of a second factor, so what a login has read can be compared
with the last write before its reading.  Nothing ties a login, or the
challenge it leaves in its session, to the writes which come after that.
-/

namespace Pm2Manager

open Function
open ScriptText (truthy)

variable {platform : Platform} {state next last : AuthState}
variable {action : Action} {trace more : Trace} {users : UsersTable}
variable {word : List Action}

/-! ## The last write of a column -/

/-- The value which the last event of the trace gives to a column. -/
def latest {α : Type} (column : Event → Option α) (trace : Trace) : Option α :=
  (trace.filterMap fun entry => column entry.2).getLast?

def Event.passwordOf (userId : ℕ) : Event → Option String
  | .insertUser id data => if id = userId then some data.passwordHash else none
  | .updatePassword id passwordHash =>
      if id = userId then some passwordHash else none
  | _ => none

def Event.totpOf (userId : ℕ) : Event → Option (Option String × Bool)
  | .insertUser id _ => if id = userId then some (none, false) else none
  | .setTotp id secret enabled =>
      if id = userId then some (secret, enabled) else none
  | _ => none

section

variable {α : Type} {column : Event → Option α}

theorem latest_append :
    latest column (trace ++ more) =
      (latest column more).or (latest column trace) := by
  simp [latest, List.filterMap_append, List.getLast?_append]

theorem latest_eq_none (hquiet : ∀ entry ∈ more, column entry.2 = none) :
    latest column more = none := by
  have hnone : more.filterMap (fun entry => column entry.2) = [] :=
    List.filterMap_eq_nil_iff.mpr hquiet
  rw [latest, hnone]
  rfl

theorem latest_append_quiet (hquiet : ∀ entry ∈ more, column entry.2 = none) :
    latest column (trace ++ more) = latest column trace := by
  rw [latest_append, latest_eq_none hquiet, Option.none_or]

theorem latest_append_written {id : TaskId} {event : Event}
    {before after : List Event}
    (hbefore : ∀ event ∈ before, column event = none)
    (hafter : ∀ event ∈ after, column event = none) :
    latest column (trace ++ (before ++ event :: after).map (Prod.mk id)) =
      (column event).or (latest column trace) := by
  have hmap : ∀ {events : List Event}, (∀ event ∈ events, column event = none) →
      ∀ entry ∈ events.map (Prod.mk id), column entry.2 = none := by
    intro events hevents entry hentry
    obtain ⟨event, hevent, rfl⟩ := List.mem_map.mp hentry
    exact hevents event hevent
  rw [List.map_append, List.map_cons, ← List.append_assoc,
    List.append_cons, latest_append_quiet (hmap hafter), latest_append,
    latest_append_quiet (hmap hbefore)]
  cases hcolumn : column event <;> simp [latest, hcolumn]

end

theorem passwordOf_quiet {userId : ℕ} {event : Event}
    (hquiet : event.onUsers = false) : event.passwordOf userId = none := by
  cases event <;> simp_all [Event.onUsers, Event.passwordOf]

theorem totpOf_quiet {userId : ℕ} {event : Event}
    (hquiet : event.onUsers = false) : event.totpOf userId = none := by
  cases event <;> simp_all [Event.onUsers, Event.totpOf]

/-- The credentials of a row are the last ones written before `trace` ends. -/
structure UserRecord.Current (row : UserRecord) (trace : Trace) : Prop where
  password : ∀ passwordHash,
    latest (Event.passwordOf row.id) trace = some passwordHash →
    row.passwordHash = passwordHash
  totp : ∀ secret enabled,
    latest (Event.totpOf row.id) trace = some (secret, enabled) →
    row.totpSecret = secret ∧ row.totpEnabled = enabled

theorem UserRecord.Current.append_quiet {row : UserRecord}
    (hcurrent : row.Current trace)
    (hquiet : ∀ entry ∈ more, entry.2.onUsers = false) :
    row.Current (trace ++ more) := by
  constructor
  · intro passwordHash hlatest
    rw [latest_append_quiet fun entry hentry =>
      passwordOf_quiet (hquiet entry hentry)] at hlatest
    exact hcurrent.password passwordHash hlatest
  · intro secret enabled hlatest
    rw [latest_append_quiet fun entry hentry =>
      totpOf_quiet (hquiet entry hentry)] at hlatest
    exact hcurrent.totp secret enabled hlatest

theorem UserRecord.Current.append_written {old row : UserRecord} {id : TaskId}
    {event : Event} {before after : List Event}
    (hcurrent : old.Current trace) (hid : row.id = old.id)
    (hbefore : ∀ event ∈ before, event.onUsers = false)
    (hafter : ∀ event ∈ after, event.onUsers = false)
    (hpassword : row.passwordHash =
      (event.passwordOf row.id).getD old.passwordHash)
    (htotp : (row.totpSecret, row.totpEnabled) =
      (event.totpOf row.id).getD (old.totpSecret, old.totpEnabled)) :
    row.Current (trace ++ (before ++ event :: after).map (Prod.mk id)) := by
  constructor
  · intro passwordHash hlatest
    rw [latest_append_written (fun event h => passwordOf_quiet (hbefore event h))
      (fun event h => passwordOf_quiet (hafter event h))] at hlatest
    cases hevent : event.passwordOf row.id with
    | none =>
        rw [hevent, Option.none_or, hid] at hlatest
        rw [hpassword, hevent]
        exact hcurrent.password passwordHash hlatest
    | some written =>
        rw [hevent, Option.some_or, Option.some.injEq] at hlatest
        rw [hpassword, hevent]
        exact hlatest
  · intro secret enabled hlatest
    rw [latest_append_written (fun event h => totpOf_quiet (hbefore event h))
      (fun event h => totpOf_quiet (hafter event h))] at hlatest
    have hpair : (row.totpSecret, row.totpEnabled) = (secret, enabled) := by
      cases hevent : event.totpOf row.id with
      | none =>
          rw [hevent, Option.none_or, hid] at hlatest
          rw [htotp, hevent]
          obtain ⟨hsecret, henabled⟩ := hcurrent.totp secret enabled hlatest
          exact Prod.ext hsecret henabled
      | some written =>
          rw [hevent, Option.some_or, Option.some.injEq] at hlatest
          rw [htotp, hevent]
          exact hlatest
    exact Prod.mk.inj hpair

theorem UserRecord.Current.updatePassword {old : UserRecord} {id : TaskId}
    {userId : ℕ} {passwordHash now : String} {before after : List Event}
    (hcurrent : old.Current trace)
    (hbefore : ∀ event ∈ before, event.onUsers = false)
    (hafter : ∀ event ∈ after, event.onUsers = false) :
    (if old.id = userId then
      { old with passwordHash := passwordHash, updatedAt := now }
      else old).Current (trace ++ (before ++
        .updatePassword userId passwordHash :: after).map (Prod.mk id)) := by
  split
  next hsame =>
    exact hcurrent.append_written rfl hbefore hafter
      (by simp [Event.passwordOf, hsame]) (by simp [Event.totpOf])
  next hother =>
    exact hcurrent.append_written rfl hbefore hafter
      (by simp [Event.passwordOf, Ne.symm hother]) (by simp [Event.totpOf])

theorem UserRecord.Current.setTotp {old : UserRecord} {id : TaskId}
    {userId : ℕ} {secret : Option String} {enabled : Bool} {now : String}
    {before after : List Event} (hcurrent : old.Current trace)
    (hbefore : ∀ event ∈ before, event.onUsers = false)
    (hafter : ∀ event ∈ after, event.onUsers = false) :
    (if old.id = userId then { old with
      totpSecret := secret, totpEnabled := enabled, updatedAt := now }
      else old).Current (trace ++ (before ++
        .setTotp userId secret enabled :: after).map (Prod.mk id)) := by
  split
  next hsame =>
    exact hcurrent.append_written rfl hbefore hafter
      (by simp [Event.passwordOf]) (by simp [Event.totpOf, hsame])
  next hother =>
    exact hcurrent.append_written rfl hbefore hafter
      (by simp [Event.passwordOf]) (by simp [Event.totpOf, Ne.symm hother])

theorem UserRecord.Current.inserted {row : UserRecord} {id : TaskId}
    {data : CreateUserData} {before after : List Event}
    (hbefore : ∀ event ∈ before, event.onUsers = false)
    (hafter : ∀ event ∈ after, event.onUsers = false)
    (hpassword : row.passwordHash = data.passwordHash)
    (hsecret : row.totpSecret = none) (henabled : row.totpEnabled = false) :
    row.Current (trace ++ (before ++
      .insertUser row.id data :: after).map (Prod.mk id)) := by
  constructor
  · intro passwordHash hlatest
    rw [latest_append_written (fun event h => passwordOf_quiet (hbefore event h))
      (fun event h => passwordOf_quiet (hafter event h)), Event.passwordOf,
      if_pos rfl, Option.some_or, Option.some.injEq] at hlatest
    exact hpassword.trans hlatest
  · intro secret enabled hlatest
    rw [latest_append_written (fun event h => totpOf_quiet (hbefore event h))
      (fun event h => totpOf_quiet (hafter event h)), Event.totpOf,
      if_pos rfl, Option.some_or, Option.some.injEq, Prod.mk.injEq] at hlatest
    exact ⟨hsecret.trans hlatest.1, henabled.trans hlatest.2⟩

/-! ## The table agrees with the trace -/

def AuthState.RowsCurrent (state : AuthState) : Prop :=
  ∀ row ∈ state.users.rows, row.Current state.trace

theorem rowsCurrent_step :
    (authMachine platform).Preserves Machine.anyAction
      AuthState.RowsCurrent := by
  intro state action next hstate _ hstep row hrow
  cases users_step hstep with
  | quiet id events hevents husers htrace =>
      rw [htrace]
      refine (hstate row (husers ▸ hrow)).append_quiet fun entry hentry => ?_
      obtain ⟨event, hevent, rfl⟩ := List.mem_map.mp hentry
      exact hevents event hevent
  | written id now event before after hcause hbefore hafter husers htrace =>
      rw [htrace]
      rw [husers] at hrow
      cases hcause with
      | changePassword | resetPassword =>
          obtain ⟨old, hold, rfl⟩ := UsersTable.mem_rows_updatePassword.mp hrow
          exact (hstate old hold).updatePassword hbefore hafter
      | enableTotp | disableTotp =>
          obtain ⟨old, hold, rfl⟩ := UsersTable.mem_rows_setTotp.mp hrow
          exact (hstate old hold).setTotp hbefore hafter
      | deleteUser =>
          exact (hstate row (UsersTable.mem_rows_delete.mp hrow).1)
            |>.append_written rfl hbefore hafter rfl rfl
      | createUser id supply task input table htask hstage hcreate
      | createInJob id supply kind input table htask hcreate =>
          simp only [AuthState.write, hcreate, Option.getD_some] at hrow
          rw [(UsersTable.create_eq_some hcreate).2.1] at hrow
          rcases List.mem_append.mp hrow with hold | hnew
          · have hbound := state.users.idBound row hold
            have hne : state.users.nextId ≠ row.id := by
              unfold UsersTable.nextId
              omega
            exact (hstate row hold).append_written rfl hbefore hafter
              (by simp [Event.passwordOf, hne]) (by simp [Event.totpOf, hne])
          · obtain rfl := List.mem_singleton.mp hnew
            exact .inserted hbefore hafter rfl rfl rfl

/-! ## What a login has read -/

theorem SessionMove.read {task : HttpTask} {segment : Segment}
    {sid : SessionId} {row : UserRecord}
    (hmove : SessionMove platform state task segment)
    (hread : .credentialsRead sid (some row) ∈ segment.events) :
    row ∈ state.users.rows ∧ (∀ event ∈ segment.events, event.onUsers = false) ∧
      ∀ endpoint, segment.outcome.closing endpoint = [] := by
  have hrow := hmove.rowRead_mem hread rfl
  cases hmove with
  | kept after hevents => simpa [Event.isPlain] using hevents _ hread
  | reading username password =>
      exact ⟨hrow, by simp [login, Event.onUsers], fun endpoint => rfl⟩
  | leaving logged hlogged =>
      simp only [List.mem_append, List.mem_singleton, reduceCtorEq,
        or_false] at hread
      simpa [Event.isPlain] using hlogged _ hread
  | challenged | passed | accepted | attached | closed =>
      simp [regenerateSession, attachUser, loggedOut] at hread

theorem read_performed {http : HttpTask} {supply : Supply} {sid : SessionId}
    {row : UserRecord} (hmem : .credentialsRead sid (some row) ∈
      http.performed platform state supply) :
    row ∈ state.users.rows ∧
      ∀ event ∈ http.performed platform state supply,
        event.onUsers = false := by
  unfold HttpTask.performed at hmem ⊢
  dsimp only at hmem ⊢
  rcases List.mem_append.mp hmem with hmem | hmem
  · obtain ⟨hrow, hquiet, hclosing⟩ := segment_sessionMove.read hmem
    rw [hclosing, List.append_nil]
    exact ⟨hrow, hquiet⟩
  · simpa [Event.rowRead] using Outcome.closing_rowRead hmem

theorem AuthState.openSession_unread (state : AuthState)
    (cookie : Option SessionId) {sid : SessionId} (row : UserRecord) :
    .credentialsRead sid (some row) ∉ (state.openSession cookie).2 := by
  rcases state.openSession_cases cookie with ⟨found, data, _, hopen⟩ | hopen <;>
    simp [hopen]

/-- The events a transition adds: where they read a row for a login, the row
is in the table and no event of the transition writes it. -/
theorem read_step
    (hstep : (authMachine platform).step state action = some next) :
    ∃ id events, next.trace = state.trace ++ List.map (Prod.mk id) events ∧
      ∀ sid row, .credentialsRead sid (some row) ∈ events →
        row ∈ state.users.rows ∧ ∀ event ∈ events, event.onUsers = false := by
  cases step_cases hstep with
  | request request supply =>
      refine ⟨state.nextTask, (state.openSession request.cookie).2 ++
        (state.acceptedTask request).performed platform
          (state.accept request supply.now) supply, ?_, fun sid row hmem => ?_⟩
      · rw [AuthState.runHttp_trace, AuthState.accept_trace, List.append_assoc,
          ← List.map_append]
      · have hopening := AuthState.openSession_quiet state request.cookie
        rcases List.mem_append.mp hmem with hmem | hmem
        · exact absurd hmem (state.openSession_unread request.cookie _)
        · obtain ⟨hrow, hquiet⟩ := read_performed hmem
          rw [AuthState.accept_users] at hrow
          constructor
          · exact hrow
          · intro event hevent
            rcases List.mem_append.mp hevent with hevent | hevent
            · exact hopening event hevent
            · exact hquiet event hevent
  | arrived request now =>
      exact ⟨state.nextTask, _, AuthState.accept_trace request now,
        fun sid row hmem => absurd hmem (state.openSession_unread _ _)⟩
  | resumed id supply http htask =>
      exact ⟨id, _, AuthState.runHttp_trace id http supply,
        fun sid row hmem => read_performed hmem⟩
  | job id supply kind input stage htask =>
      refine ⟨id, _, AuthState.commit_trace, fun sid row hmem => ?_⟩
      simpa [Event.ofJob] using jobSegment_ofJob _ hmem
  | createAdmin args supply input hargs =>
      refine ⟨state.nextTask, _, AuthState.commit_trace, fun sid row hmem => ?_⟩
      simp [createAdminStart_events] at hmem
  | bootstrap supply =>
      refine ⟨state.nextTask, _, AuthState.commit_trace, fun sid row hmem => ?_⟩
      simpa [Event.ofJob] using bootstrapStart_ofJob _ hmem
  | expire sid => exact ⟨0, [], by simp, by simp⟩

/-- Every row a login has read had, at that point of the trace, the
credentials written last. -/
structure AuthState.ReadsCurrent (state : AuthState) : Prop where
  current : state.RowsCurrent
  reads : ∀ before after task sid row,
    state.trace =
      before ++ (task, Event.credentialsRead sid (some row)) :: after →
    row.Current before

theorem readsCurrent_step :
    (authMachine platform).Preserves Machine.anyAction
      AuthState.ReadsCurrent := by
  intro state action next hstate _ hstep
  refine ⟨rowsCurrent_step state action next hstate.current trivial hstep, ?_⟩
  intro before after task sid row hsplit
  obtain ⟨id, events, htrace, hreads⟩ := read_step hstep
  -- a reading of this transition, behind some of its other events
  have hnew : ∀ first, before = state.trace ++ first →
      List.map (Prod.mk id) events =
        first ++ (task, Event.credentialsRead sid (some row)) :: after →
      row.Current before := by
    intro first hbefore hevents
    have hmem : ∀ entry ∈ first ++
        (task, Event.credentialsRead sid (some row)) :: after,
        entry.2 ∈ events := by
      intro entry hentry
      obtain ⟨event, hevent, rfl⟩ := List.mem_map.mp (hevents ▸ hentry)
      exact hevent
    obtain ⟨hrow, hquiet⟩ := hreads sid row
      (hmem (task, .credentialsRead sid (some row)) (by simp))
    rw [hbefore]
    refine (hstate.current row hrow).append_quiet fun entry hentry => ?_
    exact hquiet entry.2 (hmem entry (List.mem_append_left _ hentry))
  rw [htrace, List.append_eq_append_iff] at hsplit
  rcases hsplit with ⟨first, hbefore, hevents⟩ | ⟨rest, hold, hrest⟩
  · exact hnew first hbefore hevents
  · cases rest with
    | nil => exact hnew [] (by simpa using hold.symm) (by simpa using hrest.symm)
    | cons entry rest =>
        obtain ⟨rfl, _⟩ := List.cons.inj hrest
        exact hstate.reads before rest task sid row hold

theorem readsCurrent_of_exec
    (hexec : (authMachine platform).exec (.initial users) word = some state) :
    state.ReadsCurrent := by
  refine readsCurrent_step.exec_any ⟨?_, ?_⟩ hexec
  · intro row _
    exact ⟨by simp [AuthState.initial, latest], by simp [AuthState.initial, latest]⟩
  · intro before after task sid row hsplit
    simp [AuthState.initial] at hsplit

/-! ## Logins after a change -/

theorem LoginSteps.current {userId : ℕ} {task first : TaskId} {steps : Trace}
    {asked : SessionId} {row : UserRecord} {before : Trace}
    (hsteps : LoginSteps platform userId task steps)
    (hread : (first, Event.credentialsRead asked (some row)) ∈ steps)
    (hcurrent : row.Current before) :
    (∀ passwordHash, latest (Event.passwordOf userId) before =
        some passwordHash →
      ∃ password, platform.verifyPassword passwordHash password = true ∧
        (first, .passwordChecked asked (some row) password true) ∈ steps) ∧
      ∀ secret, latest (Event.totpOf userId) before = some (secret, true) →
        ∃ second pending current token found, pending.userId = userId ∧
          current.id = userId ∧ truthy current.totpSecret = some found ∧
          platform.totpVerify token found = true ∧
          (second, .totpAccepted asked pending current token) ∈ steps := by
  cases hsteps with
  | password task sid other password hid hverify htotp =>
      simp only [passwordSteps, List.mem_cons, Prod.mk.injEq,
        Event.credentialsRead.injEq, Option.some.injEq, reduceCtorEq, and_false,
        List.not_mem_nil, or_false] at hread
      obtain ⟨rfl, rfl, rfl⟩ := hread
      subst hid
      constructor
      · intro passwordHash hlatest
        have hhash := hcurrent.password passwordHash hlatest
        exact ⟨password, hhash ▸ hverify, by simp [passwordSteps]⟩
      · intro secret hlatest
        have henabled := (hcurrent.totp secret true hlatest).2
        rw [henabled] at htotp
        simp at htotp
  | totp reader task sid other current password token secret pending hid hverify
      htotp hpending hcurrentId hsecret haccepted =>
      simp only [passwordSteps, List.mem_cons, Prod.mk.injEq, List.cons_append,
        List.nil_append, Event.credentialsRead.injEq, Option.some.injEq,
        reduceCtorEq, and_false, List.not_mem_nil, or_false] at hread
      obtain ⟨rfl, rfl, rfl⟩ := hread
      subst hid
      constructor
      · intro passwordHash hlatest
        have hhash := hcurrent.password passwordHash hlatest
        exact ⟨password, hhash ▸ hverify, by simp [passwordSteps]⟩
      · intro _ _
        exact ⟨task, pending, current, token, secret, hpending, hcurrentId,
          hsecret, haccepted, by simp [passwordSteps]⟩

/-- Every session a user is attached to rests on a login which verified a
password against the hash that was written last before it read the row; when
a second factor had been enabled before that reading, and not disabled since,
the session rests on an accepted code too. -/
theorem established_rests_on_read {task : TaskId} {sid : SessionId}
    {userId : ℕ}
    (hexec : (authMachine platform).exec (.initial users) word = some last)
    (hmem : (task, Event.established sid userId) ∈ last.trace) :
    ∃ finisher steps, LoginSteps platform userId finisher steps ∧
      (steps ++ [(finisher, Event.established sid userId)]).Sublist last.trace ∧
      ∀ first asked row before after,
        (first, Event.credentialsRead asked (some row)) ∈ steps →
        last.trace =
          before ++ (first, Event.credentialsRead asked (some row)) :: after →
        (∀ passwordHash, latest (Event.passwordOf userId) before =
            some passwordHash →
          ∃ password, platform.verifyPassword passwordHash password = true ∧
            (first, .passwordChecked asked (some row) password true) ∈ steps) ∧
          ∀ secret, latest (Event.totpOf userId) before =
              some (secret, true) →
            ∃ second pending current token found, pending.userId = userId ∧
              current.id = userId ∧ truthy current.totpSecret = some found ∧
              platform.totpVerify token found = true ∧
              (second, .totpAccepted asked pending current token) ∈ steps := by
  obtain ⟨finisher, steps, hsteps, hsub⟩ :=
    (provenance_of_exec hexec).established task sid userId hmem
  refine ⟨finisher, steps, hsteps, hsub, ?_⟩
  intro first asked row before after hread hsplit
  have hreads := (readsCurrent_of_exec hexec).reads
  have hcurrent : row.Current before :=
    hreads before after first asked row hsplit
  exact hsteps.current hread hcurrent

/-- While a login of the administrator is in the verification of the old
password, another session changes the password. -/
def sampleOvertakenLogin : List Action :=
  sampleBootstrap ++ sampleLogin 1 0 "admin" "password" ++
    [sampleRequest (some 1) .csrfToken, sampleRequest none .csrfToken,
      sampleRequest (some 2) (.login "admin" "password"),
      sampleRequest (some 1) (.changePassword "password" "new-password"),
      sampleResume 6, sampleResume 6, sampleResume 5, sampleResume 5,
      sampleResume 5]

/-- The event is not a successful check of another password. -/
def Event.checksOnly (password : String) : Event → Bool
  | .passwordChecked _ _ entered true => entered == password
  | _ => true

theorem sampleOvertakenLogin_exec :
    ∃ last, (authMachine samplePlatform).exec (.initial .empty)
        sampleOvertakenLogin = some last ∧
      List.Sublist
        [(6, .answer (.changePassword "password" "new-password")
          (.success 200 .empty)), (5, .established 3 1)] last.trace ∧
      ∀ task sid row password,
        (task, Event.passwordChecked sid row password true) ∈ last.trace →
        password = "password" := by
  obtain ⟨last, hexec, htest⟩ := Machine.exists_of_exec_map
    (authMachine samplePlatform) (.initial .empty) sampleOvertakenLogin
    (fun last => List.isSublist
        [(6, .answer (.changePassword "password" "new-password")
          (.success 200 .empty)), (5, .established 3 1)] last.trace &&
      last.trace.all fun entry => entry.2.checksOnly "password")
    (by decide +kernel)
  simp only [Bool.and_eq_true, List.all_eq_true] at htest
  refine ⟨last, hexec, List.isSublist_iff_sublist.mp htest.1, ?_⟩
  intro task sid row password hmem
  simpa [Event.checksOnly] using htest.2 _ hmem

theorem established_rests_on_read_sampleOvertakenLogin :
    ∃ last, (authMachine samplePlatform).exec (.initial .empty)
        sampleOvertakenLogin = some last ∧
      ∃ finisher steps, LoginSteps samplePlatform 1 finisher steps ∧
        (steps ++ [(finisher, Event.established 3 1)]).Sublist last.trace := by
  obtain ⟨last, hexec, hsub, _⟩ := sampleOvertakenLogin_exec
  have hmem : (5, Event.established 3 1) ∈ last.trace := hsub.subset (by simp)
  obtain ⟨finisher, steps, hsteps, htrace, _⟩ :=
    established_rests_on_read hexec hmem
  exact ⟨last, hexec, finisher, steps, hsteps, htrace⟩

/-- The login ends in a session after the change has answered success, and
only the old password has ever been verified. -/
theorem established_after_change_with_old_password :
    ∃ last, (authMachine samplePlatform).exec (.initial .empty)
        sampleOvertakenLogin = some last ∧
      List.Sublist
        [(6, .answer (.changePassword "password" "new-password")
          (.success 200 .empty)), (5, .established 3 1)] last.trace ∧
      ∀ task sid row password,
        (task, Event.passwordChecked sid row password true) ∈ last.trace →
        password ≠ "new-password" := by
  obtain ⟨last, hexec, hsub, hchecks⟩ := sampleOvertakenLogin_exec
  refine ⟨last, hexec, hsub, fun task sid row password hmem hnew => ?_⟩
  have hold := hchecks task sid row password hmem
  simp [hnew] at hold

end Pm2Manager
