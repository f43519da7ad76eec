import Pm2Manager.TwoRuns

/-!
# No answer shows a stored secret

A password hash or a TOTP secret shows only through the outcome of a check.
Two runs over tables which differ in these two columns only, in which every
check has the same outcome, therefore give the same answers: such tables have
the same public rows, the table operations are read off the public rows, each
handler is followed in both runs, and the audit entries are equal on the way.
-/

namespace Pm2Manager

open Function
open ScriptText (foldCase truthy)

/-! ## What a table shows -/

/-- The rows differ in nothing but their password hashes and TOTP secrets. -/
structure UserRecord.ShowsAs (row₁ row₂ : UserRecord) : Prop where
  id : row₁.id = row₂.id
  username : row₁.username = row₂.username
  totpEnabled : row₁.totpEnabled = row₂.totpEnabled
  isAdmin : row₁.isAdmin = row₂.isAdmin
  createdAt : row₁.createdAt = row₂.createdAt
  updatedAt : row₁.updatedAt = row₂.updatedAt

namespace UserRecord.ShowsAs

variable {row₁ row₂ : UserRecord}

theorem refl (row : UserRecord) : row.ShowsAs row :=
  ⟨rfl, rfl, rfl, rfl, rfl, rfl⟩

/-- `toPublicUser` strips the two columns. -/
theorem toPublicUser (hrow : row₁.ShowsAs row₂) :
    toPublicUser row₁ = toPublicUser row₂ := by
  simp only [Pm2Manager.toPublicUser, hrow.id, hrow.username, hrow.totpEnabled,
    hrow.isAdmin, hrow.createdAt, hrow.updatedAt]

/-- It strips no other one. -/
theorem of_toPublicUser
    (hpublic : Pm2Manager.toPublicUser row₁ = Pm2Manager.toPublicUser row₂) :
    row₁.ShowsAs row₂ where
  id := congrArg PublicUser.id hpublic
  username := congrArg PublicUser.username hpublic
  totpEnabled := congrArg PublicUser.totpEnabled hpublic
  isAdmin := congrArg PublicUser.isAdmin hpublic
  createdAt := congrArg PublicUser.createdAt hpublic
  updatedAt := congrArg PublicUser.updatedAt hpublic

theorem sessionUser (hrow : row₁.ShowsAs row₂) :
    row₁.sessionUser = row₂.sessionUser := by
  simp only [UserRecord.sessionUser, hrow.id, hrow.username, hrow.isAdmin]

end UserRecord.ShowsAs

abbrev sameShown : Option UserRecord → Option UserRecord → Prop :=
  Option.Rel UserRecord.ShowsAs

theorem sameShown_refl (user : Option UserRecord) : sameShown user user := by
  cases user with
  | none => exact .none
  | some row => exact .some (.refl row)

theorem sameShown_of_map {user₁ user₂ : Option UserRecord}
    (hpublic : user₁.map toPublicUser = user₂.map toPublicUser) :
    sameShown user₁ user₂ :=
  (Option.rel_of_map_eq hpublic).imp fun _ _ => .of_toPublicUser

namespace UsersTable

def publicRows (table : UsersTable) : List PublicUser :=
  table.rows.map toPublicUser

/-- The tables differ in nothing but password hashes and TOTP secrets. -/
structure SameButSecrets (table₁ table₂ : UsersTable) : Prop where
  rows : List.Forall₂ UserRecord.ShowsAs table₁.rows table₂.rows
  seq : table₁.seq = table₂.seq

variable (table : UsersTable)

theorem findById_map (id : ℕ) :
    (table.findById id).map toPublicUser =
      table.publicRows.find? fun row => row.id = id := by
  simp only [findById, publicRows, List.find?_map]
  rfl

theorem findByUsername_map (username : String) :
    (table.findByUsername username).map toPublicUser =
      table.publicRows.find? fun row =>
        foldCase row.username = foldCase username := by
  simp only [findByUsername, publicRows, List.find?_map]
  rfl

theorem listAll_map :
    table.listAll.map toPublicUser =
      table.publicRows.insertionSort fun a b =>
        foldCase a.username ≤ foldCase b.username := by
  apply List.map_insertionSort
  intro a _ b _
  exact Iff.rfl

theorem countAll_eq : table.countAll = table.publicRows.length := by
  simp [countAll, publicRows]

theorem usernames_eq :
    table.rows.map UserRecord.username =
      table.publicRows.map PublicUser.username := by
  simp [publicRows, toPublicUser]

theorem update_publicRows {id : ℕ} {change : UserRecord → UserRecord}
    {hid : ∀ row, (change row).id = row.id}
    {hname : ∀ row, (change row).username = row.username}
    (shown : PublicUser → PublicUser)
    (hshown : ∀ row, toPublicUser (change row) = shown (toPublicUser row)) :
    (table.update id change hid hname).publicRows =
      table.publicRows.map fun row => if row.id = id then shown row else row := by
  simp only [publicRows, update, List.map_map]
  apply List.map_congr_left
  intro row _
  have hkey : (toPublicUser row).id = row.id := rfl
  simp only [comp_apply, hkey]
  split
  · exact hshown row
  · rfl

theorem delete_publicRows (id : ℕ) :
    (table.delete id).publicRows =
      table.publicRows.filter fun row => row.id ≠ id := by
  simp only [publicRows, delete, List.filter_map]
  rfl

variable {table} {table₁ table₂ : UsersTable}

namespace SameButSecrets

/-- Tables which differ in the two columns only show the same rows. -/
theorem publicRows (hsame : table₁.SameButSecrets table₂) :
    table₁.publicRows = table₂.publicRows := by
  have hrows := hsame.rows
  unfold UsersTable.publicRows
  generalize table₁.rows = rows₁, table₂.rows = rows₂ at hrows ⊢
  induction hrows with
  | nil => rfl
  | cons hrow _ ih => rw [List.map_cons, List.map_cons, hrow.toPublicUser, ih]

theorem of_publicRows (hrows : table₁.publicRows = table₂.publicRows)
    (hseq : table₁.seq = table₂.seq) : table₁.SameButSecrets table₂ := by
  refine ⟨?_, hseq⟩
  unfold UsersTable.publicRows at hrows
  rw [← List.forall₂_eq_eq_eq, List.forall₂_map_left_iff, List.forall₂_map_right_iff]
    at hrows
  exact hrows.imp fun _ _ => .of_toPublicUser

theorem findById (hsame : table₁.SameButSecrets table₂) (id : ℕ) :
    sameShown (table₁.findById id) (table₂.findById id) := by
  apply sameShown_of_map
  rw [findById_map, findById_map, hsame.publicRows]

theorem findByUsername (hsame : table₁.SameButSecrets table₂) (username : String) :
    sameShown (table₁.findByUsername username)
      (table₂.findByUsername username) := by
  apply sameShown_of_map
  rw [findByUsername_map, findByUsername_map, hsame.publicRows]

theorem listAll (hsame : table₁.SameButSecrets table₂) :
    table₁.listAll.map toPublicUser = table₂.listAll.map toPublicUser := by
  rw [listAll_map, listAll_map, hsame.publicRows]

theorem countAll (hsame : table₁.SameButSecrets table₂) :
    table₁.countAll = table₂.countAll := by
  rw [countAll_eq, countAll_eq, hsame.publicRows]

theorem adminCount (hsame : table₁.SameButSecrets table₂) :
    (table₁.listAll.filter UserRecord.isAdmin).length =
      (table₂.listAll.filter UserRecord.isAdmin).length := by
  have hshown : ∀ rows : List UserRecord, (rows.filter UserRecord.isAdmin).length =
      ((rows.map toPublicUser).filter PublicUser.isAdmin).length := by
    intro rows
    rw [List.filter_map, List.length_map]
    rfl
  rw [hshown, hshown, hsame.listAll]

theorem nextId (hsame : table₁.SameButSecrets table₂) :
    table₁.nextId = table₂.nextId := by
  simp only [UsersTable.nextId, hsame.seq]

theorem newRow (hsame : table₁.SameButSecrets table₂) (data : CreateUserData)
    (now : String) : table₁.newRow data now = table₂.newRow data now := by
  simp only [UsersTable.newRow, hsame.nextId]

theorem create (hsame : table₁.SameButSecrets table₂) (data : CreateUserData)
    (now : String) :
    Option.Rel SameButSecrets (table₁.create data now) (table₂.create data now) := by
  have hnames : table₁.rows.map UserRecord.username =
      table₂.rows.map UserRecord.username := by
    rw [usernames_eq, usernames_eq, hsame.publicRows]
  unfold UsersTable.create
  by_cases hname : data.username ∈ table₁.rows.map UserRecord.username
  · rw [dif_pos hname, dif_pos (hnames ▸ hname)]
    exact .none
  · rw [dif_neg hname, dif_neg (hnames ▸ hname)]
    refine .some ⟨?_, congrArg (· + 1) hsame.seq⟩
    show List.Forall₂ _ (_ ++ _) (_ ++ _)
    rw [hsame.newRow data now]
    exact List.rel_append hsame.rows (.cons (.refl _) .nil)

theorem updatePassword (hsame : table₁.SameButSecrets table₂) (id : ℕ)
    (passwordHash now : String) :
    (table₁.updatePassword id passwordHash now).SameButSecrets
      (table₂.updatePassword id passwordHash now) := by
  refine of_publicRows ?_ hsame.seq
  unfold UsersTable.updatePassword
  rw [update_publicRows _ (fun row => { row with updatedAt := now }) fun _ => rfl,
    update_publicRows _ (fun row => { row with updatedAt := now }) fun _ => rfl,
    hsame.publicRows]

theorem setTotp (hsame : table₁.SameButSecrets table₂) (id : ℕ)
    (secret : Option String) (enabled : Bool) (now : String) :
    (table₁.setTotp id secret enabled now).SameButSecrets
      (table₂.setTotp id secret enabled now) := by
  refine of_publicRows ?_ hsame.seq
  unfold UsersTable.setTotp
  rw [update_publicRows _
      (fun row => { row with totpEnabled := enabled, updatedAt := now }) fun _ => rfl,
    update_publicRows _
      (fun row => { row with totpEnabled := enabled, updatedAt := now }) fun _ => rfl,
    hsame.publicRows]

theorem delete (hsame : table₁.SameButSecrets table₂) (id : ℕ) :
    (table₁.delete id).SameButSecrets (table₂.delete id) := by
  refine of_publicRows ?_ hsame.seq
  rw [delete_publicRows, delete_publicRows, hsame.publicRows]

end SameButSecrets

end UsersTable

/-! ## Checks -/

/-- The outcome of the check of a password or of a code which the next stretch
of a request makes, if it makes one. -/
def HttpTask.check (platform : Platform) (state : AuthState) (task : HttpTask) :
    Option Bool :=
  match task.stage with
  | .verifyLogin user _ password =>
      some (verifyCredentials platform user password).isSome
  | .verifyCurrent user currentPassword _ =>
      some (platform.verifyPassword user.passwordHash currentPassword)
  | .verifyDisable user password =>
      some (platform.verifyPassword user.passwordHash password)
  | .arrived =>
      match csrfProtection task.request task.session.data, task.request.endpoint,
          task.session.data.pending2fa with
      | .ok (), .verifyTwoFactor raw, some pending =>
          (totpCode raw).toOption.map fun token =>
            (state.users.findById pending.userId).any fun user =>
              (truthy user.totpSecret).any fun secret =>
                platform.totpVerify token secret
      | _, _, _ => none
  | _ => none

def AuthState.check (platform : Platform) (state : AuthState) :
    Action → Option Bool
  | .request sent supply =>
      (state.acceptedTask sent).check platform (state.accept sent supply.now)
  | .resume id _ =>
      match state.tasks id with
      | some (.http task) => task.check platform state
      | _ => none
  | _ => none

structure AuthState.SameButSecrets (state₁ state₂ : AuthState) : Prop where
  alike : state₁.Alike sameShown state₂
  users : state₁.users.SameButSecrets state₂.users

variable {platform : Platform} {state₁ state₂ : AuthState} {request : Request}
variable {session : RequestSession} {supply : Supply}
variable {row₁ row₂ : UserRecord}

theorem check_code {state : AuthState} {raw token : String}
    {pending : PendingTwoFactor}
    (hcsrf : csrfProtection request session.data = .ok ())
    (hendpoint : request.endpoint = .verifyTwoFactor raw)
    (htoken : totpCode raw = .ok token)
    (hpending : session.data.pending2fa = some pending) :
    HttpTask.check platform state { request, session, stage := .arrived } =
      some ((state.users.findById pending.userId).any fun user =>
        (truthy user.totpSecret).any fun secret =>
          platform.totpVerify token secret) := by
  unfold HttpTask.check
  dsimp only
  rw [hcsrf, hendpoint, hpending]
  dsimp only
  rw [htoken]
  rfl

/-! ## Handlers -/

theorem regenerateSession_alike {events₁ events₂ : List Event} (step : LoginStep)
    (hsid : state₁.nextSid = state₂.nextSid)
    (hevents : List.Forall₂ Event.Alike events₁ events₂)
    (hrow : row₁.ShowsAs row₂) :
    (regenerateSession state₁ session row₁ step events₁).Alike sameShown
      (regenerateSession state₂ session row₂ step events₂) := by
  unfold regenerateSession
  rw [hsid]
  exact awaits_alike _ (List.rel_append hevents (events_alike _))
    (.regenerated step (.some hrow))

theorem currentUser_alike {handler₁ handler₂ : SessionUser → Segment}
    (hhandler : ∀ user, (handler₁ user).Alike sameShown (handler₂ user)) :
    (currentUser session handler₁).Alike sameShown
      (currentUser session handler₂) := by
  unfold currentUser
  cases session.data.user with
  | none => exact replies_alike _ _ .nil
  | some user => exact hhandler user

namespace AuthState.SameButSecrets

theorem checkUsername (hsame : state₁.SameButSecrets state₂) (username : String) :
    checkUsername state₁ username = checkUsername state₂ username := by
  have hfound := hsame.users.findByUsername username
  unfold Pm2Manager.checkUsername
  generalize state₁.users.findByUsername username = found₁,
    state₂.users.findByUsername username = found₂ at hfound ⊢
  cases hfound <;> rfl

theorem login_alike (hsame : state₁.SameButSecrets state₂)
    (username password : String) :
    (login state₁ session username password).Alike sameShown
      (login state₂ session username password) :=
  awaits_alike _ (.cons (.credentialsRead _ _ _) .nil)
    (.verifyLogin _ _ (hsame.users.findByUsername username))

theorem verifyTwoFactor_alike (hsame : state₁.SameButSecrets state₂)
    (token : String)
    (hcheck : ∀ pending, session.data.pending2fa = some pending →
      ((state₁.users.findById pending.userId).any fun user =>
          (truthy user.totpSecret).any fun secret =>
            platform.totpVerify token secret) =
        (state₂.users.findById pending.userId).any fun user =>
          (truthy user.totpSecret).any fun secret =>
            platform.totpVerify token secret) :
    (verifyTwoFactor platform state₁ request session token).Alike sameShown
      (verifyTwoFactor platform state₂ request session token) := by
  unfold verifyTwoFactor
  cases hpending : session.data.pending2fa with
  | none => exact replies_alike _ _ .nil
  | some pending =>
      have houtcome := hcheck pending hpending
      have hfound := hsame.users.findById pending.userId
      dsimp only
      generalize state₁.users.findById pending.userId = found₁,
        state₂.users.findById pending.userId = found₂ at houtcome hfound ⊢
      cases hfound with
      | none => exact replies_alike _ _ (events_alike _)
      | @some row₁ row₂ hrow =>
          simp only [Option.any_some] at houtcome
          simp only [Option.filter_some, houtcome]
          by_cases haccepted : (truthy row₂.totpSecret).any
              (fun secret => platform.totpVerify token secret) = true
          · rw [if_pos haccepted, if_pos haccepted]
            exact regenerateSession_alike .totp hsame.alike.nextSid
              (.cons (.totpAccepted _ _ _ _ _) .nil) hrow
          · rw [if_neg haccepted, if_neg haccepted]
            exact replies_alike _ _ (events_alike _)

/-- The handlers which look up the row of their user first. -/
theorem currentRow_alike (hsame : state₁.SameButSecrets state₂) (error : AppError)
    {handler₁ handler₂ : UserRecord → Segment}
    (hhandler : ∀ row₁ row₂, row₁.ShowsAs row₂ →
      (handler₁ row₁).Alike sameShown (handler₂ row₂)) :
    (currentUser session fun user =>
        match state₁.users.findById user.id with
        | none => fail session error
        | some row => handler₁ row).Alike sameShown
      (currentUser session fun user =>
        match state₂.users.findById user.id with
        | none => fail session error
        | some row => handler₂ row) := by
  refine currentUser_alike fun user => ?_
  have hfound := hsame.users.findById user.id
  generalize state₁.users.findById user.id = found₁,
    state₂.users.findById user.id = found₂ at hfound ⊢
  cases hfound with
  | none => exact replies_alike _ _ .nil
  | some hrow => exact hhandler _ _ hrow

theorem me_alike (hsame : state₁.SameButSecrets state₂) :
    (me state₁ session).Alike sameShown (me state₂ session) := by
  refine hsame.currentRow_alike .unauthorized fun row₁ row₂ hrow => ?_
  rw [hrow.toPublicUser]
  exact replies_alike _ _ .nil

theorem changePassword_alike (hsame : state₁.SameButSecrets state₂)
    (currentPassword newPassword : String) :
    (changePassword state₁ session currentPassword newPassword).Alike sameShown
      (changePassword state₂ session currentPassword newPassword) :=
  hsame.currentRow_alike (.notFound "User not found") fun _ _ hrow =>
    awaits_alike _ .nil (.verifyCurrent _ _ (.some hrow))

theorem setupTwoFactor_alike (hsame : state₁.SameButSecrets state₂) :
    (setupTwoFactor platform state₁ session supply).Alike sameShown
      (setupTwoFactor platform state₂ session supply) := by
  refine hsame.currentRow_alike .unauthorized fun row₁ row₂ hrow => ?_
  rw [hrow.totpEnabled, hrow.username]
  exact Segment.alike_refl sameShown_refl _

theorem disableTwoFactor_alike (hsame : state₁.SameButSecrets state₂)
    (password : String) :
    (disableTwoFactor state₁ session password).Alike sameShown
      (disableTwoFactor state₂ session password) :=
  hsame.currentRow_alike .unauthorized fun _ _ hrow =>
    awaits_alike _ .nil (.verifyDisable _ (.some hrow))

theorem listUsers_alike (hsame : state₁.SameButSecrets state₂) :
    (listUsers state₁ session).Alike sameShown (listUsers state₂ session) := by
  unfold listUsers
  rw [hsame.users.listAll]
  exact replies_alike _ _ .nil

theorem createUser_alike (hsame : state₁.SameButSecrets state₂)
    (input : CreateUserInput) :
    (createUser state₁ session input).Alike sameShown
      (createUser state₂ session input) := by
  unfold createUser
  rw [hsame.checkUsername]
  exact Segment.alike_refl sameShown_refl _

theorem removeUser_alike (hsame : state₁.SameButSecrets state₂) (id : ℕ) :
    (removeUser state₁ request session id).Alike sameShown
      (removeUser state₂ request session id) := by
  have hfound := hsame.users.findById id
  unfold removeUser
  rw [hsame.users.adminCount, hsame.alike.sessions]
  generalize state₁.users.findById id = found₁,
    state₂.users.findById id = found₂ at hfound ⊢
  cases hfound with
  | none => exact Segment.alike_refl sameShown_refl _
  | some hrow =>
      dsimp only
      rw [hrow.isAdmin, hrow.username]
      exact Segment.alike_refl sameShown_refl _

theorem getSettings_alike (hsame : state₁.SameButSecrets state₂) :
    (getSettings platform state₁ session).Alike sameShown
      (getSettings platform state₂ session) := by
  unfold getSettings
  rw [hsame.alike.settings]
  exact replies_alike _ _ .nil

theorem updateSettings_alike (hsame : state₁.SameButSecrets state₂)
    (input : UpdateSettingsInput) :
    (updateSettings platform state₁ request session input).Alike sameShown
      (updateSettings platform state₂ request session input) := by
  unfold updateSettings
  rw [hsame.alike.settings]
  exact replies_alike _ _ (events_alike _)

theorem listActivity_alike (hsame : state₁.SameButSecrets state₂)
    (query : ActivityQuery) :
    (listActivity state₁ session query).Alike sameShown
      (listActivity state₂ session query) := by
  unfold listActivity
  rw [hsame.alike.activity]
  exact replies_alike _ _ .nil

theorem controller_alike (hsame : state₁.SameButSecrets state₂)
    (hcheck : ∀ raw token pending, request.endpoint = .verifyTwoFactor raw →
      totpCode raw = .ok token → session.data.pending2fa = some pending →
      ((state₁.users.findById pending.userId).any fun user =>
          (truthy user.totpSecret).any fun secret =>
            platform.totpVerify token secret) =
        (state₂.users.findById pending.userId).any fun user =>
          (truthy user.totpSecret).any fun secret =>
            platform.totpVerify token secret) :
    ControllerAlike sameShown (controller platform state₁ request session supply)
      (controller platform state₂ request session supply) := by
  unfold controller
  cases hendpoint : request.endpoint <;> dsimp only
  case csrfToken => exact .ok (Segment.alike_refl sameShown_refl _)
  case logout => exact .ok (Segment.alike_refl sameShown_refl _)
  case me => exact .ok hsame.me_alike
  case setupTwoFactor => exact .ok hsame.setupTwoFactor_alike
  case listUsers => exact .ok hsame.listUsers_alike
  case getSettings => exact .ok hsame.getSettings_alike
  case login => exact controllerAlike_map _ fun _ _ => hsame.login_alike _ _
  case verifyTwoFactor raw =>
    exact controllerAlike_map _ fun token htoken =>
      hsame.verifyTwoFactor_alike token fun pending hpending =>
        hcheck raw token pending hendpoint htoken hpending
  case changePassword =>
    exact controllerAlike_map _ fun _ _ => hsame.changePassword_alike _ _
  case enableTwoFactor =>
    exact controllerAlike_map _ fun _ _ => Segment.alike_refl sameShown_refl _
  case disableTwoFactor =>
    exact controllerAlike_map _ fun _ _ => hsame.disableTwoFactor_alike _
  case createUser => exact controllerAlike_map _ fun _ _ => hsame.createUser_alike _
  case removeUser => exact controllerAlike_map _ fun _ _ => hsame.removeUser_alike _
  case updateSettings =>
    exact controllerAlike_map _ fun _ _ => hsame.updateSettings_alike _
  case listActivity =>
    exact controllerAlike_map _ fun _ _ => hsame.listActivity_alike _

/-! ## Stretches after an await -/

theorem loginVerified_alike (hsame : state₁.SameButSecrets state₂)
    {user₁ user₂ : Option UserRecord} (huser : sameShown user₁ user₂)
    (username password : String)
    (hcheck : (verifyCredentials platform user₁ password).isSome =
      (verifyCredentials platform user₂ password).isSome) :
    (loginVerified platform state₁ request session user₁ username password).Alike
      sameShown
      (loginVerified platform state₂ request session user₂ username password) := by
  have hrejected : ∀ user₁ user₂ : Option UserRecord, List.Forall₂ Event.Alike
      [.passwordChecked session.sid user₁ password false,
        loginFailed username request.ip s!"Failed login for \"{username}\""]
      [.passwordChecked session.sid user₂ password false,
        loginFailed username request.ip s!"Failed login for \"{username}\""] :=
    fun user₁ user₂ => .cons (.passwordChecked _ _ _ _ _) (events_alike _)
  unfold loginVerified
  cases huser with
  | none => exact replies_alike _ _ (hrejected none none)
  | @some row₁ row₂ hrow =>
      simp only [verifyCredentials, Option.filter_some] at hcheck ⊢
      by_cases hverify : platform.verifyPassword row₂.passwordHash password = true
      · rw [if_pos hverify] at hcheck
        have hfirst : platform.verifyPassword row₁.passwordHash password = true := by
          by_contra hnot
          simp [hnot] at hcheck
        rw [if_pos hverify, if_pos hfirst]
        dsimp only
        rw [hrow.totpEnabled, hrow.id, hrow.username]
        split
        · exact awaits_alike _ (.cons (.passwordChecked _ _ _ _ _) (events_alike _))
            .challengeSaved
        · exact regenerateSession_alike .password hsame.alike.nextSid
            (.cons (.passwordChecked _ _ _ _ _) .nil) hrow
      · rw [if_neg hverify] at hcheck
        have hfirst :
            ¬ platform.verifyPassword row₁.passwordHash password = true := by
          intro hyes
          simp [hyes] at hcheck
        rw [if_neg hverify, if_neg hfirst]
        exact replies_alike _ _ (hrejected (some row₁) (some row₂))

theorem attachUser_alike (hrow : row₁.ShowsAs row₂) (step : LoginStep) :
    (attachUser session row₁ step).Alike sameShown
      (attachUser session row₂ step) := by
  unfold attachUser
  rw [hrow.sessionUser, hrow.id]
  exact awaits_alike _ (events_alike _) (.established step (.some hrow))

theorem loggedIn_alike (hrow : row₁.ShowsAs row₂) (step : LoginStep) :
    (loggedIn request session row₁ step).Alike sameShown
      (loggedIn request session row₂ step) := by
  unfold loggedIn
  rw [hrow.toPublicUser, hrow.username]
  exact Segment.alike_refl sameShown_refl _

theorem currentVerified_alike (hrow : row₁.ShowsAs row₂)
    (currentPassword newPassword : String)
    (hcheck : platform.verifyPassword row₁.passwordHash currentPassword =
      platform.verifyPassword row₂.passwordHash currentPassword) :
    (currentVerified platform session row₁ currentPassword newPassword).Alike
      sameShown
      (currentVerified platform session row₂ currentPassword newPassword) := by
  unfold currentVerified
  rw [hcheck]
  split
  · exact awaits_alike _ (.cons (.passwordChecked _ _ _ _ _) .nil)
      (.hashNew _ (.some hrow))
  · exact replies_alike _ _ (.cons (.passwordChecked _ _ _ _ _) .nil)

theorem passwordHashed_alike (hrow : row₁.ShowsAs row₂) (newPassword : String) :
    (passwordHashed platform request session row₁ newPassword supply).Alike
      sameShown
      (passwordHashed platform request session row₂ newPassword supply) := by
  unfold passwordHashed
  rw [hrow.id]
  exact Segment.alike_refl sameShown_refl _

theorem disableVerified_alike (hrow : row₁.ShowsAs row₂) (password : String)
    (hcheck : platform.verifyPassword row₁.passwordHash password =
      platform.verifyPassword row₂.passwordHash password) :
    (disableVerified platform request session row₁ password).Alike sameShown
      (disableVerified platform request session row₂ password) := by
  unfold disableVerified
  rw [hcheck, hrow.id, hrow.username]
  split
  · exact replies_alike _ _ (.cons (.passwordChecked _ _ _ _ _) (events_alike _))
  · exact replies_alike _ _ (.cons (.passwordChecked _ _ _ _ _) .nil)

theorem userHashed_alike (hsame : state₁.SameButSecrets state₂)
    (input : CreateUserInput) :
    (userHashed platform state₁ request session input supply).Alike sameShown
      (userHashed platform state₂ request session input supply) := by
  have hcreate := hsame.users.create (newUserData platform input supply) supply.now
  unfold userHashed
  dsimp only
  rw [hsame.users.nextId, hsame.users.newRow]
  generalize state₁.users.create (newUserData platform input supply) supply.now =
      created₁,
    state₂.users.create (newUserData platform input supply) supply.now =
      created₂ at hcreate ⊢
  cases hcreate with
  | none => exact replies_alike _ _ .nil
  | some htables => exact replies_alike _ _ (events_alike _)

theorem segment_alike (hsame : state₁.SameButSecrets state₂) (supply : Supply)
    {stage₁ stage₂ : Stage} (hstage : stage₁.Alike sameShown stage₂)
    (hcheck : HttpTask.check platform state₁ { request, session, stage := stage₁ } =
      HttpTask.check platform state₂ { request, session, stage := stage₂ }) :
    (HttpTask.segment platform state₁ { request, session, stage := stage₁ }
      supply).Alike sameShown
      (HttpTask.segment platform state₂ { request, session, stage := stage₂ }
        supply) := by
  cases hstage with
  | arrived =>
      refine arrive_alike fun hadmitted => hsame.controller_alike ?_
      intro raw token pending hendpoint htoken hpending
      rw [check_code hadmitted.1 hendpoint htoken hpending,
        check_code hadmitted.1 hendpoint htoken hpending] at hcheck
      exact Option.some.inj hcheck
  | verifyLogin username password husers =>
      exact hsame.loginVerified_alike husers username password
        (Option.some.inj hcheck)
  | challengeSaved | destroyed | renderQr =>
      exact Segment.alike_refl sameShown_refl _
  | regenerated step husers =>
      cases husers with
      | some hrow => exact attachUser_alike hrow step
  | established step husers =>
      cases husers with
      | some hrow => exact loggedIn_alike hrow step
  | verifyCurrent currentPassword newPassword husers =>
      cases husers with
      | some hrow =>
          exact currentVerified_alike hrow currentPassword newPassword
            (Option.some.inj hcheck)
  | hashNew newPassword husers =>
      cases husers with
      | some hrow => exact passwordHashed_alike hrow newPassword
  | verifyDisable password husers =>
      cases husers with
      | some hrow =>
          exact disableVerified_alike hrow password (Option.some.inj hcheck)
  | hashCreate input => exact hsame.userHashed_alike input

/-! ## Account creation outside a request -/

theorem jobSegment_alike (hsame : state₁.SameButSecrets state₂)
    (platform : Platform) (kind : JobKind) (input : CreateUserInput)
    (supply : Supply) {stage₁ stage₂ : JobStage}
    (hstage : stage₁.Alike sameShown stage₂) :
    List.Forall₂ Event.Alike
        (jobSegment platform state₁ kind input stage₁ supply).1
        (jobSegment platform state₂ kind input stage₂ supply).1 ∧
      Option.Rel (Task.Alike sameShown)
        (jobSegment platform state₁ kind input stage₁ supply).2
        (jobSegment platform state₂ kind input stage₂ supply).2 := by
  cases hstage with
  | checkUsername =>
      simp only [jobSegment, hsame.checkUsername]
      split
      · exact ⟨.nil, .none⟩
      · exact ⟨.nil, .some (.job kind input .hashCreate)⟩
  | hashCreate =>
      have hcreate := hsame.users.create (newUserData platform input supply) supply.now
      simp only [jobSegment, hsame.users.nextId]
      generalize state₁.users.create (newUserData platform input supply) supply.now =
          created₁,
        state₂.users.create (newUserData platform input supply) supply.now =
          created₂ at hcreate ⊢
      cases hcreate with
      | none => exact ⟨.nil, .none⟩
      | some htables => exact ⟨events_alike _, .none⟩
  | hashReset husers =>
      cases husers with
      | some hrow =>
          simp only [jobSegment, hrow.id]
          exact ⟨events_alike _, .none⟩

theorem createAdminStart_alike (hsame : state₁.SameButSecrets state₂)
    (input : CreateUserInput) :
    List.Forall₂ Event.Alike (createAdminStart state₁ input).1
        (createAdminStart state₂ input).1 ∧
      Option.Rel (Task.Alike sameShown) (createAdminStart state₁ input).2
        (createAdminStart state₂ input).2 := by
  have hfound := hsame.users.findByUsername input.username
  unfold createAdminStart
  generalize state₁.users.findByUsername input.username = found₁,
    state₂.users.findByUsername input.username = found₂ at hfound ⊢
  cases hfound with
  | none => exact ⟨.nil, .some (.job _ _ .checkUsername)⟩
  | some hrow => exact ⟨.nil, .some (.job _ _ (.hashReset (.some hrow)))⟩

theorem bootstrapStart_alike (hsame : state₁.SameButSecrets state₂) :
    List.Forall₂ Event.Alike (bootstrapStart platform state₁ supply).1
        (bootstrapStart platform state₂ supply).1 ∧
      Option.Rel (Task.Alike sameShown) (bootstrapStart platform state₁ supply).2
        (bootstrapStart platform state₂ supply).2 := by
  unfold bootstrapStart
  rw [hsame.users.countAll]
  split
  · exact ⟨events_alike _, .none⟩
  · exact ⟨.nil, .some (.job _ _ .checkUsername)⟩

/-! ## Steps -/

theorem write_users {event₁ event₂ : Event} {now : String}
    (husers : state₁.users.SameButSecrets state₂.users)
    (hevent : event₁.Alike event₂) :
    (state₁.write now event₁).users.SameButSecrets
      (state₂.write now event₂).users := by
  cases hevent with
  | credentialsRead | passwordChecked | totpAccepted => exact husers
  | same =>
      cases event₁ with
      | insertUser id data =>
          have hcreate := husers.create data now
          simp only [AuthState.write]
          generalize state₁.users.create data now = created₁,
            state₂.users.create data now = created₂ at hcreate ⊢
          cases hcreate with
          | none => exact husers
          | some htables => exact htables
      | updatePassword id passwordHash =>
          exact husers.updatePassword id passwordHash now
      | setTotp id secret enabled => exact husers.setTotp id secret enabled now
      | deleteUser id => exact husers.delete id
      | _ => exact husers

theorem performAll_users {events₁ events₂ : List Event} {task : TaskId}
    {now : String} (husers : state₁.users.SameButSecrets state₂.users)
    (hevents : List.Forall₂ Event.Alike events₁ events₂) :
    (state₁.performAll task now events₁).users.SameButSecrets
      (state₂.performAll task now events₂).users := by
  induction hevents generalizing state₁ state₂ with
  | nil => exact husers
  | cons hevent _ ih =>
      have hfirst : (state₁.perform task now _).users.SameButSecrets
          (state₂.perform task now _).users := write_users husers hevent
      exact ih hfirst

theorem accept (hsame : state₁.SameButSecrets state₂) (request : Request)
    (now : String) :
    (state₁.accept request now).SameButSecrets (state₂.accept request now) where
  alike := hsame.alike.accept request
  users := by
    rw [AuthState.accept_users, AuthState.accept_users]
    exact hsame.users

theorem startJob (hsame : state₁.SameButSecrets state₂) (now : String)
    {started₁ started₂ : List Event × Option Task}
    (hstarted : List.Forall₂ Event.Alike started₁.1 started₂.1 ∧
      Option.Rel (Task.Alike sameShown) started₁.2 started₂.2) :
    (state₁.startJob now started₁).SameButSecrets
      (state₂.startJob now started₂) where
  alike := hsame.alike.startJob hstarted.1 hstarted.2
  users := by
    unfold AuthState.startJob
    rw [hsame.alike.nextTask]
    apply performAll_users _ hstarted.1
    exact hsame.users

theorem resumeTask (hsame : state₁.SameButSecrets state₂) (id : TaskId)
    (supply : Supply)
    (hcheck : ∀ task₁ task₂, state₁.tasks id = some (.http task₁) →
      state₂.tasks id = some (.http task₂) →
      task₁.check platform state₁ = task₂.check platform state₂) :
    Option.Rel AuthState.SameButSecrets (state₁.resumeTask platform id supply)
      (state₂.resumeTask platform id supply) := by
  have htask := hsame.alike.tasks id
  unfold AuthState.resumeTask
  generalize state₁.tasks id = suspended₁,
    state₂.tasks id = suspended₂ at htask hcheck ⊢
  cases htask with
  | none => exact .none
  | some halike =>
      cases halike with
      | http request session hstage =>
          have hsegment := hsame.segment_alike supply hstage (hcheck _ _ rfl rfl)
          refine .some ⟨hsame.alike.runHttp id supply rfl hsegment, ?_⟩
          refine performAll_users hsame.users (List.rel_append hsegment.events ?_)
          rw [hsegment.outcome.closing]
          exact events_alike _
      | job kind input hstage =>
          have hsegment := hsame.jobSegment_alike platform kind input supply hstage
          exact .some ⟨hsame.alike.commit hsegment.1 hsegment.2,
            performAll_users hsame.users hsegment.1⟩

end AuthState.SameButSecrets

theorem sameButSecrets_lockstep :
    (authMachine platform).Lockstep (authMachine platform)
      (fun state₁ state₂ action =>
        state₁.check platform action = state₂.check platform action)
      AuthState.SameButSecrets := by
  intro state₁ state₂ action hsame hcheck
  cases action with
  | request request supply =>
      show Option.Rel _
        ((state₁.accept request supply.now).resumeTask platform state₁.nextTask
          supply)
        ((state₂.accept request supply.now).resumeTask platform state₂.nextTask
          supply)
      rw [hsame.alike.nextTask]
      refine (hsame.accept request supply.now).resumeTask state₂.nextTask supply ?_
      intro task₁ task₂ htask₁ htask₂
      rw [AuthState.accept_tasks, hsame.alike.nextTask, update_self] at htask₁
      rw [AuthState.accept_tasks, update_self] at htask₂
      obtain rfl := Task.http.inj (Option.some.inj htask₁)
      obtain rfl := Task.http.inj (Option.some.inj htask₂)
      exact hcheck
  | arrive request now => exact .some (hsame.accept request now)
  | createAdmin args supply =>
      show Option.Rel _
        ((createAdminArgs args).map fun input =>
          state₁.startJob supply.now (createAdminStart state₁ input))
        ((createAdminArgs args).map fun input =>
          state₂.startJob supply.now (createAdminStart state₂ input))
      cases createAdminArgs args with
      | none => exact .none
      | some input =>
          exact .some
            (hsame.startJob supply.now (hsame.createAdminStart_alike input))
  | bootstrap supply =>
      exact .some (hsame.startJob supply.now hsame.bootstrapStart_alike)
  | resume id supply =>
      refine hsame.resumeTask id supply ?_
      intro task₁ task₂ htask₁ htask₂
      simpa only [AuthState.check, htask₁, htask₂] using hcheck
  | expire sid => exact .some ⟨hsame.alike.expire sid, hsame.users⟩

/-! ## Any word of requests -/

/-- Two runs of the same requests, with the same random characters, over tables
that differ in nothing but password hashes and TOTP secrets: as long as every
check has the same outcome, the answers are the same. -/
theorem secrets_unobservable (platform : Platform) (users₁ users₂ : UsersTable)
    (husers : users₁.SameButSecrets users₂) (word : List Action)
    (hchecks : (authMachine platform).AdmitsBoth (authMachine platform)
      (fun state₁ state₂ action =>
        state₁.check platform action = state₂.check platform action)
      (.initial users₁) (.initial users₂) word) :
    Option.Rel (fun last₁ last₂ => last₁.responses = last₂.responses)
      ((authMachine platform).exec (.initial users₁) word)
      ((authMachine platform).exec (.initial users₂) word) := by
  have hstart : (AuthState.initial users₁).SameButSecrets (.initial users₂) :=
    ⟨initial_alike users₁ users₂, husers⟩
  exact (sameButSecrets_lockstep.exec hstart hchecks).imp
    fun last₁ last₂ hsame => hsame.alike.responses

/-- A hash is its password and a salt, and the code of a secret is a number
with its length. -/
def saltedPlatform : Platform :=
  { samplePlatform with
    argon2Verify := fun hashed plain =>
      some (hashed.toList.takeWhile (fun c => c ≠ '#') == plain.toList)
    totpVerify := fun token secret => token == s!"10000{secret.length}" }

/-- The administrator logs in with a second factor, lists the accounts and the
audit log, and changes the password. -/
def sampleSecondFactor : List Action :=
  [sampleRequest none .csrfToken,
    sampleRequest (some 0) (.login "admin" "password"), sampleResume 1,
    sampleResume 1,
    sampleRequest (some 0) (.verifyTwoFactor "100006"), sampleResume 2,
    sampleResume 2,
    sampleRequest (some 1) .csrfToken, sampleRequest (some 1) .listUsers,
    sampleRequest (some 1) (.listActivity none none none),
    sampleRequest (some 1) (.changePassword "password" "new password"),
    sampleResume 6, sampleResume 6]

theorem secrets_unobservable_sampleSecondFactor :
    ∃ last₁ last₂,
      (authMachine saltedPlatform).exec
          (.initial (sampleAccount "admin" "password#salt" (some "SECRET")))
          sampleSecondFactor = some last₁ ∧
        (authMachine saltedPlatform).exec
          (.initial (sampleAccount "admin" "password#other" (some "OTHERS")))
          sampleSecondFactor = some last₂ ∧
        last₁.responses = last₂.responses ∧ last₁.responses.length = 7 ∧
        (6, .changePassword "password" "new password", .success 200 .empty) ∈
          last₂.responses := by
  obtain ⟨last₁, hexec₁, htest⟩ := Machine.exists_of_exec_map
    (authMachine saltedPlatform)
    (.initial (sampleAccount "admin" "password#salt" (some "SECRET")))
    sampleSecondFactor
    (fun state => state.responses.length == 7 && decide
      ((6, .changePassword "password" "new password", .success 200 .empty) ∈
        state.responses)) (by decide +kernel)
  have hchecks := Machine.admitsBoth_of_checksBoth
    (fun _ _ _ hcheck => of_decide_eq_true hcheck)
    (show (authMachine saltedPlatform).checksBoth (authMachine saltedPlatform)
      (fun state₁ state₂ action => decide
        (state₁.check saltedPlatform action = state₂.check saltedPlatform action))
      (.initial (sampleAccount "admin" "password#salt" (some "SECRET")))
      (.initial (sampleAccount "admin" "password#other" (some "OTHERS")))
      sampleSecondFactor = true by decide +kernel)
  have hrel := secrets_unobservable saltedPlatform
    (sampleAccount "admin" "password#salt" (some "SECRET"))
    (sampleAccount "admin" "password#other" (some "OTHERS"))
    ⟨.cons ⟨rfl, rfl, rfl, rfl, rfl, rfl⟩ .nil, rfl⟩ sampleSecondFactor hchecks
  rw [hexec₁] at hrel
  generalize hexec₂ : (authMachine saltedPlatform).exec
    (.initial (sampleAccount "admin" "password#other" (some "OTHERS")))
    sampleSecondFactor = ended at hrel
  cases hrel with
  | some hsame =>
      simp only [Bool.and_eq_true, beq_iff_eq, decide_eq_true_eq] at htest
      exact ⟨last₁, _, hexec₁, rfl, hsame, htest.1, hsame ▸ htest.2⟩

end Pm2Manager
