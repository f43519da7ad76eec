import Pm2Manager.AuthTransitions

/-!
# Where a session's user comes from

A user is attached to a session only at the end of a login, under an id which
nothing was stored under before.  The invariant `Provenance` keeps, for every
stored session and for every copy a suspended request works on, the part of
the trace which justifies its user and its pending challenge.
-/

namespace Pm2Manager

open Function
open ScriptText (truthy)

variable {platform : Platform} {state next : AuthState} {trace more : Trace}
variable {sid : SessionId} {data : SessionData} {action : Action}

/-! ## The steps of a login -/

def Stored (trace : Trace) (sid : SessionId) (data : SessionData) : Prop :=
  ∃ task, (task, Event.storeSession sid data) ∈ trace

/-- Task `task` has read `row` for session `sid` and has verified a password
against it. -/
def passwordSteps (task : TaskId) (sid : SessionId) (row : UserRecord)
    (password : String) : Trace :=
  [(task, .credentialsRead sid (some row)),
    (task, .passwordChecked sid (some row) password true)]

/-- The checks after which task `task` may attach the user `userId` to its
session: the password, when the row that was read has no second factor, or
the password and then a code, for the challenge of the same session. -/
inductive LoginSteps (platform : Platform) (userId : ℕ) :
    TaskId → Trace → Prop
  | password (task : TaskId) (sid : SessionId) (row : UserRecord)
      (password : String) (hid : row.id = userId)
      (hverify : platform.verifyPassword row.passwordHash password = true)
      (htotp : row.totpEnabled = false) :
      LoginSteps platform userId task (passwordSteps task sid row password)
  | totp (first task : TaskId) (sid : SessionId) (row current : UserRecord)
      (password token secret : String) (pending : PendingTwoFactor)
      (hid : row.id = userId)
      (hverify : platform.verifyPassword row.passwordHash password = true)
      (htotp : row.totpEnabled = true)
      (hpending : pending.userId = userId) (hcurrent : current.id = userId)
      (hsecret : truthy current.totpSecret = some secret)
      (haccepted : platform.totpVerify token secret = true) :
      LoginSteps platform userId task
        (passwordSteps first sid row password ++
          [(task, .totpAccepted sid pending current token)])

def Passed (platform : Platform) (trace : Trace) (task : TaskId)
    (userId : ℕ) : Prop :=
  ∃ steps, LoginSteps platform userId task steps ∧ steps.Sublist trace

/-- A login as `userId` has made its checks and has then attached the user to
session `sid`. -/
def LoginChain (platform : Platform) (trace : Trace) (sid : SessionId)
    (userId : ℕ) : Prop :=
  ∃ task steps, LoginSteps platform userId task steps ∧
    (steps ++ [(task, Event.established sid userId)]).Sublist trace

/-- The password of the challenged user has been verified for this session,
against a row with a second factor. -/
def Challenged (platform : Platform) (trace : Trace) (sid : SessionId)
    (pending : PendingTwoFactor) : Prop :=
  ∃ task row password, row.id = pending.userId ∧ row.totpEnabled = true ∧
    platform.verifyPassword row.passwordHash password = true ∧
    (passwordSteps task sid row password).Sublist trace

structure Certified (platform : Platform) (trace : Trace) (sid : SessionId)
    (data : SessionData) : Prop where
  user : ∀ user, data.user = some user →
    ∃ task, (task, Event.established sid user.id) ∈ trace
  pending : ∀ pending, data.pending2fa = some pending →
    Challenged platform trace sid pending

theorem Stored.append (hstored : Stored trace sid data) :
    Stored (trace ++ more) sid data := by
  obtain ⟨task, hmem⟩ := hstored
  exact ⟨task, List.mem_append_left _ hmem⟩

theorem stored_append_iff :
    Stored (trace ++ more) sid data ↔
      Stored trace sid data ∨ Stored more sid data := by
  simp only [Stored, List.mem_append, exists_or]

theorem stored_map_iff {task : TaskId} {events : List Event} :
    Stored (events.map (Prod.mk task)) sid data ↔
      .storeSession sid data ∈ events := by
  constructor
  · rintro ⟨other, hmem⟩
    obtain ⟨event, hevent, heq⟩ := List.mem_map.mp hmem
    obtain ⟨_, rfl⟩ := Prod.mk.injEq _ _ _ _ ▸ heq
    exact hevent
  · intro hevent
    exact ⟨task, List.mem_map.mpr ⟨_, hevent, rfl⟩⟩

theorem LoginChain.append {userId : ℕ}
    (hchain : LoginChain platform trace sid userId) :
    LoginChain platform (trace ++ more) sid userId := by
  obtain ⟨task, steps, hsteps, hsub⟩ := hchain
  exact ⟨task, steps, hsteps, hsub.trans (List.sublist_append_left _ _)⟩

theorem Passed.append {task : TaskId} {userId : ℕ}
    (hpassed : Passed platform trace task userId) :
    Passed platform (trace ++ more) task userId := by
  obtain ⟨steps, hsteps, hsub⟩ := hpassed
  exact ⟨steps, hsteps, hsub.trans (List.sublist_append_left _ _)⟩

theorem Challenged.append {pending : PendingTwoFactor}
    (hchallenged : Challenged platform trace sid pending) :
    Challenged platform (trace ++ more) sid pending := by
  obtain ⟨task, row, password, hid, htotp, hverify, hsub⟩ := hchallenged
  exact ⟨task, row, password, hid, htotp, hverify,
    hsub.trans (List.sublist_append_left _ _)⟩

theorem Certified.append (hcertified : Certified platform trace sid data) :
    Certified platform (trace ++ more) sid data := by
  constructor
  · intro user huser
    obtain ⟨task, hmem⟩ := hcertified.user user huser
    exact ⟨task, List.mem_append_left _ hmem⟩
  · exact fun pending hpending => (hcertified.pending pending hpending).append

theorem Certified.empty : Certified platform trace sid {} :=
  ⟨fun _ huser => by simp at huser, fun _ hpending => by simp at hpending⟩

theorem Certified.sameLogin {before after : RequestSession}
    (hcertified : Certified platform trace before.sid before.data)
    (hsame : SameLogin before after) :
    Certified platform trace after.sid after.data := by
  obtain ⟨hsid, huser, hpending⟩ := hsame
  rw [hsid]
  exact ⟨fun user h => hcertified.user user (huser ▸ h),
    fun pending h => hcertified.pending pending (hpending ▸ h)⟩

/-! ## The invariant -/

/-- What the trace says of a suspended request and of its session. -/
structure Held (platform : Platform) (trace : Trace) (id : TaskId)
    (task : HttpTask) : Prop where
  certified : Certified platform trace task.session.sid task.session.data
  owner : ∀ data, Stored trace task.session.sid data →
    data.userId = task.session.data.userId
  reading : ∀ row username password,
    task.stage = .verifyLogin (some row) username password →
    (id, Event.credentialsRead task.session.sid (some row)) ∈ trace
  passed : ∀ row step, task.stage = .regenerated row step →
    Passed platform trace id row.id ∧
      ∀ data, ¬ Stored trace task.session.sid data

/-- Everything under one session id is stored with the same user, and every
session copy is justified. -/
structure Provenance (platform : Platform) (state : AuthState) : Prop where
  rows : ∀ row ∈ state.sessions.rows, Stored state.trace row.1 row.2
  sidBound : ∀ sid data, Stored state.trace sid data → sid < state.nextSid
  established : ∀ task sid userId,
    (task, Event.established sid userId) ∈ state.trace →
    LoginChain platform state.trace sid userId
  certified : ∀ sid data, Stored state.trace sid data →
    Certified platform state.trace sid data
  owner : ∀ sid data other, Stored state.trace sid data →
    Stored state.trace sid other → data.userId = other.userId
  taskBound : ∀ id task, state.tasks id = some (.http task) →
    task.session.sid < state.nextSid
  shared : ∀ id other task suspended, id ≠ other →
    state.tasks id = some (.http task) →
    state.tasks other = some (.http suspended) →
    task.session.sid = suspended.session.sid →
    ∃ data, Stored state.trace task.session.sid data
  held : ∀ id task, state.tasks id = some (.http task) →
    Held platform state.trace id task

theorem provenance_initial (users : UsersTable) :
    Provenance platform (.initial users) := by
  constructor <;>
    simp [AuthState.initial, SessionStore.empty, Stored]

/-! ## Ids and closings -/

namespace AuthState

theorem le_performAll_nextSid {task : TaskId} {now : String}
    {events : List Event} {bound : SessionId} (hbound : bound ≤ state.nextSid)
    (hgenerated : ∀ sid, .generateSession sid ∈ events → bound ≤ sid + 1) :
    bound ≤ (state.performAll task now events).nextSid := by
  induction events generalizing state with
  | nil => exact hbound
  | cons event rest ih =>
      refine ih ?_ fun sid hsid => hgenerated sid (List.mem_cons_of_mem _ hsid)
      cases event with
      | generateSession sid => exact hgenerated sid List.mem_cons_self
      | _ => exact hbound

theorem lt_performAll_nextSid {task : TaskId} {now : String}
    {events : List Event} (hmem : .generateSession sid ∈ events)
    (hgenerated : ∀ other, .generateSession other ∈ events → sid ≤ other) :
    sid < (state.performAll task now events).nextSid := by
  induction events generalizing state with
  | nil => simp at hmem
  | cons event rest ih =>
      have hrest : ∀ other, .generateSession other ∈ rest → sid ≤ other :=
        fun other hother => hgenerated other (List.mem_cons_of_mem _ hother)
      rcases List.mem_cons.mp hmem with rfl | hmem
      · rw [performAll_cons]
        exact le_performAll_nextSid (Nat.le_refl (sid + 1)) fun other hother =>
          Nat.succ_le_succ (hrest other hother)
      · exact ih hmem hrest

end AuthState

theorem Outcome.closing_stored {outcome : Outcome} {endpoint : Endpoint}
    (hmem : .storeSession sid data ∈ outcome.closing endpoint) :
    ∃ session reply, outcome = .replies (some session) reply ∧
      session.shouldSave = true ∧ sid = session.sid ∧ data = session.data := by
  rcases Outcome.closing_cases hmem with
    ⟨session, reply, heq, hsave, hstore⟩ | ⟨_, hanswer⟩
  · injection hstore with hsid hdata
    exact ⟨session, reply, heq, hsave, hsid, hdata⟩
  · cases hanswer

/-! ## One stretch -/

/-- The invariant over a stretch whose task works on the session id `own`: it
stores nothing elsewhere, and nothing there with another user than before. -/
theorem Provenance.commit {id : TaskId} {now : String} {events : List Event}
    {left : Option Task} (own : SessionId) (owner : Option ℕ)
    (hstate : Provenance platform state)
    (hown : ∀ other suspended, other ≠ id →
      state.tasks other = some (.http suspended) →
      suspended.session.sid = own → ∃ data, Stored state.trace own data)
    (hstores : ∀ sid data, .storeSession sid data ∈ events →
      (sid = own ∧ own < state.nextSid) ∧ data.userId = owner ∧
        Certified platform (state.trace ++ events.map (Prod.mk id)) sid data)
    (howner : ∀ sid data other, .storeSession sid data ∈ events →
      Stored state.trace own other → other.userId = owner)
    (hestablished : ∀ sid userId, .established sid userId ∈ events →
      LoginChain platform (state.trace ++ events.map (Prod.mk id)) sid userId)
    (hgenerated : ∀ sid, .generateSession sid ∈ events → sid = state.nextSid)
    (hleft : ∀ resumed, left = some (.http resumed) →
      Held platform (state.trace ++ events.map (Prod.mk id)) id resumed ∧
        (resumed.session.sid = own ∧ own < state.nextSid ∨
          resumed.session.sid = state.nextSid ∧
            .generateSession state.nextSid ∈ events)) :
    Provenance platform (state.commit id now events left) := by
  have hnextSid : state.nextSid ≤ (state.commit id now events left).nextSid :=
    AuthState.le_performAll_nextSid le_rfl fun sid hsid =>
      hgenerated sid hsid ▸ Nat.le_succ _
  have hnew : ∀ {sid data}, Stored (state.commit id now events left).trace sid
      data → Stored state.trace sid data ∨ .storeSession sid data ∈ events := by
    intro sid data hstored
    rw [AuthState.commit_trace, stored_append_iff, stored_map_iff] at hstored
    exact hstored
  have htasks : ∀ {other suspended}, (state.commit id now events left).tasks
      other = some (.http suspended) →
      other = id ∧ left = some (.http suspended) ∨
        other ≠ id ∧ state.tasks other = some (.http suspended) := by
    intro other suspended hother
    rw [AuthState.commit_tasks] at hother
    by_cases heq : other = id
    · subst other
      exact .inl ⟨rfl, by simpa using hother⟩
    · exact .inr ⟨heq, by simpa [heq] using hother⟩
  -- another request on the same session holds the same user
  have hothers : ∀ {other suspended sid data}, other ≠ id →
      state.tasks other = some (.http suspended) →
      .storeSession sid data ∈ events → suspended.session.sid = sid →
      suspended.session.data.userId = owner := by
    intro other suspended sid data hne hother hstore hsid
    have hsame := hsid.trans (hstores sid data hstore).1.1
    obtain ⟨old, hold⟩ := hown other suspended hne hother hsame
    have hheld := (hstate.held other suspended hother).owner old
      (by rw [hsame]; exact hold)
    rw [← hheld]
    exact howner sid data old hstore hold
  constructor
  · intro row hrow
    rw [AuthState.commit_trace, stored_append_iff, stored_map_iff]
    exact (AuthState.performAll_rows hrow).imp_left (hstate.rows row)
  · intro sid data hstored
    refine lt_of_lt_of_le ?_ hnextSid
    rcases hnew hstored with hold | hevent
    · exact hstate.sidBound sid data hold
    · exact (hstores sid data hevent).1.1 ▸ (hstores sid data hevent).1.2
  · intro other sid userId hmem
    rw [AuthState.commit_trace] at hmem ⊢
    rcases List.mem_append.mp hmem with hold | hevent
    · exact (hstate.established other sid userId hold).append
    · obtain ⟨event, hevent, heq⟩ := List.mem_map.mp hevent
      obtain ⟨_, rfl⟩ := Prod.mk.injEq _ _ _ _ ▸ heq
      exact hestablished sid userId hevent
  · intro sid data hstored
    rw [AuthState.commit_trace]
    rcases hnew hstored with hold | hevent
    · exact (hstate.certified sid data hold).append
    · exact (hstores sid data hevent).2.2
  · intro sid data other hstored hother
    rcases hnew hstored with hold | hevent <;>
      rcases hnew hother with hotherOld | hotherEvent
    · exact hstate.owner sid data other hold hotherOld
    · obtain ⟨⟨hsid, _⟩, hsame, _⟩ := hstores sid other hotherEvent
      rw [hsame]
      exact howner sid other data hotherEvent (hsid ▸ hold)
    · obtain ⟨⟨hsid, _⟩, hsame, _⟩ := hstores sid data hevent
      rw [hsame]
      exact (howner sid data other hevent (hsid ▸ hotherOld)).symm
    · rw [(hstores sid data hevent).2.1, (hstores sid other hotherEvent).2.1]
  · intro other suspended hother
    rcases htasks hother with ⟨rfl, hresumed⟩ | ⟨_, hold⟩
    · rcases (hleft suspended hresumed).2 with
        ⟨hsame, hbound⟩ | ⟨hfresh, hevent⟩
      · rw [hsame]
        exact lt_of_lt_of_le hbound hnextSid
      · rw [hfresh]
        exact AuthState.lt_performAll_nextSid hevent fun sid hsid =>
          (hgenerated sid hsid).ge
    · exact lt_of_lt_of_le (hstate.taskBound other suspended hold) hnextSid
  · intro a b taskA taskB hne ha hb hsid
    have hkeep : ∀ other suspended, other ≠ id →
        state.tasks other = some (.http suspended) →
        ∀ resumed, left = some (.http resumed) →
        resumed.session.sid = suspended.session.sid →
        ∃ data, Stored (state.commit id now events left).trace
          resumed.session.sid data := by
      intro other suspended hother hsuspended resumed hresumed hsame
      rcases (hleft resumed hresumed).2 with ⟨hold, _⟩ | ⟨hfresh, _⟩
      · obtain ⟨data, hdata⟩ := hown other suspended hother hsuspended
          (hsame.symm.trans hold)
        rw [AuthState.commit_trace, hold]
        exact ⟨data, hdata.append⟩
      · have hbound := hstate.taskBound other suspended hsuspended
        rw [← hsame, hfresh] at hbound
        exact absurd hbound (lt_irrefl _)
    rcases htasks ha with ⟨rfl, hresumed⟩ | ⟨hneA, haOld⟩ <;>
      rcases htasks hb with ⟨rfl, hresumed'⟩ | ⟨hneB, hbOld⟩
    · exact absurd rfl hne
    · exact hkeep b taskB hneB hbOld taskA hresumed hsid
    · rw [hsid]
      exact hkeep a taskA hneA haOld taskB hresumed' hsid.symm
    · obtain ⟨data, hdata⟩ := hstate.shared a b taskA taskB hne haOld hbOld hsid
      rw [AuthState.commit_trace]
      exact ⟨data, hdata.append⟩
  · intro other suspended hother
    rcases htasks hother with ⟨rfl, hresumed⟩ | ⟨hne, hold⟩
    · rw [AuthState.commit_trace]
      exact (hleft suspended hresumed).1
    · have hheld := hstate.held other suspended hold
      rw [AuthState.commit_trace]
      constructor
      · exact hheld.certified.append
      · intro data hstored
        rw [stored_append_iff, stored_map_iff] at hstored
        rcases hstored with hstored | hevent
        · exact hheld.owner data hstored
        · rw [(hstores _ data hevent).2.1]
          exact (hothers hne hold hevent rfl).symm
      · intro row username password hstage
        have hread := hheld.reading row username password hstage
        exact List.mem_append_left _ hread
      · intro row step hstage
        obtain ⟨hpassed, hunstored⟩ := hheld.passed row step hstage
        constructor
        · exact hpassed.append
        · intro data hstored
          rw [stored_append_iff, stored_map_iff] at hstored
          rcases hstored with hstored | hevent
          · exact hunstored data hstored
          -- a session nothing was stored under belongs to one request only
          · have hsame := (hstores _ data hevent).1.1
            obtain ⟨old, hstoredOld⟩ := hown other suspended hne hold hsame
            exact hunstored old (hsame ▸ hstoredOld)

/-! ## The stretches of a request -/

theorem SameLogin.userId {before after : RequestSession}
    (hsame : SameLogin before after) : after.data.userId = before.data.userId := by
  simp only [SessionData.userId, hsame.user]

theorem SameLogin.refl (session : RequestSession) : SameLogin session session :=
  ⟨rfl, rfl, rfl⟩

theorem Held.sameLogin {id : TaskId} {task resumed : HttpTask}
    {events : List Event} (hheld : Held platform trace id task)
    (hsame : SameLogin task.session resumed.session)
    (hunstored : ∀ sid data, .storeSession sid data ∉ events)
    (hreading : ∀ row username password,
      resumed.stage = .verifyLogin (some row) username password →
      .credentialsRead task.session.sid (some row) ∈ events)
    (hpassed : ∀ row step, resumed.stage ≠ .regenerated row step) :
    Held platform (trace ++ events.map (Prod.mk id)) id resumed := by
  constructor
  · exact (hheld.certified.sameLogin hsame).append
  · intro data hstored
    rw [stored_append_iff, stored_map_iff] at hstored
    have hold := hstored.resolve_right (hunstored _ data)
    rw [hsame.sid] at hold
    exact (hheld.owner data hold).trans hsame.userId.symm
  · intro row username password hstage
    rw [hsame.sid]
    exact List.mem_append_right _
      (List.mem_map.mpr ⟨_, hreading row username password hstage, rfl⟩)
  · exact fun row step hstage => absurd hstage (hpassed row step)

theorem passwordSteps_sublist {id : TaskId} {row : UserRecord}
    {password : String} {events : List Event}
    (hread : (id, Event.credentialsRead sid (some row)) ∈ trace) :
    (passwordSteps id sid row password).Sublist (trace ++
      (Event.passwordChecked sid (some row) password true :: events).map
        (Prod.mk id)) := by
  rw [List.map_cons]
  exact (List.singleton_sublist.mpr hread).append
    ((List.nil_sublist _).cons_cons _)

theorem Held.regenerated {id : TaskId} {request : Request} {row : UserRecord}
    {step : LoginStep} {events : List Event}
    (hstate : Provenance platform state)
    (hunstored : ∀ sid data, .storeSession sid data ∉ events)
    (hpassed : Passed platform (state.trace ++ events.map (Prod.mk id)) id
      row.id) :
    Held platform (state.trace ++ events.map (Prod.mk id)) id
      { request, session := .regenerated state.nextSid
        stage := .regenerated row step } := by
  have hfresh : ∀ data, ¬ Stored (state.trace ++ events.map (Prod.mk id))
      state.nextSid data := by
    intro data hstored
    rw [stored_append_iff, stored_map_iff] at hstored
    have hold := hstored.resolve_right (hunstored _ data)
    exact absurd (hstate.sidBound _ data hold) (lt_irrefl _)
  constructor
  · exact Certified.empty
  · exact fun data hstored => absurd hstored (hfresh data)
  · exact fun other username password hstage => by simp at hstage
  · intro other step hstage
    simp only [Stage.regenerated.injEq] at hstage
    exact hstage.1 ▸ ⟨hpassed, hfresh⟩

section

variable {id : TaskId} {task : HttpTask} {now : String}

theorem Provenance.shared_own (hstate : Provenance platform state)
    (htask : state.tasks id = some (.http task)) :
    ∀ other suspended, other ≠ id →
      state.tasks other = some (.http suspended) →
      suspended.session.sid = task.session.sid →
      ∃ data, Stored state.trace task.session.sid data :=
  fun other suspended hne hother hsid =>
    hstate.shared id other task suspended hne.symm htask hother hsid.symm

theorem Provenance.commitUnstored {events : List Event} {left : Option Task}
    (hstate : Provenance platform state)
    (htask : state.tasks id = some (.http task))
    (hunstored : ∀ sid data, .storeSession sid data ∉ events)
    (hestablished : ∀ sid userId, .established sid userId ∉ events)
    (hgenerated : ∀ sid, .generateSession sid ∈ events → sid = state.nextSid)
    (hleft : ∀ resumed, left = some (.http resumed) →
      Held platform (state.trace ++ events.map (Prod.mk id)) id resumed ∧
        (resumed.session.sid = task.session.sid ∨
          resumed.session.sid = state.nextSid ∧
            .generateSession state.nextSid ∈ events)) :
    Provenance platform (state.commit id now events left) := by
  refine hstate.commit task.session.sid none (hstate.shared_own htask)
    (fun sid data hstore => absurd hstore (hunstored sid data))
    (fun sid data other hstore => absurd hstore (hunstored sid data))
    (fun sid userId hmem => absurd hmem (hestablished sid userId)) hgenerated
    fun resumed hresumed => ?_
  obtain ⟨hheld, hsid⟩ := hleft resumed hresumed
  exact ⟨hheld, hsid.imp_left fun hsame =>
    ⟨hsame, hstate.taskBound id task htask⟩⟩

end

/-- A stretch outside of login ends with its session, or keeps it. -/
theorem Provenance.kept {id : TaskId} {task : HttpTask} {now : String}
    {segment : Segment} {after : RequestSession}
    (hstate : Provenance platform state)
    (htask : state.tasks id = some (.http task))
    (hevents : ∀ event ∈ segment.events, event.isPlain = true)
    (houtcome : segment.outcome.Keeps platform state task after)
    (hsame : SameLogin task.session after) :
    Provenance platform (state.commit id now
      (segment.events ++ segment.outcome.closing task.request.endpoint)
      (segment.outcome.next task.request)) := by
  obtain ⟨events, outcome⟩ := segment
  have hplain : ∀ event ∈ events, event.isPlain = true := hevents
  cases outcome with
  | awaits session stage =>
      obtain ⟨rfl, hstage⟩ := houtcome
      have hunstored : ∀ sid data, .storeSession sid data ∉ events :=
        fun sid data hmem => by simpa [Event.isPlain] using hplain _ hmem
      simp only [Outcome.closing, List.append_nil]
      refine hstate.commitUnstored htask hunstored
        (fun sid userId hmem => by simpa [Event.isPlain] using hplain _ hmem)
        (fun sid hmem => by simpa [Event.isPlain] using hplain _ hmem) ?_
      intro resumed hresumed
      simp only [Outcome.next, Option.some.injEq, Task.http.injEq] at hresumed
      subst resumed
      refine ⟨(hstate.held id task htask).sameLogin hsame hunstored ?_ ?_,
        .inl hsame.sid⟩
      · rintro row username password rfl
        cases hstage
      · rintro row step rfl
        cases hstage
  | replies session reply =>
      obtain rfl : session = some after := houtcome
      have hheld := hstate.held id task htask
      have hstore : ∀ sid data, .storeSession sid data ∈ events ++
          Outcome.closing task.request.endpoint (.replies (some after) reply) →
          sid = after.sid ∧ data = after.data := by
        intro sid data hmem
        rcases List.mem_append.mp hmem with hmem | hmem
        · simpa [Event.isPlain] using hplain _ hmem
        · obtain ⟨_, _, heq, _, hsid, hdata⟩ := Outcome.closing_stored hmem
          simp only [Outcome.replies.injEq, Option.some.injEq] at heq
          obtain ⟨rfl, _⟩ := heq
          exact ⟨hsid, hdata⟩
      refine hstate.commit task.session.sid task.session.data.userId
        (hstate.shared_own htask) ?_ ?_ ?_ ?_ (by simp [Outcome.next])
      · intro sid data hmem
        obtain ⟨rfl, rfl⟩ := hstore sid data hmem
        exact ⟨⟨hsame.sid, hstate.taskBound id task htask⟩, hsame.userId,
          (hheld.certified.sameLogin hsame).append⟩
      · exact fun sid data other _ hstored => hheld.owner other hstored
      · intro sid userId hmem
        rcases List.mem_append.mp hmem with hmem | hmem
        · simpa [Event.isPlain] using hplain _ hmem
        · rcases Outcome.closing_cases hmem with ⟨_, _, _, _, heq⟩ | ⟨_, heq⟩
          · cases heq
          · cases heq
      · intro sid hmem
        rcases List.mem_append.mp hmem with hmem | hmem
        · simpa [Event.isPlain] using hplain _ hmem
        · rcases Outcome.closing_cases hmem with ⟨_, _, _, _, heq⟩ | ⟨_, heq⟩
          · cases heq
          · cases heq

theorem Provenance.challenged {id : TaskId} {task : HttpTask} {now : String}
    {row : UserRecord} {username password : String} {after : RequestSession}
    (hstate : Provenance platform state)
    (htask : state.tasks id = some (.http task))
    (hstage : task.stage = .verifyLogin (some row) username password)
    (hverify : platform.verifyPassword row.passwordHash password = true)
    (htotp : row.totpEnabled = true)
    (hafter : after = task.session.setPending2fa
      { userId := row.id, username := row.username }) :
    Provenance platform (state.commit id now
      [.passwordChecked task.session.sid (some row) password true,
        .storeSession after.sid after.data]
      (some (.http { request := task.request, session := after.saved
                     stage := .challengeSaved }))) := by
  have hheld := hstate.held id task htask
  have hsid : after.sid = task.session.sid := by rw [hafter]; rfl
  have huser : after.data.userId = task.session.data.userId := by
    rw [hafter]; rfl
  have hcertified : Certified platform (state.trace ++
      [Event.passwordChecked task.session.sid (some row) password true,
        .storeSession after.sid after.data].map (Prod.mk id))
      after.sid after.data := by
    rw [hsid]
    have hread := hheld.reading row username password hstage
    constructor
    · intro user h
      rw [hafter] at h
      exact hheld.certified.append.user user h
    · intro pending h
      rw [hafter] at h
      obtain rfl := Option.some.inj h
      exact ⟨id, row, password, rfl, htotp, hverify,
        passwordSteps_sublist hread⟩
  have hown : ∀ data, Stored (state.trace ++
      [Event.passwordChecked task.session.sid (some row) password true,
        .storeSession after.sid after.data].map (Prod.mk id))
      after.sid data → data.userId = task.session.data.userId := by
    intro data hstored
    rw [stored_append_iff, stored_map_iff] at hstored
    rcases hstored with hstored | hmem
    · exact hheld.owner data (hsid ▸ hstored)
    · simp only [List.mem_cons, reduceCtorEq, Event.storeSession.injEq,
        List.not_mem_nil, or_false, false_or] at hmem
      rw [hmem.2, huser]
  refine hstate.commit task.session.sid task.session.data.userId
    (hstate.shared_own htask) ?_ ?_ (by simp) (by simp) ?_
  · intro sid data hmem
    simp only [List.mem_cons, reduceCtorEq, Event.storeSession.injEq,
      List.not_mem_nil, or_false, false_or] at hmem
    obtain ⟨rfl, rfl⟩ := hmem
    exact ⟨⟨hsid, hstate.taskBound id task htask⟩, huser, hcertified⟩
  · exact fun sid data other _ hstored => hheld.owner other hstored
  · intro resumed hresumed
    simp only [Option.some.injEq, Task.http.injEq] at hresumed
    subst resumed
    constructor
    · constructor
      · simpa using hcertified
      · intro data hstored
        simp only [RequestSession.saved_sid] at hstored
        rw [hown data hstored, RequestSession.saved_data, huser]
      · simp
      · simp
    · have hsaved : after.saved.sid = task.session.sid := by simpa using hsid
      exact .inl ⟨hsaved, hstate.taskBound id task htask⟩

theorem Provenance.attached {id : TaskId} {task : HttpTask} {now : String}
    {row : UserRecord} {step : LoginStep} (hstate : Provenance platform state)
    (htask : state.tasks id = some (.http task))
    (hstage : task.stage = .regenerated row step) :
    Provenance platform (state.commit id now
      (attachUser task.session row step).events
      ((attachUser task.session row step).outcome.next task.request)) := by
  have hheld := hstate.held id task htask
  obtain ⟨⟨steps, hsteps, hsub⟩, hunstored⟩ := hheld.passed row step hstage
  simp only [attachUser, Outcome.next]
  generalize hsession : task.session.setUser row.sessionUser = session
  have hsid : session.sid = task.session.sid := by rw [← hsession]; rfl
  have huser : session.data.userId = some row.id := by rw [← hsession]; rfl
  have hcertified : Certified platform (state.trace ++
      [Event.storeSession session.sid session.data,
        .established session.sid row.id].map (Prod.mk id))
      session.sid session.data := by
    refine ⟨fun user h => ⟨id, ?_⟩, fun pending h => ?_⟩
    · have hid : user.id = row.id := by
        simpa [SessionData.userId, h] using huser
      simp [hid]
    · rw [hsid]
      rw [← hsession] at h
      exact (hheld.certified.pending pending h).append
  refine hstate.commit task.session.sid (some row.id) (hstate.shared_own htask)
    ?_ ?_ ?_ (by simp) ?_
  · intro sid data hmem
    simp only [List.mem_cons, reduceCtorEq, Event.storeSession.injEq,
      List.not_mem_nil, or_false] at hmem
    obtain ⟨rfl, rfl⟩ := hmem
    exact ⟨⟨hsid, hstate.taskBound id task htask⟩, huser, hcertified⟩
  · exact fun sid data other _ hstored => absurd hstored (hunstored other)
  · intro sid userId hmem
    simp only [List.mem_cons, reduceCtorEq, Event.established.injEq,
      List.not_mem_nil, or_false, false_or] at hmem
    obtain ⟨rfl, rfl⟩ := hmem
    refine ⟨id, steps, hsteps, hsub.append ?_⟩
    simp
  · intro resumed hresumed
    simp only [Option.some.injEq, Task.http.injEq] at hresumed
    subst resumed
    refine ⟨⟨by simpa using hcertified, fun data hstored => ?_, by simp,
      by simp⟩, .inl ⟨by simpa using hsid, hstate.taskBound id task htask⟩⟩
    simp only [RequestSession.saved_sid, RequestSession.saved_data] at hstored ⊢
    rw [stored_append_iff, stored_map_iff] at hstored
    rcases hstored with hstored | hmem
    · exact absurd (hsid ▸ hstored) (hunstored data)
    · simp only [List.mem_cons, reduceCtorEq, Event.storeSession.injEq,
        List.not_mem_nil, or_false] at hmem
      rw [hmem.2]

theorem Provenance.runHttp {id : TaskId} {task : HttpTask} {supply : Supply}
    (hstate : Provenance platform state)
    (htask : state.tasks id = some (.http task)) :
    Provenance platform (state.runHttp platform id task supply) := by
  have hheld := hstate.held id task htask
  have hmove : SessionMove platform state task
    (task.segment platform state supply) := segment_sessionMove
  unfold AuthState.runHttp
  dsimp only
  generalize task.segment platform state supply = segment at hmove
  cases hmove with
  | kept after hevents houtcome hafter hstage =>
      apply hstate.kept htask hevents houtcome
      rcases hafter with rfl | ⟨_, hchange⟩
      · exact .refl _
      · exact hchange.sameLogin
  | reading username password hstage =>
      simp only [login, Outcome.closing, Outcome.next, List.append_nil]
      apply hstate.commitUnstored htask (by simp) (by simp) (by simp)
      intro resumed hresumed
      simp only [Option.some.injEq, Task.http.injEq] at hresumed
      subst resumed
      refine ⟨hheld.sameLogin (.refl _) (by simp) ?_ (by simp), .inl rfl⟩
      intro row name typed hread
      simp only [Stage.verifyLogin.injEq] at hread
      simp [hread.1]
  | challenged row username password hstage hverify htotp after hafter =>
      exact hstate.challenged htask hstage hverify htotp hafter
  | passed row username password hstage hverify htotp =>
      simp only [regenerateSession, Outcome.closing, Outcome.next,
        List.append_nil]
      refine hstate.commitUnstored htask (by simp) (by simp) (by simp) ?_
      intro resumed hresumed
      simp only [Option.some.injEq, Task.http.injEq] at hresumed
      subst resumed
      have hsteps : LoginSteps platform row.id id
          (passwordSteps id task.session.sid row password) :=
        .password id task.session.sid row password rfl hverify htotp
      have hread := hheld.reading row username password hstage
      exact ⟨Held.regenerated hstate (by simp)
        ⟨_, hsteps, passwordSteps_sublist hread⟩, .inr ⟨rfl, by simp⟩⟩
  | accepted pending current secret token hstage hpending hcurrent hsecret
      haccepted =>
      obtain ⟨first, row, password, hid, htotp, hverify, hsub⟩ :=
        hheld.certified.pending pending hpending
      have hcurrentId := (UsersTable.mem_of_findById hcurrent).2
      simp only [regenerateSession, Outcome.closing, Outcome.next,
        List.append_nil]
      refine hstate.commitUnstored htask (by simp) (by simp) (by simp) ?_
      intro resumed hresumed
      simp only [Option.some.injEq, Task.http.injEq] at hresumed
      subst resumed
      have hsteps : LoginSteps platform current.id id
          (passwordSteps first task.session.sid row password ++
            [(id, .totpAccepted task.session.sid pending current token)]) :=
        .totp first id task.session.sid row current password token secret
          pending (hid.trans hcurrentId.symm) hverify htotp hcurrentId.symm rfl
          hsecret haccepted
      have hpassed : Passed platform (state.trace ++
          ([Event.totpAccepted task.session.sid pending current token] ++
            [Event.destroySession task.session.sid,
              .generateSession state.nextSid]).map (Prod.mk id))
          id current.id :=
        ⟨_, hsteps, hsub.append ((List.nil_sublist _).cons_cons _)⟩
      exact ⟨Held.regenerated hstate (by simp) hpassed, .inr ⟨rfl, by simp⟩⟩
  | attached row step hstage =>
      have hattached : Provenance platform (state.commit id supply.now _ _) :=
        hstate.attached htask hstage
      simpa [attachUser, Outcome.closing] using hattached
  | leaving logged hlogged hstage hendpoint =>
      simp only [Outcome.closing, Outcome.next, List.append_nil]
      have hunstored : ∀ sid data,
          .storeSession sid data ∉ logged ++ [.destroySession task.session.sid] := by
        intro sid data hmem
        simp only [List.mem_append, List.mem_singleton, reduceCtorEq,
          or_false] at hmem
        simpa [Event.isPlain] using hlogged _ hmem
      apply hstate.commitUnstored htask hunstored
      · intro sid userId hmem
        simp only [List.mem_append, List.mem_singleton, reduceCtorEq,
          or_false] at hmem
        simpa [Event.isPlain] using hlogged _ hmem
      · intro sid hmem
        simp only [List.mem_append, List.mem_singleton, reduceCtorEq,
          or_false] at hmem
        simpa [Event.isPlain] using hlogged _ hmem
      · intro resumed hresumed
        simp only [Option.some.injEq, Task.http.injEq] at hresumed
        subst resumed
        exact ⟨hheld.sameLogin (.refl _) hunstored (by simp) (by simp),
          .inl rfl⟩
  | closed hstage =>
      simp only [loggedOut, Outcome.closing, Outcome.next, List.nil_append]
      exact hstate.commitUnstored htask (by simp) (by simp) (by simp) (by simp)

/-! ## The machine -/

theorem Provenance.withNextTask (hstate : Provenance platform state)
    (nextTask : TaskId) :
    Provenance platform { state with nextTask := nextTask } :=
  ⟨hstate.rows, hstate.sidBound, hstate.established, hstate.certified,
    hstate.owner, hstate.taskBound, hstate.shared, hstate.held⟩

theorem Provenance.unshared (hstate : Provenance platform state) {id : TaskId} :
    ∀ other suspended, other ≠ id →
      state.tasks other = some (.http suspended) →
      suspended.session.sid = state.nextSid →
      ∃ data, Stored state.trace state.nextSid data :=
  fun other suspended _ hother hsid =>
    absurd (hsid ▸ hstate.taskBound other suspended hother) (lt_irrefl _)

theorem Provenance.accept (hstate : Provenance platform state)
    (request : Request) (now : String) :
    Provenance platform (state.accept request now) := by
  have hopened := hstate.withNextTask (state.nextTask + 1)
  unfold AuthState.accept
  dsimp only
  rcases state.openSession_cases request.cookie with
    ⟨sid, data, hrow, hopen⟩ | hopen
  · have hstored := hstate.rows _ hrow
    rw [hopen]
    refine hopened.commit sid none (fun _ _ _ _ _ => ⟨data, hstored⟩) (by simp)
      (by simp) (by simp) (by simp) ?_
    intro resumed hresumed
    simp only [Option.some.injEq, Task.http.injEq] at hresumed
    subst resumed
    constructor
    · constructor
      · exact (hstate.certified sid data hstored).append
      · intro other hother
        rw [stored_append_iff, stored_map_iff] at hother
        have hold : Stored state.trace sid other := hother.resolve_right (by simp)
        exact hstate.owner sid other data hold hstored
      · simp
      · simp
    · have hbound := hstate.sidBound sid data hstored
      exact .inl ⟨rfl, hbound⟩
  · rw [hopen]
    refine hopened.commit state.nextSid none hopened.unshared (by simp)
      (by simp) (by simp) (by simp) ?_
    intro resumed hresumed
    simp only [Option.some.injEq, Task.http.injEq] at hresumed
    subst resumed
    constructor
    · constructor
      · exact Certified.empty
      · intro other hother
        rw [stored_append_iff, stored_map_iff] at hother
        have hold : Stored state.trace state.nextSid other :=
          hother.resolve_right (by simp)
        have hbound := hstate.sidBound state.nextSid other hold
        exact absurd hbound (lt_irrefl _)
      · simp
      · simp
    · exact .inr ⟨rfl, by simp⟩

theorem Provenance.commitJob {id : TaskId} {now : String} {events : List Event}
    {left : Option Task} (hstate : Provenance platform state)
    (hevents : ∀ event ∈ events, event.ofJob = true)
    (hleft : ∀ task, left ≠ some (.http task)) :
    Provenance platform (state.commit id now events left) := by
  refine hstate.commit state.nextSid none hstate.unshared ?_ ?_ ?_ ?_
    fun resumed hresumed => absurd hresumed (hleft resumed)
  · intro sid data hmem
    simpa [Event.ofJob] using hevents _ hmem
  · intro sid data other hmem
    simpa [Event.ofJob] using hevents _ hmem
  · intro sid userId hmem
    simpa [Event.ofJob] using hevents _ hmem
  · intro sid hmem
    simpa [Event.ofJob] using hevents _ hmem

theorem provenance_step :
    (authMachine platform).Preserves Machine.anyAction (Provenance platform) := by
  apply authMachine_preserves
  · exact fun state request now hstate => hstate.accept request now
  · exact fun state id task supply hstate htask => hstate.runHttp htask
  · exact fun state id kind input stage supply hstate _ =>
      hstate.commitJob jobSegment_ofJob jobSegment_left
  · exact fun state input now hstate => (hstate.withNextTask _).commitJob
      (by simp [createAdminStart_events]) createAdminStart_left
  · exact fun state supply hstate => (hstate.withNextTask _).commitJob
      bootstrapStart_ofJob bootstrapStart_left
  · exact fun state sid hstate =>
      ⟨fun row hrow => hstate.rows row (SessionStore.mem_destroy.mp hrow).1,
        hstate.sidBound, hstate.established, hstate.certified, hstate.owner,
        hstate.taskBound, hstate.shared, hstate.held⟩

theorem provenance_of_exec {users : UsersTable} {word : List Action}
    (hexec : (authMachine platform).exec (.initial users) word = some state) :
    Provenance platform state :=
  provenance_step.exec_any (provenance_initial users) hexec

/-! ## The rows a login has read -/

def Event.rowRead : Event → Option UserRecord
  | .credentialsRead _ user => user
  | .totpAccepted _ _ user _ => some user
  | _ => none

theorem SessionMove.rowRead_mem {task : HttpTask} {segment : Segment}
    {event : Event} {row : UserRecord}
    (hmove : SessionMove platform state task segment)
    (hevent : event ∈ segment.events) (hread : event.rowRead = some row) :
    row ∈ state.users.rows := by
  have hplain : event.isPlain = true → row ∈ state.users.rows := by
    intro h
    cases event <;> simp [Event.isPlain, Event.rowRead] at h hread
  cases hmove with
  | kept after hevents => exact hplain (hevents event hevent)
  | reading username password =>
      obtain rfl := List.mem_singleton.mp hevent
      exact (UsersTable.mem_of_findByUsername hread).1
  | accepted pending current secret token hstage hpending hcurrent =>
      simp only [regenerateSession, List.mem_append, List.mem_cons,
        List.not_mem_nil, or_false] at hevent
      rcases hevent with rfl | rfl | rfl
      · obtain rfl := Option.some.inj hread
        exact (UsersTable.mem_of_findById hcurrent).1
      · simp [Event.rowRead] at hread
      · simp [Event.rowRead] at hread
  | leaving logged hlogged =>
      rcases List.mem_append.mp hevent with hevent | hevent
      · exact hplain (hlogged event hevent)
      · obtain rfl := List.mem_singleton.mp hevent
        simp [Event.rowRead] at hread
  | passed =>
      simp only [regenerateSession, List.cons_append, List.nil_append,
        List.mem_cons, List.not_mem_nil, or_false] at hevent
      rcases hevent with rfl | rfl | rfl <;> simp [Event.rowRead] at hread
  | challenged | attached =>
      simp only [attachUser, List.mem_cons, List.not_mem_nil, or_false] at hevent
      rcases hevent with rfl | rfl <;> simp [Event.rowRead] at hread
  | closed => simp [loggedOut] at hevent

theorem Outcome.closing_rowRead {outcome : Outcome} {endpoint : Endpoint}
    {event : Event} (hevent : event ∈ outcome.closing endpoint) :
    event.rowRead = none := by
  rcases Outcome.closing_cases hevent with ⟨_, _, _, _, rfl⟩ | ⟨_, rfl⟩
  · rfl
  · rfl

theorem rowRead_step {task : TaskId} {event : Event} {row : UserRecord}
    (hread : event.rowRead = some row)
    (hstep : (authMachine platform).step state action = some next)
    (hmem : (task, event) ∈ next.trace) :
    (task, event) ∈ state.trace ∨ row ∈ state.users.rows := by
  rcases trace_step hstep hmem with hold | ⟨http, supply, hruns, hevent⟩ |
    ⟨sid, hgenerated⟩ | hjob
  · exact .inl hold
  · rcases List.mem_append.mp hevent with hevent | hclosing
    · have hrow := segment_sessionMove.rowRead_mem hevent hread
      rw [AuthState.opening_users] at hrow
      exact .inr hrow
    · simp [Outcome.closing_rowRead hclosing] at hread
  · have hsession : event = .generateSession sid := hgenerated
    simp [hsession, Event.rowRead] at hread
  · have hcreation : event.ofJob = true := hjob
    cases event <;> simp [Event.ofJob, Event.rowRead] at hcreation hread

/-! ## Sessions with a user -/

variable {last : AuthState} {users : UsersTable} {word : List Action}

/-- A stored session with a user lives under an id which was never stored
without this user, and a login has made its checks, in order, before the user
was attached to it.  The rows these checks used were in the table when they
were read. -/
theorem session_user_provenance {user : SessionUser}
    (hexec : (authMachine platform).exec (.initial users) word = some last)
    (hrow : (sid, data) ∈ last.sessions.rows) (huser : data.user = some user) :
    (∀ task other, (task, Event.storeSession sid other) ∈ last.trace →
        other.userId = some user.id) ∧
      LoginChain platform last.trace sid user.id ∧
      ∀ task event row, (task, event) ∈ last.trace →
        event.rowRead = some row →
        ∃ before after mid, word = before ++ after ∧
          (authMachine platform).exec (.initial users) before = some mid ∧
          row ∈ mid.users.rows := by
  have hlast := provenance_of_exec hexec
  have hstored := hlast.rows _ hrow
  have hid : data.userId = some user.id := by simp [SessionData.userId, huser]
  refine ⟨fun task other hother => ?_, ?_, fun task event row hmem hread => ?_⟩
  · rw [← hlast.owner sid data other hstored ⟨task, hother⟩, hid]
  · obtain ⟨task, hmem⟩ := (hlast.certified sid data hstored).user user huser
    exact hlast.established task sid user.id hmem
  · obtain ⟨before, action, after, mid, next, rfl, hmid, hstep, hnot, hnew⟩ :=
      Machine.exec_first (P := fun state => (task, event) ∈ state.trace)
        (by simp [AuthState.initial]) hmem hexec
    exact ⟨before, action :: after, mid, rfl, hmid,
      (rowRead_step hread hstep hnew).resolve_left hnot⟩

def sampleTotpLogin : List Action :=
  sampleBootstrap ++ sampleLogin 1 0 "admin" "password" ++
    [sampleRequest (some 1) .csrfToken,
      sampleRequest (some 1) .setupTwoFactor "111111", sampleResume 4,
      sampleRequest (some 1) (.enableTwoFactor "111111"),
      sampleRequest none .csrfToken,
      sampleRequest (some 2) (.login "admin" "password"), sampleResume 7,
      sampleResume 7,
      sampleRequest (some 2) (.verifyTwoFactor "111111"), sampleResume 8,
      sampleResume 8]

theorem session_user_provenance_sampleTotpLogin :
    ∃ last data user, (authMachine samplePlatform).exec (.initial .empty)
        sampleTotpLogin = some last ∧
      ((3, data) : SessionId × SessionData) ∈ last.sessions.rows ∧
      data.user = some user ∧ user.id = 1 ∧
      LoginChain samplePlatform last.trace 3 user.id := by
  obtain ⟨last, hexec, htest⟩ := Machine.exists_of_exec_map
    (authMachine samplePlatform) (.initial .empty) sampleTotpLogin
    (fun last => (last.sessions.get 3).any fun data =>
      data.user.any fun user => user.id == 1)
    (by decide +kernel)
  obtain ⟨data, hget, hdata⟩ := (Option.any_eq_true _ _).mp htest
  obtain ⟨user, huser, hid⟩ := (Option.any_eq_true _ _).mp hdata
  have hrow := SessionStore.mem_of_get hget
  exact ⟨last, data, user, hexec, hrow, huser, beq_iff_eq.mp hid,
    (session_user_provenance hexec hrow huser).2.1⟩

end Pm2Manager
