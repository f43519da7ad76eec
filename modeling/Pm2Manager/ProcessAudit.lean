import Pm2Manager.ProcessRequests

/-!
# The audit of process requests

A handler writes its row after everything it awaits has succeeded, so a
request which is answered has its row or has a rejected call.  One command
alone cannot do both; the commands of `start-all` can, and those which have
succeeded are then in no row.
-/

namespace Pm2Manager

open Function

variable {state next : ProcessState} {action : ProcessAction}
variable {pm2 later : Pm2State} {word : List ProcessAction}

/-! ## What one step does -/

inductive ProcessStep (state : ProcessState) : ProcessState → Prop
  | served (action : Pm2Action) (pm2 : Pm2State)
      (hpm2 : pm2Machine.step state.pm2 action = some pm2) :
      ProcessStep state { state with
        pm2
        tasks := fun id =>
          (state.tasks id).map (ProcessTask.afterService state.pm2 action) }
  | invalid : ProcessStep state state
  | started (operation : ProcessOperation) (username : Option String)
      (ip : String) : ProcessStep state (state.start operation username ip)
  | unlisted (id : RequestId) (task : ProcessTask) (root : CallId)
      (error : AppError) (htask : state.tasks id = some task)
      (hphase : task.phase = .listing root)
      (hrejection : state.pm2.rejection root = some error) :
      ProcessStep state (state.setTask id
        { task with phase := .finished [] (.error error) })
  | failed (id : RequestId) (task : ProcessTask) (calls : List CallId)
      (rejected : CallId) (error : AppError)
      (htask : state.tasks id = some task)
      (hphase : task.phase = .commanding calls) (hmem : rejected ∈ calls)
      (hrejection : state.pm2.rejection rejected = some error) :
      ProcessStep state (state.setTask id
        { task with phase := .finished calls (.error error) })
  | succeeded (id : RequestId) (task : ProcessTask) (calls : List CallId)
      (now : String) (htask : state.tasks id = some task)
      (hphase : task.phase = .commanding calls)
      (hresolved : ∀ call ∈ calls, state.pm2.resolved call = true) :
      ProcessStep state ((state.record (some id) task.row now).setTask id
        { task with phase := .finished calls (.ok ()) })
  | recorded (input : ActivityInput) (now : String) :
      ProcessStep state (state.record none input now)

theorem process_step (hstep : processMachine.step state action = some next) :
    ProcessStep state next := by
  cases action with
  | service action =>
      obtain ⟨pm2, hpm2, rfl⟩ := Option.map_eq_some_iff.mp hstep
      exact .served action pm2 hpm2
  | request request username ip =>
      simp only [processMachine, ProcessState.step] at hstep
      split at hstep
      · obtain rfl := Option.some.inj hstep
        exact .invalid
      next operation _ =>
        obtain rfl := Option.some.inj hstep
        exact .started operation username ip
  | proceed id rejected now =>
      obtain ⟨task, htask, hproceed⟩ := Option.bind_eq_some_iff.mp hstep
      simp only [ProcessState.proceed] at hproceed
      split at hproceed
      next root call hphase =>
        split at hproceed
        next hcall =>
          subst call
          obtain ⟨error, hrejection, rfl⟩ := Option.map_eq_some_iff.mp hproceed
          exact .unlisted id task root error htask hphase hrejection
        · simp at hproceed
      next calls call hphase =>
        split at hproceed
        next hmem =>
          obtain ⟨error, hrejection, rfl⟩ := Option.map_eq_some_iff.mp hproceed
          exact .failed id task calls call error htask hphase hmem hrejection
        · simp at hproceed
      next calls hphase =>
        split at hproceed
        next hresolved =>
          obtain rfl := Option.some.inj hproceed
          exact .succeeded id task calls now htask hphase
            (List.all_eq_true.mp hresolved)
        · simp at hproceed
      · simp at hproceed
  | record input now =>
      obtain rfl := Option.some.inj hstep
      exact .recorded input now

/-! ## Rows -/

namespace ProcessState

theorem rowsOf_record_same (state : ProcessState) (id : RequestId)
    (input : ActivityInput) (now : String) :
    (state.record (some id) input now).rowsOf id = state.rowsOf id ++
      [{ input with id := state.rows.length + 1, createdAt := now }] := by
  simp [rowsOf, record]

@[simp] theorem rowsOf_setTask (state : ProcessState) (id other : RequestId)
    (task : ProcessTask) :
    (state.setTask id task).rowsOf other = state.rowsOf other := rfl

theorem rowsOf_record_other (state : ProcessState) {id : RequestId}
    {writer : Option RequestId} (input : ActivityInput) (now : String)
    (hwriter : writer ≠ some id) :
    (state.record writer input now).rowsOf id = state.rowsOf id := by
  simp [rowsOf, record, hwriter]

end ProcessState

/-! ## Commands -/

def Pm2State.IsCommand (pm2 : Pm2State) (id : CallId) : Prop :=
  ∃ call command message, pm2.calls id = some call ∧
    call.job = .guarded (.apply command) message .nothing

theorem FollowUp.jobs_commands {list : List ProcessDescription}
    {followUp : FollowUp} {job : Pm2Job} (hjob : job ∈ followUp.jobs list) :
    ∃ command message, job = .guarded (.apply command) message .nothing := by
  cases followUp with
  | nothing => simp [jobs] at hjob
  | bulk method verb =>
      simp only [jobs] at hjob
      split at hjob
      · simp at hjob
      · obtain rfl := List.mem_singleton.mp hjob
        exact ⟨_, _, rfl⟩
  | startAll =>
      obtain ⟨process, _, rfl⟩ := List.mem_map.mp hjob
      exact ⟨_, _, rfl⟩

theorem FollowUp.jobs_length {list : List ProcessDescription}
    {followUp : FollowUp} (hfollowUp : followUp ≠ .startAll) :
    (followUp.jobs list).length ≤ 1 := by
  cases followUp with
  | nothing => simp [jobs]
  | bulk method verb =>
      simp only [jobs]
      split <;> simp
  | startAll => exact absurd rfl hfollowUp

/-- Only `start-all` asks to go on with one command for each process. -/
theorem ProcessOperation.followUp_ne_startAll {operation : ProcessOperation}
    {query : Pm2Query} {message : String} {followUp : FollowUp}
    (hjob : operation.run.job = .guarded query message followUp)
    (hoperation : operation ≠ .bulk .startAll) : followUp ≠ .startAll := by
  rintro rfl
  cases operation with
  | action action target =>
      cases action <;> simp [run, Operation.job, pAction] at hjob
  | remove target => simp [run, Operation.job, pAction] at hjob
  | bulk kind =>
      cases kind with
      | startAll => exact hoperation rfl
      | stopAll | restartAll | reloadAll =>
          simp [run, Operation.job, listThen] at hjob

theorem ProcessOperation.run_command {operation : ProcessOperation}
    (hsingle : operation.isBulk = false) :
    ∃ command message,
      operation.run.job = .guarded (.apply command) message .nothing := by
  cases operation with
  | action action target => cases action <;> exact ⟨_, _, rfl⟩
  | remove target => exact ⟨_, _, rfl⟩
  | bulk kind => simp [isBulk] at hsingle

namespace Pm2State

theorem IsCommand.step (hbounded : pm2.CallsBounded) {id : CallId}
    {action : Pm2Action} (hcommand : pm2.IsCommand id)
    (hstep : pm2Machine.step pm2 action = some later) : later.IsCommand id := by
  obtain ⟨call, command, message, hcall, hjob⟩ := hcommand
  obtain ⟨phase, hlater, _⟩ := call_step hbounded hcall hstep
  exact ⟨_, command, message, hlater, hjob⟩

theorem callResult_step (hbounded : pm2.CallsBounded) {id : CallId}
    {action : Pm2Action} {result : Except AppError (List ProcessDescription)}
    (hresult : pm2.callResult id = some result)
    (hstep : pm2Machine.step pm2 action = some later) :
    later.callResult id = some result := by
  obtain ⟨job, hcall⟩ := callResult_eq_some.mp hresult
  exact callResult_eq_some.mpr ⟨job, settled_step hbounded hcall hstep⟩

end Pm2State

/-! ## The invariant -/

/-- What the phase of a handler says about the calls it has made. -/
inductive ProcessPhase.Sound (pm2 : Pm2State) (operation : ProcessOperation) :
    ProcessPhase → Prop
  | listing (root : CallId) (call : Pm2Call) (hcall : pm2.calls root = some call)
      (hjob : call.job = operation.run.job) : Sound pm2 operation (.listing root)
  | commanding (calls : List CallId)
      (hcommands : ∀ id ∈ calls, pm2.IsCommand id)
      (hone : operation ≠ .bulk .startAll → calls.length ≤ 1) :
      Sound pm2 operation (.commanding calls)
  | succeeded (calls : List CallId)
      (hcommands : ∀ id ∈ calls, pm2.IsCommand id)
      (hresolved : ∀ id ∈ calls, pm2.resolved id = true) :
      Sound pm2 operation (.finished calls (.ok ()))
  | unlisted (error : AppError) :
      Sound pm2 operation (.finished [] (.error error))
  | failed (calls : List CallId) (rejected : CallId) (error : AppError)
      (hcommands : ∀ id ∈ calls, pm2.IsCommand id)
      (hone : operation ≠ .bulk .startAll → calls.length ≤ 1)
      (hmem : rejected ∈ calls) (hrejection : pm2.rejection rejected = some error) :
      Sound pm2 operation (.finished calls (.error error))

def ProcessTask.written (task : ProcessTask) : List ActivityInput :=
  match task.phase.result with
  | some (.ok ()) => [task.row]
  | _ => []

theorem ProcessTask.written_of_pending {task : ProcessTask}
    (hpending : task.phase.result = none) : task.written = [] := by
  simp [written, hpending]

structure ProcessState.Audited (state : ProcessState) : Prop where
  bounded : state.pm2.CallsBounded
  fresh : ∀ id, state.nextRequest ≤ id → state.tasks id = none
  rows : ∀ id, (state.rowsOf id).map ActivityRecord.toActivityInput =
    (state.tasks id).elim [] ProcessTask.written
  sound : ∀ id task, state.tasks id = some task →
    task.phase.Sound state.pm2 task.operation

theorem ProcessPhase.Sound.step (hbounded : pm2.CallsBounded)
    {operation : ProcessOperation} {phase : ProcessPhase} {action : Pm2Action}
    (hsound : phase.Sound pm2 operation)
    (hstep : pm2Machine.step pm2 action = some later) :
    phase.Sound later operation := by
  cases hsound with
  | listing root call hcall hjob =>
      obtain ⟨after, hlater, _⟩ := call_step hbounded hcall hstep
      exact .listing root _ hlater hjob
  | commanding calls hcommands hone =>
      exact .commanding calls
        (fun id hid => (hcommands id hid).step hbounded hstep) hone
  | succeeded calls hcommands hresolved =>
      refine .succeeded calls
        (fun id hid => (hcommands id hid).step hbounded hstep) fun id hid => ?_
      obtain ⟨list, hresult⟩ := Pm2State.resolved_iff.mp (hresolved id hid)
      exact Pm2State.resolved_iff.mpr
        ⟨list, Pm2State.callResult_step hbounded hresult hstep⟩
  | unlisted error => exact .unlisted error
  | failed calls rejected error hcommands hone hmem hrejection =>
      have hresult := Pm2State.callResult_step hbounded
        (Pm2State.rejection_eq_some.mp hrejection) hstep
      exact .failed calls rejected error
        (fun id hid => (hcommands id hid).step hbounded hstep) hone hmem
        (Pm2State.rejection_eq_some.mpr hresult)

/-- A step of the service changes at most the phase of a task, and only to the
commands which the step issues. -/
theorem afterService_cases (pm2 : Pm2State) (action : Pm2Action)
    (task : ProcessTask) :
    task.afterService pm2 action = task ∨
      ∃ root job list, task.phase = .listing root ∧ action = .resume root ∧
        pm2.calls root = some { job, phase := .answered (.ok list) } ∧
        task.afterService pm2 action = { task with
          phase := .commanding (List.range' pm2.nextCall
            (Pm2Call.spawned { job, phase := .answered (.ok list) }).length) } := by
  unfold ProcessTask.afterService
  split
  next root id hphase =>
    split
    next heq =>
      subst heq
      split
      next job list hcall =>
        exact .inr ⟨id, job, list, hphase, rfl, hcall, rfl⟩
      · exact .inl rfl
    · exact .inl rfl
  · exact .inl rfl

theorem spawned_command {call : Pm2Call} {job : Pm2Job}
    (hjob : job ∈ call.spawned) :
    ∃ command message, job = .guarded (.apply command) message .nothing := by
  unfold Pm2Call.spawned at hjob
  split at hjob
  · exact FollowUp.jobs_commands hjob
  · simp at hjob

/-- The calls a resumed call starts carry commands. -/
theorem spawned_commands {root : CallId}
    {call : Pm2Call} (hcall : pm2.calls root = some call)
    (hstep : pm2Machine.step pm2 (.resume root) = some later) :
    ∀ id ∈ List.range' pm2.nextCall call.spawned.length, later.IsCommand id := by
  intro id hid
  obtain ⟨hlow, hhigh⟩ := List.mem_range'_1.mp hid
  cases calls_step hstep with
  | kept hcalls hcount haction hresume => exact absurd rfl (hresume root)
  | called operation haction hnext => simp at haction
  | answered other reply job haction hother hnext => simp at haction
  | resumed other before phase mid haction hother hgoes hcalls hcount hmoves
      hnext =>
      obtain rfl := Pm2Action.resume.inj haction
      rw [hcall, Option.some.injEq] at hother
      subst hother
      obtain ⟨_, _, _, hfound⟩ := mid.startCalls_calls call.spawned
      obtain ⟨place, rfl⟩ := Nat.exists_eq_add_of_le hlow
      have hplace : place < call.spawned.length :=
        Nat.lt_of_add_lt_add_left hhigh
      obtain ⟨started, _, hstarted⟩ := hfound place hplace
      rw [hcount, ← hnext] at hstarted
      obtain ⟨command, message, hjob⟩ :=
        spawned_command (List.getElem_mem hplace)
      exact ⟨_, command, message, hstarted, hjob⟩

theorem spawned_length {operation : ProcessOperation} {job : Pm2Job}
    {list : List ProcessDescription} (hjob : job = operation.run.job)
    (hoperation : operation ≠ .bulk .startAll) :
    (Pm2Call.spawned { job, phase := .answered (.ok list) }).length ≤ 1 := by
  cases job with
  | connect | initBus => simp [Pm2Call.spawned]
  | guarded query message followUp =>
      exact FollowUp.jobs_length
        (ProcessOperation.followUp_ne_startAll hjob.symm hoperation)

theorem ProcessTask.written_afterService (pm2 : Pm2State) (action : Pm2Action)
    (task : ProcessTask) :
    (task.afterService pm2 action).written = task.written := by
  rcases afterService_cases pm2 action task with
    hsame | ⟨root, job, list, hphase, _, _, hafter⟩
  · rw [hsame]
  · rw [hafter, written_of_pending rfl,
      written_of_pending (by rw [hphase]; rfl)]

theorem ProcessPhase.Sound.afterService (hbounded : pm2.CallsBounded)
    {action : Pm2Action} {task : ProcessTask}
    (hsound : task.phase.Sound pm2 task.operation)
    (hstep : pm2Machine.step pm2 action = some later) :
    (task.afterService pm2 action).phase.Sound later
      (task.afterService pm2 action).operation := by
  rcases afterService_cases pm2 action task with
    hsame | ⟨root, job, list, hphase, rfl, hcall, hafter⟩
  · rw [hsame]
    exact hsound.step hbounded hstep
  · rw [hafter]
    rw [hphase] at hsound
    cases hsound with
    | listing root call hroot hjob =>
        rw [hcall, Option.some.injEq] at hroot
        subst hroot
        refine .commanding _ (spawned_commands hcall hstep) ?_
        intro hoperation
        rw [List.length_range']
        exact spawned_length hjob hoperation

namespace ProcessState

/-- A task moves on, and the rows which are added are its own. -/
theorem Audited.setTask (hstate : state.Audited) {id : RequestId}
    {task after : ProcessTask} {written : ProcessState}
    (htask : state.tasks id = some task) (hpm2 : written.pm2 = state.pm2)
    (hcount : written.nextRequest = state.nextRequest)
    (htasks : written.tasks = state.tasks)
    (hother : ∀ other, other ≠ id → written.rowsOf other = state.rowsOf other)
    (hown : (written.rowsOf id).map ActivityRecord.toActivityInput = after.written)
    (hsound : after.phase.Sound state.pm2 after.operation) :
    (written.setTask id after).Audited := by
  refine ⟨hpm2 ▸ hstate.bounded, ?_, ?_, ?_⟩
  · intro other hother
    have hfree := hstate.fresh other (hcount ▸ hother)
    have hne : other ≠ id := by
      rintro rfl
      simp [hfree] at htask
    simpa [ProcessState.setTask, hne, htasks] using hfree
  · intro other
    by_cases heq : other = id
    · subst heq
      rw [rowsOf_setTask, hown]
      simp [ProcessState.setTask]
    · rw [rowsOf_setTask, hother other heq, hstate.rows]
      simp [ProcessState.setTask, heq, htasks]
  · intro other found hfound
    simp only [ProcessState.setTask, hpm2]
    by_cases heq : other = id
    · subst heq
      simp only [ProcessState.setTask, update_self, Option.some.injEq] at hfound
      subst hfound
      exact hsound
    · simp only [ProcessState.setTask, update_of_ne heq, htasks] at hfound
      exact hstate.sound other found hfound

theorem Audited.reject (hstate : state.Audited) {id : RequestId}
    {task : ProcessTask} {calls : List CallId} {error : AppError}
    (htask : state.tasks id = some task) (hpending : task.phase.result = none)
    (hsound : (ProcessPhase.finished calls (.error error)).Sound state.pm2
      task.operation) :
    (state.setTask id
      { task with phase := .finished calls (.error error) }).Audited := by
  refine hstate.setTask htask rfl rfl rfl (fun _ _ => rfl) ?_ hsound
  rw [hstate.rows, htask]
  exact ProcessTask.written_of_pending hpending

theorem Audited.start (hstate : state.Audited) (operation : ProcessOperation)
    (username : Option String) (ip : String) :
    (state.start operation username ip).Audited := by
  have hstep : pm2Machine.step state.pm2 (.call operation.run) =
      some (state.pm2.startCall operation.run.job) := rfl
  obtain ⟨_, _, _, hcalls⟩ := state.pm2.startCalls_calls [operation.run.job]
  obtain ⟨phase, _, hroot⟩ := hcalls 0 (by simp)
  refine ⟨hstate.bounded.startCalls [operation.run.job], ?_, ?_, ?_⟩
  · intro id hid
    have hlt : state.nextRequest < id := hid
    simpa [ProcessState.start, ProcessState.setTask, Nat.ne_of_gt hlt] using
      hstate.fresh id (Nat.le_of_lt hlt)
  · intro id
    refine (hstate.rows id).trans ?_
    by_cases heq : id = state.nextRequest
    · subst heq
      have hfree := hstate.fresh state.nextRequest (Nat.le_refl _)
      cases hbulk : operation.isBulk <;>
        simp [ProcessState.start, ProcessState.setTask, hfree, hbulk,
          ProcessTask.written, ProcessPhase.result]
    · simp [ProcessState.start, ProcessState.setTask, heq]
  · intro id task htask
    by_cases heq : id = state.nextRequest
    · subst heq
      simp only [ProcessState.start, ProcessState.setTask, update_self,
        Option.some.injEq] at htask
      subst htask
      cases hbulk : operation.isBulk with
      | true => exact .listing _ _ hroot rfl
      | false =>
          obtain ⟨command, message, hjob⟩ :=
            ProcessOperation.run_command hbulk
          refine .commanding _ (fun call hcall => ?_) (fun _ => Nat.le_refl _)
          obtain rfl := List.mem_singleton.mp hcall
          exact ⟨_, command, message, hroot, hjob⟩
    · simp only [ProcessState.start, ProcessState.setTask, update_of_ne heq]
        at htask
      exact (hstate.sound id task htask).step hstate.bounded hstep

theorem audited_initial : ProcessState.initial.Audited where
  bounded _ _ := rfl
  fresh _ _ := rfl
  rows _ := rfl
  sound _ _ htask := by simp [initial] at htask

end ProcessState

theorem audited_step :
    processMachine.Preserves Machine.anyAction ProcessState.Audited := by
  intro state action next hstate _ hstep
  cases process_step hstep with
  | served action pm2 hpm2 =>
      refine ⟨callsBounded_step _ _ _ hstate.bounded trivial hpm2, ?_, ?_, ?_⟩
      · intro id hid
        simp [hstate.fresh id hid]
      · intro id
        refine (hstate.rows id).trans ?_
        cases htask : state.tasks id with
        | none => simp [htask]
        | some task => simp [htask, ProcessTask.written_afterService]
      · intro id task htask
        obtain ⟨before, hbefore, rfl⟩ := Option.map_eq_some_iff.mp htask
        exact (hstate.sound id before hbefore).afterService hstate.bounded hpm2
  | invalid => exact hstate
  | started operation username ip => exact hstate.start operation username ip
  | unlisted id task root error htask hphase hrejection =>
      exact hstate.reject htask (by rw [hphase]; rfl) (.unlisted error)
  | failed id task calls rejected error htask hphase hmem hrejection =>
      have hsound := hstate.sound id task htask
      rw [hphase] at hsound
      cases hsound with
      | commanding _ hcommands hone =>
          exact hstate.reject htask (by rw [hphase]; rfl)
            (.failed calls rejected error hcommands hone hmem hrejection)
  | succeeded id task calls now htask hphase hresolved =>
      have hsound := hstate.sound id task htask
      rw [hphase] at hsound
      have hbefore : (state.rowsOf id).map ActivityRecord.toActivityInput = [] := by
        rw [hstate.rows, htask]
        exact ProcessTask.written_of_pending (by rw [hphase]; rfl)
      cases hsound with
      | commanding _ hcommands hone =>
          refine hstate.setTask htask rfl rfl rfl ?_ ?_
            (.succeeded calls hcommands hresolved)
          · intro other hother
            exact ProcessState.rowsOf_record_other _ _ _ (by simpa using hother.symm)
          · rw [ProcessState.rowsOf_record_same, List.map_append, hbefore]
            rfl
  | recorded input now =>
      refine ⟨hstate.bounded, hstate.fresh, fun id => ?_, hstate.sound⟩
      rw [ProcessState.rowsOf_record_other _ _ _ (by simp)]
      exact hstate.rows id

/-! ## Partial failures -/

def CallPhase.succeeded : CallPhase → Bool
  | .answered (.ok _) | .settled (.ok _) => true
  | _ => false

def CallPhase.failed : CallPhase → Bool
  | .answered (.error _) | .settled (.error _) => true
  | _ => false

def Pm2State.AnyCall (pm2 : Pm2State) (calls : List CallId)
    (test : CallPhase → Bool) : Prop :=
  ∃ id ∈ calls, ∃ call, pm2.calls id = some call ∧ test call.phase = true

/-- The request has exactly one row in the log, with its type and user. -/
def ProcessState.HasItsRow (state : ProcessState) (id : RequestId)
    (task : ProcessTask) : Prop :=
  ∃ row, state.rowsOf id = [row] ∧ row.toActivityInput = task.row

/-- Some commands of `start-all` have succeeded and some have failed. -/
def ProcessState.PartlyStarted (state : ProcessState) (task : ProcessTask) :
    Prop :=
  task.operation = .bulk .startAll ∧
    state.pm2.AnyCall task.phase.calls CallPhase.succeeded ∧
    state.pm2.AnyCall task.phase.calls CallPhase.failed

theorem Pm2State.not_failed_of_resolved {id : CallId} {call : Pm2Call}
    (hresolved : pm2.resolved id = true) (hcall : pm2.calls id = some call) :
    call.phase.failed = false := by
  obtain ⟨list, hresult⟩ := Pm2State.resolved_iff.mp hresolved
  obtain ⟨job, hsettled⟩ := Pm2State.callResult_eq_some.mp hresult
  rw [hcall, Option.some.injEq] at hsettled
  subst hsettled
  rfl

theorem Pm2State.failed_of_rejection {id : CallId} {error : AppError}
    (hrejection : pm2.rejection id = some error) :
    ∃ call, pm2.calls id = some call ∧ call.phase.failed = true ∧
      call.phase.succeeded = false := by
  obtain ⟨job, hsettled⟩ := Pm2State.callResult_eq_some.mp
    (Pm2State.rejection_eq_some.mp hrejection)
  exact ⟨_, hsettled, rfl, rfl⟩

/-- An answered request with a command that has succeeded has its row, unless
it is a `start-all` with another command that has failed. -/
theorem audited_iff_not_partlyStarted {state : ProcessState} {id : RequestId}
    {task : ProcessTask}
    (hexec : processMachine.exec .initial word = some state)
    (htask : state.tasks id = some task)
    (hanswered : task.phase.result.isSome = true) :
    (state.pm2.AnyCall task.phase.calls CallPhase.succeeded →
        state.HasItsRow id task) ↔
      ¬ state.PartlyStarted task := by
  have hstate := audited_step.exec_any ProcessState.audited_initial hexec
  have hrows := hstate.rows id
  have hsound := hstate.sound id task htask
  rw [htask, Option.elim_some] at hrows
  unfold ProcessState.HasItsRow ProcessState.PartlyStarted
  generalize hphase : task.phase = phase at hsound hanswered
  cases hsound with
  | listing root call hcall hjob => simp [ProcessPhase.result] at hanswered
  | commanding calls hcommands hone => simp [ProcessPhase.result] at hanswered
  | succeeded calls hcommands hresolved =>
      rw [ProcessTask.written, hphase] at hrows
      obtain ⟨row, hrow, hinput⟩ := List.map_eq_singleton_iff.mp hrows
      constructor
      · rintro _ ⟨_, _, failed, hmem, call, hcall, hfailed⟩
        rw [Pm2State.not_failed_of_resolved (hresolved failed hmem) hcall]
          at hfailed
        exact Bool.false_ne_true hfailed
      · exact fun _ _ => ⟨row, hrow, hinput⟩
  | unlisted error =>
      constructor
      · rintro _ ⟨_, ⟨_, hmem, _⟩, _⟩
        simp [ProcessPhase.calls] at hmem
      · rintro _ ⟨_, hmem, _⟩
        simp [ProcessPhase.calls] at hmem
  | failed calls rejected error hcommands hone hmem hrejection =>
      obtain ⟨call, hcall, hfailed, hnot⟩ :=
        Pm2State.failed_of_rejection hrejection
      rw [ProcessTask.written, hphase] at hrows
      have hnone : state.rowsOf id = [] := List.map_eq_nil_iff.mp hrows
      constructor
      · rintro hrow ⟨_, hsucceeded, _⟩
        obtain ⟨row, hone, _⟩ := hrow hsucceeded
        simp [hnone] at hone
      · intro hpartly hsucceeded
        refine absurd ⟨?_, hsucceeded, rejected, hmem, call, hcall, hfailed⟩
          hpartly
        -- one call alone does not both succeed and fail
        by_contra hoperation
        obtain ⟨other, hother, found, hfound, hfine⟩ := hsucceeded
        obtain ⟨only, rfl⟩ := List.length_eq_one_iff.mp
          (Nat.le_antisymm (hone hoperation) (List.length_pos_of_mem hmem))
        obtain rfl := List.mem_singleton.mp hother
        obtain rfl := List.mem_singleton.mp hmem
        rw [hcall, Option.some.injEq] at hfound
        subst hfound
        exact Bool.false_ne_true (hnot.symm.trans hfine)

/-! ## A start which is in no row -/

def Pm2State.anyCall (pm2 : Pm2State) (calls : List CallId)
    (test : CallPhase → Bool) : Bool :=
  calls.any fun id => (pm2.calls id).any fun call => test call.phase

theorem Pm2State.anyCall_iff {calls : List CallId} {test : CallPhase → Bool} :
    pm2.anyCall calls test = true ↔ pm2.AnyCall calls test := by
  simp [anyCall, AnyCall, List.any_eq_true, Option.any_eq_true]

/-- The service is connected and has its bus. -/
def sampleReady : List ProcessAction :=
  [.service (.call .connect), .service (.connectCallback 0 none),
    .service (.resume 0), .service (.call .initBus),
    .service (.launchCallback 0 (.ok true))]

def sampleRestart : List ProcessAction :=
  sampleReady ++
    [.request (.single (.action "web" "restart")) (some "root") "127.0.0.1",
      .service (.resume 2), .service (.commandCallback 2 (.ok [])),
      .service (.resume 2), .proceed 0 none "2024-01-01 00:00:00"]

theorem audited_iff_not_partlyStarted_sampleRestart :
    ∃ state task, processMachine.exec .initial sampleRestart = some state ∧
      state.tasks 0 = some task ∧
      (state.pm2.AnyCall task.phase.calls CallPhase.succeeded →
          state.HasItsRow 0 task) ∧ task.row.type = .processRestart := by
  obtain ⟨state, hexec, htest⟩ := Machine.exists_of_exec_map processMachine
    .initial sampleRestart
    (fun state : ProcessState => (state.tasks 0).any fun task : ProcessTask =>
      task.phase.result.isSome &&
        decide (task.operation.type = ActivityType.processRestart))
    (by decide +kernel)
  obtain ⟨task, htask, hfound⟩ := (Option.any_eq_true _ _).mp htest
  simp only [Bool.and_eq_true, decide_eq_true_eq] at hfound
  obtain ⟨hanswered, htype⟩ := hfound
  refine ⟨state, task, hexec, htask, ?_, htype⟩
  refine (audited_iff_not_partlyStarted hexec htask hanswered).mpr ?_
  rintro ⟨hoperation, _⟩
  simp [hoperation, ProcessOperation.type] at htype

/-- Two stopped processes, of which PM2 starts one. -/
def sampleStartAll : List ProcessAction :=
  sampleReady ++
    [.request (.bulk "start-all") (some "root") "127.0.0.1",
      .service (.resume 2),
      .service (.commandCallback 2 (.ok
        [{ pmId := some 0, name := some "web", status := some .stopped },
          { pmId := some 1, name := some "worker", status := some .stopped }])),
      .service (.resume 2), .service (.resume 3), .service (.resume 4),
      .service (.commandCallback 3 (.ok [])),
      .service (.commandCallback 4 (.error "script not found")),
      .service (.resume 3), .service (.resume 4),
      .proceed 0 (some 4) "2024-01-01 00:00:00"]

theorem started_without_row :
    ∃ state task, processMachine.exec .initial sampleStartAll = some state ∧
      state.tasks 0 = some task ∧ task.phase.result.isSome = true ∧
      state.pm2.AnyCall task.phase.calls CallPhase.succeeded ∧
      state.activity = [] ∧ ¬ state.HasItsRow 0 task := by
  obtain ⟨state, hexec, htest⟩ := Machine.exists_of_exec_map processMachine
    .initial sampleStartAll
    (fun state => state.rows.isEmpty && (state.tasks 0).any fun task =>
      task.phase.result.isSome &&
        state.pm2.anyCall task.phase.calls CallPhase.succeeded)
    (by decide +kernel)
  simp only [Bool.and_eq_true, List.isEmpty_iff] at htest
  obtain ⟨hrows, hany⟩ := htest
  obtain ⟨task, htask, hfound⟩ := (Option.any_eq_true _ _).mp hany
  simp only [Bool.and_eq_true] at hfound
  obtain ⟨hanswered, hsucceeded⟩ := hfound
  refine ⟨state, task, hexec, htask, hanswered,
    Pm2State.anyCall_iff.mp hsucceeded, ?_, ?_⟩
  · simp [ProcessState.activity, hrows]
  · rintro ⟨row, hrow, _⟩
    simp [ProcessState.rowsOf, hrows] at hrow

end Pm2Manager
