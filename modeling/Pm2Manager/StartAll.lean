import Pm2Manager.BusWaits
import Pm2Manager.Pm2Calls

/-!
# Start all

The bulk start next to PM2's own process table.  Its restarts are chosen from
a list which the daemon has answered, and each is issued behind its own awaited
connection check.  A process which comes up in between is restarted, and one
which two overlapping bulk starts have found down is restarted twice.
-/

namespace Pm2Manager

open Function

/-! ## The daemon -/

structure DaemonProcess where
  pmId : ℤ
  name : Option String
  status : Option ProcessStatus
deriving DecidableEq, Repr

structure DaemonTable where
  processes : List DaemonProcess
  unique : (processes.map DaemonProcess.pmId).Nodup

namespace DaemonTable

/-- What PM2 answers to a list command. -/
def descriptions (table : DaemonTable) : List ProcessDescription :=
  table.processes.map fun process =>
    { pmId := some process.pmId, name := process.name, status := process.status }

def Up (table : DaemonTable) (pmId : ℤ) : Prop :=
  ∃ process ∈ table.processes, process.pmId = pmId ∧
    (process.status = some .online ∨ process.status = some .launching)

def Down (table : DaemonTable) (pmId : ℤ) : Prop :=
  ∃ process ∈ table.processes, process.pmId = pmId ∧
    process.status ≠ some .online ∧ process.status ≠ some .launching

end DaemonTable

/-- A restart which PM2 is asked for by the call `call`; the bulk start `start`
has made the call for the process. -/
structure BulkRestart where
  start : CallId
  call : CallId
  pmId : ℤ
deriving DecidableEq, Repr

/-- A bulk start has the number of its list call.  `replies` holds what the
daemon has answered to list commands, whether or not it has been received.  The
last three fields are history: which bulk start has made a call, which bulk
starts were under way when a bulk start was called, and the restarts PM2 has
been asked for, in order. -/
structure StartAllState where
  service : Pm2State
  daemon : DaemonTable
  replies : CallId → Option (List ProcessDescription)
  maker : CallId → Option CallId
  meets : CallId → List CallId
  restarts : List BulkRestart

inductive StartAllAction
  | service (action : Pm2Action)
  /-- PM2 takes the process list which a list command has asked for. -/
  | answerList (id : CallId)
  /-- Processes start, stop, crash, come or go. -/
  | changes (table : DaemonTable)

/-- `this.list()` of a bulk start. -/
def startAllJob : Pm2Job := Operation.startAll.job

namespace StartAllState

def initial (daemon : DaemonTable) : StartAllState where
  service := .initial
  daemon := daemon
  replies := fun _ => none
  maker := fun _ => none
  meets := fun _ => []
  restarts := []

def selected (list : List ProcessDescription) : List ProcessSummary :=
  (summaries list).filter fun process =>
    process.status ≠ .online ∧ process.status ≠ .launching

/-- The bulk start which has its process list and goes on. -/
def spawns (service : Pm2State) : Pm2Action → Option CallId
  | .resume id =>
      match service.calls id with
      | some { job, phase := .answered (.ok _) } =>
          if job = startAllJob then some id else none
      | _ => none
  | _ => none

def mark (state : StartAllState) (action : Pm2Action) (next : Pm2State) :
    CallId → Option CallId :=
  fun id =>
    if state.service.nextCall ≤ id ∧ id < next.nextCall then
      spawns state.service action
    else
      state.maker id

def unsettled (state : StartAllState) (id : CallId) : Bool :=
  (state.service.calls id).any fun call =>
    match call.phase with
    | .settled _ => false
    | _ => true

/-- The bulk start waits for its list, or for a restart it has made. -/
def underWay (state : StartAllState) (start : CallId) : Bool :=
  (state.unsettled start &&
      (state.service.calls start).any fun call => call.job = startAllJob) ||
    (List.range state.service.nextCall).any fun id =>
      decide (state.maker id = some start) && state.unsettled id

def meeting (state : StartAllState) : Pm2Action → CallId → List CallId
  | .call .startAll =>
      update state.meets state.service.nextCall
        ((List.range state.service.nextCall).filter state.underWay)
  | _ => state.meets

/-- The restart which PM2 is asked for when a call goes on. -/
def restarting (state : StartAllState) : Pm2Action → List BulkRestart
  | .resume call =>
      match state.maker call, state.service.calls call with
      | some start, some
          { job := .guarded (.apply { method := .restart, target := .number pmId }) _ _
            phase := .ensured } => [{ start, call, pmId }]
      | _, _ => []
  | _ => []

/-- A list which a call receives is the one PM2 has answered. -/
def receives (state : StartAllState) : Pm2Action → Bool
  | .commandCallback id (.ok list) =>
      match state.service.calls id with
      | some { job := .guarded .list _ _, phase := _ } => state.replies id = some list
      | _ => true
  | _ => true

def step (state : StartAllState) : StartAllAction → Option StartAllState
  | .service action =>
      if state.receives action then
        (state.service.step action).map fun service =>
          { state with
            service
            maker := state.mark action service
            meets := state.meeting action
            restarts := state.restarts ++ state.restarting action }
      else
        none
  | .answerList id =>
      match state.service.calls id with
      | some { job := .guarded .list _ _, phase := .issued } =>
          if state.replies id = none then
            some { state with
              replies := update state.replies id (some state.daemon.descriptions) }
          else
            none
      | _ => none
  | .changes table => some { state with daemon := table }

/-- The bulk start has made the call, which is to restart the process. -/
def RestartOf (state : StartAllState) (start id : CallId) (pmId : ℤ)
    (phase : CallPhase) : Prop :=
  state.maker id = some start ∧ ∃ message followUp, state.service.calls id =
    some { job := .guarded (.apply { method := .restart, target := .number pmId })
             message followUp
           phase }

/-- One of the two bulk starts was called while the other was under way. -/
def Overlap (state : StartAllState) (first second : CallId) : Prop :=
  first ∈ state.meets second ∨ second ∈ state.meets first

/-- A bulk start has the process in a list as one to restart, and has not
issued the command yet. -/
inductive Pending (state : StartAllState) (pmId : ℤ) : Prop
  | listed (id : CallId) (list : List ProcessDescription) (phase : CallPhase)
      (hreply : state.replies id = some list)
      (hcall : state.service.calls id = some { job := startAllJob, phase })
      (hphase : phase = .issued ∨ phase = .answered (.ok list))
      (hselected : ∃ process ∈ selected list, process.pmId = pmId)
  | called (start id : CallId) (phase : CallPhase)
      (hcall : state.RestartOf start id pmId phase)
      (hphase : phase.beforeCommand = true)

end StartAllState

def startAllMachine : Machine StartAllState StartAllAction where
  step := StartAllState.step

/-- A restart which a bulk start issues is for a process which is down. -/
def SparesRunning (state : StartAllState) (action : StartAllAction)
    (_ : StartAllState) : Prop :=
  ∀ start id pmId, action = .service (.resume id) →
    state.RestartOf start id pmId .ensured → ¬ state.daemon.Up pmId

/-- PM2 is asked for one restart of a process at most, by a bulk start and all
those which overlap it. -/
def RestartsOnce (state : StartAllState) : Prop :=
  state.restarts.Pairwise fun earlier later => earlier.pmId = later.pmId →
    earlier.start ≠ later.start ∧ ¬ state.Overlap earlier.start later.start

/-- A process which a bulk start has still to restart does not come up, and one
which it has found down is up, or gone, when PM2 takes the list of an
overlapping bulk start. -/
def Undisturbed (state : StartAllState) : StartAllAction → Prop
  | .changes table => ∀ pmId, state.Pending pmId → ¬ table.Up pmId
  | .answerList id => ∀ other list, state.Overlap other id →
      state.replies other = some list → ∀ process ∈ StartAllState.selected list,
        ¬ state.daemon.Down process.pmId
  | .service _ => True

namespace StartAllState

variable {state next : StartAllState} {action : Pm2Action} {service : Pm2State}
variable {list : List ProcessDescription} {table : DaemonTable} {pmId : ℤ}
variable {start id : CallId} {call : Pm2Call} {phase : CallPhase} {word : List StartAllAction}

/-! ## The selection -/

theorem jobs_startAll (list : List ProcessDescription) :
    FollowUp.startAll.jobs list = (selected list).map fun process =>
      pAction .restart (.number process.pmId) s!"Failed to start \"{process.name}\"" :=
  rfl

/-- The processes which are selected from PM2's own list are down. -/
theorem not_up_of_selected {process : ProcessSummary}
    (hselected : process ∈ selected table.descriptions) : ¬ table.Up process.pmId := by
  rintro ⟨running, hrunning, hnumber, hup⟩
  obtain ⟨hlisted, hdown⟩ := List.mem_filter.mp hselected
  rw [summaries, List.mem_insertionSort] at hlisted
  obtain ⟨desc, hdesc, rfl⟩ := List.mem_map.mp hlisted
  obtain ⟨stopped, hstopped, rfl⟩ := List.mem_map.mp hdesc
  have hsame : running = stopped :=
    List.inj_on_of_nodup_map table.unique hrunning hstopped hnumber
  subst hsame
  rcases hup with honline | hlaunching
  · simp [toProcessSummary, honline] at hdown
  · simp [toProcessSummary, hlaunching] at hdown

theorem down_of_selected {process : ProcessSummary}
    (hselected : process ∈ selected table.descriptions) : table.Down process.pmId := by
  obtain ⟨hlisted, hdown⟩ := List.mem_filter.mp hselected
  rw [summaries, List.mem_insertionSort] at hlisted
  obtain ⟨desc, hdesc, rfl⟩ := List.mem_map.mp hlisted
  obtain ⟨stopped, hstopped, rfl⟩ := List.mem_map.mp hdesc
  refine ⟨stopped, hstopped, rfl, ?_, ?_⟩
  · intro honline
    simp [toProcessSummary, honline] at hdown
  · intro hlaunching
    simp [toProcessSummary, hlaunching] at hdown

/-- A list of PM2 has each process once, and so has the selection. -/
theorem selected_nodup : ((selected table.descriptions).map ProcessSummary.pmId).Nodup := by
  have hmap : (table.descriptions.map toProcessSummary).map ProcessSummary.pmId =
      table.processes.map DaemonProcess.pmId := by
    simp [DaemonTable.descriptions, toProcessSummary, Function.comp_def]
  have hperm : (summaries table.descriptions).Perm
      (table.descriptions.map toProcessSummary) := List.perm_insertionSort _ _
  have hall : ((summaries table.descriptions).map ProcessSummary.pmId).Nodup := by
    rw [(hperm.map ProcessSummary.pmId).nodup_iff, hmap]
    exact table.unique
  exact hall.sublist (List.filter_sublist.map ProcessSummary.pmId)

theorem selected_inj {place other : ℕ}
    (hplace : place < (selected table.descriptions).length)
    (hother : other < (selected table.descriptions).length)
    (hsame : (selected table.descriptions)[place].pmId =
      (selected table.descriptions)[other].pmId) : place = other := by
  have hbound : place < ((selected table.descriptions).map
      ProcessSummary.pmId).length := by rwa [List.length_map]
  have hbound' : other < ((selected table.descriptions).map
      ProcessSummary.pmId).length := by rwa [List.length_map]
  have hmap : ((selected table.descriptions).map ProcessSummary.pmId)[place] =
      ((selected table.descriptions).map ProcessSummary.pmId)[other] := by
    rw [List.getElem_map, List.getElem_map]
    exact hsame
  exact selected_nodup.getElem_inj_iff.mp hmap

/-! ## Where calls come from -/

theorem starts_fresh {state : Pm2State} {job : Pm2Job} (hstarts : state.Starts job phase) :
    phase ≠ .issued ∧ ∀ reply, phase ≠ .answered reply := by
  cases hstarts with
  | awaitsConnect attempt _ => simp
  | passes _ _ hpasses => cases hpasses <;> simp

theorem callMove_before {state : Pm2State} (hmove : state.CallMove call phase)
    (hbefore : phase.beforeCommand = true) : call.phase.beforeCommand = true := by
  cases hmove with
  | stays => exact hbefore
  | answered reply _ => simp [CallPhase.beforeCommand] at hbefore
  | goesOn _ hgoes =>
      cases hgoes with
      | connected attempt _ hphase _ _ => rw [hphase]; rfl
      | attached launch hphase _ => rw [hphase]; rfl
      | refused | issues | returns | fails | succeeds =>
          simp [CallPhase.beforeCommand] at hbefore

theorem callMove_issued {state : Pm2State} (hmove : state.CallMove call .issued) :
    call.phase = .issued ∨ call.phase.beforeCommand = true := by
  generalize hphase : CallPhase.issued = phase at hmove
  cases hmove with
  | stays => exact .inl rfl
  | answered reply _ => cases hphase
  | goesOn _ hgoes =>
      cases hgoes with
      | connected attempt _ hcall _ _ => exact .inr (by rw [hcall]; rfl)
      | attached launch hcall _ => exact .inr (by rw [hcall]; rfl)
      | issues _ _ _ hcall _ => exact .inr (by rw [hcall]; rfl)
      | refused | returns | fails | succeeds => cases hphase

theorem callMove_answered {state : Pm2State}
    {reply : Except String (List ProcessDescription)}
    (hmove : state.CallMove call (.answered reply)) :
    call.phase = .answered reply ∨ call.phase = .issued := by
  obtain ⟨job, before⟩ := call
  generalize hphase : CallPhase.answered reply = phase at hmove
  cases hmove with
  | stays => exact .inl rfl
  | answered reply hissued => exact .inr hissued
  | goesOn _ hgoes =>
      cases hgoes with
      | connected attempt _ _ _ hpasses => cases hpasses <;> cases hphase
      | refused | attached | issues | returns | fails | succeeds => cases hphase

/-- A call which `startCalls` has made is one of the jobs, has a number from
`nextCall` on, and has not been issued. -/
theorem startCalls_fresh {mid : Pm2State} {jobs : List Pm2Job}
    (hnone : mid.calls id = none) (hcall : (mid.startCalls jobs).calls id = some call) :
    (mid.nextCall ≤ id ∧ id < (mid.startCalls jobs).nextCall) ∧
      (call.phase ≠ .issued ∧ ∀ reply, call.phase ≠ .answered reply) ∧
      call.job ∈ jobs := by
  obtain ⟨hnext, hold, hafter, hplaces⟩ := mid.startCalls_calls jobs
  have hlow : mid.nextCall ≤ id := by
    by_contra hless
    rw [hold id (Nat.not_le.mp hless), hnone] at hcall
    cases hcall
  have hhigh : id < mid.nextCall + jobs.length := by
    by_contra hless
    rw [hafter id (Nat.not_lt.mp hless), hnone] at hcall
    cases hcall
  obtain ⟨place, rfl⟩ := Nat.exists_eq_add_of_le hlow
  have hplace : place < jobs.length := Nat.lt_of_add_lt_add_left hhigh
  obtain ⟨phase, hstarts, hfound⟩ := hplaces place hplace
  rw [hcall, Option.some.injEq] at hfound
  subst hfound
  exact ⟨⟨hlow, hnext ▸ hhigh⟩, starts_fresh hstarts, List.getElem_mem hplace⟩

theorem startCalls_kept {mid : Pm2State} (jobs : List Pm2Job) (hold : id < mid.nextCall) :
    (mid.startCalls jobs).calls id = mid.calls id :=
  (mid.startCalls_calls jobs).2.1 id hold

/-- A call after a step was there before it, or it is new; then it is one of
those a bulk start makes, if the step is one in which it makes them. -/
theorem call_origin {state : Pm2State} (hbounded : state.CallsBounded)
    (hstep : pm2Machine.step state action = some service)
    (hcall : service.calls id = some call) :
    (∃ before, state.calls id = some { job := call.job, phase := before } ∧
        state.CallMove { job := call.job, phase := before } call.phase) ∨
      (state.calls id = none ∧ (state.nextCall ≤ id ∧ id < service.nextCall) ∧
        (call.phase ≠ .issued ∧ ∀ reply, call.phase ≠ .answered reply) ∧
        ∀ k list, action = .resume k → state.calls k =
            some { job := startAllJob, phase := .answered (.ok list) } →
          call.job ∈ FollowUp.startAll.jobs list) := by
  cases hbefore : state.calls id with
  | some before =>
      obtain ⟨phase, hphase, hmove⟩ := call_step hbounded hbefore hstep
      rw [hcall, Option.some.injEq] at hphase
      refine .inl ⟨before.phase, ?_, ?_⟩
      · rw [hphase]
      · rw [hphase]
        exact hmove
  | none =>
      refine .inr ⟨rfl, ?_⟩
      cases calls_step hstep with
      | kept hcalls _ _ _ =>
          rw [hcalls, hbefore] at hcall
          cases hcall
      | called operation haction hnext =>
          obtain rfl : service = state.startCalls [operation.job] := hnext
          obtain ⟨hnumber, hfresh, _⟩ := startCalls_fresh hbefore hcall
          refine ⟨hnumber, hfresh, fun k list hresume => ?_⟩
          rw [haction] at hresume
          cases hresume
      | answered k reply job _ hk hnext =>
          have hne : id ≠ k := by
            rintro rfl
            rw [hbefore] at hk
            cases hk
          rw [hnext, Pm2State.setCall] at hcall
          simp only [Function.update_of_ne hne, hbefore] at hcall
          cases hcall
      | resumed k other phase mid haction hk hgoes hcalls hcount _ hnext =>
          have hne : id ≠ k := by
            rintro rfl
            rw [hbefore] at hk
            cases hk
          have hmid : mid.calls id = none := by
            rw [hcalls, Function.update_of_ne hne, hbefore]
          subst hnext
          obtain ⟨hnumber, hfresh, hjob⟩ := startCalls_fresh hmid hcall
          refine ⟨⟨hcount ▸ hnumber.1, hnumber.2⟩, hfresh, fun j list hresume hj => ?_⟩
          -- the call which goes on is the one of the bulk start
          rw [haction, Pm2Action.resume.injEq] at hresume
          rw [← hresume, hk, Option.some.injEq] at hj
          rw [hj] at hjob
          exact hjob

theorem goesOn_ne_issued {state : Pm2State} (hgoes : state.GoesOn call phase) :
    call.phase ≠ .issued := by
  cases hgoes with
  | refused attempt error hphase => simp [hphase]
  | connected attempt phase hphase => simp [hphase]
  | attached launch hphase => simp [hphase]
  | issues query message followUp hphase => simp [hphase]
  | returns hphase => simp [hphase]
  | fails query message detail followUp hphase => simp [hphase]
  | succeeds query message followUp list hphase => simp [hphase]

theorem answered_by {state : Pm2State} (hbounded : state.CallsBounded) {job : Pm2Job}
    {reply : Except String (List ProcessDescription)}
    (hstep : pm2Machine.step state action = some service)
    (hbefore : state.calls id = some { job, phase := .issued })
    (hafter : service.calls id = some { job, phase := .answered reply }) :
    action = .commandCallback id reply := by
  have hold := hbounded.lt hbefore
  cases calls_step hstep with
  | kept hcalls _ _ _ =>
      rw [hcalls, hbefore] at hafter
      cases hafter
  | called operation _ hnext =>
      obtain rfl : service = state.startCalls [operation.job] := hnext
      rw [startCalls_kept _ hold, hbefore] at hafter
      cases hafter
  | answered k other job' haction hk hnext =>
      rw [hnext, Pm2State.setCall] at hafter
      by_cases hid : id = k
      · subst hid
        simp only [Function.update_self, Option.some.injEq, Pm2Call.mk.injEq,
          CallPhase.answered.injEq] at hafter
        rw [haction, hafter.2]
      · simp only [Function.update_of_ne hid, hbefore] at hafter
        cases hafter
  | resumed k other phase mid _ hk hgoes hcalls hcount _ hnext =>
      rw [hnext, startCalls_kept _ (hcount ▸ hold), hcalls] at hafter
      by_cases hid : id = k
      · subst hid
        obtain rfl := Option.some.inj (hbefore.symm.trans hk)
        exact absurd rfl (goesOn_ne_issued hgoes)
      · rw [Function.update_of_ne hid, hbefore] at hafter
        cases hafter

/-! ## Pending restarts -/

/-- What is known of the calls of bulk starts and of the lists PM2 has
answered. -/
structure Recorded (state : StartAllState) : Prop where
  bounded : state.service.CallsBounded
  makerOld : ∀ id start, state.maker id = some start → id < state.service.nextCall
  meetsOld : ∀ first second, first ∈ state.meets second →
    first < second ∧ second < state.service.nextCall
  issued : ∀ id list, state.replies id = some list →
    ∃ call, state.service.calls id = some call ∧ call.phase.beforeCommand = false
  received : ∀ id list, state.service.calls id =
      some { job := startAllJob, phase := .answered (.ok list) } →
    state.replies id = some list

theorem service_step (hstep : state.step (.service action) = some next) :
    pm2Machine.step state.service action = some next.service ∧
      state.receives action = true ∧
      next = { state with
        service := next.service
        maker := state.mark action next.service
        meets := state.meeting action
        restarts := state.restarts ++ state.restarting action } := by
  simp only [step] at hstep
  split at hstep
  next hreceives =>
    obtain ⟨service, hservice, rfl⟩ := Option.map_eq_some_iff.mp hstep
    exact ⟨hservice, hreceives, rfl⟩
  · simp at hstep

theorem answerList_step {k : CallId} (hstep : state.step (.answerList k) = some next) :
    ∃ message followUp,
      state.service.calls k =
        some { job := .guarded .list message followUp, phase := .issued } ∧
      next = { state with
        replies := update state.replies k (some state.daemon.descriptions) } := by
  simp only [step] at hstep
  split at hstep
  next message followUp hcall =>
    split at hstep
    · exact ⟨message, followUp, hcall, (Option.some.inj hstep).symm⟩
    · simp at hstep
  · simp at hstep

theorem issued_kept {before after : Pm2State} (hbounded : before.CallsBounded)
    (hstep : pm2Machine.step before action = some after)
    (hcall : before.calls id = some call) (hissued : call.phase.beforeCommand = false) :
    ∃ call, after.calls id = some call ∧ call.phase.beforeCommand = false := by
  obtain ⟨phase, hafter, hmove⟩ := call_step hbounded hcall hstep
  refine ⟨_, hafter, ?_⟩
  by_contra hbefore
  have hcontra := callMove_before hmove (by simpa using hbefore)
  simp [hissued] at hcontra

/-- The list of a bulk start which is answered is the one PM2 has taken. -/
theorem received_list (hrecorded : Recorded state) {job : Pm2Job}
    (hstep : pm2Machine.step state.service action = some service)
    (hreceives : state.receives action = true) (hjob : job = startAllJob)
    (hcall : service.calls id = some { job, phase := .answered (.ok list) }) :
    state.replies id = some list := by
  subst hjob
  rcases call_origin hrecorded.bounded hstep hcall with
    ⟨before, hbefore, hmove⟩ | ⟨_, _, ⟨_, hanswered⟩, _⟩
  · rcases callMove_answered hmove with hsame | hissued
    · simp only at hsame
      rw [hsame] at hbefore
      exact hrecorded.received id list hbefore
    · simp only at hissued
      rw [hissued] at hbefore
      have haction := answered_by hrecorded.bounded hstep hbefore hcall
      rw [haction] at hreceives
      simpa [receives, hbefore, startAllJob, Operation.job, listThen] using hreceives
  · exact absurd rfl (hanswered (.ok list))

theorem nextCall_le {before after : Pm2State}
    (hstep : pm2Machine.step before action = some after) :
    before.nextCall ≤ after.nextCall := by
  cases calls_step hstep with
  | kept _ hcount _ _ => exact hcount.ge
  | called operation _ hnext =>
      obtain ⟨hcount, _⟩ := before.startCalls_calls [operation.job]
      have hafter : after.nextCall = before.nextCall + 1 := by
        rw [hnext]
        exact hcount
      rw [hafter]
      exact Nat.le_succ _
  | answered _ _ _ _ _ hnext =>
      rw [hnext]
      exact le_rfl
  | resumed _ other _ mid _ _ _ _ hcount _ hnext =>
      obtain ⟨hspawned, _⟩ := mid.startCalls_calls other.spawned
      rw [hnext, hspawned, hcount]
      exact Nat.le_add_right _ _

theorem spawns_eq_some {service : Pm2State} : spawns service action = some start ↔
    action = .resume start ∧ ∃ list, service.calls start =
      some { job := startAllJob, phase := .answered (.ok list) } := by
  constructor
  · intro hspawns
    unfold spawns at hspawns
    split at hspawns
    next k =>
      split at hspawns
      next job list hcall =>
        split at hspawns
        next hjob =>
          obtain rfl := Option.some.inj hspawns
          exact ⟨rfl, list, hjob ▸ hcall⟩
        · simp at hspawns
      · simp at hspawns
    · simp at hspawns
  · rintro ⟨rfl, list, hcall⟩
    simp [spawns, hcall]

/-- A call which has a maker after a step had it before, or a bulk start has
just made it. -/
theorem maker_step (hrecorded : Recorded state)
    (hmaker : state.mark action service id = some start) :
    (id < state.service.nextCall ∧ state.maker id = some start) ∨
      ((state.service.nextCall ≤ id ∧ id < service.nextCall) ∧
        spawns state.service action = some start) := by
  unfold mark at hmaker
  split at hmaker
  next hnew => exact .inr ⟨hnew, hmaker⟩
  · exact .inl ⟨hrecorded.makerOld id start hmaker, hmaker⟩

theorem maker_kept (hold : id < state.service.nextCall) :
    state.mark action service id = state.maker id :=
  if_neg fun hnew => absurd hold (Nat.not_lt.mpr hnew.1)

theorem meets_step {first second : CallId} (hmeets : first ∈ state.meeting action second) :
    first ∈ state.meets second ∨
      (action = .call .startAll ∧ second = state.service.nextCall ∧
        first < state.service.nextCall) := by
  unfold meeting at hmeets
  split at hmeets
  · by_cases hsecond : second = state.service.nextCall
    · subst hsecond
      rw [update_self] at hmeets
      exact .inr ⟨rfl, rfl, List.mem_range.mp (List.mem_of_mem_filter hmeets)⟩
    · rw [update_of_ne hsecond] at hmeets
      exact .inl hmeets
  · exact .inl hmeets

theorem meeting_old {second : CallId} (hold : second < state.service.nextCall) :
    state.meeting action second = state.meets second := by
  unfold meeting
  split
  · exact update_of_ne hold.ne _ _
  · rfl

theorem Recorded.overlap_ne (hrecorded : Recorded state) {first second : CallId}
    (hmeet : state.Overlap first second) : first ≠ second := by
  rcases hmeet with hmeets | hmeets
  · exact (hrecorded.meetsOld first second hmeets).1.ne
  · exact (hrecorded.meetsOld second first hmeets).1.ne'

theorem recorded_service (hrecorded : Recorded state)
    (hstep : state.step (.service action) = some next) : Recorded next := by
  obtain ⟨hservice, hreceives, hnext⟩ := service_step hstep
  have hcount := nextCall_le hservice
  have hbounded := callsBounded_step _ _ _ hrecorded.bounded trivial hservice
  rw [hnext]
  refine ⟨hbounded, ?_, ?_, ?_, ?_⟩
  · intro id start hmaker
    rcases maker_step hrecorded hmaker with ⟨hold, _⟩ | ⟨hnew, _⟩
    · exact hold.trans_le hcount
    · exact hnew.2
  · intro first second hmeets
    rcases meets_step hmeets with hold | ⟨haction, rfl, hfirst⟩
    · obtain ⟨hfirst, hsecond⟩ := hrecorded.meetsOld first second hold
      exact ⟨hfirst, hsecond.trans_le hcount⟩
    · -- the bulk start which is called gets the next number
      refine ⟨hfirst, ?_⟩
      subst haction
      cases calls_step hservice with
      | kept _ _ haction _ => exact absurd rfl (haction .startAll)
      | called operation _ hcalled =>
          obtain ⟨hspawned, _⟩ := state.service.startCalls_calls [operation.job]
          rw [hcalled]
          exact hspawned ▸ Nat.lt_succ_self _
      | answered _ _ _ haction => cases haction
      | resumed _ _ _ _ haction => cases haction
  · intro id list hreply
    obtain ⟨call, hcall, hissued⟩ := hrecorded.issued id list hreply
    exact issued_kept hrecorded.bounded hservice hcall hissued
  · intro id list hcall
    show state.replies id = some list
    exact received_list hrecorded hservice hreceives rfl hcall

/-- A step of the service makes no restart pending which was not. -/
theorem pending_service (hrecorded : Recorded state)
    (hstep : state.step (.service action) = some next) (hpending : next.Pending pmId) :
    state.Pending pmId := by
  obtain ⟨hservice, _, hnext⟩ := service_step hstep
  have hreplies : next.replies = state.replies := by rw [hnext]
  cases hpending with
  | listed id list phase hreply hcall hphase hselected =>
      rw [hreplies] at hreply
      rcases call_origin hrecorded.bounded hservice hcall with
        ⟨before, hbefore, hmove⟩ | ⟨_, _, ⟨hissued, hanswered⟩, _⟩
      · refine .listed id list before hreply hbefore ?_ hselected
        rcases hphase with rfl | rfl
        · rcases callMove_issued hmove with hsame | hearlier
          · exact .inl hsame
          · obtain ⟨call, hfound, hlate⟩ := hrecorded.issued id list hreply
            rw [hbefore, Option.some.injEq] at hfound
            rw [← hfound] at hlate
            simp [hearlier] at hlate
        · rcases callMove_answered hmove with hsame | hissued
          · exact .inr hsame
          · exact .inl hissued
      · rcases hphase with rfl | rfl
        · exact absurd rfl hissued
        · exact absurd rfl (hanswered _)
  | called start id phase hmade hphase =>
      obtain ⟨hmaker, message, followUp, hcall⟩ := hmade
      rw [hnext] at hmaker
      rcases maker_step hrecorded hmaker with ⟨hold, hmaker⟩ | ⟨⟨hnew, _⟩, hspawns⟩
      · rcases call_origin hrecorded.bounded hservice hcall with
          ⟨before, hbefore, hmove⟩ | ⟨_, ⟨hlow, _⟩, _⟩
        · exact .called start id before ⟨hmaker, message, followUp, hbefore⟩
            (callMove_before hmove hphase)
        · exact absurd hold (Nat.not_lt.mpr hlow)
      · rcases call_origin hrecorded.bounded hservice hcall with
          ⟨before, hbefore, _⟩ | ⟨_, _, _, hspawned⟩
        · exact absurd (hrecorded.bounded.lt hbefore) (Nat.not_lt.mpr hnew)
        · obtain ⟨haction, list, hk⟩ := spawns_eq_some.mp hspawns
          have hjob := hspawned start list haction hk
          rw [jobs_startAll] at hjob
          obtain ⟨process, hprocess, hsame⟩ := List.mem_map.mp hjob
          simp only [pAction, Pm2Job.guarded.injEq, Pm2Query.apply.injEq,
            Pm2Command.mk.injEq, Target.number.injEq, true_and] at hsame
          exact .listed start list _ (hrecorded.received start list hk) hk (.inr rfl)
            ⟨process, hprocess, hsame.1⟩

def PendingDown (state : StartAllState) : Prop :=
  ∀ pmId, state.Pending pmId → ¬ state.daemon.Up pmId

theorem recorded_preserved : startAllMachine.Preserves Machine.anyAction Recorded := by
  intro state action next hrecorded _ hstep
  cases action with
  | service action => exact recorded_service hrecorded hstep
  | changes table =>
      simp only [startAllMachine, step, Option.some.injEq] at hstep
      subst next
      exact ⟨hrecorded.bounded, hrecorded.makerOld, hrecorded.meetsOld, hrecorded.issued,
        hrecorded.received⟩
  | answerList k =>
      obtain ⟨message, followUp, hcall, rfl⟩ := answerList_step hstep
      refine ⟨hrecorded.bounded, hrecorded.makerOld, hrecorded.meetsOld, ?_, ?_⟩
      · intro id list hreply
        by_cases hid : id = k
        · subst hid
          exact ⟨_, hcall, rfl⟩
        · simp only [update_of_ne hid] at hreply
          exact hrecorded.issued id list hreply
      · intro id list hanswered
        -- the call which waits for the list has not been answered
        have hid : id ≠ k := by
          rintro rfl
          rw [hcall] at hanswered
          simp at hanswered
        simp only [update_of_ne hid]
        exact hrecorded.received id list hanswered

theorem pendingDown_step (hrecorded : Recorded state) (hdown : PendingDown state)
    {action : StartAllAction} (hundisturbed : Undisturbed state action)
    (hstep : startAllMachine.step state action = some next) : PendingDown next := by
  intro pmId hpending
  cases action with
  | service action =>
      obtain ⟨_, _, hnext⟩ := service_step hstep
      have hdaemon : next.daemon = state.daemon := by rw [hnext]
      rw [hdaemon]
      exact hdown pmId (pending_service hrecorded hstep hpending)
  | changes table =>
      simp only [startAllMachine, step, Option.some.injEq] at hstep
      subst next
      apply hundisturbed pmId
      cases hpending with
      | listed id list phase hreply hcall hphase hselected =>
          exact .listed id list phase hreply hcall hphase hselected
      | called start id phase hmade hphase => exact .called start id phase hmade hphase
  | answerList k =>
      obtain ⟨message, followUp, hcall, rfl⟩ := answerList_step hstep
      cases hpending with
      | called start id phase hmade hphase =>
          exact hdown pmId (.called start id phase hmade hphase)
      | listed id list phase hreply hlisted hphase hselected =>
          by_cases hid : id = k
          · subst hid
            simp only [update_self, Option.some.injEq] at hreply
            subst hreply
            obtain ⟨process, hprocess, rfl⟩ := hselected
            exact not_up_of_selected hprocess
          · simp only [update_of_ne hid] at hreply
            exact hdown pmId (.listed id list phase hreply hlisted hphase hselected)

/-! ## Restarts of overlapping bulk starts -/

/-- The calls which bulk starts have made, and the selections they come from:
overlapping bulk starts have selected different processes. -/
structure Apart (state : StartAllState) : Prop where
  listed : ∀ id list, state.replies id = some list →
    ∃ table : DaemonTable, list = table.descriptions
  settled : ∀ id start, state.maker id = some start → ∃ result,
    state.service.calls start = some { job := startAllJob, phase := .settled result }
  made : ∀ id start, state.maker id = some start → ∃ list, ∃ process ∈ selected list,
    ∃ phase, state.replies start = some list ∧
      state.RestartOf start id process.pmId phase
  single : ∀ start id other pmId phase later, state.RestartOf start id pmId phase →
    state.RestartOf start other pmId later → id = other
  disjoint : ∀ first second list others, state.Overlap first second →
    state.replies first = some list → state.replies second = some others →
    ∀ process ∈ selected list, ∀ other ∈ selected others, process.pmId ≠ other.pmId
  issued : ∀ restart ∈ state.restarts, ∃ phase : CallPhase,
    phase.beforeCommand = false ∧
      state.RestartOf restart.start restart.call restart.pmId phase
  once : RestartsOnce state

theorem RestartOf.unique {other : CallId} {number : ℤ} {later : CallPhase}
    (hmade : state.RestartOf start id pmId phase)
    (hother : state.RestartOf other id number later) :
    start = other ∧ pmId = number ∧ phase = later := by
  obtain ⟨hmaker, _, _, hcall⟩ := hmade
  obtain ⟨hmaker', _, _, hcall'⟩ := hother
  rw [hmaker, Option.some.injEq] at hmaker'
  rw [hcall] at hcall'
  simp only [Option.some.injEq, Pm2Call.mk.injEq, Pm2Job.guarded.injEq,
    Pm2Query.apply.injEq, Pm2Command.mk.injEq, Target.number.injEq, true_and] at hcall'
  exact ⟨hmaker', hcall'.1.1, hcall'.2⟩

/-- Overlapping bulk starts, and one bulk start, have made one call for a
process at most. -/
theorem Apart.call_unique (hapart : Apart state) {other later : CallId}
    {after : CallPhase} (hmade : state.RestartOf start id pmId phase)
    (hlater : state.RestartOf other later pmId after)
    (hmeet : start = other ∨ state.Overlap start other) : id = later := by
  rcases hmeet with rfl | hoverlap
  · exact hapart.single start id later pmId phase after hmade hlater
  · obtain ⟨list, process, hprocess, _, hreply, hfound⟩ :=
      hapart.made id start hmade.1
    obtain ⟨others, found, hothers, _, hreply', hfound'⟩ :=
      hapart.made later other hlater.1
    refine absurd ?_ (hapart.disjoint start other list others hoverlap hreply hreply'
      process hprocess found hothers)
    rw [← (hmade.unique hfound).2.1, ← (hlater.unique hfound').2.1]

/-- A bulk start which has its list settles and makes one call for each process
it selects. -/
theorem spawn_step {list : List ProcessDescription}
    (hstep : pm2Machine.step state.service (.resume start) = some service)
    (hcall : state.service.calls start =
      some { job := startAllJob, phase := .answered (.ok list) })
    (hbounded : state.service.CallsBounded) :
    service.calls start = some { job := startAllJob, phase := .settled (.ok list) } ∧
      service.nextCall = state.service.nextCall + (selected list).length ∧
      ∀ place (hplace : place < (selected list).length), ∃ phase,
        service.calls (state.service.nextCall + place) =
          some { job := pAction .restart (.number (selected list)[place].pmId)
                   s!"Failed to start \"{(selected list)[place].name}\""
                 phase } := by
  cases calls_step hstep with
  | kept _ _ _ haction => exact absurd rfl (haction start)
  | called _ haction => cases haction
  | answered _ _ _ haction => cases haction
  | resumed id other phase mid haction hother hgoes hcalls hcount _ hnext =>
      obtain rfl := Pm2Action.resume.inj haction
      obtain rfl := Option.some.inj (hcall.symm.trans hother)
      have hspawned : Pm2Call.spawned { job := startAllJob, phase := .answered (.ok list) } =
          (selected list).map fun process => pAction .restart (.number process.pmId)
            s!"Failed to start \"{process.name}\"" := jobs_startAll list
      rw [hspawned] at hnext
      obtain ⟨htotal, hkept, _, hplaces⟩ := mid.startCalls_calls
        ((selected list).map fun process => pAction .restart (.number process.pmId)
          s!"Failed to start \"{process.name}\"")
      rw [← hnext, hcount] at htotal hkept hplaces
      refine ⟨?_, by rw [htotal, List.length_map], fun place hplace => ?_⟩
      · rw [hkept start (hbounded.lt hcall), hcalls, update_self]
        cases hgoes with
        | succeeds query message followUp found hphase hjob =>
            simp only [CallPhase.answered.injEq, Except.ok.injEq] at hphase
            rw [hphase]
        | refused _ _ hphase | connected _ _ hphase | attached _ hphase
        | issues _ _ _ hphase | returns hphase | fails _ _ _ _ hphase => cases hphase
      · obtain ⟨phase, _, hfound⟩ := hplaces place (by rw [List.length_map]; exact hplace)
        rw [List.getElem_map] at hfound
        exact ⟨phase, hfound⟩

/-- The restart of PM2 that a step asks for is the one of the call which goes
on, and the call has been issued after it. -/
theorem restarting_step {restart : BulkRestart}
    (hstep : pm2Machine.step state.service action = some service)
    (hmem : restart ∈ state.restarting action) :
    state.restarting action = [restart] ∧
      state.RestartOf restart.start restart.call restart.pmId .ensured ∧
      ∀ call, service.calls restart.call = some call → call.phase = .issued := by
  unfold restarting at hmem ⊢
  split at hmem
  next k =>
    split at hmem
    next start pmId message followUp hmaker hcall =>
      obtain rfl := List.mem_singleton.mp hmem
      refine ⟨rfl, ⟨hmaker, message, followUp, hcall⟩, ?_⟩
      intro call hlater
      cases calls_step hstep with
      | kept _ _ _ haction => exact absurd rfl (haction k)
      | called _ haction => cases haction
      | answered _ _ _ haction => cases haction
      | resumed id other phase mid haction hother hgoes hcalls hcount _ hnext =>
          obtain rfl := Pm2Action.resume.inj haction
          obtain rfl := Option.some.inj (hcall.symm.trans hother)
          have hspawned : Pm2Call.spawned
              { job := .guarded (.apply { method := .restart, target := .number pmId })
                  message followUp
                phase := .ensured } = [] := Pm2Call.spawned_eq_nil (by simp)
          rw [hspawned] at hnext
          have hsame : service.calls k = mid.calls k := by
            rw [hnext]
            rfl
          rw [hsame, hcalls, update_self, Option.some.injEq] at hlater
          subst hlater
          cases hgoes with
          | issues => rfl
          | returns _ hjob => exact absurd rfl (hjob _ _ _)
          | refused _ _ hphase | connected _ _ hphase | attached _ hphase
          | fails _ _ _ _ hphase | succeeds _ _ _ _ hphase => cases hphase
    · simp at hmem
  · simp at hmem

theorem service_fields (hstep : state.step (.service action) = some next) :
    next.maker = state.mark action next.service ∧ next.replies = state.replies ∧
      next.meets = state.meeting action ∧
      next.restarts = state.restarts ++ state.restarting action := by
  obtain ⟨_, _, hnext⟩ := service_step hstep
  rw [hnext]
  exact ⟨rfl, rfl, rfl, rfl⟩

theorem RestartOf.kept (hrecorded : Recorded state)
    (hstep : state.step (.service action) = some next)
    (hmade : state.RestartOf start id pmId phase) :
    ∃ later, next.RestartOf start id pmId later ∧
      (later.beforeCommand = true → phase.beforeCommand = true) := by
  obtain ⟨hstart, message, followUp, hcall⟩ := hmade
  obtain ⟨later, hlater, hmove⟩ :=
    call_step hrecorded.bounded hcall (service_step hstep).1
  refine ⟨later, ⟨?_, message, followUp, hlater⟩, callMove_before hmove⟩
  rw [(service_fields hstep).1, maker_kept (hrecorded.bounded.lt hcall)]
  exact hstart

/-- A call which is made in the step is one for a place of the selection, and
the bulk start which makes it has made none before. -/
theorem Apart.spawned (hrecorded : Recorded state) (hapart : Apart state)
    (hstep : state.step (.service action) = some next)
    (hnew : state.service.nextCall ≤ id ∧ id < next.service.nextCall)
    (hspawns : spawns state.service action = some start) :
    ∃ list place, ∃ hplace : place < (selected list).length, ∃ phase,
      id = state.service.nextCall + place ∧ state.replies start = some list ∧
      (∀ other, state.maker other ≠ some start) ∧
      next.service.calls start =
        some { job := startAllJob, phase := .settled (.ok list) } ∧
      next.RestartOf start id (selected list)[place].pmId phase := by
  obtain ⟨hservice, _, _⟩ := service_step hstep
  obtain ⟨rfl, list, hcall⟩ := spawns_eq_some.mp hspawns
  obtain ⟨hsettled, hcount, hplaces⟩ := spawn_step hservice hcall hrecorded.bounded
  obtain ⟨place, rfl⟩ := Nat.exists_eq_add_of_le hnew.1
  have hplace : place < (selected list).length := by
    have hless := hnew.2
    rw [hcount] at hless
    exact Nat.lt_of_add_lt_add_left hless
  obtain ⟨phase, hfound⟩ := hplaces place hplace
  refine ⟨list, place, hplace, phase, rfl, hrecorded.received start list hcall, ?_,
    hsettled, ?_, _, _, hfound⟩
  · intro other hother
    obtain ⟨result, hdone⟩ := hapart.settled other start hother
    rw [hcall] at hdone
    simp at hdone
  · rw [(service_fields hstep).1, mark, if_pos hnew, hspawns]

/-- A call which was made before the step is for the process it was for. -/
theorem Apart.made_before (hrecorded : Recorded state) (hapart : Apart state)
    (hstep : state.step (.service action) = some next)
    (hmade : next.RestartOf start id pmId phase) (hold : state.maker id = some start) :
    ∃ before, state.RestartOf start id pmId before := by
  obtain ⟨list, process, hprocess, before, _, hbefore⟩ := hapart.made id start hold
  obtain ⟨later, hlater, _⟩ := hbefore.kept hrecorded hstep
  rw [(hmade.unique hlater).2.1]
  exact ⟨before, hbefore⟩

/-- Bulk starts which have their lists have met whom they are going to meet. -/
theorem Recorded.overlap_before (hrecorded : Recorded state)
    (hstep : state.step (.service action) = some next) {first second : CallId}
    {others : List ProcessDescription} (hmeet : next.Overlap first second)
    (hfirst : state.replies first = some list)
    (hsecond : state.replies second = some others) : state.Overlap first second := by
  obtain ⟨_, hcall, _⟩ := hrecorded.issued first list hfirst
  obtain ⟨_, hcall', _⟩ := hrecorded.issued second others hsecond
  rwa [Overlap, (service_fields hstep).2.2.1, meeting_old (hrecorded.bounded.lt hcall),
    meeting_old (hrecorded.bounded.lt hcall')] at hmeet

theorem Apart.made_replies (hapart : Apart state)
    (hmade : state.RestartOf start id pmId phase) :
    ∃ list, state.replies start = some list := by
  obtain ⟨list, _, _, _, hreply, _⟩ := hapart.made id start hmade.1
  exact ⟨list, hreply⟩

theorem settled_service (hrecorded : Recorded state) (hapart : Apart state)
    (hstep : state.step (.service action) = some next)
    (hmaker : next.maker id = some start) : ∃ result,
      next.service.calls start = some { job := startAllJob, phase := .settled result } := by
  rw [(service_fields hstep).1] at hmaker
  rcases maker_step hrecorded hmaker with ⟨_, hold⟩ | ⟨hnew, hspawns⟩
  · obtain ⟨result, hsettled⟩ := hapart.settled id start hold
    exact ⟨result, settled_step hrecorded.bounded hsettled (service_step hstep).1⟩
  · obtain ⟨list, place, _, phase, _, _, _, hsettled, _⟩ :=
      hapart.spawned hrecorded hstep hnew hspawns
    exact ⟨_, hsettled⟩

theorem made_service (hrecorded : Recorded state) (hapart : Apart state)
    (hstep : state.step (.service action) = some next)
    (hmaker : next.maker id = some start) : ∃ list, ∃ process ∈ selected list,
      ∃ phase, next.replies start = some list ∧
        next.RestartOf start id process.pmId phase := by
  obtain ⟨hmark, hreplies, _⟩ := service_fields hstep
  rw [hmark] at hmaker
  rcases maker_step hrecorded hmaker with ⟨_, hold⟩ | ⟨hnew, hspawns⟩
  · obtain ⟨list, process, hprocess, phase, hreply, hbefore⟩ := hapart.made id start hold
    obtain ⟨later, hlater, _⟩ := hbefore.kept hrecorded hstep
    exact ⟨list, process, hprocess, later, hreplies ▸ hreply, hlater⟩
  · obtain ⟨list, place, hplace, phase, _, hreply, _, _, hfound⟩ :=
      hapart.spawned hrecorded hstep hnew hspawns
    exact ⟨list, _, List.getElem_mem hplace, phase, hreplies ▸ hreply, hfound⟩

/-- A bulk start makes its calls in one step, for different processes. -/
theorem single_service (hrecorded : Recorded state) (hapart : Apart state)
    (hstep : state.step (.service action) = some next) {other : CallId}
    {later : CallPhase} (hmade : next.RestartOf start id pmId phase)
    (hlater : next.RestartOf start other pmId later) : id = other := by
  have hmaker := hmade.1
  have hmaker' := hlater.1
  rw [(service_fields hstep).1] at hmaker hmaker'
  rcases maker_step hrecorded hmaker with ⟨_, hold⟩ | ⟨hnew, hspawns⟩
  · rcases maker_step hrecorded hmaker' with ⟨_, hold'⟩ | ⟨hnew', hspawns'⟩
    · obtain ⟨before, hbefore⟩ := hapart.made_before hrecorded hstep hmade hold
      obtain ⟨before', hbefore'⟩ := hapart.made_before hrecorded hstep hlater hold'
      exact hapart.single start id other pmId _ _ hbefore hbefore'
    · obtain ⟨_, _, _, _, _, _, hnone, _⟩ := hapart.spawned hrecorded hstep hnew' hspawns'
      exact absurd hold (hnone id)
  · rcases maker_step hrecorded hmaker' with ⟨_, hold'⟩ | ⟨hnew', hspawns'⟩
    · obtain ⟨_, _, _, _, _, _, hnone, _⟩ := hapart.spawned hrecorded hstep hnew hspawns
      exact absurd hold' (hnone other)
    · obtain ⟨list, place, hplace, _, hid, hreply, _, _, hfound⟩ :=
        hapart.spawned hrecorded hstep hnew hspawns
      obtain ⟨list', place', hplace', _, hid', hreply', _, _, hfound'⟩ :=
        hapart.spawned hrecorded hstep hnew' hspawns'
      obtain rfl := Option.some.inj (hreply.symm.trans hreply')
      obtain ⟨table, rfl⟩ := hapart.listed start list hreply
      -- the two places have the same process
      have hsame : (selected table.descriptions)[place].pmId =
          (selected table.descriptions)[place'].pmId := by
        rw [← (hmade.unique hfound).2.1, ← (hlater.unique hfound').2.1]
      rw [hid, hid', selected_inj hplace hplace' hsame]

theorem issued_service (hrecorded : Recorded state) (hapart : Apart state)
    (hstep : state.step (.service action) = some next) (restart : BulkRestart)
    (hmem : restart ∈ next.restarts) : ∃ phase : CallPhase,
      phase.beforeCommand = false ∧
        next.RestartOf restart.start restart.call restart.pmId phase := by
  rw [(service_fields hstep).2.2.2] at hmem
  rcases List.mem_append.mp hmem with hold | hnew
  · obtain ⟨phase, hphase, hmade⟩ := hapart.issued restart hold
    obtain ⟨later, hlater, hbefore⟩ := hmade.kept hrecorded hstep
    refine ⟨later, ?_, hlater⟩
    by_contra hcontra
    rw [hbefore (by simpa using hcontra)] at hphase
    cases hphase
  · obtain ⟨_, hmade, hphase⟩ := restarting_step (service_step hstep).1 hnew
    obtain ⟨later, ⟨hstart, message, followUp, hcall⟩, _⟩ := hmade.kept hrecorded hstep
    obtain rfl : later = .issued := hphase _ hcall
    exact ⟨.issued, rfl, hstart, message, followUp, hcall⟩

/-- A restart which a step asks for is the first one of its process among the
overlapping bulk starts: an earlier one would be of the same call, and a call
is issued only once. -/
theorem once_service (hrecorded : Recorded state) (hapart : Apart state)
    (hstep : state.step (.service action) = some next) : RestartsOnce next := by
  have hmade : ∀ restart ∈ state.restarts ++ state.restarting action, ∃ phase,
      state.RestartOf restart.start restart.call restart.pmId phase := by
    intro restart hmem
    rcases List.mem_append.mp hmem with hold | hnew
    · obtain ⟨phase, _, hmade⟩ := hapart.issued restart hold
      exact ⟨phase, hmade⟩
    · exact ⟨.ensured, (restarting_step (service_step hstep).1 hnew).2.1⟩
  have hbefore : ∀ earlier ∈ state.restarts ++ state.restarting action,
      ∀ later ∈ state.restarts ++ state.restarting action,
      next.Overlap earlier.start later.start →
        state.Overlap earlier.start later.start := by
    intro earlier hearlier later hlater hmeet
    obtain ⟨_, hearlierMade⟩ := hmade earlier hearlier
    obtain ⟨_, hlaterMade⟩ := hmade later hlater
    obtain ⟨list, hreply⟩ := hapart.made_replies hearlierMade
    obtain ⟨others, hreply'⟩ := hapart.made_replies hlaterMade
    exact hrecorded.overlap_before hstep hmeet hreply hreply'
  rw [RestartsOnce, (service_fields hstep).2.2.2]
  refine List.pairwise_append.mpr ⟨?_, ?_, ?_⟩
  · refine hapart.once.imp_of_mem fun {earlier later} hearlier hlater honce hsame => ?_
    obtain ⟨hne, hnot⟩ := honce hsame
    exact ⟨hne, fun hmeet => hnot (hbefore earlier (List.mem_append_left _ hearlier)
      later (List.mem_append_left _ hlater) hmeet)⟩
  · cases hnew : state.restarting action with
    | nil => exact .nil
    | cons restart rest =>
        have hmem : restart ∈ state.restarting action := by
          rw [hnew]
          exact List.mem_cons_self
        obtain ⟨hsingle, _⟩ := restarting_step (service_step hstep).1 hmem
        rw [← hnew, hsingle]
        exact List.pairwise_singleton _ _
  · intro earlier hearlier later hlater hsame
    obtain ⟨phase, hphase, hearlierMade⟩ := hapart.issued earlier hearlier
    obtain ⟨_, hlaterMade, _⟩ := restarting_step (service_step hstep).1 hlater
    have hcontra : ¬ (earlier.start = later.start ∨
        state.Overlap earlier.start later.start) := by
      intro hmeet
      have hcall := hapart.call_unique hearlierMade (hsame ▸ hlaterMade) hmeet
      rw [← hcall] at hlaterMade
      rw [(hearlierMade.unique hlaterMade).2.2] at hphase
      cases hphase
    exact ⟨fun heq => hcontra (.inl heq), fun hmeet => hcontra (.inr
      (hbefore earlier (List.mem_append_left _ hearlier) later
        (List.mem_append_right _ hlater) hmeet))⟩

theorem apart_service (hrecorded : Recorded state) (hapart : Apart state)
    (hstep : state.step (.service action) = some next) : Apart next where
  listed := by
    rw [(service_fields hstep).2.1]
    exact hapart.listed
  settled _ _ := settled_service hrecorded hapart hstep
  made _ _ := made_service hrecorded hapart hstep
  single _ _ _ _ _ _ := single_service hrecorded hapart hstep
  disjoint first second list others hmeet hfirst hsecond := by
    rw [(service_fields hstep).2.1] at hfirst hsecond
    exact hapart.disjoint first second list others
      (hrecorded.overlap_before hstep hmeet hfirst hsecond) hfirst hsecond
  issued := issued_service hrecorded hapart hstep
  once := once_service hrecorded hapart hstep

theorem apart_step (hrecorded : Recorded state) (hapart : Apart state)
    {action : StartAllAction} (hundisturbed : Undisturbed state action)
    (hstep : startAllMachine.step state action = some next) : Apart next := by
  cases action with
  | service action => exact apart_service hrecorded hapart hstep
  | changes table =>
      simp only [startAllMachine, step, Option.some.injEq] at hstep
      subst next
      exact ⟨hapart.listed, hapart.settled, hapart.made, hapart.single, hapart.disjoint,
        hapart.issued, hapart.once⟩
  | answerList k =>
      obtain ⟨message, followUp, hcall, rfl⟩ := answerList_step hstep
      refine ⟨?_, hapart.settled, ?_, hapart.single, ?_, hapart.issued, hapart.once⟩
      · intro id list hreply
        by_cases hid : id = k
        · subst hid
          simp only [update_self, Option.some.injEq] at hreply
          exact ⟨state.daemon, hreply.symm⟩
        · simp only [update_of_ne hid] at hreply
          exact hapart.listed id list hreply
      · intro id start hmaker
        -- a bulk start which has made a call does not wait for its list
        have hstart : start ≠ k := by
          rintro rfl
          obtain ⟨result, hsettled⟩ := hapart.settled id start hmaker
          rw [hcall] at hsettled
          simp at hsettled
        obtain ⟨list, process, hprocess, phase, hreply, hmade⟩ := hapart.made id start hmaker
        refine ⟨list, process, hprocess, phase, ?_, hmade⟩
        simp only [update_of_ne hstart]
        exact hreply
      · intro first second list others hmeet hfirst hsecond process hprocess other hother
        by_cases hid : first = k
        · subst hid
          have hne : second ≠ first := hrecorded.overlap_ne hmeet.symm
          simp only [update_self, Option.some.injEq, update_of_ne hne] at hfirst hsecond
          subst hfirst
          intro hsame
          refine hundisturbed second others hmeet.symm hsecond other hother ?_
          exact hsame ▸ down_of_selected hprocess
        · simp only [update_of_ne hid] at hfirst
          by_cases hid' : second = k
          · subst hid'
            simp only [update_self, Option.some.injEq] at hsecond
            subst hsecond
            intro hsame
            refine hundisturbed first list hmeet hfirst process hprocess ?_
            exact hsame ▸ down_of_selected hother
          · simp only [update_of_ne hid'] at hsecond
            exact hapart.disjoint first second list others hmeet hfirst hsecond process
              hprocess other hother

theorem undisturbed_preserved :
    startAllMachine.Preserves Undisturbed fun state =>
      Recorded state ∧ PendingDown state ∧ Apart state := by
  apply recorded_preserved.and
  intro state action next hrecorded ⟨hdown, hapart⟩ hundisturbed hstep
  exact ⟨pendingDown_step hrecorded hdown hundisturbed hstep,
    apart_step hrecorded hapart hundisturbed hstep⟩

theorem recorded_initial (daemon : DaemonTable) : Recorded (initial daemon) where
  bounded := fun _ _ => rfl
  makerOld := by simp [initial]
  meetsOld := by simp [initial]
  issued := by simp [initial]
  received := by simp [initial, Pm2State.initial]

theorem pendingDown_initial (daemon : DaemonTable) : PendingDown (initial daemon) := by
  intro pmId hpending
  cases hpending with
  | listed id list phase hreply _ _ _ => simp [initial] at hreply
  | called start id phase hmade _ => simp [initial, RestartOf] at hmade

theorem apart_initial (daemon : DaemonTable) : Apart (initial daemon) := by
  constructor <;> simp [initial, RestartOf, Overlap, RestartsOnce]

/-- In every run in which no process comes up whose restart is pending, and PM2
does not list a process as down to two overlapping bulk starts, each restart
that a bulk start issues is for a process which is down, and overlapping bulk
starts restart a process once, as one of them would. -/
theorem start_all_spares_running (daemon : DaemonTable)
    (hundisturbed : startAllMachine.Admits Undisturbed (initial daemon) word) :
    startAllMachine.Steps SparesRunning (initial daemon) word ∧
      startAllMachine.Along RestartsOnce (initial daemon) word := by
  have hinitial : Recorded (initial daemon) ∧ PendingDown (initial daemon) ∧
      Apart (initial daemon) :=
    ⟨recorded_initial daemon, pendingDown_initial daemon, apart_initial daemon⟩
  constructor
  · refine Machine.steps_of_admits undisturbed_preserved ?_ hinitial hundisturbed
    rintro state action next ⟨_, hdown, _⟩ _ _ start id pmId _ hmade
    exact hdown pmId (.called start id .ensured hmade rfl)
  · intro before after mid hsplit hexec
    exact (undisturbed_preserved.along hinitial hundisturbed before after mid hsplit
      hexec).2.2.once

/-- A process which comes up before its restart is issued is restarted. -/
theorem restarts_running (hmade : state.RestartOf start id pmId .ensured)
    (hup : state.daemon.Up pmId) : ∃ next,
      startAllMachine.step state (.service (.resume id)) = some next ∧
        ¬ SparesRunning state (.service (.resume id)) next := by
  have hissues : ∃ service, state.service.step (.resume id) = some service := by
    obtain ⟨_, message, followUp, hcall⟩ := hmade
    simp only [Pm2State.step, hcall, Option.bind_some, Pm2State.resume]
    exact ⟨_, rfl⟩
  obtain ⟨service, hservice⟩ := hissues
  have hstep : startAllMachine.step state (.service (.resume id)) =
      some { state with
        service
        maker := state.mark (.resume id) service
        meets := state.meeting (.resume id)
        restarts := state.restarts ++ state.restarting (.resume id) } := by
    simp [startAllMachine, step, receives, hservice]
  exact ⟨_, hstep, fun hspares => hspares start id pmId rfl hmade hup⟩

/-- No call is on its way to a list or to a command. -/
def quiet (state : StartAllState) : Bool :=
  (List.range state.service.nextCall).all fun id =>
    (state.service.calls id).all fun call =>
      match call.phase with
      | .settled _ => true
      | .issued => call.job ≠ startAllJob
      | _ => false

theorem not_pending_of_quiet (hrecorded : Recorded state) (hquiet : state.quiet = true) :
    ¬ state.Pending pmId := by
  have hquietAt : ∀ id call, state.service.calls id = some call →
      (∃ result, call.phase = .settled result) ∨
        call.phase = .issued ∧ call.job ≠ startAllJob := by
    intro id call hcall
    have hid := List.mem_range.mpr (hrecorded.bounded.lt hcall)
    have hall := List.all_eq_true.mp hquiet id hid
    rw [hcall, Option.all_some] at hall
    split at hall
    next result hphase => exact .inl ⟨result, hphase⟩
    next hphase => exact .inr ⟨hphase, of_decide_eq_true hall⟩
    · simp at hall
  intro hpending
  cases hpending with
  | listed id list phase hreply hcall hphase hselected =>
      rcases hquietAt id _ hcall with ⟨result, hsettled⟩ | ⟨_, hjob⟩
      · rcases hphase with rfl | rfl <;> cases hsettled
      · exact hjob rfl
  | called start id phase hmade hphase =>
      obtain ⟨_, message, followUp, hcall⟩ := hmade
      rcases hquietAt id _ hcall with ⟨result, hsettled⟩ | ⟨hissued, _⟩
      · simp only at hsettled
        rw [hsettled] at hphase
        simp [CallPhase.beforeCommand] at hphase
      · simp only at hissued
        rw [hissued] at hphase
        simp [CallPhase.beforeCommand] at hphase

end StartAllState

open StartAllState

def sampleDaemon (status : ProcessStatus) : DaemonTable where
  processes := [{ pmId := 0, name := some "api", status := some status }]
  unique := by simp

/-- No bulk start has found a process down which is down now. -/
def apartNow (state : StartAllState) : Bool :=
  (List.range state.service.nextCall).all fun other =>
    (state.replies other).all fun list =>
      (selected list).all fun process =>
        state.daemon.processes.all fun found => found.pmId = process.pmId →
          found.status = some .online ∨ found.status = some .launching

theorem not_down_of_apartNow (hrecorded : Recorded state)
    (hapart : apartNow state = true) {other : CallId} {process : ProcessSummary}
    (hreply : state.replies other = some list) (hprocess : process ∈ selected list) :
    ¬ state.daemon.Down process.pmId := by
  rintro ⟨found, hfound, hnumber, honline, hlaunching⟩
  obtain ⟨_, hcall, _⟩ := hrecorded.issued other list hreply
  have hother := List.mem_range.mpr (hrecorded.bounded.lt hcall)
  have hall := List.all_eq_true.mp hapart other hother
  rw [hreply, Option.all_some] at hall
  have hup := of_decide_eq_true
    (List.all_eq_true.mp (List.all_eq_true.mp hall process hprocess) found hfound)
  rcases hup hnumber with hup | hup
  · exact honline hup
  · exact hlaunching hup

/-- The restart of the stopped process has been issued before it comes up; a
second bulk start is called while the first one waits for PM2. -/
def sampleStartAllTwice : List StartAllAction :=
  [.service (.call .startAll), .service (.connectCallback 0 none),
    .service (.resume 0), .service (.launchCallback 0 (.ok true)),
    .service (.resume 0), .service (.resume 0), .answerList 0,
    .service (.commandCallback 0 (.ok (sampleDaemon .stopped).descriptions)),
    .service (.resume 0), .service (.resume 1), .changes (sampleDaemon .online),
    .service (.call .startAll), .service (.resume 2), .answerList 2,
    .service (.commandCallback 2 (.ok (sampleDaemon .online).descriptions)),
    .service (.resume 2)]

theorem start_all_spares_running_sample :
    (∃ last, startAllMachine.exec (initial (sampleDaemon .stopped))
        sampleStartAllTwice = some last ∧ last.Overlap 0 2 ∧
        last.restarts = [{ start := 0, call := 1, pmId := 0 }]) ∧
      startAllMachine.Steps SparesRunning (initial (sampleDaemon .stopped))
        sampleStartAllTwice ∧
      startAllMachine.Along RestartsOnce (initial (sampleDaemon .stopped))
        sampleStartAllTwice := by
  have hchecks : startAllMachine.checks
      (fun state action =>
        match action with
        | .changes _ => state.quiet
        | .answerList _ => apartNow state
        | _ => true) (initial (sampleDaemon .stopped)) sampleStartAllTwice = true := by
    decide +kernel
  constructor
  · obtain ⟨last, hexec, htest⟩ := Machine.exists_of_exec_map startAllMachine
      (initial (sampleDaemon .stopped)) sampleStartAllTwice
      (fun state => decide (0 ∈ state.meets 2) &&
        decide (state.restarts = [{ start := 0, call := 1, pmId := 0 }]))
      (by decide +kernel)
    simp only [Bool.and_eq_true, decide_eq_true_eq] at htest
    exact ⟨last, hexec, .inl htest.1, htest.2⟩
  refine start_all_spares_running (sampleDaemon .stopped) ?_
  refine Machine.admits_of_checks recorded_preserved ?_
    (recorded_initial (sampleDaemon .stopped)) hchecks
  intro state action hrecorded hcheck
  cases action with
  | service action => trivial
  | answerList id =>
      intro other list _ hreply process hprocess
      exact not_down_of_apartNow hrecorded hcheck hreply hprocess
  | changes table =>
      exact fun pmId hpending => absurd hpending (not_pending_of_quiet hrecorded hcheck)

/-- Both clicks get the list with the stopped process; the second restart is
made when the first one has brought it up. -/
def sampleDoubleStartAll : List StartAllAction :=
  [.service (.call .startAll), .service (.call .startAll),
    .service (.connectCallback 0 none), .service (.resume 0), .service (.resume 1),
    .service (.launchCallback 0 (.ok true)), .service (.resume 0), .service (.resume 1),
    .service (.resume 0), .service (.resume 1), .answerList 0, .answerList 1,
    .service (.commandCallback 0 (.ok (sampleDaemon .stopped).descriptions)),
    .service (.resume 0), .service (.resume 2), .changes (sampleDaemon .online),
    .service (.commandCallback 2 (.ok [])), .service (.resume 2),
    .service (.commandCallback 1 (.ok (sampleDaemon .stopped).descriptions)),
    .service (.resume 1)]

/-- The second restart is for a process which is up, and it is the second one
of the process. -/
theorem double_start_all_restarts_running :
    ∃ daemon word last, startAllMachine.exec (initial daemon) word = some last ∧
      ¬ startAllMachine.Steps SparesRunning (initial daemon) word ∧
      ¬ RestartsOnce last := by
  refine ⟨sampleDaemon .stopped, sampleDoubleStartAll ++ [.service (.resume 3)], ?_⟩
  obtain ⟨mid, hexec, htest⟩ := Machine.exists_of_exec_map startAllMachine
    (initial (sampleDaemon .stopped)) sampleDoubleStartAll
    (fun state => decide (state.maker 3 = some 1) && decide (state.service.calls 3 = some {
        job := pAction .restart (.number 0) "Failed to start \"api\""
        phase := .ensured }) &&
      (decide (state.daemon.processes = (sampleDaemon .online).processes)))
    (by decide +kernel)
  obtain ⟨last, hlast, hrestarts⟩ := Machine.exists_of_exec_map startAllMachine
    (initial (sampleDaemon .stopped)) (sampleDoubleStartAll ++ [.service (.resume 3)])
    (fun state => decide (0 ∈ state.meets 1) && decide (state.restarts =
      [{ start := 0, call := 2, pmId := 0 }, { start := 1, call := 3, pmId := 0 }]))
    (by decide +kernel)
  simp only [Bool.and_eq_true, decide_eq_true_eq] at htest hrestarts
  obtain ⟨⟨hmaker, hcall⟩, hprocesses⟩ := htest
  refine ⟨last, hlast, fun hsteps => ?_, fun honce => ?_⟩
  · obtain ⟨next, hstep, _⟩ :=
      Machine.exec_cons_inv (Machine.exec_suffix hexec hlast)
    refine hsteps sampleDoubleStartAll (.service (.resume 3)) [] mid next rfl hexec hstep
      1 3 0 rfl ⟨hmaker, _, _, hcall⟩ ?_
    refine ⟨{ pmId := 0, name := some "api", status := some .online }, ?_, rfl, .inl rfl⟩
    rw [hprocesses]
    exact List.mem_singleton.mpr rfl
  · rw [RestartsOnce, hrestarts.2] at honce
    have hpair := List.rel_of_pairwise_cons honce (List.mem_singleton.mpr rfl) rfl
    exact hpair.2 (.inl hrestarts.1)

end Pm2Manager
