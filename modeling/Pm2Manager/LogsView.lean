import Mathlib.Data.Int.Notation
import Pm2Manager.Machine

/-!
# The logs view

The log stream of the browser.  A click on "Logs" of a process switches to the
logs view at once and starts the stream when the process list has arrived;
leaving the view closes the stream which is open by then.
-/

namespace Pm2Manager

open Function

inductive AppView
  | dashboard | processes | metrics | logs | activity | settings
deriving DecidableEq, Repr

/-- A number for each `EventSource` which has been made. -/
abbrev SourceId := ℕ

abbrev ListLoadId := ℕ

/-- The process selector: its options, without the one which says that there
are no processes, and its value, `none` for the empty one. -/
structure LogSelect where
  options : List ℤ
  value : Option ℤ

namespace LogSelect

/-- `sel.value = v`. -/
def assign (sel : LogSelect) (v : ℤ) : LogSelect :=
  { sel with value := if v ∈ sel.options then some v else none }

/-- The options are made anew; the first one is selected unless there was a
value before. -/
def fill (sel : LogSelect) (list : List ℤ) : LogSelect :=
  if list = [] then { options := [], value := none }
  else
    match sel.value with
    | none => { options := list, value := list.head? }
    | some previous => assign { options := list, value := list.head? } previous

end LogSelect

inductive AfterList
  | nothing
  | start (pmId : ℤ)
deriving DecidableEq

/-- `isOpen` tells which `EventSource` has not been closed, by `close` or by
the browser. -/
structure LogsView where
  currentView : Option AppView
  logStream : Option SourceId
  isOpen : SourceId → Bool
  nextSource : SourceId
  startDisabled : Bool
  stopDisabled : Bool
  select : LogSelect
  loads : ListLoadId → Option AfterList
  nextLoad : ListLoadId

inductive LogsAction
  | showView (name : AppView)
  | openLogsFor (pmId : ℤ)
  | clickStart
  | clickStop
  | choose (pmId : ℤ)
  /-- The answer to a request of the list; `none` when it has failed. -/
  | listArrives (load : ListLoadId) (list : Option (List ℤ))
  | sourceFails (source : SourceId)

namespace LogsView

def initial : LogsView where
  currentView := none
  logStream := none
  isOpen := fun _ => false
  nextSource := 0
  startDisabled := false
  stopDisabled := false
  select := { options := [], value := none }
  loads := fun _ => none
  nextLoad := 0

def closeStream (view : LogsView) : LogsView :=
  match view.logStream with
  | none => view
  | some source =>
      { view with isOpen := update view.isOpen source false, logStream := none }

def stopLogs (view : LogsView) : LogsView :=
  { view.closeStream with startDisabled := false, stopDisabled := true }

def openStream (view : LogsView) : LogsView :=
  { view with
    logStream := some view.nextSource
    isOpen := update view.isOpen view.nextSource true
    nextSource := view.nextSource + 1
    startDisabled := true
    stopDisabled := false }

def startLogs (view : LogsView) : LogsView :=
  match view.select.value with
  | none => view
  | some _ => view.stopLogs.openStream

def loadLogs (view : LogsView) (after : AfterList) : LogsView :=
  { view with
    loads := update view.loads view.nextLoad (some after)
    nextLoad := view.nextLoad + 1 }

/-- `loadView` loads the list for the logs view only. -/
def loadView (view : LogsView) (name : AppView) : LogsView :=
  if name = .logs then view.loadLogs .nothing else view

def leaveLogs (view : LogsView) (name : AppView) : LogsView :=
  if view.currentView = some .logs ∧ name ≠ .logs then view.stopLogs else view

def showView (view : LogsView) (name : AppView) : LogsView :=
  { view.leaveLogs name with currentView := some name }.loadView name

def openLogsFor (view : LogsView) (pmId : ℤ) : LogsView :=
  (view.showView .logs).loadLogs (.start pmId)

/-- `sel.value = String(id); if (sel.value === String(id)) startLogs()`. -/
def startFor (view : LogsView) (pmId : ℤ) : LogsView :=
  if (view.select.assign pmId).value = some pmId then
    { view with select := view.select.assign pmId }.startLogs
  else
    { view with select := view.select.assign pmId }

def receiveList (view : LogsView) (after : AfterList) (list : List ℤ) : LogsView :=
  match after with
  | .nothing => { view with select := view.select.fill list }
  | .start pmId => { view with select := view.select.fill list }.startFor pmId

/-- The controls of the view can be used while it is shown. -/
def step (view : LogsView) : LogsAction → Option LogsView
  | .showView name => some (view.showView name)
  | .openLogsFor pmId => some (view.openLogsFor pmId)
  | .clickStart =>
      if view.currentView = some .logs ∧ view.startDisabled = false then
        some view.startLogs
      else
        none
  | .clickStop =>
      if view.currentView = some .logs ∧ view.stopDisabled = false then
        some view.stopLogs
      else
        none
  | .choose pmId =>
      if view.currentView = some .logs ∧ pmId ∈ view.select.options then
        some { view with select := view.select.assign pmId }
      else
        none
  | .listArrives load list =>
      match view.loads load with
      | none => none
      | some after =>
          let view := { view with loads := update view.loads load none }
          match list with
          | none => some view
          | some list => some (view.receiveList after list)
  | .sourceFails source =>
      if view.isOpen source then
        some { view with isOpen := update view.isOpen source false }
      else
        none

end LogsView

def logsMachine : Machine LogsView LogsAction where
  step := LogsView.step

/-- At most one stream is open, and none outside the logs view. -/
structure LogsView.OneInLogs (view : LogsView) : Prop where
  one : ∀ first second, view.isOpen first = true → view.isOpen second = true →
    first = second
  inLogs : ∀ source, view.isOpen source = true → view.currentView = some .logs

/-- The list which a click on the logs of a process has asked for comes, with
the process in it, before the logs view is left. -/
def ListFindsLogs (view : LogsView) : LogsAction → Prop
  | .listArrives load (some list) =>
      ∀ pmId, view.loads load = some (.start pmId) → pmId ∈ list →
        view.currentView = some .logs
  | _ => True

namespace LogsView

variable {view next last : LogsView} {action : LogsAction} {source : SourceId}
variable {word : List LogsAction}

/-! ## What is open -/

/-- A stream which is open is the one in `logStream`. -/
def HoldsOpen (view : LogsView) : Prop :=
  ∀ source, view.isOpen source = true → view.logStream = some source

@[simp] theorem stopLogs_currentView : view.stopLogs.currentView = view.currentView := by
  unfold stopLogs closeStream
  split <;> rfl

@[simp] theorem openStream_isOpen_self :
    view.openStream.isOpen view.nextSource = true := by
  simp [openStream]

theorem HoldsOpen.stopLogs_isOpen (hholds : view.HoldsOpen) (source : SourceId) :
    view.stopLogs.isOpen source = false := by
  rw [Bool.eq_false_iff]
  intro hopen
  unfold stopLogs closeStream at hopen
  split at hopen
  next hnone =>
    rw [hholds source hopen] at hnone
    cases hnone
  next held hheld =>
    by_cases hsame : source = held
    · subst hsame
      simp at hopen
    · simp only [update_of_ne hsame] at hopen
      rw [hholds source hopen, Option.some.injEq] at hheld
      exact hsame hheld

theorem HoldsOpen.stopLogs (hholds : view.HoldsOpen) : view.stopLogs.HoldsOpen := by
  intro source hopen
  rw [hholds.stopLogs_isOpen] at hopen
  cases hopen

theorem HoldsOpen.startLogs (hholds : view.HoldsOpen) : view.startLogs.HoldsOpen := by
  unfold LogsView.startLogs
  split
  · exact hholds
  · intro source hopen
    by_cases hnew : source = view.stopLogs.nextSource
    · rw [hnew]
      rfl
    · simp only [openStream, update_of_ne hnew] at hopen
      rw [hholds.stopLogs_isOpen] at hopen
      cases hopen

@[simp] theorem startLogs_currentView : view.startLogs.currentView = view.currentView := by
  unfold startLogs
  split
  · rfl
  · exact stopLogs_currentView

/-! ## Steps -/

inductive StreamMove (view : LogsView) : LogsAction → LogsView → Prop
  /-- They are as before, the one which fails apart, and so is the view. -/
  | stays (action : LogsAction) (next : LogsView)
      (hview : next.currentView = view.currentView)
      (hstream : next.logStream = view.logStream)
      (hopen : ∀ source, next.isOpen source = true → view.isOpen source = true) :
      StreamMove view action next
  | shown (action : LogsAction) (next : LogsView) (name : AppView)
      (hview : next.currentView = some name)
      (hstream : next.logStream = (view.leaveLogs name).logStream)
      (hopen : next.isOpen = (view.leaveLogs name).isOpen) : StreamMove view action next
  | stopped (action : LogsAction) : StreamMove view action view.stopLogs
  | clicked (hlogs : view.currentView = some .logs) :
      StreamMove view .clickStart view.startLogs
  | started (load : ListLoadId) (list : List ℤ) (pmId : ℤ) (select : LogSelect)
      (loads : ListLoadId → Option AfterList)
      (hload : view.loads load = some (.start pmId)) (hmem : pmId ∈ list)
      (hvalue : select.value = some pmId) :
      StreamMove view (.listArrives load (some list)) { view with select, loads }.startLogs

theorem fill_options (sel : LogSelect) (list : List ℤ) :
    (sel.fill list).options = list := by
  unfold LogSelect.fill
  split
  next hnil => exact hnil.symm
  next => split <;> rfl

theorem assign_fill_value (sel : LogSelect) (list : List ℤ) (pmId : ℤ) :
    ((sel.fill list).assign pmId).value = some pmId ↔ pmId ∈ list := by
  unfold LogSelect.assign
  rw [fill_options]
  split
  next hmem => simp [hmem]
  next habsent => simp [habsent]

theorem listArrives_step {load : ListLoadId} {list : Option (List ℤ)}
    (hstep : view.step (.listArrives load list) = some next) :
    StreamMove view (.listArrives load list) next := by
  simp only [step] at hstep
  split at hstep
  · cases hstep
  next after hload =>
    cases list with
    | none =>
        obtain rfl := Option.some.inj hstep
        exact .stays _ _ rfl rfl fun _ hopen => hopen
    | some list =>
        obtain rfl := Option.some.inj hstep
        cases after with
        | nothing => exact .stays _ _ rfl rfl fun _ hopen => hopen
        | start pmId =>
            simp only [receiveList, startFor]
            split
            next hvalue =>
              exact .started load list pmId _ _ hload
                ((assign_fill_value view.select list pmId).mp hvalue) hvalue
            next => exact .stays _ _ rfl rfl fun _ hopen => hopen

theorem showView_move (view : LogsView) (name : AppView) :
    (view.showView name).currentView = some name ∧
      (view.showView name).logStream = (view.leaveLogs name).logStream ∧
      (view.showView name).isOpen = (view.leaveLogs name).isOpen := by
  unfold showView loadView
  split <;> exact ⟨rfl, rfl, rfl⟩

theorem stream_step (hstep : view.step action = some next) :
    StreamMove view action next := by
  cases action with
  | showView name =>
      obtain rfl := Option.some.inj hstep
      obtain ⟨hview, hstream, hopen⟩ := view.showView_move name
      exact .shown _ _ name hview hstream hopen
  | openLogsFor pmId =>
      obtain rfl := Option.some.inj hstep
      obtain ⟨hview, hstream, hopen⟩ := view.showView_move .logs
      exact .shown _ _ .logs hview hstream hopen
  | clickStart =>
      simp only [step] at hstep
      split at hstep
      next hlogs =>
        obtain rfl := Option.some.inj hstep
        exact .clicked hlogs.1
      · cases hstep
  | clickStop =>
      simp only [step] at hstep
      split at hstep
      · obtain rfl := Option.some.inj hstep
        exact .stopped _
      · cases hstep
  | choose pmId =>
      simp only [step] at hstep
      split at hstep
      · obtain rfl := Option.some.inj hstep
        exact .stays _ _ rfl rfl fun _ hopen => hopen
      · cases hstep
  | listArrives load list => exact listArrives_step hstep
  | sourceFails source =>
      simp only [step] at hstep
      split at hstep
      next =>
        obtain rfl := Option.some.inj hstep
        refine .stays _ _ rfl rfl fun other hopen => ?_
        by_cases hsame : other = source
        · subst hsame
          simp at hopen
        · simpa only [update_of_ne hsame] using hopen
      · cases hstep

theorem HoldsOpen.leaveLogs (hholds : view.HoldsOpen) (name : AppView) :
    (view.leaveLogs name).HoldsOpen := by
  unfold LogsView.leaveLogs
  split
  · exact hholds.stopLogs
  · exact hholds

theorem holdsOpen_initial : initial.HoldsOpen := by
  intro source hopen
  cases hopen

theorem holdsOpen_preserved : logsMachine.Preserves Machine.anyAction HoldsOpen := by
  intro view action next hholds _ hstep
  cases stream_step hstep with
  | stays _ _ hview hstream hopen =>
      intro source hsource
      rw [hstream]
      exact hholds source (hopen source hsource)
  | shown _ _ name hview hstream hopen =>
      intro source hsource
      rw [hopen] at hsource
      rw [hstream]
      exact hholds.leaveLogs name source hsource
  | stopped => exact hholds.stopLogs
  | clicked => exact hholds.startLogs
  | started load list pmId select loads =>
      have hbefore : { view with select, loads }.HoldsOpen := hholds
      exact hbefore.startLogs

theorem HoldsOpen.one (hholds : view.HoldsOpen) {first second : SourceId}
    (hfirst : view.isOpen first = true) (hsecond : view.isOpen second = true) :
    first = second := by
  have hsame := hholds first hfirst
  rw [hholds second hsecond, Option.some.injEq] at hsame
  exact hsame.symm

theorem at_most_one_open (hexec : logsMachine.exec initial word = some last)
    {first second : SourceId} (hfirst : last.isOpen first = true)
    (hsecond : last.isOpen second = true) : first = second := by
  have hholds := holdsOpen_preserved.exec_any holdsOpen_initial hexec
  exact hholds.one hfirst hsecond

/-! ## Streams and views -/

/-- A view which is shown has no open stream, unless it is the logs view. -/
theorem leaveLogs_closed (hholds : view.HoldsOpen)
    (hlogs : ∀ source, view.isOpen source = true → view.currentView = some .logs)
    {name : AppView} (hname : name ≠ .logs) (source : SourceId) :
    (view.leaveLogs name).isOpen source = false := by
  unfold LogsView.leaveLogs
  split
  · exact hholds.stopLogs_isOpen source
  next hstays =>
    rw [Bool.eq_false_iff]
    intro hopen
    exact hstays ⟨hlogs source hopen, hname⟩

theorem inLogs_step (hholds : view.HoldsOpen) (honly : view.OneInLogs)
    (hfinds : ListFindsLogs view action) (hstep : view.step action = some next)
    (hopen : next.isOpen source = true) : next.currentView = some .logs := by
  have hlogs := honly.inLogs
  cases stream_step hstep with
  | stays _ _ hview _ hkept =>
      rw [hview]
      exact hlogs source (hkept source hopen)
  | shown _ _ name hview _ hshown =>
      rw [hview]
      by_contra hname
      rw [hshown, leaveLogs_closed hholds hlogs (fun hsame => hname (by rw [hsame]))] at hopen
      cases hopen
  | stopped =>
      rw [hholds.stopLogs_isOpen] at hopen
      cases hopen
  | clicked hview =>
      rw [startLogs_currentView]
      exact hview
  | started load list pmId select loads hload hmem _ =>
      rw [startLogs_currentView]
      exact hfinds pmId hload hmem

/-- A list which comes too late starts a stream in another view. -/
theorem opens_elsewhere (hlate : ¬ ListFindsLogs view action)
    (hstep : view.step action = some next) : ¬ next.OneInLogs := by
  intro honly
  cases action with
  | listArrives load list =>
      cases list with
      | none => exact hlate trivial
      | some list =>
          simp only [ListFindsLogs] at hlate
          push Not at hlate
          obtain ⟨pmId, hload, hmem, hview⟩ := hlate
          simp only [step, hload] at hstep
          obtain rfl := Option.some.inj hstep
          simp only [receiveList, startFor,
            if_pos ((assign_fill_value view.select list pmId).mpr hmem)] at honly
          have hopen := honly.inLogs
          simp only [startLogs, (assign_fill_value view.select list pmId).mpr hmem] at hopen
          have hcontra := hopen _ openStream_isOpen_self
          exact hview (by simpa [openStream] using hcontra)
  | showView | openLogsFor | clickStart | clickStop | choose | sourceFails =>
      exact hlate trivial

theorem oneInLogs_initial : initial.OneInLogs where
  one := by simp [initial]
  inLogs := by simp [initial]

/-- The runs in which at most one stream is open, and none outside the logs
view, are those in which each list finds the logs view for which it was asked
for. -/
theorem one_stream_in_logs_iff (word : List LogsAction) (last : LogsView)
    (hexec : logsMachine.exec initial word = some last) :
    logsMachine.Along OneInLogs initial word ↔
      logsMachine.Admits ListFindsLogs initial word := by
  refine Machine.along_iff_admits holdsOpen_preserved ?_ ?_ holdsOpen_initial
    oneInLogs_initial (Machine.admits_anyAction _ _) hexec
  · intro view action next hholds honly _ hfinds hstep
    have hnext := holdsOpen_preserved view action next hholds trivial hstep
    exact ⟨fun _ _ hfirst hsecond => hnext.one hfirst hsecond,
      fun _ hopen => inLogs_step hholds honly hfinds hstep hopen⟩
  · intro view action next _ _ _ hlate hstep
    exact opens_elsewhere hlate hstep

end LogsView

open LogsView

/-- The list comes while the logs view is shown; the stream is closed when it
is left, and a second one is opened. -/
def sampleLogs : List LogsAction :=
  [.showView .processes, .openLogsFor 3, .listArrives 0 (some [0, 3]),
    .listArrives 1 (some [0, 3]), .showView .metrics, .openLogsFor 0,
    .listArrives 3 (some [0, 3]), .clickStop, .clickStart]

theorem one_stream_in_logs_sample :
    ∃ last, logsMachine.exec initial sampleLogs = some last ∧
      (logsMachine.Along OneInLogs initial sampleLogs ↔
        logsMachine.Admits ListFindsLogs initial sampleLogs) := by
  obtain ⟨last, hexec, _⟩ := Machine.exists_of_exec_map logsMachine initial sampleLogs
    (fun _ => true) (by decide)
  exact ⟨last, hexec, one_stream_in_logs_iff sampleLogs last hexec⟩

/-- The user has left the logs view when the list comes. -/
def sampleLateList : List LogsAction :=
  [.openLogsFor 3, .showView .dashboard, .listArrives 1 (some [0, 3])]

theorem late_list_opens_stream :
    ∃ word last, logsMachine.exec initial word = some last ∧ ¬ last.OneInLogs := by
  obtain ⟨last, hexec, htest⟩ := Machine.exists_of_exec_map logsMachine initial
    sampleLateList (fun view =>
      view.isOpen 0 && decide (view.currentView = some .dashboard)) (by decide)
  rw [Bool.and_eq_true, decide_eq_true_eq] at htest
  refine ⟨sampleLateList, last, hexec, fun honly => ?_⟩
  have hlogs := honly.inLogs 0 htest.1
  rw [htest.2] at hlogs
  cases hlogs

end Pm2Manager
