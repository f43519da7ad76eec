import Mathlib.Data.Int.Notation
import Pm2Manager.LogsView
import Pm2Manager.MetricsNames

/-!
# The metrics view

The graph of one process over a range.  A change of the process or of the
range asks for the points, and so does a poll; whichever answer comes last is
what the view holds and draws.
-/

namespace Pm2Manager

open Function JsonText

/-! ## What is selected -/

inductive RangePreset
  | min15 | min30 | hour1 | hour6 | hour12 | hour24 | day7 | day30
deriving DecidableEq, Repr

/-- `RANGE_MS`. -/
def RangePreset.span : RangePreset → ℤ
  | .min15 => 900000
  | .min30 => 1800000
  | .hour1 => 3600000
  | .hour6 => 21600000
  | .hour12 => 43200000
  | .hour24 => 86400000
  | .day7 => 604800000
  | .day30 => 2592000000

inductive MetricsRange
  | preset (range : RangePreset)
  | custom
deriving DecidableEq, Repr

structure CustomWindow where
  fromMs : ℤ
  toMs : ℤ
deriving DecidableEq, Repr

inductive RequestedRange
  | range (preset : RangePreset)
  | between (window : CustomWindow)
deriving DecidableEq, Repr

structure MetricsSelection where
  name : Text
  range : RequestedRange
deriving DecidableEq

/-- `enc` does not throw: no surrogate stands alone. -/
def encodable : Text → Bool
  | [] => true
  | [u] => !(isHigh u || isLow u)
  | u :: v :: rest =>
      if isHigh u then isLow v && encodable rest
      else !isLow u && encodable (v :: rest)

/-! ## The series -/

section Series

variable (Point : Type)

structure MetricsReply where
  points : List Point
  sinceMs : ℤ
  untilMs : ℤ

structure MetricsSeries where
  points : List Point
  span : ℤ

/-- A poll is named after the interval it belongs to. -/
abbrev PollId := ℕ

/-- A request for points, with the poll which has made it; `reply` is there
once it has been answered, and is `none` itself for a failure. -/
structure HistoryRequest where
  selection : MetricsSelection
  poll : Option PollId
  reply : Option (Option (MetricsReply Point))

/-- The variables of the view.  Both bounds of `metricsCustom` are set or
neither is; `drawn` is what the charts show. -/
structure MetricsView where
  metricsProcess : Option Text
  metricsRange : MetricsRange
  metricsLastPreset : RangePreset
  metricsCustom : Option CustomWindow
  metricsSeries : MetricsSeries Point
  drawn : List Point
  requests : List (HistoryRequest Point)

end Series

variable {Point : Type}

def replyPoints : Option (MetricsReply Point) → List Point
  | some reply => reply.points
  | none => []

/-- `RANGE_MS[metricsRange] || RANGE_MS['6h']`. -/
def MetricsRange.spanOr : MetricsRange → ℤ
  | .preset range => range.span
  | .custom => RangePreset.hour6.span

def replySeries (range : MetricsRange) : Option (MetricsReply Point) → MetricsSeries Point
  | some reply => {
      points := reply.points
      span := if reply.untilMs - reply.sinceMs ≠ 0 then reply.untilMs - reply.sinceMs
        else range.spanOr }
  | none => { points := [], span := RangePreset.hour6.span }

inductive FetchOutcome
  | sent | resolved | thrown
deriving DecidableEq

namespace MetricsView

def initial : MetricsView Point where
  metricsProcess := none
  metricsRange := .preset .hour1
  metricsLastPreset := .hour1
  metricsCustom := none
  metricsSeries := { points := [], span := 0 }
  drawn := []
  requests := []

def requestedRange (view : MetricsView Point) : Option RequestedRange :=
  match view.metricsRange, view.metricsCustom with
  | .preset range, _ => some (.range range)
  | .custom, some window => some (.between window)
  | .custom, none => none

def selection (view : MetricsView Point) : Option MetricsSelection :=
  view.metricsProcess.bind fun name =>
    view.requestedRange.map fun range => { name, range }

/-- `drawMetricsCharts`. -/
def draw (view : MetricsView Point) : MetricsView Point :=
  { view with drawn := view.metricsSeries.points }

def setSeries (view : MetricsView Point) (series : MetricsSeries Point) :
    MetricsView Point :=
  { view with metricsSeries := series }.draw

/-- `api.get` of the history. -/
def send (view : MetricsView Point) (selection : MetricsSelection)
    (poll : Option PollId) : MetricsView Point :=
  { view with requests := view.requests ++ [{ selection, poll, reply := none }] }

def fetchMetrics (view : MetricsView Point) (poll : Option PollId) :
    MetricsView Point × FetchOutcome :=
  match view.metricsProcess with
  | none => (view.setSeries { points := [], span := RangePreset.hour1.span }, .resolved)
  | some name =>
      if encodable name then
        match view.selection with
        | none => (view, .resolved)
        | some selection => (view.send selection poll, .sent)
      else
        (view, .thrown)

/-- What follows a request: its answer becomes the series. -/
def receive (view : MetricsView Point) (id : ℕ) (request : HistoryRequest Point)
    (reply : Option (MetricsReply Point)) : MetricsView Point :=
  { view with requests := view.requests.set id { request with reply := some reply } }.setSeries
    (replySeries view.metricsRange reply)

/-! ## The controls -/

def selectProcess (view : MetricsView Point) (value : Text) : MetricsView Point :=
  { view with metricsProcess := if value = [] then none else some value }

def selectPreset (view : MetricsView Point) (range : RangePreset) : MetricsView Point :=
  { view with
    metricsRange := .preset range
    metricsLastPreset := range
    metricsCustom := none }

def selectWindow (view : MetricsView Point) (window : CustomWindow) : MetricsView Point :=
  { view with metricsRange := .custom, metricsCustom := some window }

def selectCustom (view : MetricsView Point) (now : ℤ) : MetricsView Point :=
  view.selectWindow
    (view.metricsCustom.getD { fromMs := now - RangePreset.hour1.span, toMs := now })

def resetRange (view : MetricsView Point) : MetricsView Point :=
  { view with metricsRange := .preset view.metricsLastPreset, metricsCustom := none }

/-- The process which `loadMetrics` leaves selected. -/
def keepProcess (view : MetricsView Point) (names : List Text) : MetricsView Point :=
  if view.metricsProcess.any names.contains then view
  else { view with metricsProcess := names.head? }

end MetricsView

/-! ## The client -/

inductive NameSource
  | live | stored
deriving DecidableEq, Repr

/-- The lists `loadMetrics` has received; a list is empty if it has failed. -/
structure NameLoad where
  live : Option (List Text)
  stored : Option (List Text)
deriving DecidableEq

def NameLoad.put (load : NameLoad) (source : NameSource) (names : List Text) :
    Option NameLoad :=
  match source with
  | .live => if load.live = none then some { load with live := some names } else none
  | .stored =>
      if load.stored = none then some { load with stored := some names } else none

abbrev NameLoadId := ℕ

/-- `interval` is the timer of the metrics view while it is shown, and `busy`
the variable of that name for each timer there has been. -/
structure MetricsClient (Point : Type) where
  view : MetricsView Point
  currentView : Option AppView
  interval : Option PollId
  busy : PollId → Bool
  nextPoll : PollId
  loads : NameLoadId → Option NameLoad
  nextLoad : NameLoadId

inductive MetricsViewAction (Point : Type)
  | showView (name : AppView)
  | namesArrive (load : NameLoadId) (source : NameSource) (names : List Text)
  | selectProcess (value : Text)
  | selectPreset (range : RangePreset)
  | selectCustom (now : ℤ)
  /-- "Apply"; `none` if a bound is missing. -/
  | applyWindow (window : Option CustomWindow)
  | zoom (window : CustomWindow)
  | reset
  /-- The timer; a menu or a dialog may be open. -/
  | tick (covered : Bool)
  | respond (id : ℕ) (reply : Option (MetricsReply Point))
  | redraw

namespace MetricsClient

variable (toLowerCase : Text → Text)

def initial : MetricsClient Point where
  view := .initial
  currentView := none
  interval := none
  busy := fun _ => false
  nextPoll := 0
  loads := fun _ => none
  nextLoad := 0

def refetch (client : MetricsClient Point) (view : MetricsView Point) :
    MetricsClient Point :=
  { client with view := (view.fetchMetrics none).1 }

def showView (client : MetricsClient Point) (name : AppView) : MetricsClient Point :=
  if name = .metrics then
    { client with
      currentView := some name
      interval := some client.nextPoll
      busy := update client.busy client.nextPoll false
      nextPoll := client.nextPoll + 1
      loads := update client.loads client.nextLoad (some { live := none, stored := none })
      nextLoad := client.nextLoad + 1 }
  else
    { client with currentView := some name, interval := none }

/-- The second of the two lists completes the load. -/
def putNames (client : MetricsClient Point) (id : NameLoadId) (load : NameLoad) :
    MetricsClient Point :=
  match load.live, load.stored with
  | some live, some stored =>
      { client with loads := update client.loads id none }.refetch
        (client.view.keepProcess (metricsNames toLowerCase live stored))
  | _, _ => { client with loads := update client.loads id (some load) }

def pollDone (client : MetricsClient Point) (poll : PollId) : MetricsClient Point :=
  { client with busy := update client.busy poll false }

/-- A tick which is not skipped.  A `fetchMetrics` which throws leaves the poll
busy. -/
def poll (client : MetricsClient Point) (poll : PollId) : MetricsClient Point :=
  if client.view.metricsRange = .custom then client.pollDone poll
  else
    let fetched := client.view.fetchMetrics (some poll)
    { client with
      view := fetched.1
      busy := update client.busy poll (decide (fetched.2 ≠ .resolved)) }

def receive (client : MetricsClient Point) (id : ℕ) (request : HistoryRequest Point)
    (reply : Option (MetricsReply Point)) : MetricsClient Point :=
  let client := { client with view := client.view.receive id request reply }
  match request.poll with
  | none => client
  | some poll => client.pollDone poll

/-- The controls can be used while the view is shown, but a drag over a chart
may end later. -/
def step (client : MetricsClient Point) :
    MetricsViewAction Point → Option (MetricsClient Point)
  | .showView name => some (client.showView name)
  | .namesArrive id source names =>
      ((client.loads id).bind fun load => load.put source names).map
        (client.putNames toLowerCase id)
  | .selectProcess value =>
      if client.currentView = some .metrics then
        some (client.refetch (client.view.selectProcess value))
      else none
  | .selectPreset range =>
      if client.currentView = some .metrics then
        some (client.refetch (client.view.selectPreset range))
      else none
  | .selectCustom now =>
      if client.currentView = some .metrics then
        some (client.refetch (client.view.selectCustom now))
      else none
  | .applyWindow window =>
      if client.currentView = some .metrics then
        match window with
        | none => some client
        | some window =>
            if window.toMs ≤ window.fromMs then some client
            else some (client.refetch (client.view.selectWindow window))
      else none
  | .zoom window =>
      if 1000 < window.toMs - window.fromMs then
        some (client.refetch (client.view.selectWindow window))
      else some client
  | .reset => some (client.refetch client.view.resetRange)
  | .tick covered =>
      match client.interval with
      | none => none
      | some poll =>
          if client.busy poll || covered then some client else some (client.poll poll)
  | .respond id reply =>
      match client.view.requests[id]? with
      | none => none
      | some request =>
          if request.reply.isNone then some (client.receive id request reply) else none
  | .redraw =>
      if client.currentView = some .metrics then
        some { client with view := client.view.draw }
      else some client

end MetricsClient

def metricsViewMachine (Point : Type) (toLowerCase : Text → Text) :
    Machine (MetricsClient Point) (MetricsViewAction Point) where
  step := MetricsClient.step toLowerCase

namespace MetricsView

/-- No request for points is outstanding. -/
def Quiet (view : MetricsView Point) : Prop :=
  ∀ request ∈ view.requests, request.reply ≠ none

/-- The points are those of an answer about the current selection, and there
are none without a selection. -/
structure ShowsSelection (view : MetricsView Point) : Prop where
  drawn : view.drawn = view.metricsSeries.points
  held : ∀ selection, view.selection = some selection →
    ∃ request ∈ view.requests, request.selection = selection ∧
      request.reply.map replyPoints = some view.metricsSeries.points
  empty : view.selection = none → view.metricsSeries.points = []

/-- A request for the current selection is outstanding. -/
def Awaits (view : MetricsView Point) : Prop :=
  ∃ request ∈ view.requests, request.reply = none ∧
    view.selection = some request.selection

instance (view : MetricsView Point) : Decidable view.Awaits :=
  inferInstanceAs (Decidable (∃ request ∈ view.requests, _))

end MetricsView

/-- An answer comes while a request for the current selection is outstanding,
which may be the one it answers; and the process names can be put into a
request. -/
def AnsweredInTurn (client : MetricsClient Point) : MetricsViewAction Point → Prop
  | .respond _ _ => client.view.Awaits
  | .selectProcess value => encodable value = true
  | .namesArrive _ _ names => ∀ name ∈ names, encodable name = true
  | _ => True

instance (client : MetricsClient Point) (action : MetricsViewAction Point) :
    Decidable (AnsweredInTurn client action) :=
  match action with
  | .respond _ _ => inferInstanceAs (Decidable client.view.Awaits)
  | .selectProcess value => inferInstanceAs (Decidable (encodable value = true))
  | .namesArrive _ _ names =>
      inferInstanceAs (Decidable (∀ name ∈ names, encodable name = true))
  | .showView _ | .selectPreset _ | .selectCustom _ | .applyWindow _ | .zoom _ | .reset
  | .tick _ | .redraw => isTrue trivial

namespace MetricsView

variable {view : MetricsView Point} {request : HistoryRequest Point}
variable {reply : Option (MetricsReply Point)} {poll : Option PollId} {id : ℕ}

/-! ## The points -/

def CustomSet (view : MetricsView Point) : Prop :=
  view.metricsRange = .custom → view.metricsCustom ≠ none

def NameEncodes (view : MetricsView Point) : Prop :=
  ∀ name, view.metricsProcess = some name → encodable name = true

structure Current (view : MetricsView Point) : Prop where
  customSet : view.CustomSet
  nameEncodes : view.NameEncodes
  drawn : view.drawn = view.metricsSeries.points
  fresh : view.ShowsSelection ∨ view.Awaits

theorem exists_selection (hcustom : view.CustomSet) {name : Text}
    (hname : view.metricsProcess = some name) :
    ∃ selection, view.selection = some selection := by
  unfold CustomSet at hcustom
  unfold selection requestedRange
  rw [hname]
  cases hrange : view.metricsRange with
  | preset range => exact ⟨_, rfl⟩
  | custom =>
      cases hwindow : view.metricsCustom with
      | none => exact absurd hwindow (hcustom hrange)
      | some window => exact ⟨_, rfl⟩

/-- A fetch sends a request for the current selection; without a process it
empties the view. -/
theorem fetchMetrics_current (hcustom : view.CustomSet) (hencodes : view.NameEncodes)
    (hdrawn : view.drawn = view.metricsSeries.points) (poll : Option PollId) :
    (view.fetchMetrics poll).1.Current := by
  unfold fetchMetrics
  split
  next hname =>
    have hnone : view.selection = none := by
      rw [selection, hname]
      rfl
    refine ⟨hcustom, hencodes, rfl, .inl ⟨rfl, ?_, fun _ => rfl⟩⟩
    intro selection hselection
    exact absurd (hnone.symm.trans hselection) (Option.some_ne_none selection).symm
  next name hname =>
    obtain ⟨selection, hselection⟩ := exists_selection hcustom hname
    simp only [if_pos (hencodes name hname), hselection]
    refine ⟨hcustom, hencodes, hdrawn, .inr ?_⟩
    exact ⟨{ selection, poll, reply := none }, List.mem_concat_self, rfl, hselection⟩

/-- The answer to a request is what the view then shows, unless a request for
the current selection stays outstanding. -/
theorem receive_current (hcurrent : view.Current) (hawaits : view.Awaits)
    (hrequest : view.requests[id]? = some request) :
    (view.receive id request reply).Current := by
  refine ⟨hcurrent.customSet, hcurrent.nameEncodes, rfl, ?_⟩
  have hlength := (List.getElem?_eq_some_iff.mp hrequest).1
  obtain ⟨awaited, hmem, hopen, hselection⟩ := hawaits
  obtain ⟨other, hother⟩ := List.mem_iff_getElem?.mp hmem
  by_cases hsame : other = id
  · subst hsame
    rw [hrequest, Option.some.injEq] at hother
    subst hother
    refine .inl ⟨rfl, ?_, ?_⟩
    · intro selection hnow
      rw [show (view.receive other request reply).selection = view.selection from rfl,
        hselection, Option.some.injEq] at hnow
      refine ⟨{ request with reply := some reply }, ?_, hnow, ?_⟩
      · exact List.mem_of_getElem? (List.getElem?_set_self hlength)
      · cases reply <;> rfl
    · intro hnone
      rw [show (view.receive other request reply).selection = view.selection from rfl,
        hselection] at hnone
      cases hnone
  · refine .inr ⟨awaited, ?_, hopen, hselection⟩
    exact List.mem_of_getElem? ((List.getElem?_set_ne (Ne.symm hsame)).trans hother)

/-- An answer which comes while none is awaited for the current selection is
shown in its place, unless an answer about it had the same points. -/
theorem late_answer_shown (hlate : ¬ view.Awaits) (hpoints : replyPoints reply ≠ [])
    (hrequest : view.requests[id]? = some request) (hopen : request.reply = none)
    (hother : ∀ answered ∈ view.requests, view.selection = some answered.selection →
      answered.reply.map replyPoints ≠ some (replyPoints reply)) :
    ¬ (view.receive id request reply).ShowsSelection := by
  intro hshows
  have hseries : (view.receive id request reply).metricsSeries.points = replyPoints reply := by
    cases reply <;> rfl
  cases hselection : view.selection with
  | none =>
      have hempty := hshows.empty hselection
      exact hpoints (hseries ▸ hempty)
  | some selection =>
      obtain ⟨answered, hmem, hsame, hheld⟩ := hshows.held selection hselection
      rw [hseries] at hheld
      rcases List.mem_or_eq_of_mem_set hmem with hold | rfl
      · exact hother answered hold (by rw [hselection, hsame]) hheld
      · -- the request which is answered was not for the current selection
        apply hlate
        exact ⟨request, List.mem_of_getElem? hrequest, hopen, by rw [hselection, ← hsame]⟩

theorem shows_of_quiet (hcurrent : view.Current) (hquiet : view.Quiet) :
    view.ShowsSelection := by
  rcases hcurrent.fresh with hshows | ⟨request, hrequest, hopen, _⟩
  · exact hshows
  · exact absurd hopen (hquiet request hrequest)

theorem draw_current (hcurrent : view.Current) : view.draw.Current := by
  have hsame : view.draw = view := by
    rw [draw, ← hcurrent.drawn]
  rw [hsame]
  exact hcurrent

end MetricsView

namespace MetricsClient

variable {toLowerCase : Text → Text} {client next : MetricsClient Point}
variable {action : MetricsViewAction Point} {word : List (MetricsViewAction Point)}

/-! ## Steps -/

theorem refetch_current {view : MetricsView Point} (hcustom : view.CustomSet)
    (hencodes : view.NameEncodes) (hdrawn : view.drawn = view.metricsSeries.points) :
    (client.refetch view).view.Current :=
  MetricsView.fetchMetrics_current hcustom hencodes hdrawn none

def LoadEncodes (load : NameLoad) : Prop :=
  ∀ names, load.live = some names ∨ load.stored = some names →
    ∀ name ∈ names, encodable name = true

structure InTurn (client : MetricsClient Point) : Prop where
  current : client.view.Current
  loads : ∀ id load, client.loads id = some load → LoadEncodes load

theorem put_encodes {load result : NameLoad} {source : NameSource} {names : List Text}
    (hload : LoadEncodes load) (hnames : ∀ name ∈ names, encodable name = true)
    (hput : load.put source names = some result) : LoadEncodes result := by
  unfold NameLoad.put at hput
  split at hput
  · split at hput
    · obtain rfl := Option.some.inj hput
      rintro other (hother | hother)
      · obtain rfl := Option.some.inj hother
        exact hnames
      · exact hload other (.inr hother)
    · cases hput
  · split at hput
    · obtain rfl := Option.some.inj hput
      rintro other (hother | hother)
      · exact hload other (.inl hother)
      · obtain rfl := Option.some.inj hother
        exact hnames
    · cases hput

theorem keepProcess_current (hcurrent : client.view.Current) {names : List Text}
    (hnames : ∀ name ∈ names, encodable name = true) :
    (client.refetch (client.view.keepProcess names)).view.Current := by
  have hfirst : ∀ name, names.head? = some name → encodable name = true :=
    fun name hname => hnames name (List.mem_of_mem_head? hname)
  unfold MetricsView.keepProcess
  split
  · exact refetch_current hcurrent.customSet hcurrent.nameEncodes hcurrent.drawn
  · exact refetch_current hcurrent.customSet hfirst hcurrent.drawn

theorem loads_update {loads : NameLoadId → Option NameLoad} {id : NameLoadId}
    {value : Option NameLoad} (hloads : ∀ id load, loads id = some load → LoadEncodes load)
    (hvalue : ∀ load, value = some load → LoadEncodes load) :
    ∀ other load, update loads id value other = some load → LoadEncodes load := by
  intro other load hload
  by_cases hsame : other = id
  · subst hsame
    rw [update_self] at hload
    exact hvalue load hload
  · rw [update_of_ne hsame] at hload
    exact hloads other load hload

theorem putNames_inTurn (hturn : client.InTurn) {id : NameLoadId} {load : NameLoad}
    (hload : LoadEncodes load) : (client.putNames toLowerCase id load).InTurn := by
  unfold putNames
  split
  next live stored hlive hstored =>
    constructor
    · apply keepProcess_current hturn.current
      intro name hname
      obtain ⟨hmem, _⟩ := mem_metricsNames.mp hname
      rcases List.mem_append.mp hmem with hmem | hmem
      · exact hload live (.inl hlive) name hmem
      · exact hload stored (.inr hstored) name hmem
    · exact loads_update hturn.loads fun _ hnone => by cases hnone
  · refine ⟨hturn.current, loads_update hturn.loads ?_⟩
    intro other hother
    obtain rfl := Option.some.inj hother
    exact hload

theorem selectProcess_inTurn (hturn : client.InTurn) {value : Text}
    (hvalue : encodable value = true) :
    (client.refetch (client.view.selectProcess value)).InTurn := by
  have hcurrent := hturn.current
  refine ⟨refetch_current hcurrent.customSet ?_ hcurrent.drawn, hturn.loads⟩
  intro name hname
  simp only [MetricsView.selectProcess] at hname
  split at hname
  · cases hname
  · obtain rfl := Option.some.inj hname
    exact hvalue

theorem selectPreset_inTurn (hturn : client.InTurn) (range : RangePreset) :
    (client.refetch (client.view.selectPreset range)).InTurn :=
  ⟨refetch_current (fun hcustom => by cases hcustom) hturn.current.nameEncodes
    hturn.current.drawn, hturn.loads⟩

theorem selectWindow_inTurn (hturn : client.InTurn) (window : CustomWindow) :
    (client.refetch (client.view.selectWindow window)).InTurn :=
  ⟨refetch_current (fun _ => Option.some_ne_none window) hturn.current.nameEncodes
    hturn.current.drawn, hturn.loads⟩

theorem resetRange_inTurn (hturn : client.InTurn) :
    (client.refetch client.view.resetRange).InTurn :=
  ⟨refetch_current (fun hcustom => by cases hcustom) hturn.current.nameEncodes
    hturn.current.drawn, hturn.loads⟩

theorem receive_inTurn (hturn : client.InTurn) (hawaits : client.view.Awaits) {id : ℕ}
    {request : HistoryRequest Point} (hrequest : client.view.requests[id]? = some request)
    (reply : Option (MetricsReply Point)) : (client.receive id request reply).InTurn := by
  have hreceived : (client.view.receive id request reply).Current :=
    MetricsView.receive_current hturn.current hawaits hrequest
  unfold MetricsClient.receive
  split
  · exact ⟨hreceived, hturn.loads⟩
  · exact ⟨hreceived, hturn.loads⟩

theorem poll_inTurn (hturn : client.InTurn) (poll : PollId) :
    (client.poll poll).InTurn := by
  have hcurrent := hturn.current
  unfold MetricsClient.poll
  split
  · exact ⟨hcurrent, hturn.loads⟩
  · exact ⟨MetricsView.fetchMetrics_current hcurrent.customSet hcurrent.nameEncodes
      hcurrent.drawn (some poll), hturn.loads⟩

theorem showView_inTurn (hturn : client.InTurn) (name : AppView) :
    (client.showView name).InTurn := by
  unfold showView
  split
  · refine ⟨hturn.current, loads_update hturn.loads ?_⟩
    rintro load hload names hnames
    obtain rfl := Option.some.inj hload
    rcases hnames with hnone | hnone <;> cases hnone
  · exact ⟨hturn.current, hturn.loads⟩

theorem inTurn_preserved :
    (metricsViewMachine Point toLowerCase).Preserves AnsweredInTurn InTurn := by
  intro client action next hturn hanswered hstep
  simp only [metricsViewMachine] at hstep
  cases action with
  | showView name =>
      obtain rfl := Option.some.inj hstep
      exact showView_inTurn hturn name
  | namesArrive id source names =>
      obtain ⟨load, hput, rfl⟩ := Option.map_eq_some_iff.mp hstep
      obtain ⟨before, hbefore, hput⟩ := Option.bind_eq_some_iff.mp hput
      exact putNames_inTurn hturn (put_encodes (hturn.loads id before hbefore) hanswered hput)
  | selectProcess value =>
      obtain ⟨_, hstep⟩ := Option.ite_none_right_eq_some.mp hstep
      obtain rfl := Option.some.inj hstep
      exact selectProcess_inTurn hturn hanswered
  | selectPreset range =>
      obtain ⟨_, hstep⟩ := Option.ite_none_right_eq_some.mp hstep
      obtain rfl := Option.some.inj hstep
      exact selectPreset_inTurn hturn range
  | selectCustom now =>
      obtain ⟨_, hstep⟩ := Option.ite_none_right_eq_some.mp hstep
      obtain rfl := Option.some.inj hstep
      exact selectWindow_inTurn hturn _
  | applyWindow window =>
      obtain ⟨_, hstep⟩ := Option.ite_none_right_eq_some.mp hstep
      cases window with
      | none =>
          obtain rfl := Option.some.inj hstep
          exact hturn
      | some window =>
          simp only at hstep
          split at hstep
          · obtain rfl := Option.some.inj hstep
            exact hturn
          · obtain rfl := Option.some.inj hstep
            exact selectWindow_inTurn hturn window
  | zoom window =>
      simp only [step] at hstep
      split at hstep
      · obtain rfl := Option.some.inj hstep
        exact selectWindow_inTurn hturn window
      · obtain rfl := Option.some.inj hstep
        exact hturn
  | reset =>
      obtain rfl := Option.some.inj hstep
      exact resetRange_inTurn hturn
  | tick covered =>
      simp only [step] at hstep
      split at hstep
      · cases hstep
      next poll _ =>
        split at hstep
        · obtain rfl := Option.some.inj hstep
          exact hturn
        · obtain rfl := Option.some.inj hstep
          exact poll_inTurn hturn poll
  | respond id reply =>
      simp only [step] at hstep
      split at hstep
      · cases hstep
      next request hrequest =>
        obtain ⟨_, hstep⟩ := Option.ite_none_right_eq_some.mp hstep
        obtain rfl := Option.some.inj hstep
        exact receive_inTurn hturn hanswered hrequest reply
  | redraw =>
      simp only [step] at hstep
      split at hstep
      · obtain rfl := Option.some.inj hstep
        exact ⟨MetricsView.draw_current hturn.current, hturn.loads⟩
      · obtain rfl := Option.some.inj hstep
        exact hturn

theorem initial_inTurn : (initial : MetricsClient Point).InTurn where
  current := {
    customSet := fun hcustom => by cases hcustom
    nameEncodes := fun _ hname => by cases hname
    drawn := rfl
    fresh := .inl {
      drawn := rfl
      held := fun _ hselection => by cases hselection
      empty := fun _ => rfl } }
  loads := fun _ _ hload => by cases hload

/-- In every run in which no answer comes without a request for the current
selection outstanding, what the view holds and draws when no request is
outstanding is the answer about the current selection. -/
theorem shows_current_selection (toLowerCase : Text → Text)
    (word : List (MetricsViewAction Point))
    (hanswered : (metricsViewMachine Point toLowerCase).Admits AnsweredInTurn initial word) :
    (metricsViewMachine Point toLowerCase).Along
      (fun client => client.view.Quiet → client.view.ShowsSelection) initial word := by
  intro before after client hsplit hexec hquiet
  have hturn := inTurn_preserved.along initial_inTurn hanswered before after client hsplit
    hexec
  exact MetricsView.shows_of_quiet hturn.current hquiet

end MetricsClient

open MetricsClient

def sampleReply (points : List ℕ) : Option (MetricsReply ℕ) :=
  some { points, sinceMs := 0, untilMs := 3600000 }

/-- Answers in turn, one of them to a request which a later one has replaced,
and a poll in between. -/
def sampleInTurn : List (MetricsViewAction ℕ) :=
  [.showView .metrics, .namesArrive 0 .live [ascii "web"],
    .namesArrive 0 .stored [ascii "api", ascii "web"], .respond 0 (sampleReply [1, 2]),
    .selectProcess (ascii "web"), .tick false, .respond 2 (sampleReply [3]),
    .respond 1 (sampleReply [3, 4]), .zoom { fromMs := 0, toMs := 5000 }, .reset,
    .respond 3 (sampleReply [5]), .respond 4 none, .showView .logs]

theorem shows_current_selection_sample :
    (metricsViewMachine ℕ id).Along
      (fun client => client.view.Quiet → client.view.ShowsSelection) initial
      sampleInTurn := by
  refine shows_current_selection id sampleInTurn ?_
  have hchecks : (metricsViewMachine ℕ id).checks
      (fun client action => decide (AnsweredInTurn client action)) initial
      sampleInTurn = true := by
    decide
  have hany : (metricsViewMachine ℕ id).Preserves Machine.anyAction fun _ => True :=
    fun _ _ _ _ _ _ => trivial
  exact Machine.admits_of_checks hany
    (fun _ _ _ hcheck => of_decide_eq_true hcheck) trivial hchecks

/-- The answer about the process which was selected first comes last. -/
def sampleOvertaken : List (MetricsViewAction ℕ) :=
  [.showView .metrics, .namesArrive 0 .live [ascii "api", ascii "web"],
    .namesArrive 0 .stored [], .selectProcess (ascii "web"), .respond 1 (sampleReply [3]),
    .respond 0 (sampleReply [1, 2])]

theorem overtaken_shows_earlier_selection :
    ∃ (word : List (MetricsViewAction ℕ)) (last : MetricsClient ℕ),
      (metricsViewMachine ℕ id).exec initial word = some last ∧
        last.view.Quiet ∧ ¬ last.view.ShowsSelection := by
  obtain ⟨last, hexec, htest⟩ := Machine.exists_of_exec_map (metricsViewMachine ℕ id) initial
    sampleOvertaken (fun client =>
      decide (∀ request ∈ client.view.requests, request.reply ≠ none) &&
        client.view.selection.any fun selection =>
          decide (¬ ∃ request ∈ client.view.requests, request.selection = selection ∧
            request.reply.map replyPoints = some client.view.metricsSeries.points))
    (by decide)
  rw [Bool.and_eq_true, decide_eq_true_eq, Option.any_eq_true] at htest
  obtain ⟨hquiet, selection, hselection, hearlier⟩ := htest
  rw [decide_eq_true_eq] at hearlier
  exact ⟨sampleOvertaken, last, hexec, hquiet,
    fun hshows => hearlier (hshows.held selection hselection)⟩

end Pm2Manager
