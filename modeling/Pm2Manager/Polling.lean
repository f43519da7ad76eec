import Mathlib.Data.List.Nodup
import Pm2Manager.Confirmation
import Pm2Manager.MetricsView
import Pm2Manager.Simulation

/-!
# Polling

The dashboard, the processes and the metrics are refreshed by an interval while
they are shown.  A tick begins a refresh unless the one before is still under
way or something is open which a new table would take away.
-/

namespace Pm2Manager

open Function

/-- The views with an interval. -/
def AppView.polls : AppView → Bool
  | .dashboard | .processes | .metrics => true
  | .logs | .activity | .settings => false

/-- `jobs` of the promises have not settled. -/
structure Refresh where
  poll : PollId
  jobs : ℕ
deriving DecidableEq

/-- `live` are the intervals which have not been cleared; the view, the number
of ticks and `busy` are variables of each of them. -/
structure PageShell where
  page : PageDialog
  menuOpen : Bool
  drawerOpen : Bool
  currentView : Option AppView
  pollTimer : Option PollId
  nextPoll : PollId
  live : List PollId
  view : PollId → AppView
  tick : PollId → ℕ
  busy : PollId → Bool
  refreshes : List Refresh

inductive ShellAction
  | dialog (action : DialogAction)
  | setMenu (isOpen : Bool)
  | setDrawer (isOpen : Bool)
  | showView (name : AppView)
  /-- `custom` and `outcome` are those of the metrics view. -/
  | tick (poll : PollId) (custom : Bool) (outcome : FetchOutcome)
  /-- One of the promises of a refresh. -/
  | settle (place : ℕ)

namespace PageShell

def initial : PageShell where
  page := .initial
  menuOpen := false
  drawerOpen := false
  currentView := none
  pollTimer := none
  nextPoll := 0
  live := []
  view := fun _ => .dashboard
  tick := fun _ => 0
  busy := fun _ => false
  refreshes := []

def covered (shell : PageShell) : Bool :=
  shell.menuOpen || shell.page.overlayOpen || shell.drawerOpen

def stopPolling (shell : PageShell) : PageShell :=
  match shell.pollTimer with
  | none => shell
  | some poll => { shell with live := shell.live.erase poll, pollTimer := none }

/-- `setInterval`. -/
def startPolling (shell : PageShell) (name : AppView) : PageShell :=
  { shell with
    pollTimer := some shell.nextPoll
    nextPoll := shell.nextPoll + 1
    live := shell.live ++ [shell.nextPoll]
    view := update shell.view shell.nextPoll name
    tick := update shell.tick shell.nextPoll 0
    busy := update shell.busy shell.nextPoll false }

def showView (shell : PageShell) (name : AppView) : PageShell :=
  let shell := { shell.stopPolling with currentView := some name }
  if name.polls then shell.startPolling name else shell

def begin (shell : PageShell) (poll : PollId) (jobs : ℕ) : PageShell :=
  { shell with refreshes := shell.refreshes ++ [{ poll, jobs }] }

def done (shell : PageShell) (poll : PollId) : PageShell :=
  { shell with busy := update shell.busy poll false }

/-- `HISTORY_REFRESH_TICKS`. -/
def historyRefreshTicks : ℕ := 30

/-- The charts of the dashboard are refreshed less often than its numbers; a
`fetchMetrics` which throws leaves the poll busy. -/
def refresh (shell : PageShell) (poll : PollId) (custom : Bool) (outcome : FetchOutcome) :
    PageShell :=
  let shell := { shell with
    tick := update shell.tick poll (shell.tick poll + 1)
    busy := update shell.busy poll true }
  match shell.view poll with
  | .dashboard => shell.begin poll (if shell.tick poll % historyRefreshTicks = 0 then 2 else 1)
  | .metrics =>
      if custom then shell.done poll
      else if outcome = .thrown then shell
      else shell.begin poll 1
  | _ => shell.begin poll 1

def settle (shell : PageShell) (place : ℕ) (refresh : Refresh) : PageShell :=
  if refresh.jobs ≤ 1 then
    { shell with refreshes := shell.refreshes.eraseIdx place }.done refresh.poll
  else
    { shell with
      refreshes := shell.refreshes.set place { refresh with jobs := refresh.jobs - 1 } }

def step (shell : PageShell) : ShellAction → Option PageShell
  | .dialog action => (shell.page.step action).map fun page => { shell with page }
  | .setMenu isOpen => some { shell with menuOpen := isOpen }
  | .setDrawer isOpen => some { shell with drawerOpen := isOpen }
  | .showView name => some (shell.showView name)
  | .tick poll custom outcome =>
      if poll ∈ shell.live then
        if shell.busy poll || shell.covered then some shell
        else some (shell.refresh poll custom outcome)
      else none
  | .settle place => shell.refreshes[place]?.map (shell.settle place)

end PageShell

def shellMachine : Machine PageShell ShellAction where
  step := PageShell.step

namespace PageShell

variable {shell next : PageShell} {action : ShellAction} {poll : PollId} {name : AppView}

/-! ## One interval, one refresh -/

structure Polls (shell : PageShell) : Prop where
  live : shell.live = shell.pollTimer.toList
  timer : ∀ poll, shell.pollTimer = some poll →
    poll < shell.nextPoll ∧ shell.currentView = some (shell.view poll)
  polled : shell.pollTimer.isSome = shell.currentView.any AppView.polls
  single : (shell.refreshes.map Refresh.poll).Nodup
  begun : ∀ refresh ∈ shell.refreshes,
    refresh.poll < shell.nextPoll ∧ shell.busy refresh.poll = true
  busy : ∀ poll, shell.busy poll = true →
    shell.view poll ≠ .metrics → poll ∈ shell.refreshes.map Refresh.poll

/-- A refresh is begun by the interval of the view which is shown, while nothing
is open, no question waits for its answer and no refresh of this interval is
under way. -/
def BeginsAlone (shell : PageShell) (_ : ShellAction) (next : PageShell) : Prop :=
  next.refreshes.length ≤ shell.refreshes.length ∨
    ∃ poll jobs, shell.pollTimer = some poll ∧
      shell.currentView = some (shell.view poll) ∧ shell.covered = false ∧
      shell.page.modalResolve = none ∧ poll ∉ shell.refreshes.map Refresh.poll ∧
      next.refreshes = shell.refreshes ++ [⟨poll, jobs⟩]

theorem Polls.initial : Polls .initial where
  live := rfl
  timer := by simp [PageShell.initial]
  polled := rfl
  single := List.nodup_nil
  begun := by simp [PageShell.initial]
  busy := by simp [PageShell.initial]

theorem stopPolling_live (hpolls : shell.Polls) :
    shell.stopPolling.live = [] ∧ shell.stopPolling.pollTimer = none := by
  have hlive := hpolls.live
  unfold stopPolling
  cases htimer : shell.pollTimer with
  | none =>
      rw [htimer] at hlive
      exact ⟨hlive, htimer⟩
  | some poll =>
      rw [htimer] at hlive
      simp [hlive]

/-- Stopping changes nothing but the interval. -/
theorem stopPolling_frame (shell : PageShell) :
    shell.stopPolling.nextPoll = shell.nextPoll ∧ shell.stopPolling.view = shell.view ∧
      shell.stopPolling.busy = shell.busy ∧ shell.stopPolling.refreshes = shell.refreshes := by
  unfold stopPolling
  cases shell.pollTimer with
  | none => exact ⟨rfl, rfl, rfl, rfl⟩
  | some poll => exact ⟨rfl, rfl, rfl, rfl⟩

theorem Polls.startPolling (hlive : shell.live = [])
    (hview : shell.currentView = some name) (hname : name.polls = true)
    (hsingle : (shell.refreshes.map Refresh.poll).Nodup)
    (hbegun : ∀ refresh ∈ shell.refreshes,
      refresh.poll < shell.nextPoll ∧ shell.busy refresh.poll = true)
    (hbusy : ∀ poll, shell.busy poll = true →
      shell.view poll ≠ .metrics → poll ∈ shell.refreshes.map Refresh.poll) :
    (shell.startPolling name).Polls where
  live := by
    rw [PageShell.startPolling, hlive]
    rfl
  timer := by
    intro poll hpoll
    obtain rfl := Option.some.inj hpoll
    refine ⟨Nat.lt_succ_self _, ?_⟩
    simp [PageShell.startPolling, hview]
  polled := by
    rw [PageShell.startPolling, hview, Option.any_some, hname]
    rfl
  single := hsingle
  begun := by
    intro refresh hmem
    obtain ⟨hless, hbusy⟩ := hbegun refresh hmem
    refine ⟨Nat.lt_succ_of_lt hless, ?_⟩
    rw [PageShell.startPolling]
    exact (update_of_ne hless.ne ..).trans hbusy
  busy := by
    intro poll hpoll hmetrics
    by_cases hnew : poll = shell.nextPoll
    · subst hnew
      simp [PageShell.startPolling] at hpoll
    · simp only [PageShell.startPolling, update_of_ne hnew] at hpoll hmetrics
      exact hbusy poll hpoll hmetrics

theorem Polls.showView (hpolls : shell.Polls) (name : AppView) :
    (shell.showView name).Polls := by
  obtain ⟨hlive, htimer⟩ := stopPolling_live hpolls
  obtain ⟨hnext, hview, hbusy, hrefreshes⟩ := shell.stopPolling_frame
  have hsingle := hpolls.single
  have hbegun := hpolls.begun
  have hpending := hpolls.busy
  rw [← hrefreshes] at hsingle hbegun hpending
  rw [← hbusy] at hbegun hpending
  rw [← hnext] at hbegun
  rw [← hview] at hpending
  unfold PageShell.showView
  by_cases hname : name.polls = true
  · rw [if_pos hname]
    exact .startPolling hlive rfl hname hsingle hbegun hpending
  · rw [if_neg hname]
    refine ⟨?_, ?_, ?_, hsingle, hbegun, hpending⟩
    · exact hlive.trans (congrArg Option.toList htimer).symm
    · intro poll hpoll
      exact absurd (htimer.symm.trans hpoll) (by simp)
    · rw [Bool.not_eq_true] at hname
      exact (congrArg Option.isSome htimer).trans hname.symm

/-- A tick which is not skipped: one refresh is begun, or none and `busy` is as
it was for other views than the metrics. -/
theorem refresh_cases (shell : PageShell) (poll : PollId) (custom : Bool)
    (outcome : FetchOutcome) :
    ∃ tick busy, (∀ other, other ≠ poll → busy other = shell.busy other) ∧
      ((∃ jobs, busy poll = true ∧ shell.refresh poll custom outcome =
          { shell with tick, busy, refreshes := shell.refreshes ++ [⟨poll, jobs⟩] }) ∨
        (shell.view poll = .metrics ∧
          shell.refresh poll custom outcome = { shell with tick, busy })) := by
  have hother : ∀ other, other ≠ poll → update shell.busy poll true other = shell.busy other :=
    fun other hne => update_of_ne hne ..
  have hself : update shell.busy poll true poll = true := update_self ..
  unfold PageShell.refresh
  dsimp only
  split
  · exact ⟨_, _, hother, .inl ⟨_, hself, rfl⟩⟩
  next hmetrics =>
    by_cases hcustom : custom = true
    · rw [if_pos hcustom]
      refine ⟨_, _, fun other hne => ?_, .inr ⟨hmetrics, rfl⟩⟩
      exact (update_of_ne hne ..).trans (hother other hne)
    · rw [if_neg hcustom]
      by_cases hthrown : outcome = .thrown
      · rw [if_pos hthrown]
        exact ⟨_, _, hother, .inr ⟨hmetrics, rfl⟩⟩
      · rw [if_neg hthrown]
        exact ⟨_, _, hother, .inl ⟨_, hself, rfl⟩⟩
  · exact ⟨_, _, hother, .inl ⟨_, hself, rfl⟩⟩

theorem Polls.notMem (hpolls : shell.Polls) (hbusy : shell.busy poll = false) :
    poll ∉ shell.refreshes.map Refresh.poll := by
  intro hmem
  obtain ⟨refresh, hrefresh, rfl⟩ := List.mem_map.mp hmem
  rw [(hpolls.begun refresh hrefresh).2] at hbusy
  cases hbusy

theorem Polls.timer_of_live (hpolls : shell.Polls) (hlive : poll ∈ shell.live) :
    shell.pollTimer = some poll := by
  rw [hpolls.live, Option.mem_toList] at hlive
  exact hlive

theorem Polls.refresh (hpolls : shell.Polls) (hlive : poll ∈ shell.live)
    (hidle : shell.busy poll = false) (custom : Bool) (outcome : FetchOutcome) :
    (shell.refresh poll custom outcome).Polls := by
  obtain ⟨tick, busy, hother, hcases⟩ := shell.refresh_cases poll custom outcome
  have hnotMem := hpolls.notMem hidle
  have hless := (hpolls.timer poll (hpolls.timer_of_live hlive)).1
  have hsame : ∀ refresh ∈ shell.refreshes, busy refresh.poll = true := by
    intro refresh hmem
    have hne : refresh.poll ≠ poll := fun heq =>
      hnotMem (heq ▸ List.mem_map_of_mem hmem)
    exact (hother _ hne).trans (hpolls.begun refresh hmem).2
  rcases hcases with ⟨jobs, hbusy, hrefresh⟩ | ⟨hmetrics, hrefresh⟩
  · rw [hrefresh]
    refine ⟨hpolls.live, hpolls.timer, hpolls.polled, ?_, ?_, ?_⟩
    · rw [List.map_append]
      exact hpolls.single.append (List.nodup_singleton _)
        (List.disjoint_singleton.mpr hnotMem)
    · intro refresh hmem
      rcases List.mem_append.mp hmem with hold | hnew
      · exact ⟨(hpolls.begun refresh hold).1, hsame refresh hold⟩
      · obtain rfl := List.mem_singleton.mp hnew
        exact ⟨hless, hbusy⟩
    · intro other hbusyOther hview
      rw [List.map_append, List.mem_append]
      by_cases heq : other = poll
      · exact .inr (List.mem_singleton.mpr heq)
      · exact .inl (hpolls.busy other ((hother other heq).symm.trans hbusyOther) hview)
  · rw [hrefresh]
    refine ⟨hpolls.live, hpolls.timer, hpolls.polled, hpolls.single,
      fun refresh hmem => ⟨(hpolls.begun refresh hmem).1, hsame refresh hmem⟩, ?_⟩
    intro other hbusyOther hview
    have hne : other ≠ poll := fun heq => hview (heq ▸ hmetrics)
    exact hpolls.busy other ((hother other hne).symm.trans hbusyOther) hview

/-- The last promise of a refresh: the others under way are of other intervals. -/
theorem Polls.settleLast (hpolls : shell.Polls) {place : ℕ} {refresh : Refresh}
    (hplace : shell.refreshes[place]? = some refresh) :
    Polls ({ shell with refreshes := shell.refreshes.eraseIdx place }.done refresh.poll) := by
  have hpollAt : (shell.refreshes.map Refresh.poll)[place]? = some refresh.poll := by
    rw [List.getElem?_map, hplace]
    rfl
  obtain ⟨hbound, _⟩ := List.getElem?_eq_some_iff.mp hpollAt
  have hother : ∀ other ∈ shell.refreshes.eraseIdx place, other.poll ≠ refresh.poll := by
    intro other hmem heq
    obtain ⟨i, hne, hi⟩ := List.mem_eraseIdx_iff_getElem?.mp hmem
    have hiAt : (shell.refreshes.map Refresh.poll)[i]? = some refresh.poll := by
      rw [List.getElem?_map, hi, ← heq]
      rfl
    exact hne ((List.getElem?_inj hbound hpolls.single).mp (hpollAt.trans hiAt.symm)).symm
  refine ⟨hpolls.live, hpolls.timer, hpolls.polled, ?_, ?_, ?_⟩
  · exact hpolls.single.sublist ((List.eraseIdx_sublist _ _).map Refresh.poll)
  · intro other hmem
    obtain ⟨hless, hbusy⟩ := hpolls.begun other ((List.eraseIdx_sublist _ _).subset hmem)
    exact ⟨hless, (update_of_ne (hother other hmem) ..).trans hbusy⟩
  · intro poll hbusy hview
    have hne : poll ≠ refresh.poll := by
      rintro rfl
      simp [done] at hbusy
    have hbefore : shell.busy poll = true := (update_of_ne hne ..).symm.trans hbusy
    obtain ⟨other, hmem, hpoll⟩ := List.mem_map.mp (hpolls.busy poll hbefore hview)
    obtain ⟨i, hi⟩ := List.mem_iff_getElem?.mp hmem
    refine List.mem_map.mpr ⟨other, List.mem_eraseIdx_iff_getElem?.mpr ⟨i, ?_, hi⟩, hpoll⟩
    rintro rfl
    rw [hi] at hplace
    exact hne (hpoll.symm.trans (congrArg Refresh.poll (Option.some.inj hplace)))

theorem Polls.settleOne (hpolls : shell.Polls) {place jobs : ℕ} {refresh : Refresh}
    (hplace : shell.refreshes[place]? = some refresh) :
    Polls { shell with refreshes := shell.refreshes.set place { refresh with jobs } } := by
  obtain ⟨hbound, hget⟩ := List.getElem?_eq_some_iff.mp hplace
  have hmap : (shell.refreshes.set place { refresh with jobs }).map Refresh.poll =
      shell.refreshes.map Refresh.poll := by
    have hlength : place < (shell.refreshes.map Refresh.poll).length := by
      rwa [List.length_map]
    have hpoll : refresh.poll = (shell.refreshes.map Refresh.poll)[place] := by
      rw [List.getElem_map, hget]
    rw [List.map_set]
    dsimp only
    rw [hpoll, List.set_getElem_self]
  refine ⟨hpolls.live, hpolls.timer, hpolls.polled, ?_, ?_, ?_⟩
  · rw [hmap]
    exact hpolls.single
  · intro other hmem
    rcases List.mem_or_eq_of_mem_set hmem with hold | rfl
    · exact hpolls.begun other hold
    · exact hpolls.begun refresh (List.mem_of_getElem? hplace)
  · rw [hmap]
    exact hpolls.busy

theorem Polls.settle (hpolls : shell.Polls) {place : ℕ} {refresh : Refresh}
    (hplace : shell.refreshes[place]? = some refresh) :
    (shell.settle place refresh).Polls := by
  unfold PageShell.settle
  split
  · exact hpolls.settleLast hplace
  · exact hpolls.settleOne hplace

theorem Polls.step (hpolls : shell.Polls) (hstep : shell.step action = some next) :
    next.Polls := by
  cases action with
  | dialog action =>
      obtain ⟨page, _, rfl⟩ := Option.map_eq_some_iff.mp hstep
      exact ⟨hpolls.live, hpolls.timer, hpolls.polled, hpolls.single, hpolls.begun, hpolls.busy⟩
  | setMenu isOpen =>
      obtain rfl := Option.some.inj hstep
      exact ⟨hpolls.live, hpolls.timer, hpolls.polled, hpolls.single, hpolls.begun, hpolls.busy⟩
  | setDrawer isOpen =>
      obtain rfl := Option.some.inj hstep
      exact ⟨hpolls.live, hpolls.timer, hpolls.polled, hpolls.single, hpolls.begun, hpolls.busy⟩
  | showView name =>
      obtain rfl := Option.some.inj hstep
      exact hpolls.showView name
  | tick poll custom outcome =>
      rw [PageShell.step] at hstep
      split at hstep
      next hlive =>
        split at hstep
        · obtain rfl := Option.some.inj hstep
          exact hpolls
        next hskip =>
          rw [Bool.or_eq_true, not_or, Bool.not_eq_true] at hskip
          obtain rfl := Option.some.inj hstep
          exact hpolls.refresh hlive hskip.1 custom outcome
      · cases hstep
  | settle place =>
      obtain ⟨refresh, hplace, rfl⟩ := Option.map_eq_some_iff.mp hstep
      exact hpolls.settle hplace

/-- The dialog of the page is one of its parts. -/
def dialogMoves : ShellAction → List DialogAction
  | .dialog action => [action]
  | _ => []

theorem contains_dialog :
    shellMachine.Contains dialogMachine PageShell.page fun _ => dialogMoves := by
  intro shell action next hstep
  cases action with
  | dialog action =>
      obtain ⟨page, hpage, rfl⟩ := Option.map_eq_some_iff.mp hstep
      exact Machine.exec_cons_some hpage
  | setMenu isOpen =>
      obtain rfl := Option.some.inj hstep
      rfl
  | setDrawer isOpen =>
      obtain rfl := Option.some.inj hstep
      rfl
  | showView name =>
      obtain rfl := Option.some.inj hstep
      have hpage : shell.stopPolling.page = shell.page := by
        unfold stopPolling
        cases shell.pollTimer <;> rfl
      simp only [dialogMoves, Machine.exec_nil, PageShell.showView]
      split
      · exact congrArg some hpage.symm
      · exact congrArg some hpage.symm
  | tick poll custom outcome =>
      simp only [shellMachine, PageShell.step] at hstep
      split at hstep
      · split at hstep
        · obtain rfl := Option.some.inj hstep
          rfl
        · obtain rfl := Option.some.inj hstep
          obtain ⟨tick, busy, _, ⟨jobs, _, hrefresh⟩ | ⟨_, hrefresh⟩⟩ :=
            shell.refresh_cases poll custom outcome
          · rw [hrefresh]
            rfl
          · rw [hrefresh]
            rfl
      · cases hstep
  | settle place =>
      obtain ⟨refresh, hplace, rfl⟩ := Option.map_eq_some_iff.mp hstep
      simp only [dialogMoves, Machine.exec_nil, PageShell.settle]
      split <;> rfl

theorem asks_preserved : shellMachine.Preserves Machine.anyAction
    fun shell => shell.page.overlayOpen = shell.page.modalResolve.isSome :=
  contains_dialog.preserves open_iff_preserved

theorem Polls.beginsAlone (hpolls : shell.Polls)
    (hasks : shell.page.overlayOpen = shell.page.modalResolve.isSome)
    (hstep : shell.step action = some next) :
    shell.BeginsAlone action next := by
  cases action with
  | dialog action =>
      obtain ⟨page, _, rfl⟩ := Option.map_eq_some_iff.mp hstep
      exact .inl le_rfl
  | setMenu isOpen =>
      obtain rfl := Option.some.inj hstep
      exact .inl le_rfl
  | setDrawer isOpen =>
      obtain rfl := Option.some.inj hstep
      exact .inl le_rfl
  | showView name =>
      obtain rfl := Option.some.inj hstep
      have hframe := shell.stopPolling_frame.2.2.2
      refine .inl (le_of_eq (congrArg List.length ?_))
      unfold PageShell.showView
      split
      · exact hframe
      · exact hframe
  | tick poll custom outcome =>
      rw [PageShell.step] at hstep
      split at hstep
      next hlive =>
        split at hstep
        · obtain rfl := Option.some.inj hstep
          exact .inl le_rfl
        next hskip =>
          rw [Bool.or_eq_true, not_or, Bool.not_eq_true, Bool.not_eq_true] at hskip
          obtain rfl := Option.some.inj hstep
          obtain ⟨tick, busy, _, ⟨jobs, _, hrefresh⟩ | ⟨_, hrefresh⟩⟩ :=
            shell.refresh_cases poll custom outcome
          · have hclosed : shell.page.modalResolve = none := by
              have hcovered := hskip.2
              rw [covered, Bool.or_eq_false_iff, Bool.or_eq_false_iff, hasks,
                Option.isSome_eq_false_iff, Option.isNone_iff_eq_none] at hcovered
              exact hcovered.1.2
            have htimer := hpolls.timer_of_live hlive
            rw [hrefresh]
            exact .inr ⟨poll, jobs, htimer, (hpolls.timer poll htimer).2, hskip.2, hclosed,
              hpolls.notMem hskip.1, rfl⟩
          · rw [hrefresh]
            exact .inl le_rfl
      · cases hstep
  | settle place =>
      obtain ⟨refresh, hplace, rfl⟩ := Option.map_eq_some_iff.mp hstep
      left
      unfold PageShell.settle
      split
      · exact (List.eraseIdx_sublist _ _).length_le
      · exact (List.length_set ..).le

theorem polls_preserved : shellMachine.Preserves Machine.anyAction Polls :=
  fun _ _ _ hpolls _ hstep => hpolls.step hstep

end PageShell

/-- In every run of the page, whatever is shown, opened and closed and in
whatever order the refreshes end: the browser runs one interval if the view
polls and none otherwise, each interval has at most one refresh under way and
for other views than the metrics is busy just as long; and a refresh is begun by
the interval of the view which is shown, while nothing is open. -/
theorem one_refresh_at_a_time {word : List ShellAction} {last : PageShell}
    (hexec : shellMachine.exec .initial word = some last) :
    (last.live = last.pollTimer.toList ∧
        last.pollTimer.isSome = last.currentView.any AppView.polls ∧
        ∀ poll ∈ last.live, last.currentView = some (last.view poll)) ∧
      (last.refreshes.map Refresh.poll).Nodup ∧
      (∀ poll, last.view poll ≠ .metrics →
        (last.busy poll = true ↔ poll ∈ last.refreshes.map Refresh.poll)) ∧
      shellMachine.Steps PageShell.BeginsAlone .initial word := by
  have hlast : last.Polls :=
    PageShell.polls_preserved.exec_any .initial hexec
  refine ⟨⟨hlast.live, hlast.polled, fun poll hpoll => ?_⟩, hlast.single, ?_, ?_⟩
  · exact (hlast.timer poll (hlast.timer_of_live hpoll)).2
  · intro poll hview
    constructor
    · exact fun hbusy => hlast.busy poll hbusy hview
    · intro hmem
      obtain ⟨refresh, hrefresh, rfl⟩ := List.mem_map.mp hmem
      exact (hlast.begun refresh hrefresh).2
  · have hboth : shellMachine.Preserves Machine.anyAction fun shell =>
        shell.Polls ∧ shell.page.overlayOpen = shell.page.modalResolve.isSome :=
      PageShell.polls_preserved.and fun shell action next _ hasks _ hstep =>
        PageShell.asks_preserved shell action next hasks trivial hstep
    exact Machine.steps_of_admits hboth
      (fun _ _ _ hinv _ hstep => hinv.1.beginsAlone hinv.2 hstep) ⟨.initial, rfl⟩
      (Machine.admits_anyAction _ _)

/-- The dashboard is left while its refresh is under way, and come back to. -/
def sampleShell : List ShellAction :=
  [.showView .dashboard, .tick 0 false .sent, .showView .processes, .tick 1 false .sent,
    .showView .dashboard, .tick 2 false .sent, .settle 0]

theorem one_refresh_at_a_time_sampleShell :
    ∃ last, shellMachine.exec .initial sampleShell = some last ∧
      (last.refreshes.map Refresh.poll).Nodup ∧
      (last.busy 1 = true ↔ 1 ∈ last.refreshes.map Refresh.poll) := by
  obtain ⟨last, hexec, hview⟩ := Machine.exists_of_exec_map shellMachine .initial sampleShell
    (fun last => decide (last.view 1 ≠ .metrics)) (by decide)
  have hshell := one_refresh_at_a_time hexec
  exact ⟨last, hexec, hshell.2.1, hshell.2.2.1 1 (of_decide_eq_true hview)⟩

end Pm2Manager
