import Mathlib.Data.List.Infix
import Mathlib.Data.Rat.Defs
import Mathlib.Algebra.Order.Ring.Rat
import Mathlib.Tactic.Linarith
import Pm2Manager.JsonText
import Pm2Manager.Pm2Service
import Pm2Manager.StableSort

/-!
# The processes on the screen

The service lists the processes by their ids, the dashboard counts them by
their status, and the table of the client shows those which pass its filter in
the order of a column.  What compares equal there stays in the order of the
ids, upwards and downwards.
-/

namespace Pm2Manager

open JsonText (Text)
open StableSort

/-! ## The service -/

/-- PM2's description with what it measures. -/
structure MeasuredDescription extends ProcessDescription where
  cpu : Option ℚ
  memory : Option ℚ
  pmUptime : Option ℚ
  restartTime : Option ℚ

structure ProcessRow extends ProcessSummary where
  cpu : ℚ
  memory : ℚ
  uptime : ℚ
  restartCount : ℚ
deriving DecidableEq

def toProcessRow (now : ℚ) (desc : MeasuredDescription) : ProcessRow :=
  let summary := toProcessSummary desc.toProcessDescription
  { summary with
    cpu := desc.cpu.getD 0
    memory := desc.memory.getD 0
    uptime := match desc.pmUptime with
      | some pmUptime =>
          if summary.status = .online ∧ pmUptime ≠ 0 then max 0 (now - pmUptime) else 0
      | none => 0
    restartCount := desc.restartTime.getD 0 }

/-- What `sort` makes of the number a comparator returns. -/
def bySign (difference : ℚ) : Ordering :=
  if difference < 0 then .lt else if 0 < difference then .gt else .eq

/-- `list`. -/
def processRows (now : ℚ) (list : List MeasuredDescription) : List ProcessRow :=
  sortBy (fun a b => bySign (a.pmId - b.pmId)) (list.map (toProcessRow now))

/-- The counts of `getSummary`. -/
structure ProcessCounts where
  totalProcesses : ℕ
  onlineProcesses : ℕ
  stoppedProcesses : ℕ
  erroredProcesses : ℕ
deriving DecidableEq, Repr

def processCounts (processes : List ProcessRow) : ProcessCounts where
  totalProcesses := processes.length
  onlineProcesses := (processes.filter fun p => p.status = .online).length
  stoppedProcesses := (processes.filter fun p => p.status = .stopped).length
  erroredProcesses := (processes.filter fun p => p.status = .errored).length

/-! ## The table -/

inductive StatusClass
  | online
  | errored
  | launching
  | stopped
deriving DecidableEq, Repr

def statusClass : ProcessStatus → StatusClass
  | .online => .online
  | .errored => .errored
  | .launching | .stopping | .oneLaunchStatus => .launching
  | _ => .stopped

def ProcessStatus.text : ProcessStatus → String
  | .online => "online"
  | .stopping => "stopping"
  | .stopped => "stopped"
  | .launching => "launching"
  | .errored => "errored"
  | .oneLaunchStatus => "one-launch-status"
  | .unknown => "unknown"
  | .other text => text

/-- `none` is the button "All". -/
structure ProcessFilter where
  search : String
  status : Option StatusClass

inductive SortKey
  | name
  | status
  | cpu
  | memory
  | uptime
  | restartCount
deriving DecidableEq, Repr

structure ProcessSort where
  key : SortKey
  ascending : Bool
deriving DecidableEq, Repr

section Table

-- the code units of the text in lower case
variable (toLowerCase : String → Text)

def ProcessFilter.passes (filter : ProcessFilter) (p : ProcessRow) : Bool :=
  let s := toLowerCase filter.search
  if filter.status.any fun status => statusClass p.status ≠ status then false
  else if s ≠ [] ∧ ¬ s <:+: toLowerCase p.name then false
  else true

/-- The factor `dir`. -/
def ProcessSort.dir (sort : ProcessSort) : ℚ :=
  if sort.ascending then 1 else -1

def compareTexts (dir : ℚ) (av bv : Text) : ℚ :=
  if av < bv then -dir else if bv < av then dir else 0

/-- The comparator of `sortedFiltered`. -/
def ProcessSort.difference (sort : ProcessSort) (a b : ProcessRow) : ℚ :=
  match sort.key with
  | .name => compareTexts sort.dir (toLowerCase a.name) (toLowerCase b.name)
  | .status =>
      compareTexts sort.dir (toLowerCase a.status.text) (toLowerCase b.status.text)
  | .cpu => (a.cpu - b.cpu) * sort.dir
  | .memory => (a.memory - b.memory) * sort.dir
  | .uptime => (a.uptime - b.uptime) * sort.dir
  | .restartCount => (a.restartCount - b.restartCount) * sort.dir

def ProcessSort.compare (sort : ProcessSort) (a b : ProcessRow) : Ordering :=
  bySign (sort.difference toLowerCase a b)

def sortedFiltered (processes : List ProcessRow) (filter : ProcessFilter)
    (sort : ProcessSort) : List ProcessRow :=
  sortBy (sort.compare toLowerCase) (processes.filter (filter.passes toLowerCase))

end Table

/-! ## Comparators -/

theorem bySign_neg (x : ℚ) : bySign (-x) = (bySign x).swap := by
  unfold bySign
  rcases lt_trichotomy x 0 with hx | rfl | hx
  · rw [if_neg (by linarith), if_pos (by linarith), if_pos hx]
    rfl
  · simp
  · rw [if_pos (by linarith), if_neg (by linarith), if_pos hx]
    rfl

theorem bySign_isLE {x : ℚ} : (bySign x).isLE ↔ x ≤ 0 := by
  unfold bySign
  rcases lt_trichotomy x 0 with hx | rfl | hx
  · simp [hx, hx.le]
  · simp
  · simp [hx.not_gt, hx]

theorem bySign_eq {x : ℚ} : bySign x = .eq ↔ x = 0 := by
  unfold bySign
  rcases lt_trichotomy x 0 with hx | rfl | hx
  · simp [hx, hx.ne]
  · simp
  · simp [hx.not_gt, hx, hx.ne']

/-- A difference which is antisymmetric, and whose sign is transitive, orders. -/
theorem transCmp_bySign {α : Type*} {difference : α → α → ℚ}
    (hantisymm : ∀ a b, difference a b = -difference b a)
    (htrans : ∀ a b c, difference a b ≤ 0 → difference b c ≤ 0 → difference a c ≤ 0) :
    Std.TransCmp fun a b => bySign (difference a b) where
  eq_swap {a b} := by
    rw [hantisymm, bySign_neg]
  isLE_trans {a b c} hab hbc :=
    bySign_isLE.mpr (htrans a b c (bySign_isLE.mp hab) (bySign_isLE.mp hbc))

instance transCmp_pmId :
    Std.TransCmp fun a b : ProcessRow => bySign ((a.pmId : ℚ) - b.pmId) :=
  transCmp_bySign (fun _ _ => (neg_sub _ _).symm) fun _ _ _ hab hbc => by linarith

section

variable {toLowerCase : String → Text} {processes rows : List ProcessRow}
variable {filter : ProcessFilter} {sort : ProcessSort}

theorem ProcessSort.dir_cases (sort : ProcessSort) : sort.dir = 1 ∨ sort.dir = -1 := by
  cases hascending : sort.ascending <;> simp [ProcessSort.dir, hascending]

theorem compareTexts_antisymm (dir : ℚ) (av bv : Text) :
    compareTexts dir av bv = -compareTexts dir bv av := by
  unfold compareTexts
  by_cases hless : av < bv
  · simp [hless, List.lt_asymm hless]
  · by_cases hgreater : bv < av <;> simp [hless, hgreater]

theorem compareTexts_up {av bv : Text} : compareTexts 1 av bv ≤ 0 ↔ av ≤ bv := by
  rw [← List.not_lt]
  unfold compareTexts
  by_cases hless : av < bv
  · simp [hless, List.lt_asymm hless]
  · by_cases hgreater : bv < av <;> simp [hless, hgreater]

theorem compareTexts_down {av bv : Text} : compareTexts (-1) av bv ≤ 0 ↔ bv ≤ av := by
  rw [← List.not_lt]
  unfold compareTexts
  by_cases hless : av < bv
  · simp [hless]
  · by_cases hgreater : bv < av <;> simp [hless, hgreater]

theorem compareTexts_trans {dir : ℚ} (hdir : dir = 1 ∨ dir = -1) {av bv cv : Text}
    (hab : compareTexts dir av bv ≤ 0) (hbc : compareTexts dir bv cv ≤ 0) :
    compareTexts dir av cv ≤ 0 := by
  rcases hdir with rfl | rfl
  · rw [compareTexts_up] at hab hbc ⊢
    exact List.le_trans hab hbc
  · rw [compareTexts_down] at hab hbc ⊢
    exact List.le_trans hbc hab

theorem compareNumbers_trans {dir : ℚ} (hdir : dir = 1 ∨ dir = -1) {av bv cv : ℚ}
    (hab : (av - bv) * dir ≤ 0) (hbc : (bv - cv) * dir ≤ 0) : (av - cv) * dir ≤ 0 := by
  rcases hdir with rfl | rfl <;> linarith

theorem compareNumbers_antisymm (dir av bv : ℚ) :
    (av - bv) * dir = -((bv - av) * dir) := by
  rw [← neg_mul, neg_sub]

instance ProcessSort.transCmp (sort : ProcessSort) :
    Std.TransCmp (sort.compare toLowerCase) := by
  refine transCmp_bySign (fun a b => ?_) fun a b c hab hbc => ?_
  · unfold ProcessSort.difference
    cases sort.key with
    | name | status => exact compareTexts_antisymm _ _ _
    | cpu | memory | uptime | restartCount => exact compareNumbers_antisymm _ _ _
  · unfold ProcessSort.difference at *
    cases hkey : sort.key <;> simp only [hkey] at *
    case name | status => exact compareTexts_trans sort.dir_cases hab hbc
    all_goals exact compareNumbers_trans sort.dir_cases hab hbc

/-! ## What is shown -/

theorem pairwise_processRows (now : ℚ) (list : List MeasuredDescription) :
    (processRows now list).Pairwise fun a b => a.pmId ≤ b.pmId := by
  refine (ordered_sortBy (list.map (toProcessRow now))).imp fun {a b} hle => ?_
  have hsign := bySign_isLE.mp hle
  exact_mod_cast sub_nonpos.mp hsign

/-- The number of rows under a button, nothing being searched for. -/
def shownUnder (toLowerCase : String → Text) (processes : List ProcessRow)
    (sort : ProcessSort) (status : Option StatusClass) : ℕ :=
  (sortedFiltered toLowerCase processes { search := "", status } sort).length

theorem shownUnder_none (hempty : toLowerCase "" = []) :
    shownUnder toLowerCase processes sort none = processes.length := by
  have hpasses : ∀ p, ProcessFilter.passes toLowerCase { search := "", status := none } p =
      true := by
    intro p
    simp [ProcessFilter.passes, hempty]
  rw [shownUnder, sortedFiltered, (isStableSort_sortBy _).perm.length_eq,
    List.filter_eq_self.mpr fun p _ => hpasses p]

theorem shownUnder_some (hempty : toLowerCase "" = []) (status : StatusClass) :
    shownUnder toLowerCase processes sort (some status) =
      processes.countP fun p => statusClass p.status = status := by
  have hpasses : ProcessFilter.passes toLowerCase { search := "", status := some status } =
      fun p => decide (statusClass p.status = status) := by
    funext p
    by_cases hstatus : statusClass p.status = status <;>
      simp [ProcessFilter.passes, hempty, hstatus]
  rw [shownUnder, sortedFiltered, (isStableSort_sortBy _).perm.length_eq, hpasses,
    List.countP_eq_length_filter]

theorem statusClass_online {status : ProcessStatus} :
    statusClass status = .online ↔ status = .online := by
  cases status <;> simp [statusClass]

theorem statusClass_errored {status : ProcessStatus} :
    statusClass status = .errored ↔ status = .errored := by
  cases status <;> simp [statusClass]

/-- Every process is under one of four buttons, of which the page has three. -/
theorem countP_classes (processes : List ProcessRow) :
    processes.countP (fun p => statusClass p.status = .online) +
          processes.countP (fun p => statusClass p.status = .errored) +
        processes.countP (fun p => statusClass p.status = .launching) +
      processes.countP (fun p => statusClass p.status = .stopped) = processes.length := by
  induction processes with
  | nil => rfl
  | cons p rest ih =>
      simp only [List.countP_cons, List.length_cons]
      cases statusClass p.status <;> simp <;> omega

/-- The tile "Stopped" counts what is stopped, the button shows whatever has no
button of its own. -/
theorem countP_stopped (processes : List ProcessRow) :
    processes.countP (fun p => p.status = .stopped) ≤
        processes.countP (fun p => statusClass p.status = .stopped) ∧
      (processes.countP (fun p => p.status = .stopped) =
          processes.countP (fun p => statusClass p.status = .stopped) ↔
        ∀ p ∈ processes, statusClass p.status = .stopped → p.status = .stopped) := by
  induction processes with
  | nil => simp
  | cons p rest ih =>
      obtain ⟨hle, hiff⟩ := ih
      by_cases hstopped : p.status = .stopped
      · have hclass : statusClass .stopped = .stopped := rfl
        simp [hstopped, hclass, hle, ← hiff]
      · by_cases hclass : statusClass p.status = .stopped
        · simp only [List.countP_cons, hstopped, hclass, decide_true, decide_false,
            if_true, Bool.false_eq_true, if_false, List.forall_mem_cons]
          refine ⟨by omega, ⟨fun heq => ?_, fun hall => (hall.1 trivial).elim⟩⟩
          omega
        · simp [hstopped, hclass, hle, hiff]

/-- PM2's order does not matter to rows with different ids. -/
theorem processRows_perm {now : ℚ} {list other : List MeasuredDescription}
    (hperm : other.Perm list)
    (hids : ((list.map (toProcessRow now)).map fun p => p.pmId).Nodup) :
    processRows now other = processRows now list := by
  refine sortBy_perm (hperm.map _) ?_
  refine (List.pairwise_map.mp hids).imp fun {a b} hne heq => hne ?_
  have hdifference : (a.pmId : ℚ) - b.pmId = 0 := bySign_eq.mp heq
  exact_mod_cast sub_eq_zero.mp hdifference

/-- The table shows the processes which pass the filter, each as often as PM2
reports it, in the order of the column and then of the ids, in both directions
of the column; with different ids, whatever order PM2 reports them in. -/
theorem process_table_order (toLowerCase : String → Text) (now : ℚ)
    (list : List MeasuredDescription) (filter : ProcessFilter) (sort : ProcessSort) :
    (sortedFiltered toLowerCase (processRows now list) filter sort).Perm
        ((list.map (toProcessRow now)).filter (filter.passes toLowerCase)) ∧
      (sortedFiltered toLowerCase (processRows now list) filter sort).Pairwise (fun a b =>
        sort.compare toLowerCase a b = .lt ∨
          sort.compare toLowerCase a b = .eq ∧ a.pmId ≤ b.pmId) ∧
      ∀ other : List MeasuredDescription, other.Perm list →
        ((list.map (toProcessRow now)).map fun p => p.pmId).Nodup →
        sortedFiltered toLowerCase (processRows now other) filter sort =
          sortedFiltered toLowerCase (processRows now list) filter sort := by
  have hsorted : IsStableSort (sort.compare toLowerCase)
      ((processRows now list).filter (filter.passes toLowerCase)) _ :=
    isStableSort_sortBy _
  have hrows : (processRows now list).Perm (list.map (toProcessRow now)) :=
    (isStableSort_sortBy _).perm
  refine ⟨?_, ?_, ?_⟩
  · exact hsorted.perm.trans (hrows.filter _)
  · exact hsorted.pairwise (fun a => Std.ReflCmp.compare_self)
      ((pairwise_processRows now list).filter _)
  · intro other hperm hids
    rw [processRows_perm hperm hids]

/-- For the same list the tiles of the dashboard and the buttons of the table
agree on the processes which are online and errored; "Stopped" agrees exactly
if PM2 reports no other status of that class. -/
theorem tiles_agree (hempty : toLowerCase "" = []) :
    shownUnder toLowerCase processes sort none = (processCounts processes).totalProcesses ∧
      shownUnder toLowerCase processes sort (some .online) =
        (processCounts processes).onlineProcesses ∧
      shownUnder toLowerCase processes sort (some .errored) =
        (processCounts processes).erroredProcesses ∧
      ((processCounts processes).stoppedProcesses =
          shownUnder toLowerCase processes sort (some .stopped) ↔
        ∀ p ∈ processes, statusClass p.status = .stopped → p.status = .stopped) ∧
      (processCounts processes).onlineProcesses +
            (processCounts processes).erroredProcesses +
          processes.countP (fun p => statusClass p.status = .launching) +
        shownUnder toLowerCase processes sort (some .stopped) =
          (processCounts processes).totalProcesses := by
  have honline : (processCounts processes).onlineProcesses =
      processes.countP fun p => statusClass p.status = .online := by
    simp only [processCounts, ← List.countP_eq_length_filter, statusClass_online]
  have herrored : (processCounts processes).erroredProcesses =
      processes.countP fun p => statusClass p.status = .errored := by
    simp only [processCounts, ← List.countP_eq_length_filter, statusClass_errored]
  have hstopped : (processCounts processes).stoppedProcesses =
      processes.countP fun p => p.status = .stopped := by
    simp only [processCounts, ← List.countP_eq_length_filter]
  rw [honline, herrored, hstopped, shownUnder_none hempty, shownUnder_some hempty,
    shownUnder_some hempty, shownUnder_some hempty]
  exact ⟨rfl, rfl, rfl, (countP_stopped processes).2, countP_classes processes⟩

end

end Pm2Manager
