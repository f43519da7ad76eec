import Pm2Manager.Machine
import Pm2Manager.Paging
import Pm2Manager.Retention

/-!
# Paging through the activity log

A reader of `GET /api/activity` asks for one page after the other until the
total reported with a page is reached, while entries are recorded and pruned
between its requests.  The page and the total are taken in one handler without
an await, so each request sees one state of the table.
-/

namespace Pm2Manager

open FieldCheck ScriptText

/-- The table `activity_log` with its `AUTOINCREMENT` counter. -/
structure ActivityTable where
  rows : ActivityLog
  sequence : ℕ
  ascending : rows.Pairwise fun row other => row.id < other.id
  bounded : ∀ row ∈ rows, row.id ≤ sequence

namespace ActivityTable

/-- `activityRepository.create`. -/
def create (table : ActivityTable) (input : ActivityInput) (now : String) :
    ActivityTable where
  rows := table.rows ++ [{ input with id := table.sequence + 1, createdAt := now }]
  sequence := table.sequence + 1
  ascending := by
    rw [List.pairwise_append]
    refine ⟨table.ascending, List.pairwise_singleton .., ?_⟩
    intro row hrow other hother
    rw [List.mem_singleton.mp hother]
    exact Nat.lt_succ_of_le (table.bounded row hrow)
  bounded := by
    intro row hrow
    rcases List.mem_append.mp hrow with hold | hnew
    · exact Nat.le_succ_of_le (table.bounded row hold)
    · rw [List.mem_singleton.mp hnew]

/-- `activityRepository.deleteOlderThan`. -/
def deleteOlderThan (table : ActivityTable) (isoTimestamp : String) :
    ActivityTable where
  rows := table.rows.deleteOlderThan isoTimestamp
  sequence := table.sequence
  ascending := table.ascending.sublist List.filter_sublist
  bounded row hrow := table.bounded row (List.mem_of_mem_filter hrow)

/-- The entries a prune removes have smaller ids than those it leaves. -/
def PrunesSmallest (table : ActivityTable) (isoTimestamp : String) : Prop :=
  ∀ row ∈ table.rows, ∀ other ∈ table.rows, row.createdAt < isoTimestamp →
    ¬ other.createdAt < isoTimestamp → row.id < other.id

end ActivityTable

structure ActivityPage where
  items : List ActivityRecord
  total : ℕ
  limit : ℕ
  offset : ℕ
deriving DecidableEq, Repr

/-- `activityController.list`, on a validated query. -/
def listActivityPage (log : ActivityLog) (query : ActivityQuery) : ActivityPage where
  items := log.list query
  total := log.count query.type
  limit := query.limit
  offset := query.offset

/-- `GET /api/activity`. -/
def getActivity (log : ActivityLog) (limit offset : Option ℤ) (type : Option String) :
    Except AppError ActivityPage :=
  (activityQuerySchema limit offset type).map (listActivityPage log)

/-! ## The reader -/

structure ActivityReader where
  table : ActivityTable
  offset : ℕ
  returned : List ActivityRecord
  total : ℕ
  finished : Bool

inductive ReaderAction
  | create (input : ActivityInput) (now : String)
  | deleteOlderThan (isoTimestamp : String)
  | request
deriving DecidableEq, Repr

namespace ActivityReader

variable (limit : ℕ) (type : Option ActivityType)

def initial (table : ActivityTable) : ActivityReader where
  table := table
  offset := 0
  returned := []
  total := 0
  finished := false

/-- The reader steps on by the limit of the page, and stops where the pager
disables its button. -/
def receive (reader : ActivityReader) (page : ActivityPage) : ActivityReader :=
  { reader with
    offset := page.offset + page.limit
    returned := reader.returned ++ page.items
    total := page.total
    finished := page.total ≤ page.offset + page.limit }

def step (reader : ActivityReader) : ReaderAction → Option ActivityReader
  | .create input now => some { reader with table := reader.table.create input now }
  | .deleteOlderThan isoTimestamp =>
      some { reader with table := reader.table.deleteOlderThan isoTimestamp }
  | .request =>
      if reader.finished then none
      else
        match getActivity reader.table.rows (some limit) (some reader.offset)
            (type.map ActivityType.text) with
        | .ok page => some (reader.receive page)
        | .error _ => none

def matching (reader : ActivityReader) : List ActivityRecord :=
  (reader.table.rows.ofType type).reverse

end ActivityReader

def activityReader (limit : ℕ) (type : Option ActivityType) :
    Machine ActivityReader ReaderAction where
  step := ActivityReader.step limit type

/-- Prunes remove only the entries with the smallest ids. -/
def PrunesOldest (reader : ActivityReader) : ReaderAction → Prop
  | .deleteOlderThan isoTimestamp => reader.table.PrunesSmallest isoTimestamp
  | .create _ _ | .request => True

namespace ReaderAction

def isCreate : ReaderAction → Bool
  | .create _ _ => true
  | .deleteOlderThan _ | .request => false

def isRequest : ReaderAction → Bool
  | .request => true
  | .create _ _ | .deleteOlderThan _ => false

end ReaderAction

variable {limit : ℕ} {type : Option ActivityType}
variable {reader next last : ActivityReader} {action : ReaderAction}
variable {table : ActivityTable} {word : List ReaderAction}

/-! ## Queries -/

theorem ActivityType.ofText_text (type : ActivityType) :
    ActivityType.ofText type.text = some type := by
  cases type <;> decide

theorem activityQuerySchema_ok (hlow : 1 ≤ limit) (hhigh : limit ≤ 500) (offset : ℕ)
    (type : Option ActivityType) :
    activityQuerySchema (some limit) (some offset) (type.map ActivityType.text) =
      .ok { limit, offset, type } := by
  have hlimit : (1 : ℤ) ≤ limit := by exact_mod_cast hlow
  have hmax : (limit : ℤ) ≤ 500 := by exact_mod_cast hhigh
  cases type with
  | none => simp [activityQuerySchema, parsed, rangeIssues, hlimit, hmax]
  | some type =>
      simp [activityQuerySchema, parsed, rangeIssues, hlimit, hmax,
        ActivityType.ofText_text]

theorem getActivity_eq (hlow : 1 ≤ limit) (hhigh : limit ≤ 500)
    (reader : ActivityReader) (type : Option ActivityType) :
    getActivity reader.table.rows (some limit) (some reader.offset)
        (type.map ActivityType.text) =
      .ok {
        items := Paging.page reader.offset limit (reader.matching type)
        total := (reader.matching type).length
        limit := limit
        offset := reader.offset } := by
  rw [getActivity, activityQuerySchema_ok hlow hhigh]
  simp [Except.map, listActivityPage, ActivityLog.list, ActivityLog.count,
    ActivityReader.matching, Paging.page, hlow, hhigh]

/-! ## Steps -/

open Paging

/-- Where the removed entries are the smallest, the others end the table. -/
theorem filter_isSuffix {rows : ActivityLog} {p : ActivityRecord → Bool}
    (hascending : rows.Pairwise fun row other => row.id < other.id)
    (hsmallest : ∀ row ∈ rows, ∀ other ∈ rows, p row = false → p other = true →
      row.id < other.id) : (rows.filter p).IsSuffix rows := by
  induction rows with
  | nil => exact List.suffix_rfl
  | cons row rest ih =>
      rw [List.pairwise_cons] at hascending
      cases hrow : p row with
      | true =>
          have hkept : rest.filter p = rest := by
            rw [List.filter_eq_self]
            intro other hother
            by_contra hremoved
            have hless := hsmallest other (List.mem_cons_of_mem _ hother) row
              List.mem_cons_self (Bool.eq_false_iff.mpr hremoved) hrow
            exact absurd (hascending.1 other hother) (by omega)
          rw [List.filter_cons_of_pos hrow, hkept]
      | false =>
          rw [List.filter_cons_of_neg (by simp [hrow])]
          refine (ih hascending.2 fun first hfirst other hother => ?_).trans
            (List.suffix_cons row rest)
          exact hsmallest first (List.mem_cons_of_mem _ hfirst) other
            (List.mem_cons_of_mem _ hother)

theorem nodup_matching (reader : ActivityReader) (type : Option ActivityType) :
    (reader.matching type).Nodup := by
  have hrows : reader.table.rows.Nodup :=
    reader.table.ascending.imp fun hless heq => absurd hless (by simp [heq])
  exact List.nodup_reverse.mpr (hrows.sublist List.filter_sublist)

/-- The records in the order of the pages are those of the table, filtered. -/
theorem matching_eq (reader : ActivityReader) (type : Option ActivityType) :
    reader.matching type = reader.table.rows.reverse.filter fun row =>
      type.all fun type => row.type = type := by
  rw [ActivityReader.matching, ActivityLog.ofType, List.filter_reverse]

theorem moved_create (table : ActivityTable) (input : ActivityInput) (now : String) :
    Moved table.rows.reverse (table.create input now).rows.reverse := by
  simp only [ActivityTable.create, List.reverse_append, List.reverse_singleton,
    List.singleton_append]
  refine moved_cons fun hold => ?_
  have hbound := table.bounded _ (List.mem_reverse.mp hold)
  simp at hbound

theorem moved_deleteOlderThan {isoTimestamp : String}
    (hsmallest : table.PrunesSmallest isoTimestamp) :
    Moved table.rows.reverse (table.deleteOlderThan isoTimestamp).rows.reverse := by
  refine moved_of_prefix (List.reverse_prefix.mpr ?_)
  refine filter_isSuffix table.ascending fun row hrow other hother hremoved hkept => ?_
  exact hsmallest row hrow other hother (by simpa using hremoved) (by simpa using hkept)

/-- A step changes the table, or it is a request which takes the next page. -/
theorem reader_step_cases (hlow : 1 ≤ limit) (hhigh : limit ≤ 500)
    (hstep : (activityReader limit type).step reader action = some next) :
    (action.isRequest = false ∧ next = { reader with table := next.table } ∧
        (PrunesOldest reader action →
          Moved (reader.matching type) (next.matching type))) ∨
      (action = .request ∧ reader.finished = false ∧
        next = reader.receive {
          items := page reader.offset limit (reader.matching type)
          total := (reader.matching type).length
          limit := limit
          offset := reader.offset }) := by
  cases action with
  | create input now =>
      refine .inl ⟨rfl, ?_, fun _ => ?_⟩
      · rw [← Option.some.inj hstep]
      · rw [← Option.some.inj hstep, matching_eq, matching_eq]
        exact (moved_create reader.table input now).filter _
  | deleteOlderThan isoTimestamp =>
      refine .inl ⟨rfl, ?_, fun hsmallest => ?_⟩
      · rw [← Option.some.inj hstep]
      · rw [← Option.some.inj hstep, matching_eq, matching_eq]
        exact (moved_deleteOlderThan hsmallest).filter _
  | request =>
      simp only [activityReader, ActivityReader.step, getActivity_eq hlow hhigh] at hstep
      split at hstep
      · simp at hstep
      next hunfinished =>
        exact .inr ⟨rfl, Bool.eq_false_iff.mpr hunfinished, (Option.some.inj hstep).symm⟩

/-! ## Records which stay -/

/-- The record has been returned, or the reader has still to come to it. -/
def SeenOrAhead (row : ActivityRecord) (type : Option ActivityType)
    (reader : ActivityReader) : Prop :=
  row ∈ reader.returned ∨
    reader.finished = false ∧ row ∈ (reader.matching type).drop reader.offset

variable {row : ActivityRecord}

theorem seenOrAhead_step (hlow : 1 ≤ limit) (hhigh : limit ≤ 500)
    (hseen : SeenOrAhead row type reader) (hprunes : PrunesOldest reader action)
    (hstep : (activityReader limit type).step reader action = some next)
    (hpresent : row ∈ next.matching type) : SeenOrAhead row type next := by
  rcases reader_step_cases hlow hhigh hstep with
    ⟨_, hnext, hmoved⟩ | ⟨_, hunfinished, hnext⟩
  · rcases hseen with hreturned | ⟨hunfinished, hahead⟩
    · refine .inl ?_
      rw [hnext]
      exact hreturned
    · refine .inr ⟨?_, ?_⟩
      · rw [hnext]
        exact hunfinished
      · have hbehind := (hmoved hprunes).mem_drop (nodup_matching reader type) hahead
          hpresent
        rw [hnext]
        exact hbehind
  · subst hnext
    rcases hseen with hreturned | ⟨_, hahead⟩
    · exact .inl (List.mem_append_left _ hreturned)
    · rcases mem_page_or limit hahead with hpage | hbehind
      · exact .inl (List.mem_append_right _ hpage)
      · refine .inr ⟨?_, hbehind⟩
        have hlength := List.length_pos_of_mem hbehind
        rw [List.length_drop] at hlength
        simp only [ActivityReader.receive, decide_eq_false_iff_not]
        omega

theorem seenOrAhead_exec (hlow : 1 ≤ limit) (hhigh : limit ≤ 500)
    (hseen : SeenOrAhead row type reader)
    (hprunes : (activityReader limit type).Admits PrunesOldest reader word)
    (hpresent : (activityReader limit type).Along
      (fun reader => row ∈ reader.matching type) reader word)
    (hexec : (activityReader limit type).exec reader word = some last) :
    SeenOrAhead row type last := by
  induction word generalizing reader with
  | nil =>
      rw [Machine.exec_nil, Option.some.injEq] at hexec
      exact hexec ▸ hseen
  | cons action rest ih =>
      obtain ⟨next, hstep, hrest⟩ := Machine.exec_cons_inv hexec
      have hlater := hpresent.tail hstep
      exact ih (seenOrAhead_step hlow hhigh hseen hprunes.1 hstep hlater.head)
        (hprunes.2 next hstep) hlater hrest

/-! ## A table which stays -/

/-- The pages so far are the front of the table. -/
structure ReadsFront (table : ActivityTable) (type : Option ActivityType)
    (reader : ActivityReader) : Prop where
  table : reader.table = table
  returned : reader.returned = (reader.matching type).take reader.offset
  total : reader.finished = true → reader.total = (reader.matching type).length ∧
    reader.total ≤ reader.offset

theorem readsFront_preserved (hlow : 1 ≤ limit) (hhigh : limit ≤ 500) :
    (activityReader limit type).Preserves (fun _ action => action = .request)
      (ReadsFront table type) := by
  intro reader action next hfront hrequest hstep
  rcases reader_step_cases hlow hhigh hstep with ⟨hother, _, _⟩ | ⟨_, _, rfl⟩
  · rw [hrequest] at hother
    simp [ReaderAction.isRequest] at hother
  · refine ⟨hfront.table, ?_, fun hfinished => ⟨rfl, ?_⟩⟩
    · simp only [ActivityReader.receive, hfront.returned]
      exact take_append_page reader.offset limit _
    · simpa [ActivityReader.receive] using hfinished

theorem admits_requests (reader : ActivityReader)
    (hrequests : ∀ action ∈ word, action = .request) :
    (activityReader limit type).Admits (fun _ action => action = .request) reader
      word := by
  induction word generalizing reader with
  | nil => trivial
  | cons action rest ih =>
      rw [List.forall_mem_cons] at hrequests
      exact ⟨hrequests.1, fun next _ => ih next hrequests.2⟩

theorem descending_matching (reader : ActivityReader) (type : Option ActivityType) :
    (reader.matching type).Pairwise fun row other => other.id < row.id := by
  rw [ActivityReader.matching, List.pairwise_reverse]
  exact reader.table.ascending.sublist List.filter_sublist

/-! ## How many requests there are -/

theorem length_matching_le (reader : ActivityReader) (type : Option ActivityType) :
    (reader.matching type).length ≤ reader.table.rows.length := by
  rw [ActivityReader.matching, List.length_reverse]
  exact List.length_filter_le _ _

theorem step_counts (hlow : 1 ≤ limit) (hhigh : limit ≤ 500)
    (hstep : (activityReader limit type).step reader action = some next) :
    next.offset = reader.offset + (if action.isRequest then limit else 0) ∧
      next.table.rows.length ≤
        reader.table.rows.length + (if action.isCreate then 1 else 0) ∧
      (next.finished = false → reader.finished = false ∧
        (action.isRequest = true → next.offset ≤ next.table.rows.length)) := by
  cases action with
  | create input now =>
      rw [← Option.some.inj hstep]
      refine ⟨rfl, ?_, fun hunfinished => ⟨hunfinished, fun hrequest => ?_⟩⟩
      · simp [ActivityTable.create, ReaderAction.isCreate]
      · simp [ReaderAction.isRequest] at hrequest
  | deleteOlderThan isoTimestamp =>
      rw [← Option.some.inj hstep]
      refine ⟨rfl, ?_, fun hunfinished => ⟨hunfinished, fun hrequest => ?_⟩⟩
      · exact List.length_filter_le _ _
      · simp [ReaderAction.isRequest] at hrequest
  | request =>
      rcases reader_step_cases hlow hhigh hstep with ⟨hother, _, _⟩ | ⟨_, hunfinished, rfl⟩
      · simp [ReaderAction.isRequest] at hother
      · refine ⟨rfl, le_rfl, fun hnext => ⟨hunfinished, fun _ => ?_⟩⟩
        have hlength := length_matching_le reader type
        simp only [ActivityReader.receive, decide_eq_false_iff_not, not_le] at hnext ⊢
        omega

/-- The offset advances with every request, and an unfinished reader has not
come further than the table has ever been long. -/
theorem requests_exec (hlow : 1 ≤ limit) (hhigh : limit ≤ 500)
    (hexec : (activityReader limit type).exec reader word = some last) :
    last.offset = reader.offset + word.countP ReaderAction.isRequest * limit ∧
      (last.finished = false → reader.finished = false ∧
        last.offset ≤ max reader.offset
          (reader.table.rows.length + word.countP ReaderAction.isCreate)) := by
  induction word generalizing reader with
  | nil =>
      rw [Machine.exec_nil, Option.some.injEq] at hexec
      subst hexec
      simp
  | cons action rest ih =>
      obtain ⟨next, hstep, hrest⟩ := Machine.exec_cons_inv hexec
      obtain ⟨hoffset, hbound⟩ := ih hrest
      obtain ⟨hnextOffset, hrows, hnextBound⟩ := step_counts hlow hhigh hstep
      have hrequests : (action :: rest).countP ReaderAction.isRequest * limit =
          rest.countP ReaderAction.isRequest * limit +
            (if action.isRequest then limit else 0) := by
        rw [List.countP_cons]
        split <;> ring
      rw [hrequests, List.countP_cons]
      refine ⟨by omega, fun hunfinished => ?_⟩
      obtain ⟨hnextUnfinished, hlast⟩ := hbound hunfinished
      obtain ⟨hreader, hrequest⟩ := hnextBound hnextUnfinished
      refine ⟨hreader, ?_⟩
      cases haction : action.isRequest with
      | true =>
          have hnextRows := hrequest haction
          omega
      | false =>
          simp only [haction, Bool.false_eq_true, if_false] at hnextOffset
          omega

theorem request_possible (hlow : 1 ≤ limit) (hhigh : limit ≤ 500)
    (hunfinished : reader.finished = false) :
    ∃ next, (activityReader limit type).step reader .request = some next := by
  simp [activityReader, ActivityReader.step, hunfinished, getActivity_eq hlow hhigh]

/-! ## Whole readings -/

/-- A reading which ends has returned every record which has stayed in the
table; over a table which stays it is the table, the newest record first; and
a reading which has not ended goes on, for as many requests as there are rows. -/
theorem activity_pages (hlow : 1 ≤ limit) (hhigh : limit ≤ 500)
    (hexec : (activityReader limit type).exec (.initial table) word = some last) :
    ((activityReader limit type).Admits PrunesOldest (.initial table) word →
        last.finished = true →
        ∀ row, (activityReader limit type).Along
            (fun reader => row ∈ reader.matching type) (.initial table) word →
          row ∈ last.returned) ∧
      ((∀ action ∈ word, action = .request) → last.finished = true →
        last.returned = (table.rows.ofType type).reverse ∧
          last.returned.Pairwise (fun row other => other.id < row.id) ∧
          last.total = last.returned.length) ∧
      (last.finished = false →
        word.countP ReaderAction.isRequest * limit ≤
            table.rows.length + word.countP ReaderAction.isCreate ∧
          ∃ next, (activityReader limit type).step last .request = some next) := by
  refine ⟨?_, ?_, ?_⟩
  · intro hprunes hfinished row hpresent
    have hstart : SeenOrAhead row type (.initial table) :=
      .inr ⟨rfl, by simpa [ActivityReader.initial] using hpresent.head⟩
    rcases seenOrAhead_exec hlow hhigh hstart hprunes hpresent hexec with
      hreturned | ⟨hunfinished, _⟩
    · exact hreturned
    · simp [hfinished] at hunfinished
  · intro hrequests hfinished
    have hstart : ReadsFront table type (.initial table) :=
      ⟨rfl, by simp [ActivityReader.initial], by simp [ActivityReader.initial]⟩
    have hfront := (readsFront_preserved hlow hhigh).exec hstart
      (admits_requests _ hrequests) hexec
    obtain ⟨htotal, hreached⟩ := hfront.total hfinished
    have hall : last.returned = last.matching type := by
      rw [hfront.returned, List.take_of_length_le (htotal ▸ hreached)]
    refine ⟨?_, ?_, ?_⟩
    · rw [hall, ActivityReader.matching, hfront.table]
    · rw [hall]
      exact descending_matching last type
    · rw [htotal, hall]
  · intro hunfinished
    obtain ⟨hoffset, hbound⟩ := requests_exec hlow hhigh hexec
    have hlength := (hbound hunfinished).2
    simp only [ActivityReader.initial, Nat.zero_add, Nat.zero_max] at hoffset hlength
    exact ⟨hoffset ▸ hlength, request_possible hlow hhigh hunfinished⟩

def entry (id : ℕ) : ActivityRecord where
  type := .logout
  message := "Signed out"
  username := none
  ipAddress := none
  id := id
  createdAt := "2026-01-01 00:00:00"

def threeEntries : ActivityTable where
  rows := [entry 1, entry 2, entry 3]
  sequence := 3
  ascending := by decide
  bounded := by decide

theorem threeEntries_pages :
    ∃ last, (activityReader 2 none).exec (.initial threeEntries)
        [.request, .request] = some last ∧
      last.returned = [entry 3, entry 2, entry 1] ∧ last.total = 3 := by
  obtain ⟨last, hexec, hfinished⟩ := Machine.exists_of_exec_map (activityReader 2 none)
    (.initial threeEntries) [.request, .request] (·.finished) (by decide)
  have hlow : 1 ≤ 2 := by decide
  have hhigh : 2 ≤ 500 := by decide
  obtain ⟨_, hstays, _⟩ := activity_pages hlow hhigh hexec
  obtain ⟨hreturned, _, htotal⟩ := hstays (by simp) hfinished
  rw [hreturned] at htotal
  exact ⟨last, hexec, hreturned, htotal⟩

end Pm2Manager
