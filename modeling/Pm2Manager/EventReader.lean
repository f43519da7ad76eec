import Pm2Manager.EventStream

/-!
# Event streams as they arrive

A reader which is given one unit after the other and dispatches an event as soon
as its empty line ends.  What it dispatches is what `events` finds in the text,
and of a text which is one event or one comment nothing is dispatched before the
last unit.
-/

namespace EventStream

open JsonText (Text ascii)

/-- `atStart` until the first unit, which may be a byte order mark. -/
structure Reader where
  line : Text
  afterCr : Bool
  buffers : Buffers
  atStart : Bool

namespace Reader

def idle (lastEventId : Text) : Reader where
  line := []
  afterCr := false
  buffers := EventStream.idle lastEventId
  atStart := false

def start : Reader :=
  { idle [] with atStart := true }

def endLine (reader : Reader) (afterCr : Bool) : Reader × Option Event :=
  match reader.line with
  | [] =>
      ({ reader with
          afterCr := afterCr
          buffers := EventStream.idle reader.buffers.lastEventId },
        dispatch reader.buffers)
  | u :: line =>
      ({ reader with
          line := []
          afterCr := afterCr
          buffers := processLine reader.buffers (u :: line) },
        none)

def readUnit (reader : Reader) (u : UInt16) : Reader × Option Event :=
  if u = 10 then
    if reader.afterCr then ({ reader with afterCr := false }, none)
    else reader.endLine false
  else if u = 13 then reader.endLine true
  else ({ reader with line := reader.line ++ [u], afterCr := false }, none)

def read (reader : Reader) (u : UInt16) : Reader × Option Event :=
  if reader.atStart = true ∧ u = 0xFEFF then ({ reader with atStart := false }, none)
  else { reader with atStart := false }.readUnit u

def feed (reader : Reader) : Text → Reader
  | [] => reader
  | u :: rest => feed (reader.read u).1 rest

def emitted (reader : Reader) : Text → List Event
  | [] => []
  | u :: rest => (reader.read u).2.toList ++ emitted (reader.read u).1 rest

variable {reader : Reader} {u : UInt16} {front back line text : Text}

/-! ## Units one by one -/

theorem feed_append (reader : Reader) (front back : Text) :
    reader.feed (front ++ back) = (reader.feed front).feed back := by
  induction front generalizing reader with
  | nil => rfl
  | cons u rest ih => exact ih (reader.read u).1

theorem emitted_append (reader : Reader) (front back : Text) :
    reader.emitted (front ++ back) = reader.emitted front ++ (reader.feed front).emitted back := by
  induction front generalizing reader with
  | nil => rfl
  | cons u rest ih =>
      rw [List.cons_append, emitted, emitted, ih, List.append_assoc]
      rfl

theorem emitted_singleton (reader : Reader) (u : UInt16) :
    reader.emitted [u] = (reader.read u).2.toList :=
  List.append_nil _

theorem read_of_begun (hbegun : reader.atStart = false) (u : UInt16) :
    reader.read u = reader.readUnit u := by
  obtain ⟨line, afterCr, buffers, atStart⟩ := reader
  subst hbegun
  exact if_neg (by simp)

theorem readUnit_atStart (reader : Reader) (u : UInt16) :
    (reader.readUnit u).1.atStart = reader.atStart := by
  unfold readUnit endLine
  split <;> split <;> try split
  all_goals rfl

theorem read_begun (reader : Reader) (u : UInt16) : (reader.read u).1.atStart = false := by
  unfold read
  split
  · rfl
  · exact readUnit_atStart _ u

/-- The end of a line does what `run` does with the line. -/
theorem endLine_run (reader : Reader) (afterCr : Bool) (lines : List Text) :
    (reader.endLine afterCr).2.toList ++ run (reader.endLine afterCr).1.buffers lines =
      run reader.buffers (reader.line :: lines) := by
  unfold endLine
  cases hline : reader.line with
  | nil => rfl
  | cons u line => rfl

theorem endLine_line (reader : Reader) (afterCr : Bool) :
    (reader.endLine afterCr).1.line = [] ∧ (reader.endLine afterCr).1.afterCr = afterCr := by
  unfold endLine
  cases hline : reader.line with
  | nil => exact ⟨rfl, rfl⟩
  | cons u line => exact ⟨rfl, rfl⟩

theorem emitted_eq (hbegun : reader.atStart = false) (text : Text) :
    reader.emitted text = run reader.buffers (splitLines reader.line reader.afterCr text) := by
  induction text generalizing reader with
  | nil => rfl
  | cons u rest ih =>
      rw [emitted, ih (read_begun reader u), read_of_begun hbegun, splitLines, readUnit]
      by_cases hlf : u = 10
      · rw [if_pos hlf, if_pos hlf]
        cases hcr : reader.afterCr with
        | true => rfl
        | false =>
            obtain ⟨hline, hafter⟩ := reader.endLine_line false
            rw [if_neg Bool.false_ne_true, if_neg Bool.false_ne_true, hline, hafter, endLine_run]
      · rw [if_neg hlf, if_neg hlf]
        by_cases hbreak : u = 13
        · obtain ⟨hline, hafter⟩ := reader.endLine_line true
          rw [if_pos hbreak, if_pos hbreak, hline, hafter, endLine_run]
        · rw [if_neg hbreak, if_neg hbreak]
          rfl

theorem start_read (hbom : u ≠ 0xFEFF) : start.read u = (idle []).read u := by
  rw [read, if_neg fun hboth => hbom hboth.2, read_of_begun rfl]
  rfl

/-- However the text is cut into pieces. -/
theorem emitted_start (text : Text) : start.emitted text = events text := by
  cases text with
  | nil => rfl
  | cons u rest =>
      by_cases hbom : u = 0xFEFF
      · rw [emitted, read, if_pos ⟨rfl, hbom⟩, emitted_eq rfl, events, stripBom, if_pos hbom]
        rfl
      · rw [emitted, start_read hbom, events, stripBom, if_neg hbom]
        exact emitted_eq rfl (u :: rest)

/-! ## Texts which are one event or one comment -/

def lineText (line : Text) : Text :=
  line ++ [10]

/-- Lines which are not empty. -/
def Filled (lines : List Text) : Prop :=
  ∀ line ∈ lines, line ≠ [] ∧ ∀ u ∈ line, isBreak u = false

theorem fieldLine_units {name value : Text} (hname : ∀ u ∈ name, isBreak u = false)
    (hvalue : ∀ u ∈ value, isBreak u = false) :
    fieldLine name value ≠ [] ∧ ∀ u ∈ fieldLine name value, isBreak u = false := by
  refine ⟨by simp [fieldLine], fun u hu => ?_⟩
  rcases List.mem_append.mp hu with hu | hu
  · exact hname u hu
  · rcases List.mem_cons.mp hu with rfl | hu
    · rfl
    · rcases List.mem_cons.mp hu with rfl | hu
      · rfl
      · exact hvalue u hu

theorem feed_line (hline : reader.line = front) (hcr : reader.afterCr = false)
    (hbegun : reader.atStart = false) (hunits : ∀ u ∈ line, isBreak u = false) :
    reader.feed line = { reader with line := front ++ line } ∧ reader.emitted line = [] := by
  induction line generalizing reader front with
  | nil =>
      obtain ⟨before, afterCr, buffers, atStart⟩ := reader
      subst hline
      rw [List.append_nil]
      exact ⟨rfl, rfl⟩
  | cons u rest ih =>
      have hu : isBreak u = false := hunits u List.mem_cons_self
      simp only [isBreak, Bool.or_eq_false_iff, beq_eq_false_iff_ne] at hu
      have hread : reader.read u = ({ reader with line := front ++ [u] }, none) := by
        rw [read_of_begun hbegun, readUnit, if_neg hu.1, if_neg hu.2, hline]
        obtain ⟨before, afterCr, buffers, atStart⟩ := reader
        subst hcr
        rfl
      let next : Reader := { reader with line := front ++ [u] }
      obtain ⟨hfeed, hsilent⟩ := @ih next (front ++ [u]) rfl hcr hbegun
        fun v hv => hunits v (List.mem_cons_of_mem u hv)
      rw [feed, emitted, hread]
      refine ⟨?_, hsilent⟩
      rw [hfeed, List.append_assoc, List.singleton_append]

theorem feed_lineText (hline : reader.line = []) (hcr : reader.afterCr = false)
    (hbegun : reader.atStart = false) (hne : line ≠ [])
    (hunits : ∀ u ∈ line, isBreak u = false) :
    reader.feed (lineText line) = { reader with buffers := processLine reader.buffers line } ∧
      reader.emitted (lineText line) = [] := by
  obtain ⟨hfeed, hsilent⟩ := feed_line hline hcr hbegun hunits
  obtain ⟨c, more, rfl⟩ := List.exists_cons_of_ne_nil hne
  have hread : (reader.feed (c :: more)).read 10 =
      ({ reader with buffers := processLine reader.buffers (c :: more) }, none) := by
    obtain ⟨before, afterCr, buffers, atStart⟩ := reader
    subst hline hcr hbegun
    rw [hfeed, read_of_begun rfl]
    rfl
  rw [lineText, feed_append, emitted_append, hsilent, emitted_singleton, hread]
  exact ⟨congrArg Prod.fst hread, rfl⟩

theorem feed_lines {lines : List Text} (hline : reader.line = []) (hcr : reader.afterCr = false)
    (hbegun : reader.atStart = false) (hlines : Filled lines) :
    reader.feed (lines.flatMap lineText) =
        { reader with buffers := lines.foldl processLine reader.buffers } ∧
      reader.emitted (lines.flatMap lineText) = [] := by
  induction lines generalizing reader with
  | nil => exact ⟨rfl, rfl⟩
  | cons line rest ih =>
      obtain ⟨hne, hunits⟩ := hlines line List.mem_cons_self
      obtain ⟨hfeed, hsilent⟩ := feed_lineText hline hcr hbegun hne hunits
      let next : Reader := { reader with buffers := processLine reader.buffers line }
      obtain ⟨hrest, hquiet⟩ := @ih next hline hcr hbegun
        fun other hother => hlines other (List.mem_cons_of_mem line hother)
      rw [List.flatMap_cons, feed_append, emitted_append, hfeed, hsilent]
      exact ⟨hrest, hquiet⟩

/-- Lines, and the empty one after them. -/
def blockText (lines : List Text) : Text :=
  lines.flatMap lineText ++ [10]

/-- Lines which leave the last event id alone. -/
def KeepsId (lines : List Text) : Prop :=
  ∀ id, (lines.foldl processLine (EventStream.idle id)).lastEventId = id

theorem feed_block {lines : List Text} (hlines : Filled lines) (hid : KeepsId lines)
    (id : Text) : (idle id).feed (blockText lines) = idle id := by
  obtain ⟨hfeed, _⟩ := @feed_lines (idle id) lines rfl rfl rfl hlines
  rw [blockText, feed_append, hfeed, feed, feed, read_of_begun rfl]
  exact congrArg idle (hid id)

theorem emitted_mono (hfront : front <+: text) :
    reader.emitted front <+: reader.emitted text := by
  obtain ⟨back, rfl⟩ := hfront
  rw [emitted_append]
  exact List.prefix_append _ _

theorem block_silent {lines : List Text} (hlines : Filled lines) (id : Text) {n : ℕ}
    (hn : n < (blockText lines).length) :
    (idle id).emitted ((blockText lines).take n) = [] := by
  obtain ⟨_, hsilent⟩ := @feed_lines (idle id) lines rfl rfl rfl hlines
  rw [blockText, List.length_append, List.length_singleton] at hn
  have hfront : (blockText lines).take n <+: lines.flatMap lineText := by
    rw [blockText, List.take_append_of_le_length (Nat.lt_succ_iff.mp hn)]
    exact List.take_prefix _ _
  have hmono := @emitted_mono (idle id) _ _ hfront
  rw [hsilent] at hmono
  exact List.prefix_nil.mp hmono

theorem emitted_of_delivers {delivered : List (Text × Text)} (hdelivers : Delivers text delivered)
    (id : Text) :
    (idle id).emitted text = delivered.map fun event => ⟨event.1, event.2, id⟩ := by
  have hrun := hdelivers id []
  rw [List.append_nil] at hrun
  rw [emitted_eq rfl]
  exact hrun.trans (List.append_nil _)

end Reader

/-- A text which delivers at most one event, and that with its last unit. -/
structure Whole (text : Text) (delivered : Option (Text × Text)) : Prop where
  nonempty : text ≠ []
  silent : ∀ id n, n < text.length → (Reader.idle id).emitted (text.take n) = []
  delivers : ∀ id, (Reader.idle id).emitted text =
    (delivered.map fun event => ⟨event.1, event.2, id⟩).toList
  returns : ∀ id, (Reader.idle id).feed text = Reader.idle id

open Reader in
theorem whole_block {lines : List Text} {delivered : Option (Text × Text)}
    (hlines : Filled lines) (hid : KeepsId lines)
    (hdelivers : Delivers (blockText lines) delivered.toList) :
    Whole (blockText lines) delivered where
  nonempty := by simp [blockText]
  silent := fun id _ hn => block_silent hlines id hn
  delivers := fun id => by
    rw [emitted_of_delivers hdelivers]
    cases delivered <;> rfl
  returns := feed_block hlines hid

/-- Within a whole text, a unit dispatches what the text delivers if it is the
last one, and otherwise nothing. -/
theorem Whole.read {text : Text} {delivered : Option (Text × Text)}
    (hwhole : Whole text delivered) (id : Text) {n : ℕ} {u : UInt16} (hu : text[n]? = some u) :
    (((Reader.idle id).feed (text.take n)).read u).1 = (Reader.idle id).feed (text.take (n + 1)) ∧
      (((Reader.idle id).feed (text.take n)).read u).2 =
        if n + 1 = text.length then delivered.map fun event => ⟨event.1, event.2, id⟩
        else none := by
  obtain ⟨hn, hget⟩ := List.getElem?_eq_some_iff.mp hu
  have htake : text.take (n + 1) = text.take n ++ [u] := by
    rw [List.take_add_one, hu]
    rfl
  have hemitted : (Reader.idle id).emitted (text.take (n + 1)) =
      (((Reader.idle id).feed (text.take n)).read u).2.toList := by
    rw [htake, Reader.emitted_append, hwhole.silent id n hn, List.nil_append,
      Reader.emitted_singleton]
  constructor
  · rw [htake, Reader.feed_append]
    rfl
  · rw [← Option.head?_toList (o := (Reader.read _ u).2), ← hemitted]
    split
    next hlast => rw [hlast, List.take_length, hwhole.delivers, Option.head?_toList]
    next hmore =>
        rw [hwhole.silent id (n + 1) (by omega)]
        rfl

end EventStream
