import Pm2Manager.JsonText

/-!
# Event streams

The event-stream format of server-sent events: lines, fields and comments, the
buffers which the fields fill, and the events which empty lines dispatch.  Texts
of whole events are read one after the other.
-/

namespace EventStream

open JsonText (Text ascii)

structure Event where
  type : Text
  data : Text
  lastEventId : Text
deriving DecidableEq

structure Buffers where
  data : Text
  type : Text
  lastEventId : Text

/-- No event has been begun. -/
def idle (lastEventId : Text) : Buffers where
  data := []
  type := []
  lastEventId := lastEventId

def isBreak (u : UInt16) : Bool :=
  u == 10 || u == 13

/-- The lines of a text which are complete, `line` being the part of the first
one which has been read.  A line feed after a carriage return ends no line. -/
def splitLines (line : Text) (afterCr : Bool) : Text → List Text
  | [] => []
  | u :: rest =>
    if u = 10 then
      if afterCr then splitLines line false rest else line :: splitLines [] false rest
    else if u = 13 then line :: splitLines [] true rest
    else splitLines (line ++ [u]) false rest

def stripSpace : Text → Text
  | [] => []
  | u :: rest => if u = 32 then rest else u :: rest

/-- Fields which are not known are ignored; `retry` is no part of any event. -/
def processField (buffers : Buffers) (name value : Text) : Buffers :=
  if name = ascii "event" then { buffers with type := value }
  else if name = ascii "data" then { buffers with data := buffers.data ++ value ++ [10] }
  else if name = ascii "id" then
    if (0 : UInt16) ∈ value then buffers else { buffers with lastEventId := value }
  else buffers

/-- A line which is not empty.  One which begins with a colon is a comment. -/
def processLine (buffers : Buffers) (line : Text) : Buffers :=
  if line.head? = some 58 then buffers
  else processField buffers (line.takeWhile (· ≠ 58))
    (stripSpace ((line.dropWhile (· ≠ 58)).drop 1))

def dispatch (buffers : Buffers) : Option Event :=
  if buffers.data = [] then none
  else some {
    type := if buffers.type = [] then ascii "message" else buffers.type
    data := if buffers.data.getLast? = some 10 then buffers.data.dropLast else buffers.data
    lastEventId := buffers.lastEventId }

def run (buffers : Buffers) : List Text → List Event
  | [] => []
  | [] :: rest => (dispatch buffers).toList ++ run (idle buffers.lastEventId) rest
  | (u :: line) :: rest => run (processLine buffers (u :: line)) rest

def stripBom : Text → Text
  | [] => []
  | u :: rest => if u = 0xFEFF then rest else u :: rest

/-- The events of a stream up to its end. -/
def events (text : Text) : List Event :=
  run (idle []) (splitLines [] false (stripBom text))

/-! ## Lines -/

theorem splitLines_append (before : Text) {line : Text}
    (hline : ∀ u ∈ line, isBreak u = false) (rest : Text) :
    splitLines before false (line ++ 10 :: rest) =
      (before ++ line) :: splitLines [] false rest := by
  induction line generalizing before with
  | nil => rw [List.nil_append, splitLines, if_pos rfl, List.append_nil, if_neg (by decide)]
  | cons u line ih =>
      have hu : isBreak u = false := hline u List.mem_cons_self
      simp only [isBreak, Bool.or_eq_false_iff, beq_eq_false_iff_ne] at hu
      rw [List.cons_append, splitLines, if_neg hu.1, if_neg hu.2,
        ih _ fun v hv => hline v (List.mem_cons_of_mem u hv), List.append_assoc,
        List.singleton_append]

/-- A text of whole events: whatever follows is read as if it stood alone. -/
def Delivers (text : Text) (delivered : List (Text × Text)) : Prop :=
  ∀ id rest, run (idle id) (splitLines [] false (text ++ rest)) =
    delivered.map (fun event => ⟨event.1, event.2, id⟩) ++
      run (idle id) (splitLines [] false rest)

theorem delivers_nil : Delivers [] [] := fun _ _ => rfl

theorem Delivers.append {front back : Text} {first second : List (Text × Text)}
    (hfront : Delivers front first) (hback : Delivers back second) :
    Delivers (front ++ back) (first ++ second) := by
  intro id rest
  rw [List.append_assoc, hfront, hback, List.map_append, List.append_assoc]

theorem delivers_flatMap {ι : Type*} {text : ι → Text} {delivered : ι → List (Text × Text)}
    (hdelivers : ∀ item, Delivers (text item) (delivered item)) (items : List ι) :
    Delivers (items.flatMap text) (items.flatMap delivered) := by
  induction items with
  | nil => exact delivers_nil
  | cons item rest ih =>
      rw [List.flatMap_cons, List.flatMap_cons]
      exact (hdelivers item).append ih

theorem events_of_delivers {text : Text} {delivered : List (Text × Text)}
    (hdelivers : Delivers text delivered) (hbom : text.head? ≠ some 0xFEFF) :
    events text = delivered.map fun event => ⟨event.1, event.2, []⟩ := by
  have hstrip : stripBom text = text := by
    cases text with
    | nil => rfl
    | cons u rest => exact if_neg fun heq => hbom (by rw [heq]; rfl)
  have hrun := hdelivers [] []
  rw [List.append_nil] at hrun
  rw [events, hstrip, hrun]
  exact List.append_nil _

/-! ## Events and comments -/

/-- A line with the name of a field, a colon, a space and its value. -/
def fieldLine (name value : Text) : Text :=
  name ++ 58 :: 32 :: value

theorem processLine_fieldLine (buffers : Buffers) {name : Text}
    (hname : ∀ u ∈ name, u ≠ 58) (hne : name ≠ []) (value : Text) :
    processLine buffers (fieldLine name value) = processField buffers name value := by
  obtain ⟨htake, hdrop⟩ := @JsonText.span_append (· ≠ 58) name (58 :: 32 :: value)
    (fun u hu => decide_eq_true (hname u hu)) (by simp)
  obtain ⟨c, more, heq⟩ := List.exists_cons_of_ne_nil hne
  have hhead : (fieldLine name value).head? ≠ some 58 := by
    rw [fieldLine, heq, List.cons_append, List.head?_cons]
    intro hcolon
    exact hname c (heq ▸ List.mem_cons_self) (Option.some.inj hcolon)
  rw [processLine, if_neg hhead, fieldLine, htake, hdrop]
  rfl

theorem run_fieldLine (buffers : Buffers) {name value : Text}
    (hname : ∀ u ∈ name, u ≠ 58 ∧ isBreak u = false) (hne : name ≠ [])
    (hvalue : ∀ u ∈ value, isBreak u = false) (rest : Text) :
    run buffers (splitLines [] false (fieldLine name value ++ 10 :: rest)) =
      run (processField buffers name value) (splitLines [] false rest) := by
  have hline : ∀ u ∈ fieldLine name value, isBreak u = false := by
    intro u hu
    rcases List.mem_append.mp hu with hu | hu
    · exact (hname u hu).2
    · rcases List.mem_cons.mp hu with rfl | hu
      · rfl
      · rcases List.mem_cons.mp hu with rfl | hu
        · rfl
        · exact hvalue u hu
  obtain ⟨c, more, heq⟩ := List.exists_cons_of_ne_nil
    (show fieldLine name value ≠ [] by simp [fieldLine])
  rw [splitLines_append [] hline, List.nil_append, heq, run, ← heq,
    processLine_fieldLine buffers (fun u hu => (hname u hu).1) hne]

theorem run_blank (buffers : Buffers) (rest : Text) :
    run buffers (splitLines [] false (10 :: rest)) =
      (dispatch buffers).toList ++
        run (idle buffers.lastEventId) (splitLines [] false rest) := rfl

theorem processField_data (buffers : Buffers) (value : Text) :
    processField buffers (ascii "data") value =
      { buffers with data := buffers.data ++ value ++ [10] } := by
  rw [processField, if_neg (by decide), if_pos rfl]

theorem processField_event (buffers : Buffers) (value : Text) :
    processField buffers (ascii "event") value = { buffers with type := value } :=
  if_pos rfl

theorem dispatch_data (type data id : Text) :
    dispatch { data := data ++ [10], type := type, lastEventId := id } =
      some ⟨if type = [] then ascii "message" else type, data, id⟩ := by
  rw [dispatch, if_neg (by simp)]
  simp

theorem append_breaks (line rest : Text) :
    line ++ [10, 10] ++ rest = line ++ 10 :: 10 :: rest := by
  rw [List.append_assoc]
  rfl

def messageText (data : Text) : Text :=
  fieldLine (ascii "data") data ++ [10, 10]

/-- The data line and the empty line after it, whatever the type is. -/
theorem run_messageText (type id : Text) {data : Text}
    (hdata : ∀ u ∈ data, isBreak u = false) (rest : Text) :
    run { data := [], type := type, lastEventId := id }
        (splitLines [] false (messageText data ++ rest)) =
      ⟨if type = [] then ascii "message" else type, data, id⟩ ::
        run (idle id) (splitLines [] false rest) := by
  rw [messageText, append_breaks,
    run_fieldLine _ (JsonText.forall_units (by decide)) (by decide) hdata, run_blank,
    processField_data, List.nil_append, dispatch_data]
  rfl

theorem delivers_message {data : Text} (hdata : ∀ u ∈ data, isBreak u = false) :
    Delivers (messageText data) [(ascii "message", data)] :=
  fun id rest => run_messageText [] id hdata rest

def eventText (type data : Text) : Text :=
  fieldLine (ascii "event") type ++ 10 :: messageText data

theorem delivers_event {type data : Text} (hne : type ≠ [])
    (htype : ∀ u ∈ type, isBreak u = false) (hdata : ∀ u ∈ data, isBreak u = false) :
    Delivers (eventText type data) [(type, data)] := by
  intro id rest
  rw [eventText, List.append_assoc, List.cons_append,
    run_fieldLine (idle id) (JsonText.forall_units (by decide)) (by decide) htype,
    processField_event]
  have hrun := run_messageText type id hdata rest
  rw [if_neg hne] at hrun
  exact hrun

def commentText (comment : Text) : Text :=
  58 :: comment ++ [10, 10]

theorem delivers_comment {comment : Text} (hcomment : ∀ u ∈ comment, isBreak u = false) :
    Delivers (commentText comment) [] := by
  intro id rest
  have hline : ∀ u ∈ 58 :: comment, isBreak u = false := by
    intro u hu
    rcases List.mem_cons.mp hu with rfl | hu
    · rfl
    · exact hcomment u hu
  rw [commentText, append_breaks, splitLines_append [] hline, List.nil_append, run,
    processLine, if_pos (List.head?_cons ..), run_blank]
  rfl

example : events (ascii "data: a\r\ndata:b\rid: 4\n\n: no data\n\n") =
    [⟨ascii "message", ascii "a\nb", ascii "4"⟩] := by decide

end EventStream
