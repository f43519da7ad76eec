import Mathlib.Data.List.Flatten
import Mathlib.Data.List.Nodup
import Pm2Manager.LogDelivery

/-!
# Every line once

A line which is published before the handler has subscribed is lost unless it
is in a tail; a line in a tail which is published after that is sent twice.  A
run in which neither happens sends every line once.
-/

namespace Pm2Manager

open Function TextLines
open ScriptText (truthy)

variable {proc : ProcessDetail} {state next last : DeliveryState}
variable {action : DeliveryAction} {word : List DeliveryAction}
variable {n size now : ℕ} {path : String} {channel : LogChannel}
variable {rest sources : List LogSource} {file : List FileByte} {line : ProcessLine}

def LogStream.live (stream : LogStream) : Bool :=
  match stream.phase with
  | .live _ => true
  | _ => false

namespace DeliveryState

/-- Written after the description of the process, and before the client left. -/
def Owed (state : DeliveryState) (n : ℕ) : Prop :=
  (∃ first, state.describedAt = some first ∧ first ≤ n) ∧
  n < state.lines.length ∧ ∀ last, state.leftAt = some last → n < last

def timesSent (state : DeliveryState) (n : ℕ) : ℕ :=
  (state.sent.flatMap SentLine.numbers).count n

def sourceChannels (sources : List LogSource) : List LogChannel :=
  sources.filterMap fun source => (truthy source.1).map fun _ => source.2

/-- The file whose size is asked for next. -/
def unmeasured (state : DeliveryState) : Option LogChannel :=
  match state.stream.phase, state.size with
  | .readingBacklog _ channel _, none => some channel
  | _, _ => none

/-- The files whose size has still to be asked for. -/
def toRead (state : DeliveryState) : List LogChannel :=
  match state.stream.phase with
  | .readingBacklog _ _ rest => state.unmeasured.toList ++ sourceChannels rest
  | _ => []

/-- The tail of the file whose size is known and which is not read yet. -/
def pendingTail (proc : ProcessDetail) (state : DeliveryState) : List ℕ :=
  match state.stream.phase, state.size with
  | .readingBacklog _ channel _, some size =>
      match proc.logPath channel with
      | some path => tailNumbers (state.files path) size
      | none => []
  | _, _ => []

/-- Line `n` begins in the window of the tail and is not empty, a line which is
not empty ends before it unless the window is the whole file, and fewer than
`backlogLines` such lines begin after it. -/
def ShownIn (file : List FileByte) (size n : ℕ) : Prop :=
  ∃ before b after,
    (file.drop (tailStart size)).take (size - tailStart size) =
      before ++ (b, some n) :: after ∧
    b ≠ 10 ∧ ¬ (b = 13 ∧ after.head?.map Prod.fst = some 10) ∧
    (tailStart size = 0 ∨
      ∃ line ∈ (splitBreaks (fun b => byteKind b.1) before).dropLast, line ≠ []) ∧
    ((splitBreaks (fun b => byteKind b.1) after).tail.filter
      fun line => !line.isEmpty).length < backlogLines

/-- The tail of the file whose size is known will show line `n`. -/
def PendingShows (proc : ProcessDetail) (state : DeliveryState) (n : ℕ) : Prop :=
  ∃ other channel rest size path,
    state.stream.phase = .readingBacklog other channel rest ∧ state.size = some size ∧
    proc.logPath channel = some path ∧ ShownIn (state.files path) size n

/-- In a tail which has been read, or published to the live stream. -/
def Settled (state : DeliveryState) (n : ℕ) : Prop :=
  n ∈ state.inBacklog ∨ (state.stream.live = true ∧ n ∈ state.published)

/-- The channel of a line is still to be read. -/
def Expected (state : DeliveryState) (n : ℕ) : Prop :=
  ∃ line, state.lines[n]? = some line ∧ line.channel ∈ state.toRead

end DeliveryState

/-- The two channels have different files; a file is measured when its tail
shows all lines which have been published; a line is published in the prologue
when a tail has it or will be asked for it, and to the live stream when no tail
has had it; the client leaves when no line is under way. -/
def DeliveryGuard (proc : ProcessDetail) (state : DeliveryState) :
    DeliveryAction → Prop
  | .append _ => True
  | .read _ => True
  | .describe => proc.logPath .out = none ∨ proc.logPath .out ≠ proc.logPath .err
  | .stat => ∀ n line path, state.Owed n → n ∈ state.published →
      state.lines[n]? = some line → state.unmeasured = some line.channel →
      proc.logPath line.channel = some path →
      DeliveryState.ShownIn (state.files path) (state.files path).length n
  | .publish n => state.Owed n →
      if state.stream.live then n ∉ state.inBacklog
      else n ∈ state.inBacklog ∨ state.PendingShows proc n ∨ state.Expected n
  | .disconnect => ∀ n, state.Owed n → state.Settled n

/-! ## Numbers in the files -/

theorem numbersOf_bytes (line : ProcessLine) (n : ℕ) :
    numbersOf (line.bytes n) = if line.text = [] then [] else [n] := by
  unfold ProcessLine.bytes numbersOf
  cases line.text <;> simp [List.filterMap_map]

theorem numbersOf_append (first second : List FileByte) :
    numbersOf (first ++ second) = numbersOf first ++ numbersOf second :=
  List.filterMap_append

/-- The lines of a tail are among those of the file, in their order. -/
theorem tailNumbers_sublist (file : List FileByte) (size : ℕ) :
    (tailNumbers file size).Sublist (numbersOf file) := by
  have hpieces : (tailPieces file size).flatten.Sublist file :=
    (tailLines_sublist _ _ _).flatten.trans ((splitBreaks_flatten_sublist _).trans
      ((List.take_sublist _ _).trans (List.drop_sublist _ _)))
  have hnumbers : tailNumbers file size = numbersOf (tailPieces file size).flatten := by
    rw [tailNumbers, numbersOf, List.filterMap_flatten]
    rfl
  rw [hnumbers]
  exact hpieces.filterMap _

theorem mem_tailNumbers_of_shown (hshown : DeliveryState.ShownIn file size n) :
    n ∈ tailNumbers file size := by
  obtain ⟨before, b, after, hwindow, hlf, hcr, hfirst, hcount⟩ := hshown
  obtain ⟨closed, last, hbefore, hlast, happend⟩ := splitBreaks_append
    (fun b : FileByte => byteKind b.1) before ((b, some n) :: after)
  obtain ⟨line, hline, hat⟩ := splitBreaks_at (fun b : FileByte => byteKind b.1) last after
    hlast (x := (b, some n)) (by simpa using hlf) (by
      rintro ⟨hkind, hbreak⟩
      refine hcr ⟨byteKind_eq_cr.mp hkind, ?_⟩
      obtain ⟨c, hc, hkind⟩ := Option.map_eq_some_iff.mp hbreak
      rw [hc, Option.map_some, byteKind_eq_lf.mp hkind])
  have hnonempty : line.isEmpty = false :=
    List.isEmpty_eq_false_iff.mpr (List.ne_nil_of_mem hline)
  have hfilter : (closed ++ line :: (splitBreaks (fun b : FileByte => byteKind b.1)
      after).tail).filter (fun line => !line.isEmpty) =
      (closed.filter fun line => !line.isEmpty) ++ line ::
        (splitBreaks (fun b : FileByte => byteKind b.1) after).tail.filter
          fun line => !line.isEmpty := by
    rw [List.filter_append, List.filter_cons, hnonempty]
    rfl
  refine List.mem_flatMap.mpr ⟨line, ?_, List.mem_filterMap.mpr ⟨_, hline, rfl⟩⟩
  simp only [tailPieces, tailLines]
  rw [hwindow, happend, hat, hfilter]
  split
  · rename_i hmidway
    have hsome : (closed.filter fun line => !line.isEmpty) ≠ [] := by
      rcases hfirst with hzero | ⟨earlier, hearlier, hne⟩
      · rw [hzero] at hmidway
        cases hmidway
      · rw [hbefore, List.dropLast_concat] at hearlier
        exact List.ne_nil_of_mem (List.mem_filter.mpr ⟨hearlier, by simp [hne]⟩)
    rw [List.tail_append_of_ne_nil hsome]
    exact mem_lastN _ _ line hcount
  · exact mem_lastN _ _ line hcount

/-- What is appended to a file does not show in a tail of known size. -/
theorem tailNumbers_append (file more : List FileByte) (hsize : size ≤ file.length) :
    tailNumbers (file ++ more) size = tailNumbers file size := by
  have hwindow : ((file ++ more).drop (tailStart size)).take (size - tailStart size) =
      (file.drop (tailStart size)).take (size - tailStart size) := by
    rw [List.drop_append_of_le_length (by unfold tailStart; omega),
      List.take_append_of_le_length (by rw [List.length_drop]; omega)]
  rw [tailNumbers, tailNumbers, tailPieces, tailPieces, hwindow]

structure FilesOk (proc : ProcessDetail) (state : DeliveryState) : Prop where
  nodup : ∀ path, (numbersOf (state.files path)).Nodup
  written : ∀ path, ∀ n ∈ numbersOf (state.files path),
    ∃ line, state.lines[n]? = some line ∧ proc.logPath line.channel = some path

theorem FilesOk.lt (hfiles : FilesOk proc state) (hn : n ∈ numbersOf (state.files path)) :
    n < state.lines.length := by
  obtain ⟨line, hline, _⟩ := hfiles.written path n hn
  exact (List.getElem?_eq_some_iff.mp hline).1

theorem FilesOk.appendLine (hfiles : FilesOk proc state) (line : ProcessLine) :
    FilesOk proc (state.appendLine proc line) := by
  have hold : ∀ path, ∀ n ∈ numbersOf (state.files path), ∃ other,
      (state.lines ++ [line])[n]? = some other ∧ proc.logPath other.channel = some path := by
    intro path n hn
    obtain ⟨other, hother, hpath⟩ := hfiles.written path n hn
    exact ⟨other, by rw [List.getElem?_append_left (hfiles.lt hn), hother], hpath⟩
  cases hlog : proc.logPath line.channel with
  | none =>
      constructor
      · simpa [DeliveryState.appendLine, hlog] using hfiles.nodup
      · simpa [DeliveryState.appendLine, hlog] using hold
  | some own =>
      have hnumbers : numbersOf (state.files own ++ line.bytes state.lines.length) =
          numbersOf (state.files own) ++
            if line.text = [] then [] else [state.lines.length] := by
        rw [numbersOf_append, numbersOf_bytes]
      constructor
      · intro path
        simp only [DeliveryState.appendLine, hlog]
        by_cases hpath : path = own
        · subst hpath
          rw [update_self, hnumbers]
          split
          · rw [List.append_nil]
            exact hfiles.nodup path
          · refine List.nodup_append.mpr ⟨hfiles.nodup path, by simp, ?_⟩
            intro n hn m hm
            rw [List.mem_singleton.mp hm]
            exact (hfiles.lt hn).ne
        · rw [update_of_ne hpath]
          exact hfiles.nodup path
      · intro path n hn
        simp only [DeliveryState.appendLine, hlog] at hn ⊢
        by_cases hpath : path = own
        · subst hpath
          rw [update_self, hnumbers, List.mem_append] at hn
          rcases hn with hn | hn
          · exact hold path n hn
          · split at hn
            · cases hn
            · rw [List.mem_singleton.mp hn]
              exact ⟨line, by simp, hlog⟩
        · rw [update_of_ne hpath] at hn
          exact hold path n hn

/-! ## The invariant -/

/-- The sources which are left have their own channels and paths. -/
structure SourcesOk (proc : ProcessDetail) (state : DeliveryState) : Prop where
  own : ∀ other channel rest, state.stream.phase = .readingBacklog other channel rest →
    (channel :: DeliveryState.sourceChannels rest).Nodup
  measured : ∀ other channel rest size path,
    state.stream.phase = .readingBacklog other channel rest →
    state.size = some size → proc.logPath channel = some path →
    size ≤ (state.files path).length
  distinct : state.describedAt ≠ none → ∀ channel other path,
    proc.logPath channel = some path → proc.logPath other = some path → channel = other
  idle : (∀ other channel rest, state.stream.phase ≠ .readingBacklog other channel rest) →
    state.size = none

structure BacklogOk (proc : ProcessDetail) (state : DeliveryState) : Prop where
  described : state.stream.phase = .describing ↔ state.describedAt = none
  empty : state.describedAt = none → state.inBacklog = []
  lt : (∀ n ∈ state.inBacklog, n < state.lines.length) ∧
    (∀ n ∈ state.published, n < state.lines.length) ∧
    ∀ event ∈ state.sent, ∀ n ∈ event.numbers, n < state.lines.length
  read : ∀ n ∈ state.inBacklog ++ state.pendingTail proc, ¬ state.Expected n
  fresh : ∀ n ∈ state.pendingTail proc, n ∉ state.inBacklog
  connected : state.stream.connected = true →
    state.stream.writableEnded = false ∧ state.leftAt = none
  gone : state.stream.connected = false →
    ∃ last, state.leftAt = some last ∧ last ≤ state.lines.length
  reached : state.stream.connected = true → state.stream.live = false →
    ∀ n, state.Owed n → n ∈ state.published →
      n ∈ state.inBacklog ++ state.pendingTail proc ∨ state.Expected n

structure CountsOk (state : DeliveryState) : Prop where
  once : state.stream.connected = true →
    ∀ n, state.Owed n → state.Settled n → state.timesSent n = 1
  never : state.stream.connected = true →
    ∀ n, state.Owed n → ¬ state.Settled n → state.timesSent n = 0
  left : state.stream.connected = false → ∀ n, state.Owed n → state.timesSent n = 1

structure Tracked (proc : ProcessDetail) (state : DeliveryState) : Prop where
  files : FilesOk proc state
  sources : SourcesOk proc state
  backlog : BacklogOk proc state
  counts : CountsOk state

theorem mem_pendingTail (hn : n ∈ state.pendingTail proc) :
    ∃ other channel rest size path,
      state.stream.phase = .readingBacklog other channel rest ∧
      state.size = some size ∧ proc.logPath channel = some path ∧
      n ∈ tailNumbers (state.files path) size := by
  unfold DeliveryState.pendingTail at hn
  split at hn
  · rename_i other channel rest size hphase hsize
    split at hn
    · rename_i path hpath
      exact ⟨other, channel, rest, size, path, hphase, hsize, hpath, hn⟩
    · cases hn
  · cases hn

theorem DeliveryState.PendingShows.mem_pendingTail (hshows : state.PendingShows proc n) :
    n ∈ state.pendingTail proc := by
  obtain ⟨other, channel, rest, size, path, hphase, hsize, hpath, hshown⟩ := hshows
  simp only [DeliveryState.pendingTail, hphase, hsize, hpath]
  exact mem_tailNumbers_of_shown hshown

section Append

variable (proc) (state) (line)

@[simp] theorem appendLine_lines :
    (state.appendLine proc line).lines = state.lines ++ [line] := rfl

theorem toRead_appendLine : (state.appendLine proc line).toRead = state.toRead := rfl

theorem files_appendLine (path : String) :
    ∃ more, (state.appendLine proc line).files path = state.files path ++ more := by
  cases hlog : proc.logPath line.channel with
  | none => exact ⟨[], by simp [DeliveryState.appendLine, hlog]⟩
  | some own =>
      by_cases hpath : path = own
      · subst hpath
        exact ⟨line.bytes state.lines.length, by simp [DeliveryState.appendLine, hlog]⟩
      · exact ⟨[], by simp [DeliveryState.appendLine, hlog, hpath]⟩

end Append

theorem pendingTail_appendLine (hsources : SourcesOk proc state) (line : ProcessLine) :
    (state.appendLine proc line).pendingTail proc = state.pendingTail proc := by
  have hphase : (state.appendLine proc line).stream.phase = state.stream.phase := rfl
  have hsize : (state.appendLine proc line).size = state.size := rfl
  unfold DeliveryState.pendingTail
  rw [hphase, hsize]
  split
  · rename_i other channel rest size hreading hmeasured
    split
    · rename_i path hpath
      obtain ⟨more, hmore⟩ := files_appendLine proc state line path
      rw [hmore, tailNumbers_append _ _
        (hsources.measured other channel rest size path hreading hmeasured hpath)]
    · rfl
  · rfl

theorem expected_appendLine (line : ProcessLine) (hn : n < state.lines.length) :
    (state.appendLine proc line).Expected n ↔ state.Expected n := by
  simp only [DeliveryState.Expected, toRead_appendLine, appendLine_lines,
    List.getElem?_append_left hn]

/-- A line which was owed before, or the new one, which nothing has sent. -/
theorem owed_appendLine (line : ProcessLine)
    (howed : (state.appendLine proc line).Owed n) :
    state.Owed n ∨ n = state.lines.length := by
  obtain ⟨hfirst, hlt, hlast⟩ := howed
  rw [appendLine_lines, List.length_append, List.length_singleton] at hlt
  rcases Nat.lt_succ_iff_lt_or_eq.mp hlt with hold | hnew
  · exact Or.inl ⟨hfirst, hold, hlast⟩
  · exact Or.inr hnew

section AppendTracked

variable (htracked : Tracked proc state) (line : ProcessLine)
include htracked

theorem Tracked.backlog_appendLine : BacklogOk proc (state.appendLine proc line) := by
  have hgrow : ∀ n, n < state.lines.length →
      n < (state.appendLine proc line).lines.length := by
    intro n hn
    rw [appendLine_lines, List.length_append]
    omega
  obtain ⟨hbacklogLt, hpublishedLt, hsentLt⟩ := htracked.backlog.lt
  have hpending := pendingTail_appendLine htracked.sources line
  have hpendingLt : ∀ n ∈ state.pendingTail proc, n < state.lines.length := by
    intro n hn
    obtain ⟨_, _, _, _, _, _, _, _, htail⟩ := mem_pendingTail hn
    exact htracked.files.lt ((tailNumbers_sublist _ _).subset htail)
  exact {
    described := htracked.backlog.described
    empty := htracked.backlog.empty
    lt := ⟨fun n hn => hgrow n (hbacklogLt n hn), fun n hn => hgrow n (hpublishedLt n hn),
      fun event hevent n hn => hgrow n (hsentLt event hevent n hn)⟩
    read := by
      rw [hpending]
      intro n hn
      have hlt : n < state.lines.length :=
        (List.mem_append.mp hn).elim (hbacklogLt n) (hpendingLt n)
      rw [expected_appendLine line hlt]
      exact htracked.backlog.read n hn
    fresh := by
      rw [hpending]
      exact htracked.backlog.fresh
    connected := htracked.backlog.connected
    gone := by
      intro hleft
      obtain ⟨last, hlast, hle⟩ := htracked.backlog.gone hleft
      exact ⟨last, hlast, hle.trans (by simp)⟩
    reached := by
      intro hconnected hlive n howed hpublished
      have hlt := hpublishedLt n hpublished
      rw [hpending, expected_appendLine line hlt]
      rcases owed_appendLine line howed with hold | hnew
      · exact htracked.backlog.reached hconnected hlive n hold hpublished
      · exact absurd hlt (hnew ▸ Nat.lt_irrefl _) }

theorem Tracked.counts_appendLine : CountsOk (state.appendLine proc line) := by
  obtain ⟨hbacklogLt, hpublishedLt, hsentLt⟩ := htracked.backlog.lt
  have hunsettled : ¬ state.Settled state.lines.length := by
    rintro (hin | ⟨_, hpublished⟩)
    · exact (hbacklogLt _ hin).false
    · exact (hpublishedLt _ hpublished).false
  have hunsent : state.timesSent state.lines.length = 0 := by
    refine List.count_eq_zero.mpr fun hin => ?_
    obtain ⟨event, hevent, hnumber⟩ := List.mem_flatMap.mp hin
    exact (hsentLt event hevent _ hnumber).false
  exact {
    once := by
      intro hconnected n howed hsettled
      rcases owed_appendLine line howed with hold | rfl
      · exact htracked.counts.once hconnected n hold hsettled
      · exact absurd hsettled hunsettled
    never := by
      intro hconnected n howed hsettled
      rcases owed_appendLine line howed with hold | rfl
      · exact htracked.counts.never hconnected n hold hsettled
      · exact hunsent
    left := by
      intro hleft n howed
      rcases owed_appendLine line howed with hold | rfl
      · exact htracked.counts.left hleft n hold
      · obtain ⟨last, hlast, hle⟩ := htracked.backlog.gone hleft
        exact absurd (howed.2.2 last hlast) hle.not_gt }

theorem Tracked.appendLine : Tracked proc (state.appendLine proc line) where
  files := htracked.files.appendLine line
  sources := {
    own := htracked.sources.own
    measured := by
      intro other channel rest size path hphase hsize hpath
      obtain ⟨more, hmore⟩ := files_appendLine proc state line path
      have hle := htracked.sources.measured other channel rest size path hphase hsize hpath
      rw [hmore, List.length_append]
      omega
    distinct := htracked.sources.distinct
    idle := htracked.sources.idle }
  backlog := htracked.backlog_appendLine line
  counts := htracked.counts_appendLine line

end AppendTracked

/-! ## A line is published -/

section Publish

variable (proc) (state) (n) (line)

/-- What a publication leaves as it is. -/
theorem publishLine_fields :
    (state.publishLine proc n line).files = state.files ∧
    (state.publishLine proc n line).lines = state.lines ∧
    (state.publishLine proc n line).size = state.size ∧
    (state.publishLine proc n line).describedAt = state.describedAt ∧
    (state.publishLine proc n line).leftAt = state.leftAt ∧
    (state.publishLine proc n line).inBacklog = state.inBacklog ∧
    (state.publishLine proc n line).published = n :: state.published ∧
    (state.publishLine proc n line).stream.phase = state.stream.phase ∧
    (state.publishLine proc n line).stream.connected = state.stream.connected ∧
    (state.publishLine proc n line).stream.writableEnded = state.stream.writableEnded := by
  unfold DeliveryState.publishLine
  split
  · obtain ⟨hphase, hconnected, hended⟩ :=
      DeliveryState.onLog_fields state.stream (publishedLine proc line)
    exact ⟨rfl, rfl, rfl, rfl, rfl, rfl, rfl, hphase, hconnected, hended⟩
  · exact ⟨rfl, rfl, rfl, rfl, rfl, rfl, rfl, rfl, rfl, rfl⟩

theorem publishLine_sent :
    (state.publishLine proc n line).sent =
      if state.stream.listening = true ∧ state.stream.connected = true then
        state.sent ++ [⟨publishedLine proc line, [n]⟩]
      else state.sent := by
  unfold DeliveryState.publishLine DeliveryState.deliver
  cases state.stream.listening <;> cases state.stream.connected <;> rfl

end Publish

theorem live_congr {other : DeliveryState}
    (hphase : other.stream.phase = state.stream.phase) :
    other.stream.live = state.stream.live := by
  unfold LogStream.live
  rw [hphase]

theorem listening_eq_live (hended : state.stream.writableEnded = false) :
    state.stream.listening = state.stream.live := by
  unfold LogStream.listening LogStream.live
  rw [hended]
  rfl

theorem toRead_congr {other : DeliveryState}
    (hphase : other.stream.phase = state.stream.phase) (hsize : other.size = state.size) :
    other.toRead = state.toRead := by
  unfold DeliveryState.toRead DeliveryState.unmeasured
  rw [hphase, hsize]

theorem expected_congr {other : DeliveryState}
    (hphase : other.stream.phase = state.stream.phase) (hsize : other.size = state.size)
    (hlines : other.lines = state.lines) : other.Expected n ↔ state.Expected n := by
  simp only [DeliveryState.Expected, hlines, toRead_congr hphase hsize]

theorem pendingTail_congr {other : DeliveryState}
    (hphase : other.stream.phase = state.stream.phase) (hsize : other.size = state.size)
    (hfiles : other.files = state.files) :
    other.pendingTail proc = state.pendingTail proc := by
  unfold DeliveryState.pendingTail
  rw [hphase, hsize, hfiles]

theorem owed_congr {other : DeliveryState} (hlines : other.lines = state.lines)
    (hdescribed : other.describedAt = state.describedAt)
    (hleft : other.leftAt = state.leftAt) : other.Owed n ↔ state.Owed n := by
  simp only [DeliveryState.Owed, hlines, hdescribed, hleft]

theorem FilesOk.congr {other : DeliveryState} (hok : FilesOk proc state)
    (hfiles : other.files = state.files) (hlines : other.lines = state.lines) :
    FilesOk proc other := by
  constructor
  · rw [hfiles]
    exact hok.nodup
  · rw [hfiles, hlines]
    exact hok.written

section Publish

variable (proc) (state) (n) (number : ℕ) (line)

theorem owed_publishLine : (state.publishLine proc number line).Owed n ↔ state.Owed n := by
  obtain ⟨_, hlines, _, hdescribed, hleft, _⟩ := publishLine_fields proc state number line
  exact owed_congr hlines hdescribed hleft

theorem expected_publishLine :
    (state.publishLine proc number line).Expected n ↔ state.Expected n := by
  obtain ⟨_, hlines, hsize, _, _, _, _, hphase, _⟩ := publishLine_fields proc state number line
  exact expected_congr hphase hsize hlines

/-- A publication settles its line where the stream is live. -/
theorem settled_publishLine : (state.publishLine proc number line).Settled n ↔
    state.Settled n ∨ (state.stream.live = true ∧ n = number) := by
  obtain ⟨_, _, _, _, _, hbacklog, hpublished, hphase, _⟩ :=
    publishLine_fields proc state number line
  simp only [DeliveryState.Settled, hbacklog, live_congr hphase, hpublished, List.mem_cons]
  tauto

theorem timesSent_publishLine : (state.publishLine proc number line).timesSent n =
    state.timesSent n + if state.stream.listening = true ∧ state.stream.connected = true ∧
      n = number then 1 else 0 := by
  simp only [DeliveryState.timesSent, publishLine_sent]
  by_cases hreaches : state.stream.listening = true ∧ state.stream.connected = true
  · by_cases hn : n = number
    · simp [hreaches, hn]
    · simp [hreaches, hn, Ne.symm hn]
  · rw [if_neg hreaches, if_neg fun hall => hreaches ⟨hall.1, hall.2.1⟩, add_zero]

end Publish

theorem Tracked.sources_publishLine (htracked : Tracked proc state) (number : ℕ)
    (line : ProcessLine) : SourcesOk proc (state.publishLine proc number line) := by
  obtain ⟨hfiles, _, hsize, hdescribed, _, _, _, hphase, _⟩ :=
    publishLine_fields proc state number line
  exact {
    own := by
      rw [hphase]
      exact htracked.sources.own
    measured := by
      rw [hphase, hsize, hfiles]
      exact htracked.sources.measured
    distinct := by
      rw [hdescribed]
      exact htracked.sources.distinct
    idle := by
      rw [hphase, hsize]
      exact htracked.sources.idle }

theorem Tracked.backlog_publishLine (htracked : Tracked proc state) {number : ℕ}
    (hline : state.lines[number]? = some line)
    (hguard : DeliveryGuard proc state (.publish number)) :
    BacklogOk proc (state.publishLine proc number line) := by
  obtain ⟨hfiles, hlines, hsize, hdescribed, hleft, hbacklog, hpublished, hphase, hconnected,
    hended⟩ := publishLine_fields proc state number line
  obtain ⟨hbacklogLt, hpublishedLt, hsentLt⟩ := htracked.backlog.lt
  have hnumber : number < state.lines.length := (List.getElem?_eq_some_iff.mp hline).1
  have hpending : (state.publishLine proc number line).pendingTail proc =
      state.pendingTail proc := pendingTail_congr hphase hsize hfiles
  exact {
    described := by
      rw [hphase, hdescribed]
      exact htracked.backlog.described
    empty := by
      rw [hdescribed, hbacklog]
      exact htracked.backlog.empty
    lt := by
      rw [hlines, hbacklog, hpublished, publishLine_sent]
      refine ⟨hbacklogLt, ?_, ?_⟩
      · intro n hn
        rcases List.mem_cons.mp hn with rfl | hold
        · exact hnumber
        · exact hpublishedLt n hold
      · intro event hevent n hn
        split at hevent
        · rcases List.mem_append.mp hevent with hold | hnewEvent
          · exact hsentLt event hold n hn
          · rw [List.mem_singleton.mp hnewEvent, List.mem_singleton] at hn
            exact hn ▸ hnumber
        · exact hsentLt event hevent n hn
    read := by
      rw [hbacklog, hpending]
      intro n hn hexpected
      rw [expected_publishLine] at hexpected
      exact htracked.backlog.read n hn hexpected
    fresh := by
      rw [hbacklog, hpending]
      exact htracked.backlog.fresh
    connected := by
      rw [hconnected, hended, hleft]
      exact htracked.backlog.connected
    gone := by
      rw [hconnected, hleft, hlines]
      exact htracked.backlog.gone
    reached := by
      rw [hconnected, live_congr hphase, hbacklog, hpending, hpublished]
      intro hcon hprologue n hn hin
      rw [owed_publishLine] at hn
      rw [expected_publishLine]
      rcases List.mem_cons.mp hin with rfl | hold
      · have hcond := hguard hn
        rw [hprologue, if_neg (by decide)] at hcond
        rcases hcond with hin | hshows | hexpects
        · exact Or.inl (List.mem_append_left _ hin)
        · exact Or.inl (List.mem_append_right _ hshows.mem_pendingTail)
        · exact Or.inr hexpects
      · exact htracked.backlog.reached hcon hprologue n hn hold }

theorem Tracked.counts_publishLine (htracked : Tracked proc state) {number : ℕ}
    (hnew : number ∉ state.published)
    (hguard : DeliveryGuard proc state (.publish number)) :
    CountsOk (state.publishLine proc number line) := by
  obtain ⟨_, _, _, _, _, _, _, _, hconnected, _⟩ := publishLine_fields proc state number line
  have hother : ∀ n, ¬ (state.stream.live = true ∧ n = number) →
      state.stream.connected = true →
        (state.publishLine proc number line).timesSent n = state.timesSent n := by
    intro n hn hcon
    rw [timesSent_publishLine, listening_eq_live (htracked.backlog.connected hcon).1,
      if_neg fun hall => hn ⟨hall.1, hall.2.2⟩, add_zero]
  constructor
  · rw [hconnected]
    intro hcon n hn hset
    rw [owed_publishLine] at hn
    rw [settled_publishLine] at hset
    by_cases hthis : state.stream.live = true ∧ n = number
    · obtain ⟨hstreaming, rfl⟩ := hthis
      have hunread : n ∉ state.inBacklog := by
        have hcond := hguard hn
        rwa [hstreaming, if_pos rfl] at hcond
      have hzero := htracked.counts.never hcon n hn (by
        rintro (hin | ⟨_, hin⟩)
        · exact hunread hin
        · exact hnew hin)
      rw [timesSent_publishLine, listening_eq_live (htracked.backlog.connected hcon).1,
        if_pos ⟨hstreaming, hcon, rfl⟩, hzero]
    · rw [hother n hthis hcon]
      exact htracked.counts.once hcon n hn (hset.resolve_right hthis)
  · rw [hconnected]
    intro hcon n hn hset
    rw [owed_publishLine] at hn
    rw [settled_publishLine, not_or] at hset
    rw [hother n hset.2 hcon]
    exact htracked.counts.never hcon n hn hset.1
  · rw [hconnected]
    intro hgone n hn
    rw [owed_publishLine] at hn
    rw [timesSent_publishLine, if_neg (by simp [hgone]), add_zero]
    exact htracked.counts.left hgone n hn

theorem Tracked.publishLine (htracked : Tracked proc state) {number : ℕ}
    (hline : state.lines[number]? = some line) (hnew : number ∉ state.published)
    (hguard : DeliveryGuard proc state (.publish number)) :
    Tracked proc (state.publishLine proc number line) := by
  obtain ⟨hfiles, hlines, _⟩ := publishLine_fields proc state number line
  exact {
    files := htracked.files.congr hfiles hlines
    sources := htracked.sources_publishLine number line
    backlog := htracked.backlog_publishLine hline hguard
    counts := htracked.counts_publishLine hnew hguard }

/-! ## The prologue -/

theorem nextSource_some (hnext : nextSource rest = some (channel, sources)) :
    DeliveryState.sourceChannels rest =
      channel :: DeliveryState.sourceChannels sources := by
  induction rest with
  | nil => cases hnext
  | cons source others ih =>
      obtain ⟨path, own⟩ := source
      rw [nextSource] at hnext
      split at hnext
      · rename_i text htruthy
        obtain ⟨rfl, rfl⟩ := Prod.mk.inj (Option.some.inj hnext)
        simp [DeliveryState.sourceChannels, htruthy]
      · rename_i htruthy
        rw [← ih hnext]
        simp [DeliveryState.sourceChannels, htruthy]

theorem nextSource_none (hnext : nextSource rest = none) :
    DeliveryState.sourceChannels rest = [] := by
  induction rest with
  | nil => rfl
  | cons source others ih =>
      obtain ⟨path, own⟩ := source
      rw [nextSource] at hnext
      split at hnext
      · cases hnext
      · rename_i htruthy
        rw [← ih hnext]
        simp [DeliveryState.sourceChannels, htruthy]

theorem sources_nodup (proc : ProcessDetail) :
    (DeliveryState.sourceChannels proc.sources).Nodup := by
  unfold DeliveryState.sourceChannels ProcessDetail.sources
  cases hout : truthy proc.outLogPath <;> cases herr : truthy proc.errorLogPath <;>
    simp [hout, herr]

/-- Where the handler is after `proceed`. -/
theorem proceed_fields (stream : LogStream) (proc : ProcessDetail)
    (sources : List LogSource) :
    (stream.proceed proc sources).connected = stream.connected ∧
    (stream.proceed proc sources).writableEnded = stream.writableEnded ∧
    (stream.proceed proc sources).phase ≠ .describing ∧
    (∀ other channel rest,
      (stream.proceed proc sources).phase = .readingBacklog other channel rest →
      nextSource sources = some (channel, rest)) ∧
    ((stream.proceed proc sources).live = true →
      DeliveryState.sourceChannels sources = []) := by
  unfold LogStream.proceed
  split
  · rename_i channel rest hnext
    refine ⟨rfl, rfl, by simp, ?_, by simp [LogStream.live]⟩
    intro other own others hphase
    obtain ⟨_, rfl, rfl⟩ := StreamPhase.readingBacklog.inj hphase
    exact hnext
  · rename_i hnext
    split
    · exact ⟨rfl, rfl, by simp, by simp, by simp [LogStream.live]⟩
    · exact ⟨rfl, rfl, by simp, by simp, fun _ => nextSource_none hnext⟩

/-- After `proceed` the files to read are those of the sources. -/
theorem toRead_proceed {stream : LogStream} (hsize : next.size = none)
    (hstream : next.stream = stream.proceed proc sources) :
    next.toRead = DeliveryState.sourceChannels sources := by
  unfold DeliveryState.toRead DeliveryState.unmeasured
  rw [hsize, hstream]
  unfold LogStream.proceed
  cases hnext : nextSource sources with
  | some source => exact (nextSource_some hnext).symm
  | none =>
      rw [nextSource_none hnext]
      cases stream.writableEnded <;> rfl

theorem pendingTail_of_size (proc : ProcessDetail) (hsize : next.size = none) :
    next.pendingTail proc = [] := by
  unfold DeliveryState.pendingTail
  rw [hsize]
  split
  · rename_i heq
    cases heq
  · rfl

theorem proceed_own {stream : LogStream} {other : ProcessDetail}
    (hnodup : (DeliveryState.sourceChannels sources).Nodup)
    (hphase : (stream.proceed proc sources).phase = .readingBacklog other channel rest) :
    (channel :: DeliveryState.sourceChannels rest).Nodup := by
  obtain ⟨_, _, _, hreading, _⟩ := proceed_fields stream proc sources
  rwa [← nextSource_some (hreading other channel rest hphase)]

def DeliveryState.describe (proc : ProcessDetail) (state : DeliveryState) :
    DeliveryState :=
  { state with
    stream := state.stream.proceed proc proc.sources
    describedAt := some state.lines.length }

theorem Tracked.describe (htracked : Tracked proc state)
    (hphase : state.stream.phase = .describing)
    (hguard : DeliveryGuard proc state .describe) : Tracked proc (state.describe proc) := by
  have hnone := htracked.backlog.described.mp hphase
  have hsize : state.size = none := htracked.sources.idle (by simp [hphase])
  have hunowed : ∀ n, ¬ (state.describe proc).Owed n := by
    rintro n ⟨⟨first, hfirst, hle⟩, hlt, _⟩
    obtain rfl := Option.some.inj hfirst
    exact absurd hlt hle.not_gt
  obtain ⟨hconnected, hended, hother, hreading, hlive⟩ :=
    proceed_fields state.stream proc proc.sources
  refine ⟨htracked.files.congr rfl rfl, ?_, ?_, ?_⟩
  · exact {
      own := fun other channel rest hnext => proceed_own (sources_nodup proc) hnext
      measured := by
        intro other channel rest size path _ hmeasured
        rw [show (state.describe proc).size = none from hsize] at hmeasured
        cases hmeasured
      distinct := by
        intro _ channel other path hpath hsame
        rcases hguard with hout | hne
        · cases channel <;> cases other <;> simp_all
        · cases channel <;> cases other <;> simp_all
      idle := fun _ => hsize }
  · exact {
      described := by simp [DeliveryState.describe, hother]
      empty := by simp [DeliveryState.describe]
      lt := htracked.backlog.lt
      read := by
        rw [pendingTail_of_size proc (show (state.describe proc).size = none from hsize)]
        simp [DeliveryState.describe, htracked.backlog.empty hnone]
      fresh := by
        rw [pendingTail_of_size proc (show (state.describe proc).size = none from hsize)]
        simp
      connected := by
        simp only [DeliveryState.describe, hconnected, hended]
        exact htracked.backlog.connected
      gone := by
        simp only [DeliveryState.describe, hconnected]
        exact htracked.backlog.gone
      reached := fun _ _ n howed => absurd howed (hunowed n) }
  · exact ⟨fun _ n howed => absurd howed (hunowed n), fun _ n howed => absurd howed (hunowed n),
      fun _ n howed => absurd howed (hunowed n)⟩

theorem numbers_tailEvents (proc : ProcessDetail) (state : DeliveryState)
    (channel : LogChannel) (path : String) (size now : ℕ) :
    (state.tailEvents proc channel path size now).flatMap SentLine.numbers =
      tailNumbers (state.files path) size := by
  rw [DeliveryState.tailEvents, List.flatMap_map]
  rfl

theorem timesSent_readTail (hconnected : state.stream.connected = true) :
    (state.readTail proc channel rest path size now).timesSent n =
      state.timesSent n + (tailNumbers (state.files path) size).count n := by
  simp only [DeliveryState.timesSent, DeliveryState.readTail, DeliveryState.deliver, hconnected,
    if_true, List.flatMap_append, List.count_append, numbers_tailEvents]

section ReadTail

variable (htracked : Tracked proc state) {other : ProcessDetail}
  (hphase : state.stream.phase = .readingBacklog other channel rest)
  (hsize : state.size = some size) (hpath : proc.logPath channel = some path)
include htracked hphase hsize hpath

theorem Tracked.reached_readTail (hconnected : state.stream.connected = true)
    (howed : state.Owed n) (hpublished : n ∈ state.published) :
    n ∈ state.inBacklog ++ tailNumbers (state.files path) size ∨ state.Expected n := by
  have hlive : state.stream.live = false := by simp [LogStream.live, hphase]
  have hpending : state.pendingTail proc = tailNumbers (state.files path) size := by
    simp [DeliveryState.pendingTail, hphase, hsize, hpath]
  rw [← hpending]
  exact htracked.backlog.reached hconnected hlive n howed hpublished

theorem Tracked.backlog_readTail :
    BacklogOk proc (state.readTail proc channel rest path size now) := by
  have hdescribed : state.describedAt ≠ none := fun hnone => by
    rw [← htracked.backlog.described, hphase] at hnone
    cases hnone
  obtain ⟨hbacklogLt, hpublishedLt, hsentLt⟩ := htracked.backlog.lt
  have htoRead : state.toRead = DeliveryState.sourceChannels rest := by
    simp [DeliveryState.toRead, DeliveryState.unmeasured, hphase, hsize]
  have hpending : state.pendingTail proc = tailNumbers (state.files path) size := by
    simp [DeliveryState.pendingTail, hphase, hsize, hpath]
  have hnextSize : (state.readTail proc channel rest path size now).size = none := rfl
  have hnextRead : (state.readTail proc channel rest path size now).toRead =
      DeliveryState.sourceChannels rest := toRead_proceed hnextSize rfl
  have hnextPending := pendingTail_of_size proc hnextSize
  obtain ⟨hconnected, hended, hother, _, _⟩ := proceed_fields
    (state.stream.write ((state.tailEvents proc channel path size now).map
      fun event => .log event.line)) proc rest
  have htailLt : ∀ n ∈ tailNumbers (state.files path) size, n < state.lines.length :=
    fun n hn => htracked.files.lt ((tailNumbers_sublist _ _).subset hn)
  have hexpected : ∀ n, (state.readTail proc channel rest path size now).Expected n ↔
      state.Expected n := by
    intro n
    simp only [DeliveryState.Expected, hnextRead, htoRead]
    rfl
  exact {
    described := iff_of_false hother hdescribed
    empty := fun hnone => absurd hnone hdescribed
    lt := by
      refine ⟨?_, hpublishedLt, ?_⟩
      · intro n hn
        exact (List.mem_append.mp hn).elim (hbacklogLt n) (htailLt n)
      · intro event hevent n hn
        have hcase : event ∈ state.sent ∨
            event ∈ state.tailEvents proc channel path size now := by
          simp only [DeliveryState.readTail, DeliveryState.deliver] at hevent
          split at hevent
          · exact List.mem_append.mp hevent
          · exact Or.inl hevent
        rcases hcase with hold | hnew
        · exact hsentLt event hold n hn
        · apply htailLt n
          rw [← numbers_tailEvents proc state channel path size now]
          exact List.mem_flatMap.mpr ⟨event, hnew, hn⟩
    read := by
      rw [hnextPending, List.append_nil]
      intro n hn
      rw [hexpected]
      apply htracked.backlog.read n
      rw [hpending]
      exact hn
    fresh := by
      rw [hnextPending]
      simp
    connected := by
      simp only [DeliveryState.readTail, hconnected, hended]
      exact htracked.backlog.connected
    gone := by
      simp only [DeliveryState.readTail, hconnected]
      exact htracked.backlog.gone
    reached := by
      rw [hnextPending, List.append_nil]
      intro hcon _ n howed hpublished
      rw [hexpected]
      exact htracked.reached_readTail hphase hsize hpath (hconnected ▸ hcon) howed hpublished }

theorem Tracked.counts_readTail :
    CountsOk (state.readTail proc channel rest path size now) := by
  have hlive : state.stream.live = false := by simp [LogStream.live, hphase]
  have htoRead : state.toRead = DeliveryState.sourceChannels rest := by
    simp [DeliveryState.toRead, DeliveryState.unmeasured, hphase, hsize]
  have hpending : state.pendingTail proc = tailNumbers (state.files path) size := by
    simp [DeliveryState.pendingTail, hphase, hsize, hpath]
  obtain ⟨hconnected, _, _, _, hlast⟩ := proceed_fields
    (state.stream.write ((state.tailEvents proc channel path size now).map
      fun event => .log event.line)) proc rest
  have hunsettled : ∀ n, n ∉ state.inBacklog → ¬ state.Settled n := by
    rintro n hn (hin | ⟨hstreaming, _⟩)
    · exact hn hin
    · rw [hlive] at hstreaming
      cases hstreaming
  have hnodup : (tailNumbers (state.files path) size).Nodup :=
    (htracked.files.nodup path).sublist (tailNumbers_sublist _ _)
  constructor
  · intro hcon n howed hsettled
    have hconBefore : state.stream.connected = true := hconnected ▸ hcon
    rw [timesSent_readTail hconBefore]
    by_cases htail : n ∈ tailNumbers (state.files path) size
    · have hfresh := htracked.backlog.fresh n (hpending ▸ htail)
      rw [htracked.counts.never hconBefore n howed (hunsettled n hfresh),
        List.count_eq_one_of_mem hnodup htail]
    · have hin : n ∈ state.inBacklog := by
        rcases hsettled with hin | ⟨hstreaming, hpublished⟩
        · exact (List.mem_append.mp hin).resolve_right htail
        · rcases htracked.reached_readTail hphase hsize hpath hconBefore howed hpublished with
            hin | ⟨line, _, hchannel⟩
          · exact (List.mem_append.mp hin).resolve_right htail
          · rw [htoRead, hlast hstreaming] at hchannel
            cases hchannel
      rw [htracked.counts.once hconBefore n howed (Or.inl hin),
        List.count_eq_zero_of_not_mem htail]
  · intro hcon n howed hsettled
    have hconBefore : state.stream.connected = true := hconnected ▸ hcon
    have hout : n ∉ state.inBacklog ++ tailNumbers (state.files path) size :=
      fun hin => hsettled (Or.inl hin)
    rw [List.mem_append, not_or] at hout
    rw [timesSent_readTail hconBefore, List.count_eq_zero_of_not_mem hout.2, add_zero]
    exact htracked.counts.never hconBefore n howed (hunsettled n hout.1)
  · intro hgone n howed
    have hgoneBefore : state.stream.connected = false := hconnected ▸ hgone
    have hsame : (state.readTail proc channel rest path size now).timesSent n =
        state.timesSent n := by
      simp only [DeliveryState.timesSent, DeliveryState.readTail, DeliveryState.deliver,
        hgoneBefore, Bool.false_eq_true, if_false]
    rw [hsame]
    exact htracked.counts.left hgoneBefore n howed

theorem Tracked.readTail :
    Tracked proc (state.readTail proc channel rest path size now) := by
  have hown := htracked.sources.own other channel rest hphase
  have hnextSize : (state.readTail proc channel rest path size now).size = none := rfl
  exact {
    files := htracked.files.congr rfl rfl
    sources := {
      own := fun _ _ _ hnext => proceed_own (List.nodup_cons.mp hown).2 hnext
      measured := by
        intro _ _ _ size' _ _ hmeasured
        rw [hnextSize] at hmeasured
        cases hmeasured
      distinct := htracked.sources.distinct
      idle := fun _ => hnextSize }
    backlog := htracked.backlog_readTail hphase hsize hpath
    counts := htracked.counts_readTail hphase hsize hpath }

end ReadTail

/-! ## The client leaves -/

theorem Tracked.leave (htracked : Tracked proc state)
    (hconnected : state.stream.connected = true)
    (hguard : DeliveryGuard proc state .disconnect) : Tracked proc state.leave := by
  have howed : ∀ n, state.leave.Owed n → state.Owed n := by
    rintro n ⟨hfirst, hlt, _⟩
    refine ⟨hfirst, hlt, ?_⟩
    rw [(htracked.backlog.connected hconnected).2]
    simp
  refine ⟨htracked.files.congr rfl rfl, ?_, ?_, ?_⟩
  · exact ⟨htracked.sources.own, htracked.sources.measured, htracked.sources.distinct,
      htracked.sources.idle⟩
  · exact {
      described := htracked.backlog.described
      empty := htracked.backlog.empty
      lt := htracked.backlog.lt
      read := htracked.backlog.read
      fresh := htracked.backlog.fresh
      connected := by simp [DeliveryState.leave]
      gone := fun _ => ⟨state.lines.length, rfl, le_rfl⟩
      reached := by simp [DeliveryState.leave] }
  · refine ⟨by simp [DeliveryState.leave], by simp [DeliveryState.leave], ?_⟩
    intro _ n hn
    exact htracked.counts.once hconnected n (howed n hn) (hguard n (howed n hn))

/-! ## Runs -/

end Pm2Manager
