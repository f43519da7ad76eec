import Pm2Manager.TextLines
import Pm2Manager.Utf8

/-!
# The tail of a log file

`readTailLines` asks for the size of a file, allocates a buffer of zeros for
its end, reads into it, and decodes the whole buffer.  The lines of the text
are the decoded lines of the buffer, since a break is a byte of its own.
-/

namespace Pm2Manager

open TextLines Utf8

/-! ## `readTailLines` -/

def backlogLines : ℕ := 100

def backlogTailBytes : ℕ := 128 * 1024

def charKind (c : Char) : Kind :=
  if c = '\n' then .lf else if c = '\r' then .cr else .other

def tailStart (size : ℕ) : ℕ :=
  size - backlogTailBytes

/-- `Buffer.alloc(length)` after a read of fewer bytes. -/
def fillBuffer (length : ℕ) (bytes : List UInt8) : List UInt8 :=
  bytes ++ List.replicate (length - bytes.length) 0

/-- `buffer.toString('utf8')`. -/
def decode (bytes : List UInt8) : List Char :=
  (chunks id bytes).map Prod.fst

/-- Without a size the file could not be opened, without bytes not be read. -/
def readTailLines (size : Option ℕ) (read : ℕ → ℕ → Option (List UInt8)) :
    List (List Char) :=
  match size with
  | none => []
  | some size =>
    let start := tailStart size
    let length := size - start
    if length = 0 then []
    else
      match read length start with
      | none => []
      | some bytes =>
        tailLines charKind backlogLines (0 < start) (decode (fillBuffer length bytes))

/-- At most `length` bytes from `start` on, of which the read gives `got`. -/
def readOf (file : List UInt8) (got : ℕ) (length start : ℕ) : Option (List UInt8) :=
  some ((file.drop start).take (min got length))

/-! ## Lines of bytes -/

def byteKind (byte : UInt8) : Kind :=
  if byte = 10 then .lf else if byte = 13 then .cr else .other

theorem byteKind_ascii {byte : UInt8} (hkind : byteKind byte ≠ .other) :
    byte.toNat < 128 ∧ charKind (Char.ofNat byte.toNat) = byteKind byte := by
  by_cases hlf : byte = 10
  · subst hlf
    decide
  · by_cases hcr : byte = 13
    · subst hcr
      decide
    · simp [byteKind, hlf, hcr] at hkind

section Lines

variable {β : Type*} (byte : β → UInt8)

/-- A character which breaks lines is a byte which does. -/
theorem charKind_chunk {bytes : List β} {chunk : Char × List β}
    (hchunk : chunk ∈ chunks byte bytes) (hkind : charKind chunk.1 ≠ .other) :
    ∃ b, chunk.2 = [b] ∧ byteKind (byte b) = charKind chunk.1 := by
  have hcode : chunk.1 = '\n' ∨ chunk.1 = '\r' := by
    unfold charKind at hkind
    split at hkind
    · exact Or.inl ‹_›
    · split at hkind
      · exact Or.inr ‹_›
      · exact absurd rfl hkind
  rcases hcode with hlf | hcr
  · obtain ⟨b, hb, hbyte⟩ := chunks_own hchunk (by rw [hlf]; decide)
    rw [hlf] at hbyte ⊢
    have : byte b = 10 := UInt8.toNat_inj.mp hbyte
    exact ⟨b, hb, by rw [this]; rfl⟩
  · obtain ⟨b, hb, hbyte⟩ := chunks_own hchunk (by rw [hcr]; decide)
    rw [hcr] at hbyte ⊢
    have : byte b = 13 := UInt8.toNat_inj.mp hbyte
    exact ⟨b, hb, by rw [this]; rfl⟩

theorem chunks_no_break {bytes : List β} (hbytes : ∀ b ∈ bytes, byteKind (byte b) ≠ .lf) :
    ∀ chunk ∈ chunks byte bytes, charKind chunk.1 ≠ .lf := by
  intro chunk hchunk hkind
  obtain ⟨b, hb, hbyte⟩ := charKind_chunk byte hchunk (by rw [hkind]; decide)
  have hmem : b ∈ (chunks byte bytes).flatMap Prod.snd :=
    List.mem_flatMap.mpr ⟨chunk, hchunk, hb ▸ List.mem_singleton_self b⟩
  rw [chunks_bytes] at hmem
  exact hbytes b hmem (hbyte.trans hkind)

theorem stripCr_chunks (bytes : List β) :
    stripCr (fun chunk => charKind chunk.1) (chunks byte bytes) =
      chunks byte (stripCr (fun b => byteKind (byte b)) bytes) := by
  rcases List.eq_nil_or_concat bytes with rfl | ⟨before, b, rfl⟩
  · rfl
  rw [List.concat_eq_append]
  by_cases hcr : byteKind (byte b) = .cr
  · obtain ⟨hascii, hkind⟩ := byteKind_ascii (by rw [hcr]; decide)
    rw [chunks_append_ascii before [] hascii, show chunks byte [] = [] from rfl,
      stripCr_append_cr before hcr]
    exact stripCr_append_cr _ (hkind.trans hcr)
  · have hlast : (chunks byte (before ++ [b])).getLast?.map
        (fun chunk => charKind chunk.1) ≠ some .cr := by
      intro heq
      obtain ⟨chunk, hchunk, hkind⟩ := Option.map_eq_some_iff.mp heq
      obtain ⟨cs, hcs⟩ := List.getLast?_eq_some_iff.mp hchunk
      obtain ⟨b', hb', hbyte⟩ := charKind_chunk byte
        (List.mem_of_getLast? hchunk) (by rw [hkind]; decide)
      have hbytes := chunks_bytes byte (before ++ [b])
      rw [hcs, List.flatMap_append, List.flatMap_singleton, hb'] at hbytes
      have hsame : b' = b := by simpa using (List.append_inj' hbytes rfl).2
      exact hcr (hsame ▸ hbyte.trans hkind)
    rw [stripCr, if_neg hlast, stripCr_append_ne before hcr]

theorem splitBreaks_chunks (bytes : List β) :
    splitBreaks (fun chunk => charKind chunk.1) (chunks byte bytes) =
      (splitBreaks (fun b => byteKind (byte b)) bytes).map (chunks byte) := by
  induction bytes using lines_induction (fun b => byteKind (byte b)) with
  | last line hline =>
      rw [splitBreaks_no_break hline, splitBreaks_no_break (chunks_no_break byte hline)]
      rfl
  | line line b rest hline hb ih =>
      obtain ⟨hascii, hkind⟩ := byteKind_ascii (by rw [hb]; decide)
      rw [chunks_append_ascii line rest hascii, splitBreaks_line hline hb,
        splitBreaks_line (chunks_no_break byte hline) (hkind.trans hb), ih,
        stripCr_chunks]
      rfl

/-- The last lines of a decoded text are decoded lines of the bytes. -/
theorem tailLines_chunks (n : ℕ) (midway : Bool) (bytes : List β) :
    tailLines (fun chunk => charKind chunk.1) n midway (chunks byte bytes) =
      (tailLines (fun b => byteKind (byte b)) n midway bytes).map (chunks byte) :=
  tailLines_of_lines n midway _ (fun _ => chunks_eq_nil byte) (splitBreaks_chunks byte bytes)

end Lines

theorem tailLines_decode (n : ℕ) (midway : Bool) (bytes : List UInt8) :
    tailLines charKind n midway (decode bytes) =
      (tailLines byteKind n midway bytes).map decode := by
  rw [decode, tailLines_map, tailLines_chunks, List.map_map]
  rfl

/-! ## A file which does not change -/

def beginsFrom (offset : ℕ) (line : List (UInt8 × ℕ)) : Bool :=
  line.head?.any fun b => offset ≤ b.2

/-- The lines which are not empty and begin at or after an offset. -/
def linesBeginningAt (file : List UInt8) (offset : ℕ) : List (List UInt8) :=
  ((splitBreaks (fun b => byteKind b.1) file.zipIdx).filter (beginsFrom offset)).map
    (List.map Prod.fst)

/-- The offset lies within a line, with more of that line after it than its
break. -/
def CutsLine (file : List UInt8) (offset : ℕ) : Prop :=
  file[offset - 1]? ≠ some 10 ∧
  file[offset]? ≠ some 10 ∧ ¬ (file[offset]? = some 13 ∧ file[offset + 1]? = some 10)

@[simp] theorem byteKind_eq_lf {byte : UInt8} : byteKind byte = .lf ↔ byte = 10 := by
  unfold byteKind
  split
  · simpa
  · split <;> simpa

@[simp] theorem byteKind_eq_cr {byte : UInt8} : byteKind byte = .cr ↔ byte = 13 := by
  unfold byteKind
  split
  · rename_i hlf
    simp [hlf]
  · split <;> simpa

theorem firstLine_eq_nil {text : List UInt8} (hne : text ≠ []) :
    (splitBreaks byteKind text).head? = some [] ↔
      text[0]? = some 10 ∨ (text[0]? = some 13 ∧ text[1]? = some 10) := by
  obtain ⟨x, rest, rfl⟩ := List.exists_cons_of_ne_nil hne
  have hcrlf : (byteKind x = .cr ∧ rest.head?.map byteKind = some .lf) ↔
      x = 13 ∧ rest[0]? = some 10 := by
    cases rest <;> simp
  simp only [List.getElem?_cons_zero, Option.some.injEq, List.getElem?_cons_succ]
  rw [splitBreaks]
  split
  · rename_i hlf
    simp [byteKind_eq_lf.mp hlf]
  · rename_i hlf
    rw [byteKind_eq_lf] at hlf
    split
    · rename_i hcr
      have hboth := hcrlf.mp hcr
      obtain ⟨y, others, rfl⟩ := List.exists_cons_of_ne_nil
        (show rest ≠ [] by rintro rfl; simp at hboth)
      have hy : y = 10 := by simpa using hboth.2
      simp [splitBreaks, hy, hboth.1]
    · rename_i hcr
      rw [hcrlf] at hcr
      obtain ⟨first, others, heq⟩ := List.exists_cons_of_ne_nil
        (splitBreaks_ne_nil byteKind rest)
      simp [heq, hlf, hcr]

theorem filter_beginsFrom_early {offset : ℕ} {lines : List (List (UInt8 × ℕ))}
    (hearly : ∀ line ∈ lines, ∀ b, line.head? = some b → b.2 < offset) :
    lines.filter (beginsFrom offset) = [] := by
  refine List.filter_eq_nil_iff.mpr fun line hline hbegins => ?_
  cases line with
  | nil => simp [beginsFrom] at hbegins
  | cons b rest =>
      have hlt := hearly _ hline b rfl
      simp only [beginsFrom, List.head?_cons, Option.any_some, decide_eq_true_eq] at hbegins
      omega

theorem filter_beginsFrom_late {offset : ℕ} {lines : List (List (UInt8 × ℕ))}
    (hlate : ∀ line ∈ lines, ∀ b ∈ line, offset ≤ b.2) :
    (lines.filter (beginsFrom offset)).map (List.map Prod.fst) =
      (lines.map (List.map Prod.fst)).filter fun line => !line.isEmpty := by
  rw [List.filter_map]
  congr 1
  apply List.filter_congr
  intro line hline
  cases line with
  | nil => rfl
  | cons b rest => simp [beginsFrom, hlate _ hline b List.mem_cons_self]

theorem zipIdx_split {file : List UInt8} {start : ℕ} (hstart : start ≤ file.length) :
    file.zipIdx = (file.take start).zipIdx ++ (file.drop start).zipIdx start := by
  conv_lhs => rw [← List.take_append_drop start file]
  rw [List.zipIdx_append, List.length_take, min_eq_left hstart, Nat.zero_add]

/-- The byte before an offset. -/
theorem exists_byte_before {file : List UInt8} {start : ℕ} (hpos : 0 < start)
    (hstart : start < file.length) :
    ∃ before b, (file.take start).zipIdx = before ++ [b] ∧ file[start - 1]? = some b.1 := by
  rcases List.eq_nil_or_concat (file.take start).zipIdx with hnil | ⟨before, b, heq⟩
  · have hlength := congrArg List.length hnil
    rw [List.length_zipIdx, List.length_take, List.length_nil] at hlength
    omega
  rw [List.concat_eq_append] at heq
  refine ⟨before, b, heq, ?_⟩
  have hlast : (file.take start).getLast? = some b.1 := by
    rw [← List.zipIdx_map_fst 0 (file.take start), heq, List.map_append]
    exact List.getLast?_concat
  rw [List.getLast?_take, if_neg hpos.ne',
    List.getElem?_eq_getElem (show start - 1 < file.length by omega)] at hlast
  rw [List.getElem?_eq_getElem (show start - 1 < file.length by omega)]
  exact hlast

/-- The lines from an offset on are those of the bytes from there on, without
the first where the offset lies within a line. -/
theorem linesBeginningAt_eq (file : List UInt8) (start : ℕ) (hstart : start < file.length) :
    linesBeginningAt file start =
      ((if start = 0 ∨ file[start - 1]? = some 10
        then splitBreaks byteKind (file.drop start)
        else (splitBreaks byteKind (file.drop start)).tail).filter
          fun line => !line.isEmpty) := by
  have hsplit := zipIdx_split hstart.le
  have hlines : splitBreaks byteKind (file.drop start) =
      (splitBreaks (fun b => byteKind b.1) ((file.drop start).zipIdx start)).map
        (List.map Prod.fst) := by
    conv_lhs => rw [← List.zipIdx_map_fst start (file.drop start)]
    exact splitBreaks_map byteKind Prod.fst _
  have hlate : ∀ line ∈ splitBreaks (fun b => byteKind b.1)
      ((file.drop start).zipIdx start), ∀ b ∈ line, start ≤ b.2 := fun line hline b hb =>
    List.le_snd_of_mem_zipIdx ((splitBreaks_isInfix _ line hline).subset hb)
  have hearly : ∀ b ∈ (file.take start).zipIdx, b.2 < start := by
    intro b hb
    have hlt := List.snd_lt_of_mem_zipIdx hb
    rw [List.length_take] at hlt
    omega
  rcases Nat.eq_zero_or_pos start with hzero | hpos
  · rw [if_pos (Or.inl hzero), hlines, ← filter_beginsFrom_late hlate, linesBeginningAt]
    rw [hsplit, hzero]
    rfl
  obtain ⟨before, b, heq, hb⟩ := exists_byte_before hpos hstart
  by_cases hlf : b.1 = 10
  · obtain ⟨closed, hclosed, hmem⟩ := splitBreaks_after_break
      (fun b : UInt8 × ℕ => byteKind b.1) before (byteKind_eq_lf.mpr hlf)
      ((file.drop start).zipIdx start)
    have hnone : closed.filter (beginsFrom start) = [] := by
      refine filter_beginsFrom_early fun line hline c hc => ?_
      have hbefore := hmem line hline c (List.mem_of_mem_head? hc)
      exact hearly c (heq ▸ List.mem_append_left _ hbefore)
    rw [if_pos (Or.inr (hb.trans (congrArg some hlf))), hlines,
      ← filter_beginsFrom_late hlate, linesBeginningAt, hsplit, heq, List.append_assoc,
      List.singleton_append, hclosed, List.filter_append, hnone, List.nil_append]
  · obtain ⟨closed, first, hclosed, hmem, hfirst⟩ := splitBreaks_within_line
      (fun b : UInt8 × ℕ => byteKind b.1) (file.take start).zipIdx (by simp [heq])
      (by simpa [heq] using hlf)
      ((file.drop start).zipIdx start)
    have hnone : (closed ++ [first]).filter (beginsFrom start) = [] := by
      refine filter_beginsFrom_early fun line hline c hc => ?_
      rcases List.mem_append.mp hline with hold | hnew
      · exact hearly c (hmem line hold c (List.mem_of_mem_head? hc))
      · rw [List.mem_singleton] at hnew
        exact hearly c (hfirst c (hnew ▸ hc))
    have hoff : ¬ (start = 0 ∨ file[start - 1]? = some 10) := by
      rw [hb, Option.some.injEq]
      exact not_or.mpr ⟨hpos.ne', hlf⟩
    rw [if_neg hoff, hlines, ← List.map_tail,
      ← filter_beginsFrom_late fun line hline => hlate line (List.mem_of_mem_tail hline),
      linesBeginningAt, hsplit, hclosed, List.append_cons, List.filter_append, hnone,
      List.nil_append]

theorem fillBuffer_full {length : ℕ} {bytes : List UInt8} (hfull : bytes.length = length) :
    fillBuffer length bytes = bytes := by
  rw [fillBuffer, hfull, Nat.sub_self, List.replicate_zero, List.append_nil]

theorem readTailLines_unchanged (file : List UInt8) :
    readTailLines (some file.length) (readOf file file.length) =
      (tailLines byteKind backlogLines (0 < tailStart file.length)
        (file.drop (tailStart file.length))).map decode := by
  rw [← tailLines_decode]
  simp only [readTailLines, readOf]
  split
  · rename_i hzero
    have hempty : file.drop (tailStart file.length) = [] :=
      List.drop_eq_nil_iff.mpr (Nat.sub_eq_zero_iff_le.mp hzero)
    rw [hempty]
    cases decide (0 < tailStart file.length) <;> rfl
  · have hbytes : (file.drop (tailStart file.length)).take
        (min file.length (file.length - tailStart file.length)) =
          file.drop (tailStart file.length) := by
      apply List.take_of_length_le
      rw [List.length_drop]
      omega
    rw [hbytes, fillBuffer_full List.length_drop]

/-- What is dropped with the first line: the rest of the line which is cut, or
a whole line. -/
theorem window_lines (file : List UInt8) {start : ℕ} (hpos : 0 < start)
    (hstart : start < file.length) :
    (CutsLine file start ∧
      ((splitBreaks byteKind (file.drop start)).filter fun line => !line.isEmpty).tail =
        linesBeginningAt file start) ∨
    (¬ CutsLine file start ∧
      ((splitBreaks byteKind (file.drop start)).filter fun line => !line.isEmpty) =
        linesBeginningAt file start) := by
  have hne : file.drop start ≠ [] := by
    rw [ne_eq, List.drop_eq_nil_iff]
    omega
  have hempty := firstLine_eq_nil hne
  simp only [List.getElem?_drop, add_zero] at hempty
  have hcuts : CutsLine file start ↔ file[start - 1]? ≠ some 10 ∧
      (splitBreaks byteKind (file.drop start)).head? ≠ some [] := by
    rw [ne_eq (splitBreaks byteKind (file.drop start)).head?, hempty, not_or]
    rfl
  rw [hcuts, linesBeginningAt_eq file start hstart]
  by_cases hlf : file[start - 1]? = some 10
  · refine Or.inr ⟨fun hboth => hboth.1 hlf, ?_⟩
    rw [if_pos (Or.inr hlf)]
  · rw [if_neg (not_or.mpr ⟨hpos.ne', hlf⟩)]
    obtain ⟨first, rest, heq⟩ := List.exists_cons_of_ne_nil
      (splitBreaks_ne_nil byteKind (file.drop start))
    rw [heq]
    cases first with
    | nil => exact Or.inr ⟨by simp, by simp⟩
    | cons b line => exact Or.inl ⟨⟨hlf, by simp⟩, by simp⟩

/-- The tail of a file which does not change is exact unless a whole line is
dropped, and fewer lines follow it than are shown. -/
theorem readTailLines_exact_iff (file : List UInt8) :
    readTailLines (some file.length) (readOf file file.length) =
        lastN backlogLines
          ((linesBeginningAt file (tailStart file.length)).map decode) ↔
      tailStart file.length = 0 ∨ CutsLine file (tailStart file.length) ∨
        linesBeginningAt file (tailStart file.length) = [] ∨
        backlogLines < (linesBeginningAt file (tailStart file.length)).length := by
  rw [readTailLines_unchanged, tailLines, ← lastN_map]
  rcases Nat.eq_zero_or_pos (tailStart file.length) with hzero | hpos
  · refine iff_of_true ?_ (Or.inl hzero)
    rw [hzero]
    cases file with
    | nil => rfl
    | cons b rest =>
        rw [linesBeginningAt_eq (b :: rest) 0 (by simp), if_pos (Or.inl rfl)]
        rfl
  · have hstart : tailStart file.length < file.length := by
      unfold tailStart backlogTailBytes at *
      omega
    rw [if_pos (decide_eq_true hpos), or_iff_right hpos.ne']
    rcases window_lines file hpos hstart with ⟨hcuts, hlines⟩ | ⟨hcuts, hlines⟩
    · rw [hlines]
      exact iff_of_true rfl (Or.inl hcuts)
    · rw [hlines, List.map_tail, lastN_tail_iff, List.map_eq_nil_iff, List.length_map,
        or_iff_right hcuts]

def breakThenLine (n : ℕ) : List UInt8 :=
  10 :: (List.replicate n 97 ++ [10])

theorem breakThenLine_lines {n : ℕ} (hn : 0 < n) :
    ((splitBreaks byteKind ((breakThenLine n).drop 1)).filter
      fun line => !line.isEmpty) = [List.replicate n 97] := by
  have hkind : ∀ x ∈ List.replicate n (97 : UInt8), byteKind x = .other := by
    intro x hx
    rw [List.eq_of_mem_replicate hx]
    rfl
  have hsplit : splitBreaks byteKind (List.replicate n 97 ++ [10]) =
      [List.replicate n 97, []] := by
    rw [splitBreaks_line (fun x hx => by simp [hkind x hx]) (by rfl),
      stripCr_no_cr fun x hx => by simp [hkind x hx]]
    rfl
  rw [breakThenLine, List.drop_succ_cons, List.drop_zero, hsplit]
  simp [hn.ne']

/-- The window begins with a whole line, which is the only one. -/
theorem readTailLines_drops_whole_line :
    readTailLines (some (breakThenLine 131071).length)
        (readOf (breakThenLine 131071) (breakThenLine 131071).length) ≠
      lastN backlogLines ((linesBeginningAt (breakThenLine 131071)
        (tailStart (breakThenLine 131071).length)).map decode) := by
  have hlength : (breakThenLine 131071).length = 131073 := by
    rw [breakThenLine, List.length_cons, List.length_append, List.length_replicate,
      List.length_singleton]
  have hstart : tailStart (breakThenLine 131071).length = 1 := by
    rw [hlength]
    rfl
  have hlines := breakThenLine_lines (show 0 < 131071 by norm_num)
  have hbreak : (breakThenLine 131071)[1 - 1]? = some 10 := rfl
  have hbegin : linesBeginningAt (breakThenLine 131071) 1 =
      [List.replicate 131071 97] := by
    rw [linesBeginningAt_eq _ 1 (by rw [hlength]; norm_num), if_pos (Or.inr hbreak),
      hlines]
  rw [readTailLines_unchanged, hstart, tailLines, hlines, hbegin]
  intro heq
  have := congrArg List.length heq
  rw [List.length_map, length_lastN, length_lastN] at this
  exact absurd this (by decide)

/-! ## A file which changes before the read -/

/-- `readTailLines` with the bytes of each character, and their places among
the bytes of the buffer. -/
def tailChunks (size : ℕ) (bytes : List UInt8) : List (List (Char × List (UInt8 × ℕ))) :=
  let start := tailStart size
  let length := size - start
  if length = 0 then []
  else
    tailLines (fun chunk => charKind chunk.1) backlogLines (0 < start)
      (chunks Prod.fst (fillBuffer length bytes).zipIdx)

theorem decode_zipIdx (bytes : List UInt8) :
    (chunks Prod.fst bytes.zipIdx).map Prod.fst = decode bytes := by
  conv_rhs => rw [decode, ← List.zipIdx_map_fst 0 bytes, chunks_map, List.map_map]
  rfl

theorem readTailLines_eq_tailChunks (size : ℕ) (bytes : List UInt8) :
    readTailLines (some size) (fun _ _ => some bytes) =
      (tailChunks size bytes).map (List.map Prod.fst) := by
  simp only [readTailLines, tailChunks]
  split
  · rfl
  · rw [← decode_zipIdx, tailLines_map]

/-- The bytes which `readOf` gives for the window of the file at `stat`. -/
def bytesRead (atStat atRead : List UInt8) (got : ℕ) : List UInt8 :=
  (atRead.drop (tailStart atStat.length)).take
    (min got (atStat.length - tailStart atStat.length))

/-- A line is the decoding of bytes which have been read. -/
def DecodedFrom (bytes : List UInt8) (line : List (Char × List (UInt8 × ℕ))) : Prop :=
  ∃ source, source <:+: bytes.zipIdx ∧ line = chunks Prod.fst source

/-- The lines which the bytes complete. -/
def completedLines (bytes : List UInt8) : List (List UInt8) :=
  (splitBreaks byteKind bytes).dropLast

theorem DecodedFrom.read {bytes : List UInt8} {line : List (Char × List (UInt8 × ℕ))}
    (hline : DecodedFrom bytes line) :
    ∀ chunk ∈ line, ∀ b ∈ chunk.2, b.2 < bytes.length := by
  obtain ⟨source, hsource, rfl⟩ := hline
  intro chunk hchunk b hb
  have hmem : b ∈ (chunks Prod.fst source).flatMap Prod.snd :=
    List.mem_flatMap.mpr ⟨chunk, hchunk, hb⟩
  rw [chunks_bytes] at hmem
  exact List.snd_lt_of_mem_zipIdx (hsource.subset hmem)

theorem tailChunks_eq {size : ℕ} (hsize : size - tailStart size ≠ 0) (bytes : List UInt8) :
    tailChunks size bytes =
      (tailLines (fun b => byteKind b.1) backlogLines (0 < tailStart size)
        (fillBuffer (size - tailStart size) bytes).zipIdx).map (chunks Prod.fst) := by
  rw [tailChunks, if_neg hsize, tailLines_chunks]

/-- After a short read the rest of the buffer belongs to the last line. -/
theorem shortRead_lines {length : ℕ} {bytes : List UInt8} (hshort : bytes.length < length) :
    ∃ closed last, splitBreaks (fun b => byteKind b.1) (fillBuffer length bytes).zipIdx =
        closed ++ [last] ∧
      closed.map (List.map Prod.fst) = completedLines bytes ∧
      ∃ b ∈ last, bytes.length ≤ b.2 := by
  have hzip : (fillBuffer length bytes).zipIdx = bytes.zipIdx ++
      (List.replicate (length - bytes.length) (0 : UInt8)).zipIdx bytes.length := by
    rw [fillBuffer, List.zipIdx_append, Nat.zero_add]
  obtain ⟨closed, last, hbefore, happend⟩ := splitBreaks_append_no_break
    (fun b : UInt8 × ℕ => byteKind b.1) bytes.zipIdx
    ((List.replicate (length - bytes.length) (0 : UInt8)).zipIdx bytes.length) (by
      intro b hb
      rw [List.eq_of_mem_replicate (List.fst_mem_of_mem_zipIdx hb)]
      decide)
  refine ⟨closed, _, hzip ▸ happend, ?_, (0, bytes.length), ?_, le_rfl⟩
  · have hlines := splitBreaks_map byteKind Prod.fst bytes.zipIdx
    rw [List.zipIdx_map_fst, hbefore, List.map_append] at hlines
    rw [completedLines, hlines]
    exact List.dropLast_concat.symm
  · apply List.mem_append_right
    obtain ⟨n, hn⟩ := Nat.exists_eq_succ_of_ne_zero
      (show length - bytes.length ≠ 0 by omega)
    rw [hn, List.replicate_succ, List.zipIdx_cons]
    exact List.mem_cons_self

theorem tailChunks_read_iff {size : ℕ} {bytes : List UInt8}
    (hread : bytes.length ≤ size - tailStart size) :
    (∀ line ∈ tailChunks size bytes, DecodedFrom bytes line) ↔
      bytes.length = size - tailStart size ∨
        (0 < tailStart size ∧ ∀ line ∈ completedLines bytes, line = []) := by
  rcases Nat.eq_zero_or_pos (size - tailStart size) with hzero | hpos
  · refine iff_of_true ?_ (Or.inl (by omega))
    simp [tailChunks, hzero]
  rw [tailChunks_eq hpos.ne']
  rcases hread.eq_or_lt with hfull | hshort
  · refine iff_of_true ?_ (Or.inl hfull)
    intro line hline
    obtain ⟨source, hsource, rfl⟩ := List.mem_map.mp hline
    rw [fillBuffer_full hfull] at hsource
    exact ⟨source, splitBreaks_isInfix _ _ (mem_of_mem_tailLines hsource), rfl⟩
  rw [or_iff_right hshort.ne]
  obtain ⟨closed, last, hlines, hclosed, b, hb, hbeyond⟩ := shortRead_lines hshort
  have hlast : last ≠ [] := List.ne_nil_of_mem hb
  have hnot : ¬ DecodedFrom bytes (chunks Prod.fst last) := by
    intro hdecoded
    have hmem : b ∈ (chunks Prod.fst last).flatMap Prod.snd := by
      rwa [chunks_bytes]
    obtain ⟨chunk, hchunk, hin⟩ := List.mem_flatMap.mp hmem
    exact absurd (hdecoded.read chunk hchunk b hin) (not_lt.mpr hbeyond)
  have hfilter : (closed ++ [last]).filter (fun line => !line.isEmpty) =
      (closed.filter fun line => !line.isEmpty) ++ [last] := by
    have hfalse : last.isEmpty = false := List.isEmpty_eq_false_iff.mpr hlast
    rw [List.filter_append, List.filter_singleton, hfalse]
    rfl
  have hempty : (∀ line ∈ completedLines bytes, line = []) ↔
      (closed.filter fun line => !line.isEmpty) = [] := by
    rw [← hclosed, List.filter_eq_nil_iff]
    simp
  rw [hempty, tailLines, hlines, hfilter]
  constructor
  · intro hall
    by_contra hcond
    refine hnot (hall _ (List.mem_map_of_mem ?_))
    split
    · rename_i hmidway
      have hsome : (closed.filter fun line => !line.isEmpty) ≠ [] :=
        fun hnil => hcond ⟨of_decide_eq_true hmidway, hnil⟩
      rw [List.tail_append_of_ne_nil hsome]
      exact mem_lastN _ [] last (by decide)
    · exact mem_lastN _ [] last (by decide)
  · rintro ⟨hmidway, hnil⟩ line hline
    rw [if_pos (decide_eq_true hmidway), hnil] at hline
    simp [lastN] at hline

/-- Whatever the read gives of a file: the lines come from its bytes exactly
when it fills the buffer, or when the only line left is dropped. -/
theorem readTailLines_from_read_iff (atStat atRead : List UInt8) (got : ℕ) :
    readTailLines (some atStat.length) (readOf atRead got) =
        (tailChunks atStat.length (bytesRead atStat atRead got)).map (List.map Prod.fst) ∧
    ((∀ line ∈ tailChunks atStat.length (bytesRead atStat atRead got),
        DecodedFrom (bytesRead atStat atRead got) line) ↔
      (bytesRead atStat atRead got).length = atStat.length - tailStart atStat.length ∨
        (0 < tailStart atStat.length ∧
          ∀ line ∈ completedLines (bytesRead atStat atRead got), line = [])) := by
  refine ⟨?_, tailChunks_read_iff ?_⟩
  · rw [← readTailLines_eq_tailChunks]
    simp only [readTailLines, readOf, bytesRead]
  · rw [bytesRead, List.length_take]
    omega

/-- A file of two bytes which has lost one when it is read. -/
theorem readTailLines_of_truncated :
    readTailLines (some [97, 97].length) (readOf [97] 2) = [['a', '\x00']] ∧
    ¬ ∀ line ∈ tailChunks [97, 97].length (bytesRead [97, 97] [97] 2),
      DecodedFrom (bytesRead [97, 97] [97] 2) line := by
  refine ⟨by decide, fun hall => ?_⟩
  have hline : [('a', [(97, 0)]), ('\x00', [(0, 1)])] ∈
      tailChunks [97, 97].length (bytesRead [97, 97] [97] 2) := by decide
  have hread := (hall _ hline).read ('\x00', [(0, 1)]) (by simp) (0, 1) (by simp)
  exact absurd hread (by decide)

end Pm2Manager
