import Mathlib.Data.List.Basic
import Mathlib.Data.Nat.Notation

/-!
# Lines of a text

Splitting at line feeds, each with a carriage return before it or not.  The
items of the text are of any type, with a classification which says what breaks
lines.
-/

namespace TextLines

inductive Kind
  | lf | cr | other
deriving DecidableEq, Repr

variable {α β : Type*}

/-- A carriage return right before a line feed belongs to the break. -/
def splitBreaks (kind : α → Kind) : List α → List (List α)
  | [] => [[]]
  | x :: rest =>
    if kind x = .lf then [] :: splitBreaks kind rest
    else if kind x = .cr ∧ rest.head?.map kind = some .lf then splitBreaks kind rest
    else (splitBreaks kind rest).modifyHead (List.cons x)

def stripCr (kind : α → Kind) (line : List α) : List α :=
  if line.getLast?.map kind = some .cr then line.dropLast else line

def lastN (n : ℕ) (items : List α) : List α :=
  items.drop (items.length - n)

/-- The last of the lines which are not empty, without the first of a text
which does not begin at its beginning. -/
def tailLines (kind : α → Kind) (n : ℕ) (midway : Bool) (text : List α) :
    List (List α) :=
  let lines := (splitBreaks kind text).filter fun line => !line.isEmpty
  lastN n (if midway then lines.tail else lines)

variable {kind : α → Kind}

/-- Line by line: a text without a break, or a line, its break and a text. -/
theorem lines_induction (kind : α → Kind) {motive : List α → Prop}
    (last : ∀ line, (∀ x ∈ line, kind x ≠ .lf) → motive line)
    (line : ∀ line b rest, (∀ x ∈ line, kind x ≠ .lf) → kind b = .lf → motive rest →
      motive (line ++ b :: rest)) :
    ∀ text, motive text := by
  have hprefix : ∀ text before : List α, (∀ x ∈ before, kind x ≠ .lf) →
      motive (before ++ text) := by
    intro text
    induction text with
    | nil =>
        intro before hbefore
        rw [List.append_nil]
        exact last before hbefore
    | cons b rest ih =>
        intro before hbefore
        by_cases hb : kind b = .lf
        · exact line before b rest hbefore hb (ih [] (by simp))
        · have hmore : ∀ x ∈ before ++ [b], kind x ≠ .lf := by
            intro x hx
            rcases List.mem_append.mp hx with hold | hnew
            · exact hbefore x hold
            · rwa [List.mem_singleton.mp hnew]
          rw [← List.singleton_append, ← List.append_assoc]
          exact ih (before ++ [b]) hmore
  exact fun text => hprefix text [] (by simp)

theorem stripCr_isPrefix (kind : α → Kind) (line : List α) : stripCr kind line <+: line := by
  unfold stripCr
  split
  · exact List.dropLast_prefix line
  · exact List.prefix_refl line

theorem stripCr_no_cr {line : List α} (hline : ∀ x ∈ line, kind x ≠ .cr) :
    stripCr kind line = line := by
  unfold stripCr
  split
  · rename_i hcr
    obtain ⟨x, hx, hkind⟩ := Option.map_eq_some_iff.mp hcr
    exact absurd hkind (hline x (List.mem_of_getLast? hx))
  · rfl

theorem stripCr_append_cr (line : List α) {b : α} (hcr : kind b = .cr) :
    stripCr kind (line ++ [b]) = line := by
  simp [stripCr, hcr]

theorem stripCr_append_ne (line : List α) {b : α} (hcr : kind b ≠ .cr) :
    stripCr kind (line ++ [b]) = line ++ [b] := by
  simp [stripCr, hcr]

theorem stripCr_cons (x : α) {line : List α} (hne : line ≠ []) :
    stripCr kind (x :: line) = x :: stripCr kind line := by
  obtain ⟨y, rest, rfl⟩ := List.exists_cons_of_ne_nil hne
  simp only [stripCr, List.getLast?_cons_cons, List.dropLast_cons_cons]
  split <;> rfl

theorem splitBreaks_no_break {line : List α} (hline : ∀ x ∈ line, kind x ≠ .lf) :
    splitBreaks kind line = [line] := by
  induction line with
  | nil => rfl
  | cons x rest ih =>
      have hrest : ∀ y ∈ rest, kind y ≠ .lf :=
        fun y hy => hline y (List.mem_cons_of_mem x hy)
      have hhead : rest.head?.map kind ≠ some .lf := by
        cases rest with
        | nil => simp
        | cons y _ => simpa using hrest y List.mem_cons_self
      rw [splitBreaks, if_neg (hline x List.mem_cons_self),
        if_neg fun hcr => hhead hcr.2, ih hrest]
      rfl

theorem splitBreaks_line {line rest : List α} {b : α}
    (hline : ∀ x ∈ line, kind x ≠ .lf) (hb : kind b = .lf) :
    splitBreaks kind (line ++ b :: rest) =
      stripCr kind line :: splitBreaks kind rest := by
  induction line with
  | nil =>
      rw [List.nil_append, splitBreaks, if_pos hb]
      rfl
  | cons x others ih =>
      have hothers : ∀ y ∈ others, kind y ≠ .lf :=
        fun y hy => hline y (List.mem_cons_of_mem x hy)
      rw [List.cons_append, splitBreaks, if_neg (hline x List.mem_cons_self), ih hothers]
      cases others with
      | nil =>
          by_cases hcr : kind x = .cr
          · simp [stripCr, hcr, hb]
          · simp [stripCr, hcr]
      | cons y others =>
          have hy := hothers y List.mem_cons_self
          rw [if_neg (by simp [hy]), stripCr_cons x (by simp)]
          rfl

theorem splitBreaks_isInfix (text : List α) :
    ∀ line ∈ splitBreaks kind text, line <:+: text := by
  induction text using lines_induction kind with
  | last line hline =>
      intro found hfound
      rw [splitBreaks_no_break hline, List.mem_singleton] at hfound
      exact hfound ▸ List.infix_refl line
  | line line b rest hline hb ih =>
      intro found hfound
      rw [splitBreaks_line hline hb] at hfound
      rcases List.mem_cons.mp hfound with rfl | hrest
      · exact (stripCr_isPrefix kind line).isInfix.trans (List.prefix_append _ _).isInfix
      · exact (ih found hrest).trans
          (((List.suffix_cons b rest).trans (List.suffix_append line _)).isInfix)

theorem splitBreaks_ne_nil (kind : α → Kind) (text : List α) : splitBreaks kind text ≠ [] := by
  induction text using lines_induction kind with
  | last line hline => simp [splitBreaks_no_break hline]
  | line line b rest hline hb _ => simp [splitBreaks_line hline hb]

/-- Lines do not depend on how their items are represented. -/
theorem splitBreaks_map (kind : α → Kind) (f : β → α) (text : List β) :
    splitBreaks kind (text.map f) =
      (splitBreaks (fun x => kind (f x)) text).map (List.map f) := by
  induction text with
  | nil => rfl
  | cons x rest ih =>
      have hhead : (rest.map f).head?.map kind =
          rest.head?.map fun x => kind (f x) := by
        rw [List.head?_map, Option.map_map]
        rfl
      rw [List.map_cons, splitBreaks, splitBreaks, ih, hhead]
      split
      · rfl
      · split
        · rfl
        · cases splitBreaks (fun x => kind (f x)) rest <;> rfl

/-! ## Text cut in two -/

/-- A text cut right after a line feed. -/
theorem splitBreaks_after_break (kind : α → Kind) (before : List α) {b : α} (hb : kind b = .lf)
    (after : List α) :
    ∃ closed, splitBreaks kind (before ++ b :: after) =
        closed ++ splitBreaks kind after ∧
      ∀ line ∈ closed, ∀ x ∈ line, x ∈ before := by
  induction before using lines_induction kind with
  | last line hline =>
      refine ⟨[stripCr kind line], splitBreaks_line hline hb, ?_⟩
      intro found hfound x hx
      rw [List.mem_singleton] at hfound
      exact (stripCr_isPrefix kind line).subset (hfound ▸ hx)
  | line line c rest hline hc ih =>
      obtain ⟨closed, heq, hclosed⟩ := ih
      refine ⟨stripCr kind line :: closed, ?_, ?_⟩
      · rw [List.append_assoc, List.cons_append, splitBreaks_line hline hc, heq]
        rfl
      · intro found hfound x hx
        rcases List.mem_cons.mp hfound with rfl | hold
        · exact List.mem_append_left _ ((stripCr_isPrefix kind line).subset hx)
        · exact List.mem_append_right _ (List.mem_cons_of_mem c (hclosed found hold x hx))

/-- A text cut within a line: the line which is cut is the first of what
follows, and its beginning lies before the cut. -/
theorem splitBreaks_within_line (kind : α → Kind) (before : List α) (hne : before ≠ [])
    (hlast : ∀ x, before.getLast? = some x → kind x ≠ .lf) (after : List α) :
    ∃ closed first, splitBreaks kind (before ++ after) =
        closed ++ first :: (splitBreaks kind after).tail ∧
      (∀ line ∈ closed, ∀ x ∈ line, x ∈ before) ∧
      ∀ x, first.head? = some x → x ∈ before := by
  induction before using lines_induction kind with
  | last line hline =>
      obtain ⟨y, others, rfl⟩ := List.exists_cons_of_ne_nil hne
      induction after using lines_induction kind with
      | last rest hrest =>
          refine ⟨[], (y :: others) ++ rest, ?_, by simp, by simp⟩
          rw [splitBreaks_no_break hrest, splitBreaks_no_break]
          · rfl
          · intro x hx
            exact (List.mem_append.mp hx).elim (hline x) (hrest x)
      | line rest b later hrest hb _ =>
          have hboth : ∀ x ∈ (y :: others) ++ rest, kind x ≠ .lf := by
            intro x hx
            exact (List.mem_append.mp hx).elim (hline x) (hrest x)
          refine ⟨[], stripCr kind ((y :: others) ++ rest), ?_, by simp, ?_⟩
          · rw [splitBreaks_line hrest hb, ← List.append_assoc, splitBreaks_line hboth hb]
            rfl
          · intro x hx
            obtain ⟨rest', heq⟩ := List.head?_eq_some_iff.mp hx
            have hprefix := stripCr_isPrefix kind ((y :: others) ++ rest)
            rw [heq, List.cons_append, List.cons_prefix_cons] at hprefix
            exact hprefix.1 ▸ List.mem_cons_self
  | line line c rest hline hc ih =>
      have hrest : rest ≠ [] := by
        rintro rfl
        exact hlast c (by simp) hc
      obtain ⟨closed, first, heq, hclosed, hfirst⟩ := ih hrest fun x hx =>
        hlast x (by
          obtain ⟨y, others, rfl⟩ := List.exists_cons_of_ne_nil hrest
          rw [List.getLast?_append, List.getLast?_cons_cons, hx]
          rfl)
      refine ⟨stripCr kind line :: closed, first, ?_, ?_, ?_⟩
      · rw [List.append_assoc, List.cons_append, splitBreaks_line hline hc, heq]
        rfl
      · intro found hfound x hx
        rcases List.mem_cons.mp hfound with rfl | hold
        · exact List.mem_append_left _ ((stripCr_isPrefix kind line).subset hx)
        · exact List.mem_append_right _ (List.mem_cons_of_mem c (hclosed found hold x hx))
      · intro x hx
        exact List.mem_append_right _ (List.mem_cons_of_mem c (hfirst x hx))

/-- What follows a text goes on with its last line. -/
theorem splitBreaks_append (kind : α → Kind) (before after : List α) :
    ∃ closed last, splitBreaks kind before = closed ++ [last] ∧
      (∀ x ∈ last, kind x ≠ .lf) ∧
      splitBreaks kind (before ++ after) = closed ++ splitBreaks kind (last ++ after) := by
  induction before using lines_induction kind with
  | last line hline => exact ⟨[], line, splitBreaks_no_break hline, hline, rfl⟩
  | line line b rest hline hb ih =>
      obtain ⟨closed, last, heq, hlast, happend⟩ := ih
      refine ⟨stripCr kind line :: closed, last, ?_, hlast, ?_⟩
      · rw [splitBreaks_line hline hb, heq]
        rfl
      · rw [List.append_assoc, List.cons_append, splitBreaks_line hline hb, happend]
        rfl

/-- What follows without a break belongs to the last line. -/
theorem splitBreaks_append_no_break (kind : α → Kind) (before after : List α)
    (hafter : ∀ x ∈ after, kind x ≠ .lf) :
    ∃ closed last, splitBreaks kind before = closed ++ [last] ∧
      splitBreaks kind (before ++ after) = closed ++ [last ++ after] := by
  obtain ⟨closed, last, heq, hlast, happend⟩ := splitBreaks_append kind before after
  have hboth : ∀ x ∈ last ++ after, kind x ≠ .lf := by
    intro x hx
    exact (List.mem_append.mp hx).elim (hlast x) (hafter x)
  exact ⟨closed, last, heq, by rw [happend, splitBreaks_no_break hboth]⟩

/-- The line of an item which does not belong to a break, and the lines after
it. -/
theorem splitBreaks_at (kind : α → Kind) (before after : List α) {x : α}
    (hbefore : ∀ y ∈ before, kind y ≠ .lf) (hx : kind x ≠ .lf)
    (hbreak : ¬ (kind x = .cr ∧ after.head?.map kind = some .lf)) :
    ∃ line, x ∈ line ∧
      splitBreaks kind (before ++ x :: after) = line :: (splitBreaks kind after).tail := by
  induction after using lines_induction kind with
  | last rest hrest =>
      have hall : ∀ y ∈ before ++ x :: rest, kind y ≠ .lf := by
        simp only [List.mem_append, List.mem_cons]
        rintro y (hy | rfl | hy)
        · exact hbefore y hy
        · exact hx
        · exact hrest y hy
      exact ⟨before ++ x :: rest, by simp, by
        rw [splitBreaks_no_break hall, splitBreaks_no_break hrest]
        rfl⟩
  | line rest b later hrest hb _ =>
      have hall : ∀ y ∈ before ++ x :: rest, kind y ≠ .lf := by
        simp only [List.mem_append, List.mem_cons]
        rintro y (hy | rfl | hy)
        · exact hbefore y hy
        · exact hx
        · exact hrest y hy
      refine ⟨stripCr kind (before ++ x :: rest), ?_, ?_⟩
      · rcases List.eq_nil_or_concat rest with rfl | ⟨init, y, rfl⟩
        · have hcr : kind x ≠ .cr := fun hcr => hbreak ⟨hcr, by simp [hb]⟩
          rw [stripCr_append_ne before hcr]
          simp
        · have hkeep : before ++ x :: init <+:
              stripCr kind (before ++ x :: init.concat y) := by
            rw [show before ++ x :: init.concat y = (before ++ x :: init) ++ [y] by simp]
            by_cases hcr : kind y = .cr
            · have hline := stripCr_append_cr (before ++ x :: init) hcr
              exact ⟨[], by rw [hline, List.append_nil]⟩
            · rw [stripCr_append_ne _ hcr]
              exact List.prefix_append _ _
          exact hkeep.subset (by simp)
      · rw [show before ++ x :: (rest ++ b :: later) = (before ++ x :: rest) ++ b :: later by
          simp, splitBreaks_line hall hb, splitBreaks_line hrest hb]
        rfl

/-! ## The last lines -/

theorem length_lastN (n : ℕ) (items : List α) :
    (lastN n items).length = min n items.length := by
  rw [lastN, List.length_drop]
  omega

theorem mem_lastN {n : ℕ} (before after : List α) (item : α) (hafter : after.length < n) :
    item ∈ lastN n (before ++ item :: after) := by
  rw [lastN, List.length_append, List.length_cons, List.drop_append_of_le_length (by omega)]
  exact List.mem_append_right _ List.mem_cons_self

theorem lastN_map (n : ℕ) (f : α → β) (items : List α) :
    lastN n (items.map f) = (lastN n items).map f := by
  rw [lastN, lastN, List.length_map, List.map_drop]

/-- Dropping the first item changes the last `n` unless there are more. -/
theorem lastN_tail_iff {n : ℕ} (items : List α) :
    lastN n items.tail = lastN n items ↔ items = [] ∨ n < items.length := by
  cases items with
  | nil => simp
  | cons first rest =>
      simp only [List.tail_cons, List.length_cons, reduceCtorEq, false_or]
      constructor
      · intro heq
        have hlength := congrArg List.length heq
        rw [length_lastN, length_lastN, List.length_cons] at hlength
        omega
      · intro hlt
        rw [lastN, lastN, List.length_cons, Nat.succ_sub (by omega), List.drop_succ_cons]

theorem tailLines_sublist (n : ℕ) (midway : Bool) (text : List α) :
    (tailLines kind n midway text).Sublist (splitBreaks kind text) := by
  cases midway
  · exact (List.drop_sublist _ _).trans List.filter_sublist
  · exact (List.drop_sublist _ _).trans ((List.tail_sublist _).trans List.filter_sublist)

theorem mem_of_mem_tailLines {n : ℕ} {midway : Bool} {text line : List α}
    (hline : line ∈ tailLines kind n midway text) : line ∈ splitBreaks kind text :=
  (tailLines_sublist n midway text).subset hline

theorem splitBreaks_flatten_sublist (text : List α) :
    (splitBreaks kind text).flatten.Sublist text := by
  induction text using lines_induction kind with
  | last line hline =>
      rw [splitBreaks_no_break hline, List.flatten_singleton]
  | line line b rest hline hb ih =>
      rw [splitBreaks_line hline hb, List.flatten_cons]
      exact (stripCr_isPrefix kind line).sublist.append (ih.trans (List.sublist_cons_self b rest))

theorem tailLines_of_lines {other : β → Kind} {text : List α} {source : List β}
    (n : ℕ) (midway : Bool) (g : List β → List α)
    (hempty : ∀ line, g line = [] ↔ line = [])
    (hlines : splitBreaks kind text = (splitBreaks other source).map g) :
    tailLines kind n midway text = (tailLines other n midway source).map g := by
  have hfilter : (fun line : List α => !line.isEmpty) ∘ g =
      fun line : List β => !line.isEmpty := by
    funext line
    rw [Function.comp_apply, Bool.eq_iff_iff, Bool.not_eq_true', Bool.not_eq_true',
      List.isEmpty_eq_false_iff, List.isEmpty_eq_false_iff, ne_eq, ne_eq, hempty]
  simp only [tailLines, hlines, List.filter_map, hfilter]
  cases midway
  · exact lastN_map n g _
  · simp only [if_true, ← List.map_tail]
    exact lastN_map n g _

theorem tailLines_map (n : ℕ) (midway : Bool) (f : β → α) (text : List β) :
    tailLines kind n midway (text.map f) =
      (tailLines (fun x => kind (f x)) n midway text).map (List.map f) :=
  tailLines_of_lines n midway _ (fun _ => List.map_eq_nil_iff) (splitBreaks_map kind f text)

end TextLines
