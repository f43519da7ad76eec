import Mathlib.Data.List.Infix
import Pm2Manager.JsonText

/-!
# Patterns with wildcards

`LIKE` of SQL over any alphabet with a folding of cases, and over the
characters of a text in UTF-16 with the folding of ASCII.  A pattern between
two `%` looks for what is between them.
-/

namespace LikePattern

/-- `any` stands for any characters, `one` for one; two characters are alike if
`fold` says so. -/
structure Alphabet (α : Type*) where
  any : α
  one : α
  fold : α → α

section Alphabet

variable {α : Type*} [DecidableEq α] (alphabet : Alphabet α)

def like : List α → List α → Bool
  | [], text => text.isEmpty
  | c :: pattern, text =>
    if c = alphabet.any then text.tails.any (like pattern)
    else
      (text.head?.any fun x => c = alphabet.one || alphabet.fold c = alphabet.fold x) &&
        like pattern text.tail

/-- No character of the text is a wildcard. -/
def Literal (literal : List α) : Prop :=
  ∀ c ∈ literal, c ≠ alphabet.any ∧ c ≠ alphabet.one

variable {alphabet}

theorem like_any {pattern text : List α} :
    like alphabet (alphabet.any :: pattern) text = true ↔
      ∃ front back, text = front ++ back ∧ like alphabet pattern back = true := by
  rw [like, if_pos rfl, List.any_eq_true]
  constructor
  · rintro ⟨back, htail, hlike⟩
    obtain ⟨front, heq⟩ := (List.mem_tails ..).mp htail
    exact ⟨front, back, heq.symm, hlike⟩
  · rintro ⟨front, back, rfl, hlike⟩
    exact ⟨back, (List.mem_tails ..).mpr (List.suffix_append front back), hlike⟩

theorem like_literal_any {literal : List α} (hliteral : Literal alphabet literal)
    (text : List α) : like alphabet (literal ++ [alphabet.any]) text = true ↔
      ∃ middle back, text = middle ++ back ∧
        middle.map alphabet.fold = literal.map alphabet.fold := by
  induction literal generalizing text with
  | nil =>
      rw [List.nil_append, like_any]
      constructor
      · exact fun _ => ⟨[], text, rfl, rfl⟩
      · exact fun _ => ⟨text, [], (List.append_nil text).symm, rfl⟩
  | cons c literal ih =>
      obtain ⟨hany, hone⟩ := hliteral c List.mem_cons_self
      have hrest := ih fun d hd => hliteral d (List.mem_cons_of_mem c hd)
      cases text with
      | nil =>
          rw [List.cons_append, like, if_neg hany]
          constructor
          · intro hfalse
            cases hfalse
          · rintro ⟨middle, back, happend, hmap⟩
            obtain ⟨rfl, _⟩ := List.append_eq_nil_iff.mp happend.symm
            cases hmap
      | cons x rest =>
          rw [List.cons_append, like, if_neg hany, List.head?_cons, Option.any_some,
            decide_eq_false hone, Bool.false_or, List.tail_cons, Bool.and_eq_true,
            decide_eq_true_eq, hrest]
          constructor
          · rintro ⟨hfold, middle, back, rfl, hmap⟩
            exact ⟨x :: middle, back, rfl, by rw [List.map_cons, List.map_cons, hfold, hmap]⟩
          · rintro ⟨middle, back, happend, hmap⟩
            cases middle with
            | nil => cases hmap
            | cons y middle =>
                rw [List.cons_append] at happend
                obtain ⟨rfl, rfl⟩ := List.cons.inj happend
                rw [List.map_cons, List.map_cons] at hmap
                obtain ⟨hfold, hmap⟩ := List.cons.inj hmap
                exact ⟨hfold.symm, middle, back, rfl, hmap⟩

theorem like_contains {literal : List α} (hliteral : Literal alphabet literal)
    (text : List α) :
    like alphabet (alphabet.any :: (literal ++ [alphabet.any])) text = true ↔
      ∃ front middle back, text = front ++ (middle ++ back) ∧
        middle.map alphabet.fold = literal.map alphabet.fold := by
  rw [like_any]
  constructor
  · rintro ⟨front, back, rfl, hlike⟩
    obtain ⟨middle, back, rfl, hmap⟩ := (like_literal_any hliteral back).mp hlike
    exact ⟨front, middle, back, rfl, hmap⟩
  · rintro ⟨front, middle, back, rfl, hmap⟩
    exact ⟨front, middle ++ back, rfl,
      (like_literal_any hliteral _).mpr ⟨middle, back, rfl, hmap⟩⟩

end Alphabet

/-! ## Texts in UTF-16 -/

open JsonText (Text ascii isHigh isLow)

/-- The characters of a text, each as its code units. -/
def characters : Text → List Text
  | [] => []
  | [u] => [[u]]
  | u :: v :: rest =>
      if isHigh u && isLow v then [u, v] :: characters rest
      else [u] :: characters (v :: rest)

/-- Lower case for the letters of ASCII. -/
def foldUnit (u : UInt16) : UInt16 :=
  if 65 ≤ u ∧ u ≤ 90 then u + 32 else u

theorem foldUnit_eq_self {u : UInt16} (hu : ¬(65 ≤ u ∧ u ≤ 90)) : foldUnit u = u :=
  if_neg hu

/-- Only letters are alike without being equal. -/
theorem eq_of_foldUnit_eq {u c : UInt16} (hc : ¬(97 ≤ c ∧ c ≤ 122)) (hfold : foldUnit u = c) :
    u = c := by
  unfold foldUnit at hfold
  split_ifs at hfold with hletter
  · exfalso
    rw [UInt16.le_iff_toNat_le, UInt16.le_iff_toNat_le] at hc hletter
    change 65 ≤ u.toNat ∧ u.toNat ≤ 90 at hletter
    change ¬(97 ≤ c.toNat ∧ c.toNat ≤ 122) at hc
    rw [← hfold, UInt16.toNat_add] at hc
    change ¬(97 ≤ (u.toNat + 32) % 65536 ∧ (u.toNat + 32) % 65536 ≤ 122) at hc
    omega
  · exact hfold

def sqlAlphabet : Alphabet Text where
  any := [37]
  one := [95]
  fold := List.map foldUnit

/-- `text LIKE pattern`. -/
def likeText (pattern text : Text) : Bool :=
  like sqlAlphabet (characters pattern) (characters text)

theorem flatten_characters (text : Text) : (characters text).flatten = text := by
  induction text using characters.induct with
  | case1 => rfl
  | case2 u => rfl
  | case3 u v rest hpair ih => rw [characters, if_pos hpair, List.flatten_cons, ih]; rfl
  | case4 u v rest hpair ih => rw [characters, if_neg hpair, List.flatten_cons, ih]; rfl

/-- No character goes beyond the end of the text. -/
def Whole (text : Text) : Prop :=
  ∀ rest, characters (text ++ rest) = characters text ++ characters rest

theorem characters_cons {u : UInt16} (hsingle : (isHigh u || isLow u) = false) (rest : Text) :
    characters (u :: rest) = [u] :: characters rest := by
  rw [Bool.or_eq_false_iff] at hsingle
  cases rest with
  | nil => rfl
  | cons v rest => simp [characters, hsingle.1]

theorem closed_whole : JsonText.Closed Whole where
  nil := fun _ => rfl
  append := by
    intro front back hfront hback rest
    rw [List.append_assoc, hfront, hback, hfront, List.append_assoc]
  unit := by
    intro u _ hsingle rest
    exact characters_cons hsingle rest
  pair := by
    intro u v hu hv rest
    simp [characters, hu, hv]

theorem characters_of_units {text : Text}
    (htext : ∀ u ∈ text, (isHigh u || isLow u) = false) (rest : Text) :
    characters (text ++ rest) = text.map (fun u => [u]) ++ characters rest := by
  induction text with
  | nil => rfl
  | cons u text ih =>
      rw [List.cons_append, characters_cons (htext u List.mem_cons_self),
        ih fun v hv => htext v (List.mem_cons_of_mem u hv)]
      rfl

/-- No wildcards and no surrogates. -/
def Plain (literal : Text) : Prop :=
  ∀ u ∈ literal, (isHigh u || isLow u) = false ∧ u ≠ 37 ∧ u ≠ 95

/-- `%literal%`. -/
def containing (literal : Text) : Text :=
  37 :: (literal ++ [37])

section Containing

variable {literal : Text} (hplain : Plain literal)
include hplain

theorem characters_containing : characters (containing literal) =
    [37] :: (literal.map (fun u => [u]) ++ [[37]]) := by
  rw [containing, characters_cons (by decide),
    characters_of_units fun u hu => (hplain u hu).1]
  rfl

theorem literal_characters : Literal sqlAlphabet (literal.map fun u => [u]) := by
  intro c hc
  obtain ⟨u, hu, rfl⟩ := List.mem_map.mp hc
  obtain ⟨_, hany, hone⟩ := hplain u hu
  exact ⟨by simpa [sqlAlphabet] using hany, by simpa [sqlAlphabet] using hone⟩

theorem exists_of_likeText {text : Text} (hlike : likeText (containing literal) text = true) :
    ∃ front middle back, text = front ++ (middle ++ back) ∧
      middle.map foldUnit = literal.map foldUnit := by
  rw [likeText, characters_containing hplain] at hlike
  obtain ⟨front, middle, back, htext, hmap⟩ :=
    (like_contains (literal_characters hplain) (characters text)).mp hlike
  refine ⟨front.flatten, middle.flatten, back.flatten, ?_, ?_⟩
  · rw [← flatten_characters text, htext, List.flatten_append, List.flatten_append]
  · have hliteral : (literal.map fun u => [u]).flatten = literal := by
      rw [← List.flatMap_def, List.flatMap_singleton']
    have hflat := congrArg List.flatten hmap
    simp only [sqlAlphabet] at hflat
    rw [← List.map_flatten, ← List.map_flatten, hliteral] at hflat
    exact hflat

theorem likeText_append {front : Text} (hfront : Whole front) (back : Text) :
    likeText (containing literal) (front ++ (literal ++ back)) = true := by
  rw [likeText, characters_containing hplain, hfront,
    characters_of_units fun u hu => (hplain u hu).1]
  exact (like_contains (literal_characters hplain) _).mpr
    ⟨characters front, _, characters back, rfl, rfl⟩

end Containing

example : likeText (ascii "a%B_d") (ascii "Axxbcd") = true := by decide

end LikePattern
