import Mathlib.Data.List.Basic
import Mathlib.Data.Nat.Notation

/-!
# JSON texts

`JSON.stringify` without indentation and `JSON.parse`, over the code units of
UTF-16 and over numbers of any kind which have a text of their own.  What is
written is read back, a number as the number its text stands for.
-/

namespace JsonText

/-- A string: code units of UTF-16, lone surrogates included. -/
abbrev Text := List UInt16

/-- The code units of a text in ASCII. -/
def ascii (text : String) : Text :=
  text.toList.map fun c => UInt16.ofNat c.toNat

theorem forall_units {p : UInt16 → Prop} [DecidablePred p] {text : Text}
    (hall : text.all (fun u => decide (p u)) = true) : ∀ u ∈ text, p u :=
  fun u hu => of_decide_eq_true (List.all_eq_true.mp hall u hu)

/-! ## Strings -/

def isHigh (u : UInt16) : Bool :=
  0xD800 ≤ u && u < 0xDC00

def isLow (u : UInt16) : Bool :=
  0xDC00 ≤ u && u < 0xE000

def hexDigit (n : ℕ) : UInt16 :=
  UInt16.ofNat (if n < 10 then 48 + n else 87 + n)

/-- `\\uXXXX`. -/
def unicodeEscape (u : UInt16) : Text :=
  [92, 117, hexDigit (u.toNat / 4096), hexDigit (u.toNat / 256 % 16),
    hexDigit (u.toNat / 16 % 16), hexDigit (u.toNat % 16)]

def escapeUnit (u : UInt16) : Text :=
  if u = 34 then [92, 34]
  else if u = 92 then [92, 92]
  else if u = 8 then [92, 98]
  else if u = 9 then [92, 116]
  else if u = 10 then [92, 110]
  else if u = 12 then [92, 102]
  else if u = 13 then [92, 114]
  else if u < 32 || isHigh u || isLow u then unicodeEscape u
  else [u]

/-- A pair of surrogates is left as it is. -/
def escape : Text → Text
  | [] => []
  | [u] => escapeUnit u
  | u :: v :: rest =>
      if isHigh u && isLow v then u :: v :: escape rest
      else escapeUnit u ++ escape (v :: rest)

def quoted (text : Text) : Text :=
  34 :: escape text ++ [34]

def hexValue (u : UInt16) : Option ℕ :=
  if 48 ≤ u ∧ u ≤ 57 then some (u.toNat - 48)
  else if 97 ≤ u ∧ u ≤ 102 then some (u.toNat - 87)
  else if 65 ≤ u ∧ u ≤ 70 then some (u.toNat - 55)
  else none

def unescape (u : UInt16) : Option UInt16 :=
  if u = 34 ∨ u = 92 ∨ u = 47 then some u
  else if u = 98 then some 8
  else if u = 116 then some 9
  else if u = 110 then some 10
  else if u = 102 then some 12
  else if u = 114 then some 13
  else none

def prepend (u : UInt16) (parsed : Text × Text) : Text × Text :=
  (u :: parsed.1, parsed.2)

/-- What stands for a code unit after a backslash. -/
def parseEscape : Text → Option (UInt16 × Text)
  | [] => none
  | e :: rest =>
    if e = 117 then
      match rest with
      | a :: b :: c :: d :: after =>
          match hexValue a, hexValue b, hexValue c, hexValue d with
          | some a, some b, some c, some d =>
              some (UInt16.ofNat (a * 4096 + b * 256 + c * 16 + d), after)
          | _, _, _, _ => none
      | _ => none
    else (unescape e).map fun u => (u, rest)

theorem parseEscape_lt {text rest : Text} {u : UInt16}
    (hparse : parseEscape text = some (u, rest)) : rest.length < text.length := by
  unfold parseEscape at hparse
  split at hparse
  · cases hparse
  · split at hparse
    · split at hparse
      · split at hparse
        · cases hparse
          simp only [List.length_cons]
          omega
        · cases hparse
      · cases hparse
    · obtain ⟨_, _, heq⟩ := Option.map_eq_some_iff.mp hparse
      cases heq
      exact Nat.lt_succ_self _

/-- The string up to its closing quote, and what follows it. -/
def parseChars (text : Text) : Option (Text × Text) :=
  match text with
  | [] => none
  | c :: rest =>
    if c = 34 then some ([], rest)
    else if c = 92 then
      match _hescape : parseEscape rest with
      | some (u, after) => (parseChars after).map (prepend u)
      | none => none
    else if c < 32 then none
    else (parseChars rest).map (prepend c)
termination_by text.length
decreasing_by
  · have := parseEscape_lt _hescape
    simp only [List.length_cons]
    omega
  · simp

theorem parseChars_quote (rest : Text) : parseChars (34 :: rest) = some ([], rest) := by
  rw [parseChars, if_pos rfl]

theorem parseChars_backslash {rest after : Text} {u : UInt16}
    (hescape : parseEscape rest = some (u, after)) :
    parseChars (92 :: rest) = (parseChars after).map (prepend u) := by
  rw [parseChars, if_neg (by decide), if_pos rfl]
  split
  · rename_i heq
    rw [hescape] at heq
    cases heq
    rfl
  · rename_i heq
    rw [hescape] at heq
    cases heq

/-! ## Numbers -/

/-- The code units of number tokens. -/
def isNumberUnit (u : UInt16) : Bool :=
  (48 ≤ u && u ≤ 57) || u == 43 || u == 45 || u == 46 || u == 69 || u == 101

theorem mem_of_isNumberUnit {u : UInt16} (hunit : isNumberUnit u = true) :
    u ∈ ascii "0123456789+-.Ee" := by
  simp only [isNumberUnit, Bool.or_eq_true, Bool.and_eq_true, decide_eq_true_eq, beq_iff_eq]
    at hunit
  rcases hunit with ((((hdigit | rfl) | rfl) | rfl) | rfl) | rfl
  · have hdigits : ∀ n < 10, UInt16.ofNat (48 + n) ∈ ascii "0123456789+-.Ee" := by decide
    obtain ⟨hlow, hhigh⟩ : 48 ≤ u.toNat ∧ u.toNat ≤ 57 := hdigit
    have hu := hdigits (u.toNat - 48) (by omega)
    rwa [show 48 + (u.toNat - 48) = u.toNat by omega, UInt16.ofNat_toNat] at hu
  · decide
  · decide
  · decide
  · decide
  · decide

/-- Numbers with a text.  `reread` is the number for which the text stands; the
text tells numbers apart as far as it does. -/
structure NumberFormat (ν : Type) where
  text : ν → Text
  parse : Text → Option ν
  reread : ν → ν
  text_ne_nil : ∀ value, text value ≠ []
  text_units : ∀ value, ∀ u ∈ text value, isNumberUnit u = true
  parse_text : ∀ value, parse (text value) = some (reread value)
  text_reread : ∀ value, text (reread value) = text value

/-! ## Values -/

inductive Json (ν : Type)
  | null
  | bool (value : Bool)
  | number (value : ν)
  | string (text : Text)
  | array (items : List (Json ν))
  | object (fields : List (Text × Json ν))

section Format

variable {ν : Type} (format : NumberFormat ν)

mutual

def stringify : Json ν → Text
  | .null => [110, 117, 108, 108]
  | .bool true => [116, 114, 117, 101]
  | .bool false => [102, 97, 108, 115, 101]
  | .number value => format.text value
  | .string text => quoted text
  | .array items => 91 :: stringifyItems items ++ [93]
  | .object fields => 123 :: stringifyFields fields ++ [125]

def stringifyItems : List (Json ν) → Text
  | [] => []
  | [item] => stringify item
  | item :: next :: rest => stringify item ++ 44 :: stringifyItems (next :: rest)

def stringifyFields : List (Text × Json ν) → Text
  | [] => []
  | [(key, value)] => quoted key ++ 58 :: stringify value
  | (key, value) :: next :: rest =>
      quoted key ++ 58 :: stringify value ++ 44 :: stringifyFields (next :: rest)

end

mutual

/-- What is read where a value has been written. -/
def readBack : Json ν → Json ν
  | .null => .null
  | .bool value => .bool value
  | .number value => .number (format.reread value)
  | .string text => .string text
  | .array items => .array (readBackItems items)
  | .object fields => .object (readBackFields fields)

def readBackItems : List (Json ν) → List (Json ν)
  | [] => []
  | item :: rest => readBack item :: readBackItems rest

def readBackFields : List (Text × Json ν) → List (Text × Json ν)
  | [] => []
  | (key, value) :: rest => (key, readBack value) :: readBackFields rest

end

def isSpace (u : UInt16) : Bool :=
  u == 32 || u == 9 || u == 10 || u == 13

/-- The rest of the text after a code unit which must come next. -/
def expect (u : UInt16) (text : Text) : Option Text :=
  match text.dropWhile isSpace with
  | c :: rest => if c = u then some rest else none
  | [] => none

def parseItems (parse : Text → Option (Json ν × Text)) :
    ℕ → Text → Option (List (Json ν) × Text)
  | 0, _ => none
  | fuel + 1, text => do
    let (item, rest) ← parse text
    match expect 44 rest with
    | some rest => do
      let (items, rest) ← parseItems parse fuel rest
      some (item :: items, rest)
    | none => do
      let rest ← expect 93 rest
      some ([item], rest)

def parseFields (parse : Text → Option (Json ν × Text)) :
    ℕ → Text → Option (List (Text × Json ν) × Text)
  | 0, _ => none
  | fuel + 1, text => do
    let rest ← expect 34 text
    let (key, rest) ← parseChars rest
    let rest ← expect 58 rest
    let (value, rest) ← parse rest
    match expect 44 rest with
    | some rest => do
      let (fields, rest) ← parseFields parse fuel rest
      some ((key, value) :: fields, rest)
    | none => do
      let rest ← expect 125 rest
      some ([(key, value)], rest)

def parseWord (word : Text) (value : Json ν) (text : Text) : Option (Json ν × Text) :=
  if word.isPrefixOf text then some (value, text.drop word.length) else none

def parseNumber (text : Text) : Option (Json ν × Text) :=
  (format.parse (text.takeWhile isNumberUnit)).map fun value =>
    (.number value, text.dropWhile isNumberUnit)

def parseValue : ℕ → Text → Option (Json ν × Text)
  | 0, _ => none
  | fuel + 1, text =>
    match text.dropWhile isSpace with
    | [] => none
    | c :: rest =>
      if c = 34 then (parseChars rest).map fun parsed => (.string parsed.1, parsed.2)
      else if c = 91 then
        match expect 93 rest with
        | some rest => some (.array [], rest)
        | none =>
            (parseItems (parseValue fuel) fuel rest).map fun parsed =>
              (.array parsed.1, parsed.2)
      else if c = 123 then
        match expect 125 rest with
        | some rest => some (.object [], rest)
        | none =>
            (parseFields (parseValue fuel) fuel rest).map fun parsed =>
              (.object parsed.1, parsed.2)
      else if c = 110 then parseWord [110, 117, 108, 108] .null (c :: rest)
      else if c = 116 then parseWord [116, 114, 117, 101] (.bool true) (c :: rest)
      else if c = 102 then parseWord [102, 97, 108, 115, 101] (.bool false) (c :: rest)
      else parseNumber format (c :: rest)

/-- The whole text is one value, and space. -/
def parse (text : Text) : Option (Json ν) := do
  let (value, rest) ← parseValue format (text.length + 1) text
  if rest.all isSpace then some value else none

end Format

/-! ## Strings are read back -/

theorem hexValue_hexDigit {n : ℕ} (hn : n < 16) : hexValue (hexDigit n) = some n := by
  revert n
  decide

theorem parseChars_unicodeEscape (u : UInt16) (rest : Text) :
    parseChars (unicodeEscape u ++ rest) = (parseChars rest).map (prepend u) := by
  have hu : u.toNat < 65536 := u.toNat_lt
  have hvalue : UInt16.ofNat (u.toNat / 4096 * 4096 + u.toNat / 256 % 16 * 256 +
      u.toNat / 16 % 16 * 16 + u.toNat % 16) = u := by
    rw [show u.toNat / 4096 * 4096 + u.toNat / 256 % 16 * 256 + u.toNat / 16 % 16 * 16 +
      u.toNat % 16 = u.toNat by omega, UInt16.ofNat_toNat]
  apply parseChars_backslash
  simp only [List.append_eq, List.cons_append, List.nil_append, parseEscape, if_true]
  rw [hexValue_hexDigit (by omega), hexValue_hexDigit (by omega),
    hexValue_hexDigit (by omega), hexValue_hexDigit (by omega)]
  simp only [hvalue]

/-- A code unit which is left as it is. -/
theorem parseChars_plain {u : UInt16} (hquote : u ≠ 34) (hbackslash : u ≠ 92)
    (hcontrol : ¬ u < 32) (rest : Text) :
    parseChars (u :: rest) = (parseChars rest).map (prepend u) := by
  rw [parseChars, if_neg hquote, if_neg hbackslash, if_neg hcontrol]

theorem parseChars_escapeUnit (u : UInt16) (rest : Text) :
    parseChars (escapeUnit u ++ rest) = (parseChars rest).map (prepend u) := by
  unfold escapeUnit
  split_ifs with hquote hbackslash hb ht hn hf hr hcode
  · exact parseChars_backslash (by rw [hquote]; rfl)
  · exact parseChars_backslash (by rw [hbackslash]; rfl)
  · exact parseChars_backslash (by rw [hb]; rfl)
  · exact parseChars_backslash (by rw [ht]; rfl)
  · exact parseChars_backslash (by rw [hn]; rfl)
  · exact parseChars_backslash (by rw [hf]; rfl)
  · exact parseChars_backslash (by rw [hr]; rfl)
  · exact parseChars_unicodeEscape u rest
  · exact parseChars_plain hquote hbackslash (by simp_all) rest

theorem parseChars_surrogate {u : UInt16} (hu : (isHigh u || isLow u) = true)
    (rest : Text) : parseChars (u :: rest) = (parseChars rest).map (prepend u) := by
  have hrange : 0xD800 ≤ u.toNat := by
    simp only [isHigh, isLow, Bool.or_eq_true, Bool.and_eq_true, decide_eq_true_eq,
      UInt16.le_iff_toNat_le] at hu
    rcases hu with hhigh | hlow
    · exact hhigh.1
    · exact Nat.le_trans (by decide) hlow.1
  refine parseChars_plain ?_ ?_ ?_ rest
  · rintro rfl
    exact absurd hrange (by decide)
  · rintro rfl
    exact absurd hrange (by decide)
  · rw [UInt16.lt_iff_toNat_lt]
    exact Nat.not_lt.mpr (Nat.le_trans (by decide) hrange)

theorem parseChars_escape (text rest : Text) :
    parseChars (escape text ++ 34 :: rest) = some (text, rest) := by
  induction text using escape.induct with
  | case1 => exact parseChars_quote rest
  | case2 u =>
      rw [escape, parseChars_escapeUnit, parseChars_quote]
      rfl
  | case3 u v tail hpair ih =>
      rw [Bool.and_eq_true] at hpair
      rw [escape, if_pos (by rw [hpair.1, hpair.2]; rfl), List.cons_append, List.cons_append,
        parseChars_surrogate (by rw [hpair.1]; rfl),
        parseChars_surrogate (by rw [hpair.2, Bool.or_true]), ih]
      rfl
  | case4 u v tail hpair ih =>
      rw [escape, if_neg hpair, List.append_assoc, parseChars_escapeUnit, ih]
      rfl

/-! ## Values are read back -/

theorem span_append {p : UInt16 → Bool} {front back : Text}
    (hfront : ∀ u ∈ front, p u = true) (hback : ∀ u, back.head? = some u → p u = false) :
    (front ++ back).takeWhile p = front ∧ (front ++ back).dropWhile p = back := by
  have hnone : back.takeWhile p = [] ∧ back.dropWhile p = back := by
    cases back with
    | nil => exact ⟨rfl, rfl⟩
    | cons u tail => simp [hback u rfl]
  constructor
  · rw [List.takeWhile_append_of_pos hfront, hnone.1, List.append_nil]
  · rw [List.dropWhile_append_of_pos hfront, hnone.2]

/-- What follows does not go on with a number. -/
def EndsNumber (rest : Text) : Prop :=
  ∀ u, rest.head? = some u → isNumberUnit u = false

theorem expect_cons {u : UInt16} (hspace : isSpace u = false) (rest : Text) :
    expect u (u :: rest) = some rest := by
  simp [expect, hspace]

theorem expect_other {u c : UInt16} (hspace : isSpace c = false) (hne : c ≠ u) (rest : Text) :
    expect u (c :: rest) = none := by
  simp [expect, hspace, hne]

section Format

variable {ν : Type} (format : NumberFormat ν)

theorem span_number (value : ν) {rest : Text} (hrest : EndsNumber rest) :
    (format.text value ++ rest).takeWhile isNumberUnit = format.text value ∧
      (format.text value ++ rest).dropWhile isNumberUnit = rest :=
  span_append (format.text_units value) hrest

theorem number_head (value : ν) :
    ∃ c rest, format.text value = c :: rest ∧ isNumberUnit c = true := by
  obtain ⟨c, rest, heq⟩ := List.exists_cons_of_ne_nil (format.text_ne_nil value)
  exact ⟨c, rest, heq, format.text_units value c (heq ▸ List.mem_cons_self)⟩

theorem stringify_head (value : Json ν) :
    ∃ c rest, stringify format value = c :: rest ∧ isSpace c = false ∧ c ≠ 93 := by
  cases value with
  | number value =>
      obtain ⟨c, rest, heq, hunit⟩ := number_head format value
      refine ⟨c, rest, by rw [stringify, heq], ?_, ?_⟩
      · by_contra hspace
        simp only [Bool.not_eq_false, isSpace, Bool.or_eq_true, beq_iff_eq] at hspace
        rcases hspace with ((rfl | rfl) | rfl) | rfl <;> cases hunit
      · rintro rfl
        cases hunit
  | null => exact ⟨110, _, by rw [stringify], rfl, by decide⟩
  | bool value =>
      cases value with
      | true => exact ⟨116, _, by rw [stringify], rfl, by decide⟩
      | false => exact ⟨102, _, by rw [stringify], rfl, by decide⟩
  | string text => exact ⟨34, _, by rw [stringify, quoted, List.cons_append], rfl, by decide⟩
  | array items => exact ⟨91, _, by rw [stringify, List.cons_append], rfl, by decide⟩
  | object fields => exact ⟨123, _, by rw [stringify, List.cons_append], rfl, by decide⟩

theorem endsNumber_cons {u : UInt16} (hunit : isNumberUnit u = false) (rest : Text) :
    EndsNumber (u :: rest) := by
  intro v hv
  obtain rfl := Option.some.inj hv
  exact hunit

/-- `parse` reads back the text of a value in front of anything. -/
def ReadsBack (parse : Text → Option (Json ν × Text)) (value : Json ν) : Prop :=
  ∀ rest, EndsNumber rest →
    parse (stringify format value ++ rest) = some (readBack format value, rest)

theorem parseItems_stringify {parse : Text → Option (Json ν × Text)}
    {items : List (Json ν)} (hne : items ≠ [])
    (hparse : ∀ item ∈ items, ReadsBack format parse item) {fuel : ℕ}
    (hfuel : items.length ≤ fuel) (rest : Text) :
    parseItems parse fuel (stringifyItems format items ++ 93 :: rest) =
      some (readBackItems format items, rest) := by
  induction items generalizing fuel with
  | nil => exact absurd rfl hne
  | cons item more ih =>
      obtain ⟨fuel, rfl⟩ := Nat.exists_eq_succ_of_ne_zero
        (show fuel ≠ 0 by rw [List.length_cons] at hfuel; omega)
      have hitem := hparse item List.mem_cons_self
      cases more with
      | nil =>
          rw [stringifyItems, parseItems, hitem _ (endsNumber_cons rfl rest)]
          simp [expect_cons, expect_other, isSpace, readBackItems]
      | cons next more =>
          have hmore := ih (by simp)
            (fun other hother => hparse other (List.mem_cons_of_mem item hother))
            (show (next :: more).length ≤ fuel by
              rw [List.length_cons] at hfuel
              omega)
          rw [stringifyItems, parseItems, List.append_assoc, List.cons_append,
            hitem _ (endsNumber_cons rfl _)]
          simp [expect_cons, isSpace, hmore, readBackItems]

theorem parseFields_stringify {parse : Text → Option (Json ν × Text)}
    {fields : List (Text × Json ν)} (hne : fields ≠ [])
    (hparse : ∀ field ∈ fields, ReadsBack format parse field.2) {fuel : ℕ}
    (hfuel : fields.length ≤ fuel) (rest : Text) :
    parseFields parse fuel (stringifyFields format fields ++ 125 :: rest) =
      some (readBackFields format fields, rest) := by
  induction fields generalizing fuel with
  | nil => exact absurd rfl hne
  | cons field more ih =>
      obtain ⟨key, value⟩ := field
      obtain ⟨fuel, rfl⟩ := Nat.exists_eq_succ_of_ne_zero
        (show fuel ≠ 0 by rw [List.length_cons] at hfuel; omega)
      have hvalue : ReadsBack format parse value := hparse (key, value) List.mem_cons_self
      cases more with
      | nil =>
          have hread := hvalue (125 :: rest) (endsNumber_cons (by decide) rest)
          rw [stringifyFields, parseFields]
          simp [quoted, expect_cons, expect_other, isSpace, parseChars_escape, hread,
            readBackFields]
      | cons next more =>
          have hmore := ih (by simp)
            (fun other hother => hparse other (List.mem_cons_of_mem _ hother))
            (show (next :: more).length ≤ fuel by
              rw [List.length_cons] at hfuel
              omega)
          have hread := hvalue (44 :: (stringifyFields format (next :: more) ++ 125 :: rest))
            (endsNumber_cons (by decide) _)
          rw [stringifyFields, parseFields]
          simp [quoted, expect_cons, isSpace, parseChars_escape, hread, hmore,
            readBackFields]

theorem length_le_items {item : Json ν} {items : List (Json ν)} (hitem : item ∈ items) :
    (stringify format item).length ≤ (stringifyItems format items).length := by
  induction items with
  | nil => cases hitem
  | cons first more ih =>
      cases more with
      | nil =>
          rw [List.mem_singleton.mp hitem]
          exact Nat.le_of_eq (by simp only [stringifyItems])
      | cons next more =>
          rw [stringifyItems, List.length_append, List.length_cons]
          rcases List.mem_cons.mp hitem with rfl | hmore
          · omega
          · have := ih hmore
            omega

theorem length_le_fields {field : Text × Json ν} {fields : List (Text × Json ν)}
    (hfield : field ∈ fields) :
    (stringify format field.2).length ≤ (stringifyFields format fields).length := by
  induction fields with
  | nil => cases hfield
  | cons first more ih =>
      obtain ⟨key, value⟩ := first
      cases more with
      | nil =>
          rw [List.mem_singleton.mp hfield]
          simp only [stringifyFields, List.length_append, List.length_cons]
          omega
      | cons next more =>
          simp only [stringifyFields, List.length_append, List.length_cons]
          rcases List.mem_cons.mp hfield with rfl | hmore
          · dsimp only
            omega
          · have := ih hmore
            omega

theorem stringify_pos (value : Json ν) : 0 < (stringify format value).length := by
  obtain ⟨c, rest, heq, _⟩ := stringify_head format value
  rw [heq]
  exact Nat.succ_pos _

theorem items_length (items : List (Json ν)) :
    items.length ≤ (stringifyItems format items).length := by
  induction items with
  | nil => exact Nat.zero_le _
  | cons first more ih =>
      have hfirst := stringify_pos format first
      cases more with
      | nil =>
          rw [stringifyItems]
          exact hfirst
      | cons next more =>
          simp only [List.length_cons] at ih
          simp only [stringifyItems, List.length_append, List.length_cons]
          omega

theorem fields_length (fields : List (Text × Json ν)) :
    fields.length ≤ (stringifyFields format fields).length := by
  induction fields with
  | nil => exact Nat.zero_le _
  | cons first more ih =>
      obtain ⟨key, value⟩ := first
      have hfirst := stringify_pos format value
      cases more with
      | nil =>
          simp only [stringifyFields, List.length_append, List.length_cons, List.length_nil]
          omega
      | cons next more =>
          simp only [List.length_cons] at ih
          simp only [stringifyFields, List.length_append, List.length_cons]
          omega

theorem items_head {items : List (Json ν)} (hne : items ≠ []) :
    ∃ c rest, stringifyItems format items = c :: rest ∧ isSpace c = false ∧ c ≠ 93 := by
  obtain ⟨first, more, rfl⟩ := List.exists_cons_of_ne_nil hne
  obtain ⟨c, rest, heq, hspace, hclose⟩ := stringify_head format first
  cases more with
  | nil => exact ⟨c, rest, by rw [stringifyItems, heq], hspace, hclose⟩
  | cons next more =>
      exact ⟨c, _, by rw [stringifyItems, heq, List.cons_append], hspace, hclose⟩

theorem fields_head {fields : List (Text × Json ν)} (hne : fields ≠ []) :
    ∃ rest, stringifyFields format fields = 34 :: rest := by
  obtain ⟨⟨key, value⟩, more, rfl⟩ := List.exists_cons_of_ne_nil hne
  cases more with
  | nil => exact ⟨_, by rw [stringifyFields, quoted, List.cons_append, List.cons_append]⟩
  | cons next more =>
      exact ⟨_, by rw [stringifyFields, quoted, List.cons_append, List.cons_append,
        List.cons_append]⟩

/-- The number case: no code unit of a number begins another value. -/
theorem parseValue_number (fuel : ℕ) (value : ν) :
    ReadsBack format (parseValue format (fuel + 1)) (.number value) := by
  intro rest hrest
  obtain ⟨c, digits, heq, hunit⟩ := number_head format value
  obtain ⟨htake, hdrop⟩ := span_number format value hrest
  have hother {u : UInt16} (hu : isNumberUnit u = false) : c ≠ u := by
    rintro rfl
    rw [hunit] at hu
    cases hu
  have hspace : isSpace c = false := by
    simp [isSpace, hother (u := 32) rfl, hother (u := 9) rfl, hother (u := 10) rfl,
      hother (u := 13) rfl]
  rw [heq, List.cons_append] at htake hdrop
  rw [stringify, heq, List.cons_append, parseValue, List.dropWhile_cons, hspace]
  simp only [Bool.false_eq_true, if_false]
  rw [if_neg (hother rfl), if_neg (hother rfl), if_neg (hother rfl), if_neg (hother rfl),
    if_neg (hother rfl), if_neg (hother rfl), parseNumber, htake, hdrop, ← heq,
    format.parse_text]
  rfl

/-- Whatever is written is read back, in front of anything which does not go on
with a number. -/
theorem parseValue_stringify (fuel : ℕ) :
    ∀ value : Json ν, (stringify format value).length ≤ fuel →
      ReadsBack format (parseValue format fuel) value := by
  induction fuel with
  | zero =>
      intro value hle
      exact absurd hle (Nat.not_le.mpr (stringify_pos format value))
  | succ fuel ih =>
      intro value hle rest hrest
      cases value with
      | null => rfl
      | bool value => cases value <;> rfl
      | number value => exact parseValue_number format fuel value rest hrest
      | string text =>
          simp [stringify, quoted, parseValue, isSpace, parseChars_escape, readBack]
      | array items =>
          simp only [stringify, List.length_append, List.length_cons] at hle
          by_cases hne : items = []
          · subst hne
            rfl
          · obtain ⟨c, tail, heq, hspace, hclose⟩ := items_head format hne
            have hother : expect 93 (stringifyItems format items ++ 93 :: rest) = none := by
              rw [heq, List.cons_append]
              exact expect_other hspace hclose _
            have hread := parseItems_stringify format hne
              (fun item hitem => ih item (by
                have := length_le_items format hitem
                omega))
              (show items.length ≤ fuel by
                have := items_length format items
                omega) rest
            simp [stringify, parseValue, isSpace, hother, hread, readBack]
      | object fields =>
          simp only [stringify, List.length_append, List.length_cons] at hle
          by_cases hne : fields = []
          · subst hne
            rfl
          · obtain ⟨tail, heq⟩ := fields_head format hne
            have hother :
                expect 125 (stringifyFields format fields ++ 125 :: rest) = none := by
              rw [heq, List.cons_append]
              exact expect_other rfl (by decide) _
            have hread := parseFields_stringify format hne
              (fun field hfield => ih field.2 (by
                have := length_le_fields format hfield
                omega))
              (show fields.length ≤ fuel by
                have := fields_length format fields
                omega) rest
            simp [stringify, parseValue, isSpace, hother, hread, readBack]

theorem parse_stringify (value : Json ν) :
    parse format (stringify format value) = some (readBack format value) := by
  have hread := parseValue_stringify format ((stringify format value).length + 1) value
    (Nat.le_succ _) [] (fun _ hnone => by cases hnone)
  rw [List.append_nil] at hread
  rw [parse, hread, Option.bind_eq_bind, Option.bind_some]
  exact if_pos List.all_nil

end Format

/-! ## What a text is made of -/

/-- Properties of texts which hold of the pieces from which JSON texts are put
together: code units which are no control characters, and pairs of surrogates. -/
structure Closed (P : Text → Prop) : Prop where
  nil : P []
  append : ∀ {front back}, P front → P back → P (front ++ back)
  unit : ∀ {u}, 32 ≤ u → (isHigh u || isLow u) = false → P [u]
  pair : ∀ {u v}, isHigh u = true → isLow v = true → P [u, v]

namespace Closed

variable {P : Text → Prop} (hP : Closed P)
include hP

theorem cons {u : UInt16} {text : Text} (hprintable : 32 ≤ u)
    (hsingle : (isHigh u || isLow u) = false) (htext : P text) : P (u :: text) :=
  hP.append (hP.unit hprintable hsingle) htext

theorem of_units {text : Text}
    (htext : ∀ u ∈ text, 32 ≤ u ∧ (isHigh u || isLow u) = false) : P text := by
  induction text with
  | nil => exact hP.nil
  | cons u rest ih =>
      obtain ⟨hprintable, hsingle⟩ := htext u List.mem_cons_self
      exact hP.cons hprintable hsingle
        (ih fun v hv => htext v (List.mem_cons_of_mem u hv))

theorem escapeUnit (u : UInt16) : P (escapeUnit u) := by
  have hdigit : ∀ n < 16, 32 ≤ hexDigit n ∧
      (isHigh (hexDigit n) || isLow (hexDigit n)) = false := by decide
  unfold JsonText.escapeUnit
  split_ifs with hquote hbackslash hb ht hn hf hr hcode
  · exact hP.of_units (forall_units (by decide))
  · exact hP.of_units (forall_units (by decide))
  · exact hP.of_units (forall_units (by decide))
  · exact hP.of_units (forall_units (by decide))
  · exact hP.of_units (forall_units (by decide))
  · exact hP.of_units (forall_units (by decide))
  · exact hP.of_units (forall_units (by decide))
  · refine hP.of_units fun v hv => ?_
    have hu : u.toNat < 65536 := u.toNat_lt
    simp only [unicodeEscape, List.mem_cons, List.not_mem_nil, or_false] at hv
    rcases hv with rfl | rfl | rfl | rfl | rfl | rfl
    · decide
    · decide
    · exact hdigit _ (by omega)
    · exact hdigit _ (by omega)
    · exact hdigit _ (by omega)
    · exact hdigit _ (by omega)
  · simp only [Bool.or_eq_true, decide_eq_true_eq, not_or, Bool.not_eq_true] at hcode
    exact hP.unit (UInt16.not_lt.mp hcode.1.1) (by rw [hcode.1.2, hcode.2]; rfl)

theorem escape (text : Text) : P (escape text) := by
  induction text using escape.induct with
  | case1 => exact hP.nil
  | case2 u =>
      rw [JsonText.escape]
      exact hP.escapeUnit u
  | case3 u v tail hpair ih =>
      rw [JsonText.escape, if_pos hpair]
      rw [Bool.and_eq_true] at hpair
      exact hP.append (hP.pair hpair.1 hpair.2) ih
  | case4 u v tail hpair ih =>
      rw [JsonText.escape, if_neg hpair]
      exact hP.append (hP.escapeUnit u) ih

theorem quoted (text : Text) : P (quoted text) :=
  hP.append (hP.cons (by decide) (by decide) (hP.escape text)) (hP.unit (by decide) (by decide))

variable {ν : Type} (format : NumberFormat ν)

theorem number (value : ν) : P (format.text value) := by
  have hunits : ∀ u ∈ ascii "0123456789+-.Ee",
      32 ≤ u ∧ (isHigh u || isLow u) = false := forall_units (by decide)
  exact hP.of_units fun u hu =>
    hunits u (mem_of_isNumberUnit (format.text_units value u hu))

mutual

theorem stringify : ∀ value, P (stringify format value)
  | .null => by
      rw [JsonText.stringify]
      exact hP.of_units (forall_units (by decide))
  | .bool true => by
      rw [JsonText.stringify]
      exact hP.of_units (forall_units (by decide))
  | .bool false => by
      rw [JsonText.stringify]
      exact hP.of_units (forall_units (by decide))
  | .number value => by
      rw [JsonText.stringify]
      exact hP.number format value
  | .string text => by
      rw [JsonText.stringify]
      exact hP.quoted text
  | .array items => by
      rw [JsonText.stringify]
      exact hP.append (hP.cons (by decide) (by decide) (stringifyItems items))
        (hP.unit (by decide) (by decide))
  | .object fields => by
      rw [JsonText.stringify]
      exact hP.append (hP.cons (by decide) (by decide) (stringifyFields fields))
        (hP.unit (by decide) (by decide))

theorem stringifyItems : ∀ items, P (stringifyItems format items)
  | [] => by
      rw [JsonText.stringifyItems]
      exact hP.nil
  | [item] => by
      rw [JsonText.stringifyItems]
      exact stringify item
  | item :: next :: rest => by
      rw [JsonText.stringifyItems]
      exact hP.append (stringify item)
        (hP.cons (by decide) (by decide) (stringifyItems (next :: rest)))

theorem stringifyFields : ∀ fields, P (stringifyFields format fields)
  | [] => by
      rw [JsonText.stringifyFields]
      exact hP.nil
  | [(key, value)] => by
      rw [JsonText.stringifyFields]
      exact hP.append (hP.quoted key) (hP.cons (by decide) (by decide) (stringify value))
  | (key, value) :: next :: rest => by
      rw [JsonText.stringifyFields]
      exact hP.append (hP.append (hP.quoted key)
        (hP.cons (by decide) (by decide) (stringify value)))
        (hP.cons (by decide) (by decide) (stringifyFields (next :: rest)))

end

end Closed

/-! ## Texts on the wire -/

/-- What a string is after it has been sent as UTF-8: `U+FFFD` stands for every
surrogate which is not half of a pair. -/
def toWellFormed : Text → Text
  | [] => []
  | [u] => if isHigh u || isLow u then [0xFFFD] else [u]
  | u :: v :: rest =>
      if isHigh u && isLow v then u :: v :: toWellFormed rest
      else (if isHigh u || isLow u then 0xFFFD else u) :: toWellFormed (v :: rest)

/-- Every surrogate is half of a pair. -/
def Paired (text : Text) : Prop :=
  ∀ rest, toWellFormed (text ++ rest) = text ++ toWellFormed rest

theorem paired_cons {u : UInt16} (hsingle : (isHigh u || isLow u) = false) {text : Text}
    (htext : Paired text) : Paired (u :: text) := by
  intro rest
  have hrest := htext rest
  rw [List.cons_append, List.cons_append, ← hrest]
  cases text ++ rest with
  | nil => simp [toWellFormed, hsingle]
  | cons v rest =>
      rw [Bool.or_eq_false_iff] at hsingle
      simp [toWellFormed, hsingle.1, hsingle.2]

theorem paired_of_units {text : Text}
    (htext : ∀ u ∈ text, (isHigh u || isLow u) = false) : Paired text := by
  induction text with
  | nil => exact fun _ => rfl
  | cons u rest ih =>
      exact paired_cons (htext u List.mem_cons_self)
        (ih fun v hv => htext v (List.mem_cons_of_mem u hv))

theorem closed_paired : Closed Paired where
  nil := fun _ => rfl
  append := by
    intro front back hfront hback rest
    rw [List.append_assoc, hfront, hback, List.append_assoc]
  unit := fun _ hsingle => paired_cons hsingle fun _ => rfl
  pair := by
    intro u v hu hv rest
    simp [toWellFormed, hu, hv]

theorem Paired.toWellFormed_eq {text : Text} (hpaired : Paired text) :
    toWellFormed text = text := by
  have heq := hpaired []
  rwa [List.append_nil, toWellFormed, List.append_nil] at heq

theorem closed_printable : Closed fun text => ∀ u ∈ text, 32 ≤ u where
  nil := by simp
  append := by
    intro front back hfront hback u hu
    rcases List.mem_append.mp hu with hu | hu
    · exact hfront u hu
    · exact hback u hu
  unit := by
    intro u hprintable _ v hv
    rwa [List.mem_singleton.mp hv]
  pair := by
    intro u v hu hv w hw
    have hrange : ∀ {x : UInt16}, 0xD800 ≤ x → 32 ≤ x :=
      fun hx => UInt16.le_trans (by decide) hx
    simp only [isHigh, isLow, Bool.and_eq_true, decide_eq_true_eq] at hu hv
    rcases List.mem_cons.mp hw with rfl | hw
    · exact hrange hu.1
    · rw [List.mem_singleton.mp hw]
      exact hrange (UInt16.le_trans (by decide) hv.1)

end JsonText
