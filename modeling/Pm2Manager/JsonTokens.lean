import Pm2Manager.JsonText

/-!
# String tokens of JSON texts

A scan of a text for string tokens, which knows nothing of JSON but quotes and
backslashes.  In a JSON text every token is a key, followed by its value, or a
value, followed by what may follow values.
-/

namespace JsonText

inductive Scan
  | outside
  | inside (raw : Text)
  | escaped (raw : Text)

/-- What stands between the quotes of each token, and what follows it. -/
def tokensFrom : Scan → Text → List (Text × Text)
  | _, [] => []
  | .outside, u :: rest =>
      if u = 34 then tokensFrom (.inside []) rest else tokensFrom .outside rest
  | .inside raw, u :: rest =>
      if u = 34 then (raw, rest) :: tokensFrom .outside rest
      else if u = 92 then tokensFrom (.escaped (raw ++ [u])) rest
      else tokensFrom (.inside (raw ++ [u])) rest
  | .escaped raw, u :: rest => tokensFrom (.inside (raw ++ [u])) rest

/-! ## Words between quotes -/

theorem tokensFrom_plain {word : Text} (hword : ∀ u ∈ word, u ≠ 34 ∧ u ≠ 92) (raw after : Text) :
    tokensFrom (.inside raw) (word ++ 34 :: after) =
      (raw ++ word, after) :: tokensFrom .outside after := by
  induction word generalizing raw with
  | nil => rw [List.nil_append, tokensFrom, if_pos rfl, List.append_nil]
  | cons u word ih =>
      obtain ⟨hquote, hbackslash⟩ := hword u List.mem_cons_self
      rw [List.cons_append, tokensFrom, if_neg hquote, if_neg hbackslash,
        ih fun v hv => hword v (List.mem_cons_of_mem u hv), List.append_assoc,
        List.singleton_append]

/-- A word between two quotes, wherever they stand: the second one ends a token
which ends with the word, or the first one ends a token before it. -/
theorem exists_token {word : Text} (hword : ∀ u ∈ word, u ≠ 34 ∧ u ≠ 92)
    (state : Scan) (front after : Text) :
    ∃ token ∈ tokensFrom state (front ++ 34 :: (word ++ 34 :: after)),
      word <:+ token.1 ∧ token.2 = after ∨ token.2 = word ++ 34 :: after := by
  induction front generalizing state with
  | nil =>
      rw [List.nil_append]
      cases state with
      | outside =>
          refine ⟨(word, after), ?_, .inl ⟨List.suffix_refl word, rfl⟩⟩
          rw [tokensFrom, if_pos rfl, tokensFrom_plain hword]
          exact List.mem_cons_self
      | inside raw =>
          refine ⟨(raw, word ++ 34 :: after), ?_, .inr rfl⟩
          rw [tokensFrom, if_pos rfl]
          exact List.mem_cons_self
      | escaped raw =>
          refine ⟨(raw ++ [34] ++ word, after), ?_, .inl ⟨List.suffix_append _ word, rfl⟩⟩
          rw [tokensFrom, tokensFrom_plain hword]
          exact List.mem_cons_self
  | cons u front ih =>
      rw [List.cons_append]
      cases state with
      | outside =>
          rw [tokensFrom]
          split_ifs
          · exact ih _
          · exact ih _
      | inside raw =>
          rw [tokensFrom]
          split_ifs
          · obtain ⟨token, htoken, hplace⟩ := ih .outside
            exact ⟨token, List.mem_cons_of_mem _ htoken, hplace⟩
          · exact ih _
          · exact ih _
      | escaped raw =>
          rw [tokensFrom]
          exact ih _

/-! ## Tokens of strings -/

theorem tokensFrom_cons {u : UInt16} (hquote : u ≠ 34) (rest : Text) :
    tokensFrom .outside (u :: rest) = tokensFrom .outside rest := by
  rw [tokensFrom, if_neg hquote]

theorem tokensFrom_append {text : Text} (htext : ∀ u ∈ text, u ≠ 34) (rest : Text) :
    tokensFrom .outside (text ++ rest) = tokensFrom .outside rest := by
  induction text with
  | nil => rfl
  | cons u text ih =>
      rw [List.cons_append, tokensFrom_cons (htext u List.mem_cons_self),
        ih fun v hv => htext v (List.mem_cons_of_mem u hv)]

/-- Whether the scan is still inside the token after `text`. -/
def StaysInside (text : Text) : Prop :=
  ∀ raw rest, tokensFrom (.inside raw) (text ++ rest) =
    tokensFrom (.inside (raw ++ text)) rest

theorem StaysInside.append {front back : Text} (hfront : StaysInside front)
    (hback : StaysInside back) : StaysInside (front ++ back) := by
  intro raw rest
  rw [List.append_assoc, hfront, hback, List.append_assoc]

theorem staysInside_unit {u : UInt16} (hquote : u ≠ 34) (hbackslash : u ≠ 92) :
    StaysInside [u] := by
  intro raw rest
  rw [List.singleton_append, tokensFrom, if_neg hquote, if_neg hbackslash]

theorem staysInside_pair (u : UInt16) : StaysInside [92, u] := by
  intro raw rest
  rw [List.cons_append, tokensFrom, if_neg (by decide), if_pos rfl, List.singleton_append,
    tokensFrom, List.append_assoc]
  rfl

theorem staysInside_escapeUnit (u : UInt16) : StaysInside (escapeUnit u) := by
  have hdigit : ∀ n < 16, StaysInside [hexDigit n] := by
    intro n hn
    have hplain : ∀ n < 16, hexDigit n ≠ 34 ∧ hexDigit n ≠ 92 := by decide
    exact staysInside_unit (hplain n hn).1 (hplain n hn).2
  have hu : u.toNat < 65536 := u.toNat_lt
  unfold escapeUnit
  split_ifs with hquote hbackslash hb ht hn hf hr hcode
  · exact staysInside_pair 34
  · exact staysInside_pair 92
  · exact staysInside_pair 98
  · exact staysInside_pair 116
  · exact staysInside_pair 110
  · exact staysInside_pair 102
  · exact staysInside_pair 114
  · exact (staysInside_pair 117).append ((hdigit _ (by omega)).append
      ((hdigit _ (by omega)).append ((hdigit _ (by omega)).append (hdigit _ (by omega)))))
  · exact staysInside_unit hquote hbackslash

theorem surrogate_plain {u : UInt16} (hu : (isHigh u || isLow u) = true) :
    u ≠ 34 ∧ u ≠ 92 := by
  constructor
  · rintro rfl
    cases hu
  · rintro rfl
    cases hu

theorem staysInside_escape (text : Text) : StaysInside (escape text) := by
  induction text using escape.induct with
  | case1 =>
      intro raw rest
      rw [escape, List.append_nil, List.nil_append]
  | case2 u => exact staysInside_escapeUnit u
  | case3 u v tail hpair ih =>
      rw [escape, if_pos hpair]
      rw [Bool.and_eq_true] at hpair
      have hu := surrogate_plain (show (isHigh u || isLow u) = true by rw [hpair.1]; rfl)
      have hv := surrogate_plain (show (isHigh v || isLow v) = true by
        rw [hpair.2, Bool.or_true])
      exact (staysInside_unit hu.1 hu.2).append ((staysInside_unit hv.1 hv.2).append ih)
  | case4 u v tail hpair ih =>
      rw [escape, if_neg hpair]
      exact (staysInside_escapeUnit u).append ih

theorem tokensFrom_quoted (text rest : Text) :
    tokensFrom .outside (quoted text ++ rest) =
      (escape text, rest) :: tokensFrom .outside rest := by
  rw [quoted, List.append_assoc, List.cons_append, tokensFrom, if_pos rfl,
    staysInside_escape text, List.singleton_append, tokensFrom, if_pos rfl, List.nil_append]

/-! ## Tokens of values -/

section Format

variable {ν : Type} (format : NumberFormat ν)

mutual

/-- The fields of a value and of all which is inside it. -/
def members : Json ν → List (Text × Json ν)
  | .array items => itemMembers items
  | .object fields => fieldMembers fields
  | .null => []
  | .bool _ => []
  | .number _ => []
  | .string _ => []

def itemMembers : List (Json ν) → List (Text × Json ν)
  | [] => []
  | item :: rest => members item ++ itemMembers rest

def fieldMembers : List (Text × Json ν) → List (Text × Json ν)
  | [] => []
  | (key, value) :: rest => (key, value) :: (members value ++ fieldMembers rest)

end

/-- A text which may stand after a value. -/
def EndsValue (rest : Text) : Prop :=
  ∀ u, rest.head? = some u → u = 44 ∨ u = 93 ∨ u = 125

/-- A token is the key of one of the fields, or is a value. -/
def Placed (fields : List (Text × Json ν)) (token : Text × Text) : Prop :=
  EndsValue token.2 ∨
    ∃ key value more, (key, value) ∈ fields ∧
      token = (escape key, 58 :: (stringify format value ++ more))

variable {format}

theorem Placed.mono {fields more : List (Text × Json ν)} {token : Text × Text}
    (hplaced : Placed format fields token) (hsubset : fields ⊆ more) :
    Placed format more token := by
  rcases hplaced with hvalue | ⟨key, value, after, hfield, heq⟩
  · exact .inl hvalue
  · exact .inr ⟨key, value, after, hsubset hfield, heq⟩

theorem endsValue_cons {u : UInt16} (hu : u = 44 ∨ u = 93 ∨ u = 125) (rest : Text) :
    EndsValue (u :: rest) := by
  intro v hv
  rwa [← Option.some.inj hv]

theorem number_no_quote (value : ν) : ∀ u ∈ format.text value, u ≠ 34 := by
  rintro u hu rfl
  exact absurd (format.text_units value 34 hu) (by decide)

mutual

/-- Each token is one of the value or of what follows it. -/
theorem tokens_stringify : ∀ (value : Json ν) (rest : Text), EndsValue rest →
    ∀ token ∈ tokensFrom .outside (stringify format value ++ rest),
      Placed format (members value) token ∨ token ∈ tokensFrom .outside rest
  | .null, rest, _, token, htoken => by
      rw [stringify, tokensFrom_append (forall_units (by decide))] at htoken
      exact .inr htoken
  | .bool true, rest, _, token, htoken => by
      rw [stringify, tokensFrom_append (forall_units (by decide))] at htoken
      exact .inr htoken
  | .bool false, rest, _, token, htoken => by
      rw [stringify, tokensFrom_append (forall_units (by decide))] at htoken
      exact .inr htoken
  | .number value, rest, _, token, htoken => by
      rw [stringify, tokensFrom_append (number_no_quote value)] at htoken
      exact .inr htoken
  | .string text, rest, hrest, token, htoken => by
      rw [stringify, tokensFrom_quoted] at htoken
      rcases List.mem_cons.mp htoken with rfl | htoken
      · exact .inl (.inl hrest)
      · exact .inr htoken
  | .array items, rest, _, token, htoken => by
      rw [stringify, List.append_assoc, List.cons_append, List.singleton_append,
        tokensFrom_cons (by decide)] at htoken
      rcases tokens_items items (93 :: rest) (endsValue_cons (by decide) rest) token htoken with
        hplaced | htoken
      · exact .inl hplaced
      · rw [tokensFrom_cons (by decide)] at htoken
        exact .inr htoken
  | .object fields, rest, _, token, htoken => by
      rw [stringify, List.append_assoc, List.cons_append, List.singleton_append,
        tokensFrom_cons (by decide)] at htoken
      rcases tokens_fields fields (125 :: rest) (endsValue_cons (by decide) rest) token htoken
        with hplaced | htoken
      · exact .inl hplaced
      · rw [tokensFrom_cons (by decide)] at htoken
        exact .inr htoken

theorem tokens_items : ∀ (items : List (Json ν)) (rest : Text), EndsValue rest →
    ∀ token ∈ tokensFrom .outside (stringifyItems format items ++ rest),
      Placed format (itemMembers items) token ∨ token ∈ tokensFrom .outside rest
  | [], rest, _, token, htoken => .inr htoken
  | [item], rest, hrest, token, htoken => by
      rw [stringifyItems] at htoken
      rcases tokens_stringify item rest hrest token htoken with hplaced | htoken
      · exact .inl (hplaced.mono (List.subset_append_left _ _))
      · exact .inr htoken
  | item :: next :: more, rest, hrest, token, htoken => by
      rw [stringifyItems, List.append_assoc, List.cons_append] at htoken
      rcases tokens_stringify item _ (endsValue_cons (by decide) _) token htoken with
        hplaced | htoken
      · exact .inl (hplaced.mono (List.subset_append_left _ _))
      · rw [tokensFrom_cons (by decide)] at htoken
        rcases tokens_items (next :: more) rest hrest token htoken with hplaced | htoken
        · exact .inl (hplaced.mono (List.subset_append_right _ _))
        · exact .inr htoken

theorem tokens_fields : ∀ (fields : List (Text × Json ν)) (rest : Text), EndsValue rest →
    ∀ token ∈ tokensFrom .outside (stringifyFields format fields ++ rest),
      Placed format (fieldMembers fields) token ∨ token ∈ tokensFrom .outside rest
  | [], rest, _, token, htoken => .inr htoken
  | [(key, value)], rest, hrest, token, htoken => by
      rw [stringifyFields, List.append_assoc, tokensFrom_quoted, List.cons_append] at htoken
      rcases List.mem_cons.mp htoken with rfl | htoken
      · exact .inl (.inr ⟨key, value, rest, List.mem_cons_self, rfl⟩)
      · rw [tokensFrom_cons (by decide)] at htoken
        rcases tokens_stringify value rest hrest token htoken with hplaced | htoken
        · exact .inl (hplaced.mono
            (List.subset_cons_of_subset _ (List.subset_append_left _ _)))
        · exact .inr htoken
  | (key, value) :: next :: more, rest, hrest, token, htoken => by
      rw [stringifyFields, List.append_assoc, List.append_assoc, tokensFrom_quoted,
        List.cons_append, List.cons_append] at htoken
      rcases List.mem_cons.mp htoken with rfl | htoken
      · exact .inl (.inr ⟨key, value, _, List.mem_cons_self, rfl⟩)
      · rw [tokensFrom_cons (by decide)] at htoken
        rcases tokens_stringify value _ (endsValue_cons (by decide) _) token htoken with
          hplaced | htoken
        · exact .inl (hplaced.mono
            (List.subset_cons_of_subset _ (List.subset_append_left _ _)))
        · rw [tokensFrom_cons (by decide)] at htoken
          rcases tokens_fields (next :: more) rest hrest token htoken with hplaced | htoken
          · exact .inl (hplaced.mono
              (List.subset_cons_of_subset _ (List.subset_append_right _ _)))
          · exact .inr htoken

end

/-- Each token of a text is a key with its value after it, or a value. -/
theorem placed_of_mem_tokens {value : Json ν} {token : Text × Text}
    (htoken : token ∈ tokensFrom .outside (stringify format value)) :
    Placed format (members value) token := by
  rw [← List.append_nil (stringify format value)] at htoken
  have hend : EndsValue [] := fun u hu => by cases hu
  rcases tokens_stringify value [] hend token htoken with hplaced | hnone
  · exact hplaced
  · cases hnone

theorem mem_fieldMembers {field : Text × Json ν} {fields : List (Text × Json ν)}
    (hfield : field ∈ fieldMembers fields) :
    field ∈ fields ∨ ∃ outer ∈ fields, field ∈ members outer.2 := by
  induction fields with
  | nil => cases hfield
  | cons first rest ih =>
      obtain ⟨key, value⟩ := first
      rw [fieldMembers] at hfield
      rcases List.mem_cons.mp hfield with rfl | hfield
      · exact .inl List.mem_cons_self
      · rcases List.mem_append.mp hfield with hinner | hrest
        · exact .inr ⟨(key, value), List.mem_cons_self, hinner⟩
        · rcases ih hrest with hmem | ⟨outer, houter, hinner⟩
          · exact .inl (List.mem_cons_of_mem _ hmem)
          · exact .inr ⟨outer, List.mem_cons_of_mem _ houter, hinner⟩

theorem exists_object {value : Json ν} {more rest : Text}
    (hbrace : stringify format value ++ more = 123 :: rest) :
    ∃ fields, value = .object fields := by
  cases value with
  | object fields => exact ⟨fields, rfl⟩
  | null => simp [stringify] at hbrace
  | bool value => cases value <;> simp [stringify] at hbrace
  | string text => simp [stringify, quoted] at hbrace
  | array items => simp [stringify] at hbrace
  | number value =>
      obtain ⟨c, digits, heq, hunit⟩ := number_head format value
      rw [stringify, heq] at hbrace
      obtain rfl := (List.cons.inj hbrace).1
      cases hunit

variable (format) in
/-- Where a field stands in the text of an object. -/
theorem exists_field_text {P : Text → Prop} (hP : Closed P) {key : Text} {value : Json ν}
    {fields : List (Text × Json ν)} (hfield : (key, value) ∈ fields) :
    ∃ front back, P front ∧ stringifyFields format fields =
      front ++ (quoted key ++ 58 :: (stringify format value ++ back)) := by
  induction fields with
  | nil => cases hfield
  | cons first more ih =>
      obtain ⟨name, item⟩ := first
      rcases List.mem_cons.mp hfield with heq | hmore
      · cases heq
        cases more with
        | nil => exact ⟨[], [], hP.nil, by simp [stringifyFields]⟩
        | cons next more =>
            exact ⟨[], 44 :: stringifyFields format (next :: more), hP.nil,
              by simp [stringifyFields]⟩
      · obtain ⟨front, back, hfront, heq⟩ := ih hmore
        cases more with
        | nil => cases hmore
        | cons next more =>
            refine ⟨quoted name ++ 58 :: stringify format item ++ 44 :: front, back, ?_, ?_⟩
            · exact hP.append (hP.append (hP.quoted name)
                (hP.cons (by decide) (by decide) (hP.stringify format item)))
                (hP.cons (by decide) (by decide) hfront)
            · rw [stringifyFields, heq, List.append_assoc (quoted name ++ _)]
              rfl

end Format

end JsonText
