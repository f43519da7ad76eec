import Pm2Manager.JsonTokens
import Pm2Manager.LikePattern
import Pm2Manager.NumberText

/-!
# Sessions as texts

The `sess` column holds sessions as JSON, and `deleteByUserId` finds those of a
user with a `LIKE` over this text.  No string inside a session can forge or
hide what the pattern looks for.
-/

namespace Pm2Manager

open JsonText (Text Json ascii)
open NumberText (Number)

/-- What the fields of a cookie hold: no objects. -/
inductive CookieValue
  | null
  | bool (value : Bool)
  | number (value : Number)
  | string (text : Text)

def CookieValue.json : CookieValue → Json Number
  | .null => .null
  | .bool value => .bool value
  | .number value => .number value
  | .string text => .string text

/-- The fields which this application writes into sessions. -/
inductive SessionField
  | cookie (values : List (Text × CookieValue))
  | csrfSecret (secret : Text)
  | user (id : Number) (username : Text) (isAdmin : Bool)
  | pending2fa (userId : Number) (username : Text)
  | pendingTotpSecret (secret : Text)

namespace SessionField

def key : SessionField → Text
  | .cookie _ => ascii "cookie"
  | .csrfSecret _ => ascii "csrfSecret"
  | .user _ _ _ => ascii "user"
  | .pending2fa _ _ => ascii "pending2fa"
  | .pendingTotpSecret _ => ascii "pendingTotpSecret"

def json : SessionField → Json Number
  | .cookie values => .object (values.map fun field => (field.1, field.2.json))
  | .csrfSecret secret => .string secret
  | .user id username isAdmin => .object [
      (ascii "id", .number id),
      (ascii "username", .string username),
      (ascii "isAdmin", .bool isAdmin)]
  | .pending2fa userId username => .object [
      (ascii "userId", .number userId),
      (ascii "username", .string username)]
  | .pendingTotpSecret secret => .string secret

def userId : SessionField → Option Number
  | .user id _ _ => some id
  | .cookie _ => none
  | .csrfSecret _ => none
  | .pending2fa _ _ => none
  | .pendingTotpSecret _ => none

end SessionField

/-- A session: its fields in the order of their insertion, each at most once. -/
structure WrittenSession where
  fields : List SessionField
  distinct : (fields.map SessionField.key).Nodup

namespace WrittenSession

def json (session : WrittenSession) : Json Number :=
  .object (session.fields.map fun field => (field.key, field.json))

def userId (session : WrittenSession) : Option Number :=
  session.fields.findSome? SessionField.userId

/-- The `sess` column, which SQLite holds in UTF-8. -/
def sess (session : WrittenSession) : Text :=
  JsonText.toWellFormed (JsonText.stringify NumberText.format session.json)

end WrittenSession

structure StoredRow where
  sid : Text
  sess : Text
deriving DecidableEq

/-- The `sessions` table, which the session store creates. -/
abbrev SessionTable := Option (List StoredRow)

/-- `%"user":{"id":N,%`. -/
def userPattern (userId : Number) : Text :=
  ascii "%\"user\":\x7b\"id\":" ++ NumberText.text userId ++ ascii ",%"

def SessionTable.deleteByUserId (table : SessionTable) (userId : Number) : SessionTable × ℕ :=
  match table with
  | none => (none, 0)
  | some rows =>
      (some (rows.filter fun row => !LikePattern.likeText (userPattern userId) row.sess),
        rows.countP fun row => LikePattern.likeText (userPattern userId) row.sess)

/-! ## The user of a parsed session -/

/-- A property of a parsed object; the last one counts where a key comes twice. -/
def property (key : Text) : Json Number → Option (Json Number)
  | .object fields => (fields.reverse.find? fun field => field.1 = key).map Prod.snd
  | _ => none

/-- `JSON.parse(sess).user.id`. -/
def parsedUserId (sess : Text) : Option Number := do
  let session ← JsonText.parse NumberText.format sess
  let user ← property (ascii "user") session
  match ← property (ascii "id") user with
  | .number id => some id
  | _ => none

/-! ## What a session parses to -/

theorem property_of_mem {key : Text} {value : Json Number} {fields : List (Text × Json Number)}
    (hdistinct : (fields.map Prod.fst).Nodup) (hmem : (key, value) ∈ fields) :
    property key (.object fields) = some value := by
  have hreverse : (fields.reverse.map Prod.fst).Nodup := by
    rw [List.map_reverse]
    exact List.nodup_reverse.mpr hdistinct
  have hfind : (fields.reverse.find? fun field => decide (field.1 = key)) =
      some (key, value) := by
    obtain ⟨front, back, heq⟩ := List.append_of_mem (List.mem_reverse.mpr hmem)
    rw [heq, List.map_append, List.map_cons] at hreverse
    have hnone : (front.find? fun field => decide (field.1 = key)) = none := by
      rw [List.find?_eq_none]
      intro field hfield hkey
      have hsame : field.1 = key := of_decide_eq_true hkey
      exact List.disjoint_of_nodup_append hreverse (List.mem_map_of_mem hfield)
        (hsame ▸ List.mem_cons_self)
    rw [heq, List.find?_append, hnone, Option.none_or]
    exact List.find?_cons_of_pos (decide_eq_true rfl)
  rw [property, hfind]
  rfl

theorem mem_of_property {key : Text} {value : Json Number} {fields : List (Text × Json Number)}
    (hproperty : property key (.object fields) = some value) : (key, value) ∈ fields := by
  obtain ⟨field, hfind, rfl⟩ := Option.map_eq_some_iff.mp hproperty
  have hkey : field.1 = key := of_decide_eq_true (List.find?_some hfind :)
  rw [← hkey]
  exact List.mem_reverse.mp (List.mem_of_find?_eq_some hfind)

theorem readBackFields_eq_map (fields : List (Text × Json Number)) :
    JsonText.readBackFields NumberText.format fields =
      fields.map fun field => (field.1, JsonText.readBack NumberText.format field.2) := by
  induction fields with
  | nil => rfl
  | cons field rest ih => rw [JsonText.readBackFields, ih, List.map_cons]

namespace WrittenSession

variable (session : WrittenSession)

theorem sess_eq : session.sess = JsonText.stringify NumberText.format session.json :=
  (JsonText.closed_paired.stringify NumberText.format session.json).toWellFormed_eq

theorem parse_sess : JsonText.parse NumberText.format session.sess =
    some (.object (session.fields.map fun field =>
      (field.key, JsonText.readBack NumberText.format field.json))) := by
  rw [sess_eq, JsonText.parse_stringify, json, JsonText.readBack, readBackFields_eq_map,
    List.map_map]
  rfl

variable {session}

theorem parsedUserId_of_mem {id : Number} {username : Text} {isAdmin : Bool}
    (huser : .user id username isAdmin ∈ session.fields) :
    parsedUserId session.sess = some (NumberText.reread id) := by
  have hdistinct : ((session.fields.map fun field =>
      (field.key, JsonText.readBack NumberText.format field.json)).map Prod.fst).Nodup := by
    rw [List.map_map]
    exact session.distinct
  have huserValue : property (ascii "user") (.object (session.fields.map fun field =>
      (field.key, JsonText.readBack NumberText.format field.json))) =
        some (JsonText.readBack NumberText.format
          (SessionField.user id username isAdmin).json) :=
    property_of_mem hdistinct (List.mem_map_of_mem huser)
  have hid : property (ascii "id") (JsonText.readBack NumberText.format
      (SessionField.user id username isAdmin).json) = some (.number (NumberText.reread id)) :=
    property_of_mem (show [ascii "id", ascii "username", ascii "isAdmin"].Nodup by decide)
      List.mem_cons_self
  rw [parsedUserId, parse_sess, Option.bind_eq_bind, Option.bind_some]
  rw [huserValue, Option.bind_some, hid]
  rfl

theorem exists_user_of_parsedUserId {x : Number} (hparsed : parsedUserId session.sess = some x) :
    ∃ id username isAdmin, .user id username isAdmin ∈ session.fields ∧
      x = NumberText.reread id := by
  have hparsed' := hparsed
  rw [parsedUserId, parse_sess, Option.bind_eq_bind, Option.bind_some] at hparsed'
  obtain ⟨user, huser, _⟩ := Option.bind_eq_some_iff.mp hparsed'
  obtain ⟨field, hfield, heq⟩ := List.mem_map.mp (mem_of_property huser)
  have hkey : field.key = ascii "user" := congrArg Prod.fst heq
  cases field with
  | user id username isAdmin =>
      rw [parsedUserId_of_mem hfield] at hparsed
      exact ⟨id, username, isAdmin, hfield, (Option.some.inj hparsed).symm⟩
  | cookie => exact absurd hkey (show ascii "cookie" ≠ ascii "user" by decide)
  | csrfSecret => exact absurd hkey (show ascii "csrfSecret" ≠ ascii "user" by decide)
  | pending2fa => exact absurd hkey (show ascii "pending2fa" ≠ ascii "user" by decide)
  | pendingTotpSecret => exact absurd hkey (show ascii "pendingTotpSecret" ≠ ascii "user" by decide)

variable (session) in
theorem parsedUserId_eq : parsedUserId session.sess = session.userId.map NumberText.reread := by
  cases huser : session.userId with
  | some id =>
      obtain ⟨field, hfield, hid⟩ := List.exists_of_findSome?_eq_some huser
      cases field with
      | user other username isAdmin =>
          obtain rfl := Option.some.inj hid
          exact parsedUserId_of_mem hfield
      | cookie => cases hid
      | csrfSecret => cases hid
      | pending2fa => cases hid
      | pendingTotpSecret => cases hid
  | none =>
      by_contra hne
      obtain ⟨x, hx⟩ := Option.ne_none_iff_exists'.mp hne
      obtain ⟨id, username, isAdmin, hmem, _⟩ := exists_user_of_parsedUserId hx
      cases List.findSome?_eq_none_iff.mp huser _ hmem

end WrittenSession

/-! ## What the pattern finds -/

def userLiteral (userId : Number) : Text :=
  ascii "\"user\":\x7b\"id\":" ++ (NumberText.text userId ++ [44])

theorem userPattern_eq (userId : Number) :
    userPattern userId = LikePattern.containing (userLiteral userId) := by
  rw [userPattern, userLiteral, LikePattern.containing,
    show ascii "%\"user\":\x7b\"id\":" = 37 :: ascii "\"user\":\x7b\"id\":" by decide,
    show ascii ",%" = [44] ++ [37] by decide]
  simp only [List.cons_append, List.append_assoc]

theorem text_unit_range {x : Number} {u : UInt16} (hu : u ∈ NumberText.text x) :
    ¬(65 ≤ u ∧ u ≤ 90) ∧ u ≠ 44 ∧ u ≠ 37 ∧ u ≠ 95 ∧
      (JsonText.isHigh u || JsonText.isLow u) = false := by
  have hunits : ∀ u ∈ ascii "0123456789+-.Ee", u ≠ 69 →
      ¬(65 ≤ u ∧ u ≤ 90) ∧ u ≠ 44 ∧ u ≠ 37 ∧ u ≠ 95 ∧
        (JsonText.isHigh u || JsonText.isLow u) = false := JsonText.forall_units (by decide)
  obtain ⟨hunit, hcapital⟩ := NumberText.text_units x u hu
  exact hunits u (JsonText.mem_of_isNumberUnit hunit) hcapital

theorem plain_userLiteral (userId : Number) : LikePattern.Plain (userLiteral userId) := by
  intro u hu
  rcases List.mem_append.mp hu with hword | hrest
  · have hplain : ∀ u ∈ ascii "\"user\":\x7b\"id\":",
        (JsonText.isHigh u || JsonText.isLow u) = false ∧ u ≠ 37 ∧ u ≠ 95 :=
      JsonText.forall_units (by decide)
    exact hplain u hword
  · rcases List.mem_append.mp hrest with hdigit | hcomma
    · obtain ⟨_, _, hany, hone, hsingle⟩ := text_unit_range hdigit
      exact ⟨hsingle, hany, hone⟩
    · rw [List.mem_singleton.mp hcomma]
      decide

/-! ### A match is folded to the literal -/

open LikePattern (foldUnit)

theorem exists_cons_of_fold {middle rest : Text} {c : UInt16} (hc : ¬(97 ≤ c ∧ c ≤ 122))
    (hfold : middle.map foldUnit = c :: rest) :
    ∃ tail, middle = c :: tail ∧ tail.map foldUnit = rest := by
  obtain ⟨u, tail, rfl, hu, htail⟩ := List.map_eq_cons_iff.mp hfold
  exact ⟨tail, by rw [LikePattern.eq_of_foldUnit_eq hc hu], htail⟩

theorem map_foldUnit_text (x : Number) :
    (NumberText.text x).map foldUnit = NumberText.text x := by
  rw [List.map_congr_left fun u hu => LikePattern.foldUnit_eq_self (text_unit_range hu).1,
    List.map_id']

theorem map_foldUnit_userLiteral (userId : Number) :
    (userLiteral userId).map foldUnit = userLiteral userId := by
  rw [userLiteral, List.map_append, List.map_append, map_foldUnit_text]
  congr 1

theorem exists_words {middle : Text} {userId : Number}
    (hfold : middle.map foldUnit = (userLiteral userId).map foldUnit) :
    ∃ word name digits, middle = 34 :: (word ++ 34 :: 58 :: 123 :: 34 ::
        (name ++ 34 :: 58 :: (digits ++ [44]))) ∧
      word.map foldUnit = ascii "user" ∧ name.map foldUnit = ascii "id" ∧
      digits.map foldUnit = NumberText.text userId := by
  rw [map_foldUnit_userLiteral, userLiteral,
    show ascii "\"user\":\x7b\"id\":" = 34 :: (ascii "user" ++ 34 :: 58 :: 123 :: 34 ::
      (ascii "id" ++ [34, 58])) by decide] at hfold
  simp only [List.cons_append, List.append_assoc, List.nil_append] at hfold
  obtain ⟨m₁, rfl, h₁⟩ := exists_cons_of_fold (by decide) hfold
  obtain ⟨word, m₂, rfl, hword, h₂⟩ := List.map_eq_append_iff.mp h₁
  obtain ⟨m₃, rfl, h₃⟩ := exists_cons_of_fold (by decide) h₂
  obtain ⟨m₄, rfl, h₄⟩ := exists_cons_of_fold (by decide) h₃
  obtain ⟨m₅, rfl, h₅⟩ := exists_cons_of_fold (by decide) h₄
  obtain ⟨m₆, rfl, h₆⟩ := exists_cons_of_fold (by decide) h₅
  obtain ⟨name, m₇, rfl, hname, h₇⟩ := List.map_eq_append_iff.mp h₆
  obtain ⟨m₈, rfl, h₈⟩ := exists_cons_of_fold (by decide) h₇
  obtain ⟨m₉, rfl, h₉⟩ := exists_cons_of_fold (by decide) h₈
  obtain ⟨digits, comma, rfl, hdigits, hcomma⟩ := List.map_eq_append_iff.mp h₉
  obtain ⟨none, rfl, hnone⟩ := exists_cons_of_fold (by decide) hcomma
  rw [List.map_eq_nil_iff.mp hnone]
  exact ⟨word, name, digits, rfl, hword, hname, hdigits⟩

/-- A unit of a folded word is one of the word up to the case. -/
theorem ne_of_fold {word folded : Text} {c : UInt16} (hfold : word.map foldUnit = folded)
    (hc : foldUnit c ∉ folded) : ∀ u ∈ word, u ≠ c := by
  rintro u hu rfl
  exact hc (hfold ▸ List.mem_map_of_mem hu)

/-! ### Only the user of a session is found -/

theorem CookieValue.json_ne_object (value : CookieValue) (fields : List (Text × Json Number)) :
    value.json ≠ .object fields := by
  cases value <;> exact fun heq => by cases heq

theorem SessionField.inner_ne_object (field : SessionField) {inner : Text × Json Number}
    (hinner : inner ∈ JsonText.members field.json) (fields : List (Text × Json Number)) :
    inner.2 ≠ .object fields := by
  cases field with
  | cookie values =>
      rcases JsonText.mem_fieldMembers hinner with hmem | ⟨outer, houter, hmem⟩
      · obtain ⟨pair, _, rfl⟩ := List.mem_map.mp hmem
        exact pair.2.json_ne_object fields
      · obtain ⟨pair, _, rfl⟩ := List.mem_map.mp houter
        obtain ⟨key, value⟩ := pair
        cases value <;> cases hmem
  | csrfSecret => cases hinner
  | pendingTotpSecret => cases hinner
  | user id username isAdmin =>
      simp only [SessionField.json, JsonText.members, JsonText.fieldMembers, List.nil_append,
        List.mem_cons, List.not_mem_nil, or_false] at hinner
      rcases hinner with rfl | rfl | rfl <;> exact fun heq => by cases heq
  | pending2fa userId username =>
      simp only [SessionField.json, JsonText.members, JsonText.fieldMembers, List.nil_append,
        List.mem_cons, List.not_mem_nil, or_false] at hinner
      rcases hinner with rfl | rfl <;> exact fun heq => by cases heq

/-- An object inside a session is the value of one of its fields. -/
theorem WrittenSession.exists_field {session : WrittenSession} {key : Text}
    {fields : List (Text × Json Number)}
    (hmem : (key, .object fields) ∈ JsonText.members session.json) :
    ∃ field ∈ session.fields, key = field.key ∧ field.json = .object fields := by
  rcases JsonText.mem_fieldMembers hmem with hfield | ⟨outer, houter, hinner⟩
  · obtain ⟨field, hfield, heq⟩ := List.mem_map.mp hfield
    exact ⟨field, hfield, (congrArg Prod.fst heq).symm, congrArg Prod.snd heq⟩
  · obtain ⟨field, _, rfl⟩ := List.mem_map.mp houter
    exact absurd rfl (field.inner_ne_object hinner fields)

/-- The key which ends with the word of the pattern is `user`. -/
theorem SessionField.eq_user {field : SessionField} {fields : List (Text × Json Number)}
    (hobject : field.json = .object fields) {word : Text}
    (hword : word.map foldUnit = ascii "user") (hsuffix : word <:+ JsonText.escape field.key) :
    ∃ id username isAdmin, field = .user id username isAdmin := by
  have hlength : word.length = 4 := by
    have hmap := congrArg List.length hword
    rwa [List.length_map] at hmap
  have hdrop := List.suffix_iff_eq_drop.mp hsuffix
  rw [hlength] at hdrop
  rw [hdrop] at hword
  have hother : ∀ key ∈ [ascii "cookie", ascii "pending2fa"],
      ((JsonText.escape key).drop ((JsonText.escape key).length - 4)).map foldUnit ≠
        ascii "user" := by decide
  cases field with
  | user id username isAdmin => exact ⟨id, username, isAdmin, rfl⟩
  | cookie values => exact absurd hword (hother _ (by simp [SessionField.key]))
  | pending2fa userId username => exact absurd hword (hother _ (by simp [SessionField.key]))
  | csrfSecret secret => cases hobject
  | pendingTotpSecret secret => cases hobject

theorem eq_of_append_comma {front back more rest : Text} (hfront : ∀ u ∈ front, u ≠ 44)
    (hback : ∀ u ∈ back, u ≠ 44) (heq : front ++ 44 :: more = back ++ 44 :: rest) :
    front = back := by
  have hstop : ∀ {tail : Text} u, (44 :: tail).head? = some u → decide (u ≠ 44) = false := by
    intro tail u hu
    rw [← Option.some.inj hu]
    decide
  have htake := (JsonText.span_append (p := (· ≠ 44)) (fun u hu => decide_eq_true (hfront u hu))
    (@hstop more)).1
  rw [heq] at htake
  rw [← htake]
  exact (JsonText.span_append (p := (· ≠ 44)) (fun u hu => decide_eq_true (hback u hu))
    (@hstop rest)).1

/-- The text of the value of `user` begins with the id. -/
theorem user_json_text (id : Number) (username : Text) (isAdmin : Bool) :
    ∃ rest, JsonText.stringify NumberText.format (SessionField.user id username isAdmin).json =
      123 :: 34 :: (ascii "id" ++ 34 :: 58 :: (NumberText.text id ++ 44 :: rest)) := by
  refine ⟨JsonText.stringifyFields NumberText.format [(ascii "username", .string username),
    (ascii "isAdmin", .bool isAdmin)] ++ [125], ?_⟩
  rw [SessionField.json, JsonText.stringify, JsonText.stringifyFields, JsonText.stringify,
    show JsonText.quoted (ascii "id") = 34 :: (ascii "id" ++ [34]) by decide]
  simp [NumberText.format]

theorem id_text_eq {id userId : Number} {username more name digits back : Text} {isAdmin : Bool}
    (hvalue : JsonText.stringify NumberText.format (SessionField.user id username isAdmin).json ++
      more = 123 :: 34 :: (name ++ 34 :: 58 :: (digits ++ 44 :: back)))
    (hname : name.map foldUnit = ascii "id")
    (hdigits : digits.map foldUnit = NumberText.text userId) :
    NumberText.text id = NumberText.text userId := by
  obtain ⟨rest, hjson⟩ := user_json_text id username isAdmin
  have hlength : (ascii "id").length = name.length := by
    rw [← hname, List.length_map]
  have hcomma : ∀ u ∈ NumberText.text id, u ≠ 44 := fun u hu => (text_unit_range hu).2.1
  have hnone : foldUnit 44 ∉ NumberText.text userId := fun hmem =>
    (text_unit_range hmem).2.1 rfl
  rw [hjson, List.cons_append, List.cons_append, List.append_assoc] at hvalue
  have hrest := (List.append_inj (List.cons.inj (List.cons.inj hvalue).2).2 hlength).2
  rw [List.cons_append, List.cons_append, List.append_assoc, List.cons_append] at hrest
  have hid : NumberText.text id = digits :=
    eq_of_append_comma hcomma (ne_of_fold hdigits hnone)
      (List.cons.inj (List.cons.inj hrest).2).2
  rw [← hdigits, ← hid, map_foldUnit_text]

theorem exists_user_of_match {session : WrittenSession} {userId : Number}
    (hmatch : LikePattern.likeText (userPattern userId) session.sess = true) :
    ∃ id username isAdmin, .user id username isAdmin ∈ session.fields ∧
      NumberText.text id = NumberText.text userId := by
  rw [userPattern_eq, WrittenSession.sess_eq] at hmatch
  obtain ⟨front, middle, back, htext, hfold⟩ :=
    LikePattern.exists_of_likeText (plain_userLiteral userId) hmatch
  obtain ⟨word, name, digits, rfl, hword, hname, hdigits⟩ := exists_words hfold
  have hplain : ∀ u ∈ word, u ≠ 34 ∧ u ≠ 92 := fun u hu =>
    ⟨ne_of_fold hword (by decide) u hu, ne_of_fold hword (by decide) u hu⟩
  have hstored : JsonText.stringify NumberText.format session.json = front ++ 34 :: (word ++
      34 :: (58 :: 123 :: 34 :: (name ++ 34 :: 58 :: (digits ++ 44 :: back)))) := by
    rw [htext]
    simp
  obtain ⟨token, htoken, hplace⟩ := JsonText.exists_token hplain .outside front
    (58 :: 123 :: 34 :: (name ++ 34 :: 58 :: (digits ++ 44 :: back)))
  rw [← hstored] at htoken
  rcases hplace with ⟨hsuffix, hafter⟩ | hbefore
  · -- The word ends a token, which is a key because of what follows it.
    rcases JsonText.placed_of_mem_tokens htoken with hends | ⟨key, value, more, hmem, rfl⟩
    · exact absurd (hends 58 (by rw [hafter]; rfl)) (by decide)
    · have hvalue := (List.cons.inj hafter).2
      obtain ⟨fields, rfl⟩ := JsonText.exists_object hvalue
      obtain ⟨field, hfield, rfl, hobject⟩ := session.exists_field hmem
      obtain ⟨id, username, isAdmin, rfl⟩ := SessionField.eq_user hobject hword hsuffix
      rw [← hobject] at hvalue
      exact ⟨id, username, isAdmin, hfield, id_text_eq hvalue hname hdigits⟩
  · -- No letter stands after a token.
    obtain ⟨c, tail, rfl⟩ := List.exists_cons_of_ne_nil
      (show word ≠ [] by rintro rfl; exact absurd hword (by decide))
    have hc : ∀ {u}, foldUnit u ∉ ascii "user" → c ≠ u :=
      fun hu => ne_of_fold hword hu c List.mem_cons_self
    rcases JsonText.placed_of_mem_tokens htoken with hends | ⟨key, value, more, hmem, rfl⟩
    · rcases hends c (by rw [hbefore]; rfl) with hcomma | hbracket | hbrace
      · exact absurd hcomma (hc (by decide))
      · exact absurd hbracket (hc (by decide))
      · exact absurd hbrace (hc (by decide))
    · exact absurd (List.cons.inj hbefore).1.symm (hc (by decide))

theorem match_of_user {session : WrittenSession} {userId id : Number} {username : Text}
    {isAdmin : Bool} (huser : .user id username isAdmin ∈ session.fields)
    (htext : NumberText.text id = NumberText.text userId) :
    LikePattern.likeText (userPattern userId) session.sess = true := by
  have hmem : (ascii "user", (SessionField.user id username isAdmin).json) ∈
      session.fields.map fun field => (field.key, field.json) :=
    List.mem_map_of_mem huser
  obtain ⟨front, back, hfront, hfields⟩ :=
    JsonText.exists_field_text NumberText.format LikePattern.closed_whole hmem
  obtain ⟨rest, hjson⟩ := user_json_text id username isAdmin
  have hstored : session.sess =
      (123 :: front) ++ (userLiteral userId ++ (rest ++ back ++ [125])) := by
    rw [WrittenSession.sess_eq, WrittenSession.json, JsonText.stringify, hfields, hjson, htext,
      userLiteral, show JsonText.quoted (ascii "user") = 34 :: (ascii "user" ++ [34]) by decide,
      show ascii "\"user\":\x7b\"id\":" = 34 :: (ascii "user" ++ 34 :: 58 :: 123 :: 34 ::
        (ascii "id" ++ [34, 58])) by decide]
    simp
  rw [hstored, userPattern_eq]
  exact LikePattern.likeText_append (plain_userLiteral userId)
    (LikePattern.closed_whole.cons (by decide) (by decide) hfront) _

theorem match_iff_parsedUserId (session : WrittenSession) {userId : Number}
    (hpositive : 0 < userId.value) :
    LikePattern.likeText (userPattern userId) session.sess = true ↔
      parsedUserId session.sess = some userId := by
  constructor
  · intro hmatch
    obtain ⟨id, username, isAdmin, huser, htext⟩ := exists_user_of_match hmatch
    have hreread := NumberText.parse_text id
    rw [htext, NumberText.parse_text] at hreread
    rw [WrittenSession.parsedUserId_of_mem huser, ← hreread, NumberText.reread_of_pos hpositive]
  · intro hparsed
    obtain ⟨id, username, isAdmin, huser, heq⟩ :=
      WrittenSession.exists_user_of_parsedUserId hparsed
    refine match_of_user huser ?_
    rw [heq, NumberText.text_reread]

/-! ## The deletion -/

/-- Rows which the session store has written. -/
def storedRows (sessions : List (Text × WrittenSession)) : List StoredRow :=
  sessions.map fun session => { sid := session.1, sess := session.2.sess }

/-- The rows whose session parses to one of the user are removed, and no others. -/
theorem deleteByUserId_removes_exactly (sessions : List (Text × WrittenSession))
    {userId : Number} (hpositive : 0 < userId.value) :
    SessionTable.deleteByUserId (some (storedRows sessions)) userId =
      (some ((storedRows sessions).filter fun row => parsedUserId row.sess ≠ some userId),
        (storedRows sessions).countP fun row => parsedUserId row.sess = some userId) := by
  have hrow : ∀ row ∈ storedRows sessions,
      LikePattern.likeText (userPattern userId) row.sess =
        decide (parsedUserId row.sess = some userId) := by
    intro row hrow
    obtain ⟨session, _, rfl⟩ := List.mem_map.mp hrow
    rw [Bool.eq_iff_iff, decide_eq_true_eq]
    exact match_iff_parsedUserId session.2 hpositive
  rw [SessionTable.deleteByUserId]
  refine Prod.ext (congrArg some (List.filter_congr fun row hmem => ?_))
    (List.countP_congr fun row hmem => ?_)
  · rw [hrow row hmem, decide_not]
  · rw [hrow row hmem]

/-- The user's own row goes; the challenge of a user whose name is the pattern
itself stays. -/
theorem deleteByUserId_removes_exactly_two_rows :
    SessionTable.deleteByUserId (some (storedRows [
        (ascii "a", ⟨[.cookie [], .user (.ofNat 5) (ascii "eve") true], by decide⟩),
        (ascii "b", ⟨[.pending2fa (.ofNat 5) (ascii "\"user\":\x7b\"id\":5,")], by decide⟩)]))
        (.ofNat 5) =
      (some (storedRows [
        (ascii "b", ⟨[.pending2fa (.ofNat 5) (ascii "\"user\":\x7b\"id\":5,")], by decide⟩)]),
        1) := by
  have hpositive : 0 < (Number.ofNat 5).value := by
    rw [Number.value_ofNat (by norm_num)]
    norm_num
  rw [deleteByUserId_removes_exactly _ hpositive]
  simp [storedRows, List.findSome?_cons, WrittenSession.parsedUserId_eq,
    WrittenSession.userId, SessionField.userId, NumberText.reread_of_pos hpositive]

end Pm2Manager
