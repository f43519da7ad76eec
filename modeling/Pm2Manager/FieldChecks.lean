import Mathlib.Data.Int.Notation
import Pm2Manager.AppError
import Pm2Manager.ScriptText

/-!
# Request validation

The string fields of `validation/schemas.ts`.  Every check of a field is made
and every failed one is reported under the field's name, as `flatten` reports
them; a schema returns the parsed values or the `ValidationError`.
-/

namespace Pm2Manager

open ScriptText

structure FieldCheck where
  passes : String → Bool
  message : String

namespace FieldCheck

def minLength (bound : ℕ) (message : String) : FieldCheck where
  passes text := bound ≤ utf16Length text
  message := message

def maxLength (bound : ℕ) : FieldCheck where
  passes text := utf16Length text ≤ bound
  message := s!"String must contain at most {bound} character(s)"

def pattern (passes : String → Bool) (message : String) : FieldCheck where
  passes := passes
  message := message

/-- The messages of the failed checks, in the order of the checks. -/
def issues (field : String) (checks : List FieldCheck) (text : String) :
    List (String × String) :=
  (checks.filter fun check => !check.passes text).map fun check =>
    (field, check.message)

theorem issues_eq_nil_iff {field : String} {checks : List FieldCheck}
    {text : String} :
    issues field checks text = [] ↔ ∀ check ∈ checks, check.passes text = true := by
  simp [issues, List.filter_eq_nil_iff]

theorem field_of_mem_issues {field : String} {checks : List FieldCheck}
    {text : String} {issue : String × String}
    (hissue : issue ∈ issues field checks text) : issue.1 = field := by
  unfold issues at hissue
  obtain ⟨check, _, rfl⟩ := List.mem_map.mp hissue
  rfl

/-- `.min(low)` and `.max(high)` on an integer. -/
def rangeIssues (field : String) (low : ℤ) (high : Option ℤ) (value : ℤ) :
    List (String × String) :=
  (if low ≤ value then []
    else [(field, s!"Number must be greater than or equal to {low}")]) ++
  match high with
  | some high =>
      if value ≤ high then []
      else [(field, s!"Number must be less than or equal to {high}")]
  | none => []

/-- `safeParse`: the parsed value when there is no issue. -/
def parsed {α : Type} (found : List (String × String)) (value : α) :
    Except AppError α :=
  if found = [] then .ok value else .error (.validation found)

theorem parsed_eq_ok {α : Type} {found : List (String × String)}
    {value arg : α} (hparsed : parsed found value = .ok arg) :
    found = [] ∧ value = arg := by
  unfold parsed at hparsed
  split at hparsed
  next hfound =>
    exact ⟨hfound, Except.ok.inj hparsed⟩
  · simp at hparsed

end FieldCheck

theorem except_map_ok {α β : Type} {result : Except AppError α} {f : α → β}
    {value : β} (hmap : result.map f = .ok value) :
    ∃ arg, result = .ok arg ∧ f arg = value := by
  cases result with
  | error error => simp [Except.map] at hmap
  | ok arg => exact ⟨arg, rfl, by simpa [Except.map] using hmap⟩

open FieldCheck

def passwordChecks : List FieldCheck :=
  [minLength 1 "Password is required", maxLength 256]

def loginSchema (username password : String) :
    Except AppError (String × String) :=
  let username := trim username
  parsed
    (issues "username"
        [minLength 1 "Username is required", maxLength 64] username ++
      issues "password" passwordChecks password)
    (username, password)

/-- `/^\d{6}$/`. -/
def isTotpCode (text : String) : Bool :=
  isNumeral text && text.toList.length == 6

def totpCode (token : String) : Except AppError String :=
  let token := trim token
  parsed
    (issues "token"
      [pattern isTotpCode
        "Enter the 6-digit code from your authenticator app"] token)
    token

def disableTwoFactorSchema (password : String) : Except AppError String :=
  parsed (issues "password" passwordChecks password) password

def changePasswordSchema (currentPassword newPassword : String) :
    Except AppError (String × String) :=
  parsed
    (issues "currentPassword"
        [minLength 1 "Current password is required", maxLength 256]
        currentPassword ++
      issues "newPassword"
        [minLength 8 "New password must be at least 8 characters",
          maxLength 256] newPassword)
    (currentPassword, newPassword)

structure CreateUserInput where
  username : String
  password : String
  isAdmin : Bool
deriving DecidableEq, Repr

/-- `/^[A-Za-z0-9._-]+$/`. -/
def isUsername (text : String) : Bool :=
  !text.toList.isEmpty &&
    text.toList.all fun c =>
      ('A' ≤ c && c ≤ 'Z') || ('a' ≤ c && c ≤ 'z') || isDigit c ||
        c == '.' || c == '_' || c == '-'

def createUserSchema (username password : String) (isAdmin : Option Bool) :
    Except AppError CreateUserInput :=
  let username := trim username
  parsed
    (issues "username"
        [minLength 3 "Username must be at least 3 characters", maxLength 64,
          pattern isUsername
            "Only letters, numbers, dot, underscore and dash are allowed"]
        username ++
      issues "password"
        [minLength 8 "Password must be at least 8 characters", maxLength 256]
        password)
    { username, password, isAdmin := isAdmin.getD false }

/-- The route parameter `:id` once it is coerced to an integer. -/
def userIdParamSchema (id : ℤ) : Except AppError ℕ :=
  if 0 < id then
    .ok id.toNat
  else
    .error (.validation [("id", "Number must be greater than 0")])

end Pm2Manager
