import Mathlib.Data.Nat.Notation

/-!
# Application errors

The error classes of `utils/errors.ts` with the status, the code and the text
each one sends to the client.
-/

namespace Pm2Manager

/-- The optional `details` of the error envelope: the messages of each field,
or the text of a failure reported by PM2. -/
inductive ErrorDetails
  | absent
  | fieldErrors (issues : List (String × String))
  | text (detail : String)
deriving DecidableEq, Repr

structure AppError where
  message : String
  statusCode : ℕ
  code : String
  details : ErrorDetails := .absent
deriving DecidableEq, Repr

namespace AppError

def badRequest (message : String) : AppError :=
  { message, statusCode := 400, code := "BAD_REQUEST" }

def validation (issues : List (String × String)) : AppError :=
  { message := "Validation failed", statusCode := 422
    code := "VALIDATION_ERROR", details := .fieldErrors issues }

def unauthorized (message : String := "Authentication required") : AppError :=
  { message, statusCode := 401, code := "UNAUTHORIZED" }

def forbidden (message : String) : AppError :=
  { message, statusCode := 403, code := "FORBIDDEN" }

def notFound (message : String) : AppError :=
  { message, statusCode := 404, code := "NOT_FOUND" }

def conflict (message : String) : AppError :=
  { message, statusCode := 409, code := "CONFLICT" }

def pm2Error (message : String) (details : ErrorDetails := .absent) : AppError :=
  { message, statusCode := 502, code := "PM2_ERROR", details }

/-- The answer of a rate limiter. -/
def limitReached : AppError :=
  { message := "Too many requests, please try again later.", statusCode := 429
    code := "TOO_MANY_REQUESTS" }

/-- What `errorHandler` sends for an error which is not an `AppError`. -/
def unexpected : AppError :=
  { message := "An unexpected error occurred", statusCode := 500
    code := "INTERNAL_ERROR" }

end AppError

end Pm2Manager
