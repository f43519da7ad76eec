import Pm2Manager.ApiClient
import Pm2Manager.SessionText

/-!
# The envelope of the API

`sendSuccess`, `sendError` and the central error handler write a JSON body,
`request` of the client reads it and hands on the data or throws an error made
from the envelope.  Put together over the text on the wire, the two ends do what
`settle` does with a reply.
-/

namespace Pm2Manager

open JsonText (Json Text ascii)
open NumberText (Number)

/-! ## The server -/

/-- The code units of a string. -/
def units (text : String) : Text :=
  text.toList.flatMap fun c =>
    if c.toNat < 0x10000 then [UInt16.ofNat c.toNat]
    else
      let offset := c.toNat - 0x10000
      [UInt16.ofNat (0xD800 + offset / 0x400), UInt16.ofNat (0xDC00 + offset % 0x400)]

structure HttpResponse where
  status : ℤ
  body : Text

/-- `res.status(status).json(value)`. -/
def sendJson (status : ℤ) (value : Json Number) : HttpResponse where
  status := status
  body := JsonText.stringify NumberText.format value

/-- A field without a value is left out by `JSON.stringify`. -/
def optionalField (key : String) (value : Option (Json Number)) :
    List (Text × Json Number) :=
  (value.map fun value => (ascii key, value)).toList

def successFields (data : Option (Json Number)) : List (Text × Json Number) :=
  [(ascii "ok", .bool true)] ++ optionalField "data" data

def sendSuccess (data : Option (Json Number)) (status : ℤ := 200) : HttpResponse :=
  sendJson status (.object (successFields data))

def errorFields (message code : Text) (details : Option (Json Number)) :
    List (Text × Json Number) :=
  [(ascii "message", .string message), (ascii "code", .string code)] ++
    optionalField "details" details

def failureFields (error : List (Text × Json Number)) : List (Text × Json Number) :=
  [(ascii "ok", .bool false), (ascii "error", .object error)]

def sendError (message code : Text) (status : ℤ) (details : Option (Json Number)) :
    HttpResponse :=
  sendJson status (.object (failureFields (errorFields message code details)))

/-- `status` and `statusCode` of a thrown value. -/
inductive StatusField
  | nullish
  | number (status : ℤ)
  | other
deriving DecidableEq, Repr

/-- `a ?? b`. -/
def StatusField.orElse : StatusField → StatusField → StatusField
  | .nullish, second => second
  | first, _ => first

/-- What reaches `errorHandler`: an `AppError`, a `ZodError` with its flattened
issues, or another value with the fields the handler looks at.  An empty
`message` is one which is not there. -/
inductive Thrown
  | app (message code : Text) (statusCode : ℤ) (details : Option (Json Number))
  | zod (flattened : Json Number)
  | other (status statusCode : StatusField) (expose : Bool) (message : Option Text)

def unexpectedResponse : HttpResponse :=
  sendError (ascii "An unexpected error occurred") (ascii "INTERNAL_ERROR") 500 none

/-- `errorHandler`; a response which has started is left alone. -/
def errorHandler (headersSent : Bool) (err : Thrown) : Option HttpResponse :=
  if headersSent then none
  else some (match err with
    | .app message code statusCode details => sendError message code statusCode details
    | .zod flattened =>
        sendError (ascii "Validation failed") (ascii "VALIDATION_ERROR") 422
          (some flattened)
    | .other status statusCode expose message =>
        match status.orElse statusCode with
        | .number status =>
            if 400 ≤ status ∧ status < 500 then
              let shown := if expose then message.filter (· ≠ []) else none
              sendError (shown.getD (ascii "Bad request")) (ascii "BAD_REQUEST") status
                none
            else unexpectedResponse
        | _ => unexpectedResponse)

/-! ## The client -/

structure ClientError where
  message : Text
  code : Text
  details : Option (Json Number)

/-- How `request` ends once a response is there, its retry left aside. -/
inductive Received
  | returned (data : Option (Json Number))
  /-- The browser goes to `/login`. -/
  | expired (error : ClientError)
  | failed (error : ClientError)

/-- `value || fallback` where a string is expected.  The server sends a string
here or nothing; a truthy value of another type, which JavaScript would keep,
falls back too. -/
def textOr (value : Option (Json Number)) (fallback : Text) : Text :=
  match value with
  | some (.string text) => if text = [] then fallback else text
  | _ => fallback

def makeError (payload : Option (Json Number)) (fallbackMessage : Text) : ClientError :=
  let message := if fallbackMessage ≠ [] then fallbackMessage else ascii "Request failed"
  match payload.bind (property (ascii "error")) with
  | some error => {
      message := textOr (property (ascii "message") error) message
      code := textOr (property (ascii "code") error) (ascii "ERROR")
      details := property (ascii "details") error }
  | none => { message, code := ascii "ERROR", details := none }

/-- `res.json()`: the bytes are decoded and the text is parsed. -/
def HttpResponse.json (response : HttpResponse) : Option (Json Number) :=
  JsonText.parse NumberText.format (JsonText.toWellFormed response.body)

/-- What `request` makes of the payload. -/
def unwrap (payload : Option (Json Number)) (statusText : Text) : Received :=
  match payload.bind (property (ascii "ok")) with
  | some (.bool true) => .returned (payload.bind (property (ascii "data")))
  | _ => .failed (makeError payload statusText)

def expiredError : ClientError :=
  makeError none (units "Session expired — please sign in again.")

def receive (response : HttpResponse) (statusText : Text) : Received :=
  if response.status = 401 then .expired expiredError
  else unwrap response.json statusText

/-! ## Reading what was sent -/

variable {value : Json Number} {status : ℤ}

theorem json_sendJson : (sendJson status value).json =
    some (JsonText.readBack NumberText.format value) := by
  have hpaired := JsonText.closed_paired.stringify NumberText.format value
  rw [HttpResponse.json, sendJson, hpaired.toWellFormed_eq, JsonText.parse_stringify]

/-- The fields of a body, each read back. -/
theorem property_of_field {fields : List (Text × Json Number)} {key : Text}
    (hdistinct : (fields.map Prod.fst).Nodup) (hmem : (key, value) ∈ fields) :
    property key (JsonText.readBack NumberText.format (.object fields)) =
      some (JsonText.readBack NumberText.format value) := by
  rw [JsonText.readBack, readBackFields_eq_map]
  refine property_of_mem ?_ (List.mem_map_of_mem hmem)
  rwa [List.map_map]

theorem property_absent {fields : List (Text × Json Number)} {key : Text}
    (habsent : key ∉ fields.map Prod.fst) :
    property key (JsonText.readBack NumberText.format (.object fields)) = none := by
  rw [JsonText.readBack, readBackFields_eq_map]
  cases hproperty : property key (.object (fields.map fun field =>
      (field.1, JsonText.readBack NumberText.format field.2))) with
  | none => rfl
  | some value =>
      obtain ⟨field, hfield, heq⟩ := List.mem_map.mp (mem_of_property hproperty)
      have hkey : field.1 = key := (Prod.ext_iff.mp heq).1
      exact absurd (List.mem_map.mpr ⟨field, hfield, hkey⟩) habsent

theorem nodup_optionalField {fields : List (Text × Json Number)} {key : String}
    {optional : Option (Json Number)} (hdistinct : (fields.map Prod.fst).Nodup)
    (hfresh : ascii key ∉ fields.map Prod.fst) :
    ((fields ++ optionalField key optional).map Prod.fst).Nodup := by
  cases optional with
  | none => simpa [optionalField] using hdistinct
  | some value =>
      simp only [optionalField, Option.map_some, Option.toList_some, List.map_append,
        List.map_cons, List.map_nil]
      exact hdistinct.append (List.nodup_singleton _)
        (List.disjoint_singleton.mpr hfresh)

/-- An optional field which comes after others is the value it was given. -/
theorem property_optionalField {fields : List (Text × Json Number)} {key : String}
    {optional : Option (Json Number)} (hdistinct : (fields.map Prod.fst).Nodup)
    (hfresh : ascii key ∉ fields.map Prod.fst) :
    property (ascii key) (JsonText.readBack NumberText.format
        (.object (fields ++ optionalField key optional))) =
      optional.map (JsonText.readBack NumberText.format) := by
  cases optional with
  | none =>
      rw [optionalField, Option.map_none, Option.toList_none, List.append_nil]
      exact property_absent hfresh
  | some value =>
      exact property_of_field (nodup_optionalField hdistinct hfresh)
        (by simp [optionalField])

theorem nodup_successFields (data : Option (Json Number)) :
    ((successFields data).map Prod.fst).Nodup := by
  have hfresh : ascii "data" ∉ [ascii "ok"] := by decide
  exact nodup_optionalField (List.nodup_singleton (ascii "ok")) hfresh

theorem receive_sendSuccess {data : Option (Json Number)} (statusText : Text)
    (hstatus : status ≠ 401) : receive (sendSuccess data status) statusText =
      .returned (data.map (JsonText.readBack NumberText.format)) := by
  have hok : property (ascii "ok") _ = some (JsonText.readBack NumberText.format _) :=
    property_of_field (nodup_successFields data) List.mem_cons_self
  have hdata : property (ascii "data")
      (JsonText.readBack NumberText.format (.object (successFields data))) = _ :=
    property_optionalField (List.nodup_singleton _) (by decide)
  have hjson : (sendSuccess data status).json = _ := json_sendJson
  have hsent : (sendSuccess data status).status ≠ 401 := hstatus
  rw [receive, if_neg hsent, hjson, unwrap, Option.bind_some, Option.bind_some, hok,
    hdata]
  rfl

/-- The error a client throws for an envelope. -/
def ClientError.of (message code : Text) (details : Option (Json Number))
    (statusText : Text) : ClientError where
  message :=
    if message ≠ [] then message
    else if statusText ≠ [] then statusText
    else ascii "Request failed"
  code := if code ≠ [] then code else ascii "ERROR"
  details := details.map (JsonText.readBack NumberText.format)

section Errors

variable (message code statusText : Text) (details : Option (Json Number))

theorem nodup_messageCode : (([(ascii "message", .string message),
    (ascii "code", .string code)] : List (Text × Json Number)).map Prod.fst).Nodup := by
  have hkeys : [ascii "message", ascii "code"].Nodup := by decide
  exact hkeys

theorem details_fresh : ascii "details" ∉ (([(ascii "message", .string message),
    (ascii "code", .string code)] : List (Text × Json Number)).map Prod.fst) := by
  have hkeys : ascii "details" ∉ [ascii "message", ascii "code"] := by decide
  exact hkeys

theorem nodup_errorFields : ((errorFields message code details).map Prod.fst).Nodup :=
  nodup_optionalField (nodup_messageCode message code) (details_fresh message code)

theorem nodup_failureFields (error : List (Text × Json Number)) :
    ((failureFields error).map Prod.fst).Nodup := by
  have hkeys : [ascii "ok", ascii "error"].Nodup := by decide
  exact hkeys

/-- Both texts give way to a fallback when they are empty. -/
theorem textOr_string (text fallback : Text) :
    textOr (some (JsonText.readBack NumberText.format (.string text))) fallback =
      if text ≠ [] then text else fallback := by
  rw [JsonText.readBack, textOr, ite_not]

theorem makeError_sendError :
    makeError (sendError message code status details).json statusText =
      .of message code details statusText := by
  have hfields := nodup_errorFields message code details
  have hmessage : property (ascii "message") _ =
      some (JsonText.readBack NumberText.format _) :=
    property_of_field hfields List.mem_cons_self
  have hcode : property (ascii "code") _ = some (JsonText.readBack NumberText.format _) :=
    property_of_field hfields (List.mem_cons_of_mem _ List.mem_cons_self)
  have hdetails : property (ascii "details")
      (JsonText.readBack NumberText.format (.object (errorFields message code details))) =
        _ :=
    property_optionalField (nodup_messageCode message code) (details_fresh message code)
  have hjson : (sendError message code status details).json = _ := json_sendJson
  have herror : property (ascii "error") _ =
      some (JsonText.readBack NumberText.format _) :=
    property_of_field (nodup_failureFields (errorFields message code details))
      (List.mem_cons_of_mem _ List.mem_cons_self)
  rw [hjson, makeError, Option.bind_some, herror]
  simp only [hmessage, hcode, hdetails, textOr_string, ClientError.of, ite_not]

theorem receive_sendError (hstatus : status ≠ 401) :
    receive (sendError message code status details) statusText =
      .failed (.of message code details statusText) := by
  have hsent : (sendError message code status details).status ≠ 401 := hstatus
  have hjson : (sendError message code status details).json = _ := json_sendJson
  have hok : property (ascii "ok") _ = some (JsonText.readBack NumberText.format _) :=
    property_of_field (nodup_failureFields (errorFields message code details))
      List.mem_cons_self
  rw [receive, if_neg hsent, unwrap, makeError_sendError, hjson, Option.bind_some, hok]
  rfl

end Errors

/-! ## Replies over the wire -/

section Wire

variable (payloadJson : Payload → Option (Json Number))
  (detailsJson : ErrorDetails → Option (Json Number))

def AppError.thrown (error : AppError) : Thrown :=
  .app (units error.message) (units error.code) error.statusCode
    (detailsJson error.details)

/-- A reply as it goes out: an error is thrown and gets to `errorHandler`. -/
def Reply.send : Reply → Option HttpResponse
  | .success statusCode data => some (sendSuccess (payloadJson data) statusCode)
  | .failure error => errorHandler false (error.thrown detailsJson)

/-- What a caller of `request` sees of a settled call. -/
def CallResult.received (statusText : Text) : CallResult → Option Received
  | .returned data =>
      some (.returned ((payloadJson data).map (JsonText.readBack NumberText.format)))
  | .sessionExpired => some (.expired expiredError)
  | .failed (.failure error) => some (.failed
      (.of (units error.message) (units error.code) (detailsJson error.details) statusText))
  | _ => none

theorem receive_expired {response : HttpResponse} (statusText : Text)
    (hstatus : response.status = 401) :
    receive response statusText = .expired expiredError := by
  rw [receive, if_pos hstatus]

/-- Sent, parsed and unwrapped, a reply is what `settle` says it is. -/
theorem received_settle (reply : Reply) (statusText : Text) :
    (reply.send payloadJson detailsJson).map (receive · statusText) =
      (settle (some reply) true).received payloadJson detailsJson statusText := by
  cases reply with
  | success statusCode data =>
      rw [Reply.send, Option.map_some, settle, Reply.statusCode]
      split
      case isTrue hexpired =>
        have hstatus : (sendSuccess (payloadJson data) statusCode).status = 401 :=
          congrArg Nat.cast hexpired
        rw [receive_expired statusText hstatus, CallResult.received]
      case isFalse hother =>
        have hstatus : (statusCode : ℤ) ≠ 401 := mod_cast hother
        rw [receive_sendSuccess statusText hstatus, CallResult.received]
  | failure error =>
      have hsend : (Reply.failure error).send payloadJson detailsJson =
          some (sendError (units error.message) (units error.code) error.statusCode
            (detailsJson error.details)) := rfl
      have hsettle : settle (some (.failure error)) true =
          if error.statusCode = 401 then .sessionExpired else .failed (.failure error) :=
        rfl
      rw [hsend, Option.map_some, hsettle]
      by_cases hexpired : error.statusCode = 401
      · have hstatus : (sendError (units error.message) (units error.code)
            error.statusCode (detailsJson error.details)).status = 401 :=
          congrArg Nat.cast hexpired
        rw [receive_expired statusText hstatus, if_pos hexpired, CallResult.received]
      · have hstatus : (error.statusCode : ℤ) ≠ 401 := mod_cast hexpired
        rw [receive_sendError _ _ statusText _ hstatus, if_neg hexpired,
          CallResult.received]

end Wire

/-! ## Faults of the server -/

/-- A thrown value which carries a client status, or an error made to be shown. -/
def Thrown.forClient : Thrown → Bool
  | .other status statusCode _ _ =>
      match status.orElse statusCode with
      | .number status => 400 ≤ status ∧ status < 500
      | _ => false
  | _ => true

theorem errorHandler_internal {err : Thrown} (hinternal : err.forClient = false) :
    errorHandler false err = some unexpectedResponse := by
  cases err with
  | app message code statusCode details => cases hinternal
  | zod flattened => cases hinternal
  | other status statusCode expose message =>
      rw [errorHandler, if_neg Bool.false_ne_true]
      simp only [Thrown.forClient] at hinternal
      cases hstatus : status.orElse statusCode with
      | number status =>
          rw [hstatus] at hinternal
          simp only [if_neg (of_decide_eq_false hinternal)]
      | nullish => rfl
      | other => rfl

/-- The caller of `request` gets of every reply what `settle` makes of it, and of
every fault of the server the one fixed error. -/
theorem replies_reach_client (payloadJson : Payload → Option (Json Number))
    (detailsJson : ErrorDetails → Option (Json Number)) (statusText : Text) :
    (∀ reply : Reply, (reply.send payloadJson detailsJson).map (receive · statusText) =
      (settle (some reply) true).received payloadJson detailsJson statusText) ∧
    ∀ err : Thrown, err.forClient = false →
      (errorHandler false err).map (receive · statusText) = some (.failed {
        message := ascii "An unexpected error occurred"
        code := ascii "INTERNAL_ERROR"
        details := none }) := by
  refine ⟨fun reply => received_settle payloadJson detailsJson reply statusText, ?_⟩
  intro err hinternal
  rw [errorHandler_internal hinternal, Option.map_some, unexpectedResponse,
    receive_sendError _ _ statusText _ (by decide)]
  rfl

end Pm2Manager
