import Pm2Manager.AuthTransitions
import Pm2Manager.ControllerReplies

/-!
# The API client of the frontend

`request` of `api.js` with its CSRF token and its retry.  Between its fetches
the server may have moved to any state; a fetch is served there, and its
response may get lost on the way or not be JSON.
-/

namespace Pm2Manager

open ScriptText (truthy)

/-- What becomes of one fetch outside of the client: the moments at which the
server works on it, whether the response arrives, and whether its body can be
parsed. -/
structure Exchange where
  arrival : Arrival
  moments : List Moment
  delivered : Bool
  readable : Bool

/-- A fetch, whether it has run a controller body, and the response the
client gets. -/
structure Fetch where
  request : ApiRequest
  ran : Bool
  response : Option Reply
deriving DecidableEq, Repr

inductive CallResult
  | returned (data : Payload)
  | networkError
  /-- A 401: the browser goes to the login page. -/
  | sessionExpired
  | failed (response : Reply)
  | pending
deriving DecidableEq, Repr

structure Course where
  fetches : List Fetch
  result : CallResult
deriving DecidableEq, Repr

section

variable (platform : Platform) (libraries : ApiLibraries)

def fetch (request : ApiRequest) (csrfHeader : Option String)
    (exchange : Exchange) : Fetch :=
  let served := serve platform libraries request csrfHeader exchange.arrival
    exchange.moments
  { request
    ran := served.ran
    response := if exchange.delivered then served.reply else none }

/-- What `request` makes of a response; a 403 is left to its caller. -/
def settle (response : Option Reply) (readable : Bool) : CallResult :=
  match response with
  | none => .networkError
  | some reply =>
      if reply.statusCode = 401 then
        .sessionExpired
      else
        match readable, reply with
        | true, .success _ data => .returned data
        | _, _ => .failed reply

/-- `getCsrfToken`: the cached token, or a new one from the server. -/
def getCsrfToken (cached : Option String) (exchanges : List Exchange) :
    Except CallResult String × List Fetch × List Exchange :=
  match truthy cached, exchanges with
  | some token, _ => (.ok token, [], exchanges)
  | none, [] => (.error .pending, [], [])
  | none, exchange :: rest =>
      let sent := fetch platform libraries .csrfToken none exchange
      match settle sent.response exchange.readable with
      | .returned (.csrfToken token) => (.ok token, [sent], rest)
      -- a header without a value
      | .returned _ => (.ok "undefined", [sent], rest)
      | result => (.error result, [sent], rest)

/-- `request` of a mutation; `retried` is `retries = 0`.  A call which is made
again starts without a token. -/
def request (call : ApiCall) :
    ℕ → Option String → List Exchange → Course
  | retries, cached, exchanges =>
      match getCsrfToken platform libraries cached exchanges with
      | (.error result, fetches, _) => { fetches, result }
      | (.ok _, fetches, []) => { fetches, result := .pending }
      | (.ok token, fetches, exchange :: rest) =>
          let sent := fetch platform libraries (.mutation call) (some token) exchange
          let fetches := fetches ++ [sent]
          match settle sent.response exchange.readable, retries with
          | .failed reply, retries + 1 =>
              if reply.statusCode = 403 then
                let again := request call retries none rest
                { fetches := fetches ++ again.fetches, result := again.result }
              else
                { fetches, result := .failed reply }
          | result, _ => { fetches, result }

/-- `api.post`, `api.put` and `api.del`. -/
def ApiCall.send (call : ApiCall) (cached : Option String)
    (exchanges : List Exchange) : Course :=
  request platform libraries call 1 cached exchanges

end

/-! ## At most one controller body -/

def Course.sent (course : Course) : List Fetch :=
  course.fetches.filter fun sent => sent.request ≠ .csrfToken

theorem Course.mem_fetches {course : Course} {sent : Fetch}
    (hsent : sent ∈ course.sent) : sent ∈ course.fetches :=
  (List.mem_filter.mp hsent).1

def Fetch.forbidden (sent : Fetch) : Bool :=
  sent.response.any fun reply => reply.statusCode = 403

variable {platform : Platform} {libraries : ApiLibraries} {call : ApiCall}

theorem fetch_not_ran {request : ApiRequest} {csrfHeader : Option String}
    {exchange : Exchange}
    (hforbidden :
      (fetch platform libraries request csrfHeader exchange).forbidden = true) :
    (fetch platform libraries request csrfHeader exchange).ran = false := by
  unfold Fetch.forbidden fetch at hforbidden
  dsimp only at hforbidden
  split at hforbidden
  · obtain ⟨reply, hreply, hstatus⟩ := (Option.any_eq_true _ _).mp hforbidden
    by_contra hran
    exact serve_unforbidden (by simpa [fetch] using hran) hreply
      (of_decide_eq_true hstatus)
  · simp at hforbidden

/-- A course whose responses are truthful about what has run, and which
repeats nothing but refusals. -/
structure Course.Careful (course : Course) : Prop where
  truthful : ∀ sent ∈ course.fetches, sent.forbidden = true → sent.ran = false
  repeats : ∀ sent ∈ course.sent.dropLast, sent.forbidden = true

structure TokenFetches (fetches : List Fetch) : Prop where
  tokens : ∀ sent ∈ fetches, sent.request = .csrfToken
  truthful : ∀ sent ∈ fetches, sent.forbidden = true → sent.ran = false

theorem TokenFetches.nil : TokenFetches [] where
  tokens := by simp
  truthful := by simp

theorem getCsrfToken_fetches (cached : Option String)
    (exchanges : List Exchange) :
    TokenFetches (getCsrfToken platform libraries cached exchanges).2.1 := by
  unfold getCsrfToken
  split
  · exact .nil
  · exact .nil
  next exchange rest _ =>
    have hsent : TokenFetches [fetch platform libraries .csrfToken none exchange] := by
      constructor
      · intro sent hsent
        obtain rfl := List.mem_singleton.mp hsent
        rfl
      · intro sent hsent hforbidden
        obtain rfl := List.mem_singleton.mp hsent
        exact fetch_not_ran hforbidden
    dsimp only
    split <;> exact hsent

theorem TokenFetches.sent_nil {fetches : List Fetch} {result : CallResult}
    (hfetches : TokenFetches fetches) : Course.sent ⟨fetches, result⟩ = [] := by
  rw [Course.sent, List.filter_eq_nil_iff]
  intro sent hsent
  simp [hfetches.tokens sent hsent]

theorem TokenFetches.careful {fetches : List Fetch} (result : CallResult)
    (hfetches : TokenFetches fetches) : Course.Careful ⟨fetches, result⟩ where
  truthful := hfetches.truthful
  repeats := by simp [hfetches.sent_nil]

theorem TokenFetches.careful_append {fetches later : List Fetch}
    {result : CallResult} {sent : Fetch} (hfetches : TokenFetches fetches)
    (hrequest : sent.request ≠ .csrfToken)
    (htruthful : sent.forbidden = true → sent.ran = false)
    (hlater : Course.Careful ⟨later, result⟩)
    (hrepeated : later ≠ [] → sent.forbidden = true) :
    Course.Careful ⟨fetches ++ sent :: later, result⟩ := by
  constructor
  · intro other hother hforbidden
    rcases List.mem_append.mp hother with hother | hother
    · exact hfetches.truthful other hother hforbidden
    · rcases List.mem_cons.mp hother with rfl | hother
      · exact htruthful hforbidden
      · exact hlater.truthful other hother hforbidden
  · have hsent : Course.sent ⟨fetches ++ sent :: later, result⟩ =
        sent :: Course.sent ⟨later, result⟩ := by
      simpa [Course.sent, hrequest] using hfetches.tokens
    rw [hsent]
    intro other hother
    cases hrest : Course.sent ⟨later, result⟩ with
    | nil => simp [hrest] at hother
    | cons next rest =>
        rw [hrest, List.dropLast_cons_of_ne_nil (by simp)] at hother
        rcases List.mem_cons.mp hother with rfl | hother
        · refine hrepeated ?_
          rintro rfl
          simp [Course.sent] at hrest
        · exact hlater.repeats other (hrest ▸ hother)

/-- How far a call gets: not to its own fetch, to the end with it, or to a
refusal after which it is made again. -/
inductive Requested (platform : Platform) (libraries : ApiLibraries)
    (call : ApiCall) (retries : ℕ) : Course → Prop
  | unsent (fetches : List Fetch) (result : CallResult)
      (hfetches : TokenFetches fetches) :
      Requested platform libraries call retries ⟨fetches, result⟩
  | ended (fetches : List Fetch) (token : String) (exchange : Exchange)
      (result : CallResult) (hfetches : TokenFetches fetches) :
      Requested platform libraries call retries ⟨fetches ++
        [fetch platform libraries (.mutation call) (some token) exchange], result⟩
  | repeated (fetches : List Fetch) (token : String) (exchange : Exchange)
      (rest : List Exchange) (left : ℕ) (hfetches : TokenFetches fetches)
      (hretries : retries = left + 1)
      (hforbidden : (fetch platform libraries (.mutation call) (some token)
        exchange).forbidden = true) :
      Requested platform libraries call retries ⟨fetches ++
        fetch platform libraries (.mutation call) (some token) exchange ::
          (request platform libraries call left none rest).fetches,
        (request platform libraries call left none rest).result⟩

theorem settle_failed {response : Option Reply} {readable : Bool} {reply : Reply}
    (hsettle : settle response readable = .failed reply) : response = some reply := by
  unfold settle at hsettle
  split at hsettle
  · simp at hsettle
  · split at hsettle
    · simp at hsettle
    · split at hsettle
      · simp at hsettle
      · rw [CallResult.failed.inj hsettle]

theorem request_cases (retries : ℕ) (cached : Option String)
    (exchanges : List Exchange) :
    Requested platform libraries call retries
      (request platform libraries call retries cached exchanges) := by
  have hfetches :
      TokenFetches (getCsrfToken platform libraries cached exchanges).2.1 :=
    getCsrfToken_fetches cached exchanges
  unfold request
  split
  next result fetches rest hget =>
    rw [hget] at hfetches
    exact .unsent fetches result hfetches
  next token fetches hget =>
    rw [hget] at hfetches
    exact .unsent fetches .pending hfetches
  next token fetches exchange rest hget =>
    rw [hget] at hfetches
    dsimp only
    split
    next reply left hsettle =>
      split
      next hstatus =>
        have hforbidden : (fetch platform libraries (.mutation call) (some token)
            exchange).forbidden = true := by
          simp [Fetch.forbidden, settle_failed hsettle, hstatus]
        rw [List.append_assoc]
        exact .repeated fetches token exchange rest left hfetches rfl hforbidden
      · exact .ended fetches token exchange _ hfetches
    · exact .ended fetches token exchange _ hfetches

theorem request_careful (retries : ℕ) (cached : Option String)
    (exchanges : List Exchange) :
    (request platform libraries call retries cached exchanges).Careful := by
  induction retries using Nat.strongRecOn generalizing cached exchanges with
  | ind retries ih =>
      have hcases : Requested platform libraries call retries
          (request platform libraries call retries cached exchanges) :=
        request_cases retries cached exchanges
      generalize request platform libraries call retries cached exchanges = course
        at hcases ⊢
      cases hcases with
      | unsent fetches result hfetches => exact hfetches.careful result
      | ended fetches token exchange result hfetches =>
          exact hfetches.careful_append (by simp [fetch]) fetch_not_ran
            (TokenFetches.nil.careful result) (by simp)
      | repeated fetches token exchange rest left hfetches hretries hforbidden =>
          exact hfetches.careful_append (by simp [fetch]) fetch_not_ran
            (ih left (hretries ▸ Nat.lt_succ_self left) none rest)
            (fun _ => hforbidden)

/-- Of the fetches which repeat nothing but refusals, at most the last has run
a controller body. -/
theorem Course.Careful.ran_le_one {course : Course} (hcareful : course.Careful) :
    (course.sent.filter Fetch.ran).length ≤ 1 := by
  rcases List.eq_nil_or_concat course.sent with hnil | ⟨before, last, hsent⟩
  · simp [hnil]
  · rw [hsent, List.concat_eq_append, List.filter_append]
    have hbefore : before.filter Fetch.ran = [] := by
      rw [List.filter_eq_nil_iff]
      intro sent hmem
      have hforbidden : sent.forbidden = true := by
        refine hcareful.repeats sent ?_
        rw [hsent, List.concat_eq_append, List.dropLast_concat]
        exact hmem
      have hfetch : sent ∈ course.fetches :=
        Course.mem_fetches (by rw [hsent]; simp [hmem])
      simp [hcareful.truthful sent hfetch hforbidden]
    rw [hbefore, List.nil_append]
    exact (List.length_filter_le _ _).trans (by simp)

/-- One call runs the controller body of its route at most once: a response
with a 403 comes without a controller body having run, and only a fetch with
such a response is repeated. -/
theorem send_runs_once (platform : Platform) (libraries : ApiLibraries)
    (call : ApiCall) (cached : Option String) (exchanges : List Exchange) :
    ((call.send platform libraries cached exchanges).sent.filter
        Fetch.ran).length ≤ 1 ∧
      (∀ sent ∈ (call.send platform libraries cached exchanges).fetches,
        sent.forbidden = true → sent.ran = false) ∧
      ∀ sent ∈ (call.send platform libraries cached exchanges).sent.dropLast,
        sent.forbidden = true := by
  have hcareful : (call.send platform libraries cached exchanges).Careful :=
    request_careful 1 cached exchanges
  exact ⟨hcareful.ran_le_one, hcareful.truthful, hcareful.repeats⟩

def sampleLibraries : ApiLibraries where
  coerceInteger value :=
    match value with
    | .text text =>
        if ScriptText.isNumeral text then .ok (ScriptText.toNumber text)
        else .error "Expected number, received nan"
    | _ => .error "Expected number, received nan"
  decodeURIComponent := some

/-- The session `0` has the secret `fresh` by now. -/
def sampleExchange : Exchange where
  arrival := {
    state := sampleServer
    supply := sampleSupply "random"
    cookie := some 0
    ip := "127.0.0.1"
    refused := none
    limited := none }
  moments := [{ state := sampleServer, supply := sampleSupply "random"
                rejected := none }]
  delivered := true
  readable := true
where
  sampleServer : ServerState :=
    { auth := { AuthState.initial .empty with
        sessions := SessionStore.empty.set 0 {
          user := some { id := 1, username := "root", isAdmin := false }
          csrfSecret := some "fresh" } }
      pm2 := .initial
      reached := ⟨[], rfl⟩ }

/-- A stale token is replaced, and the call is made once more. -/
example :
    (ApiCall.send samplePlatform sampleLibraries
      ⟨.post, "/api/processes/web/restart", .object []⟩ (some "stale")
      [sampleExchange, sampleExchange, sampleExchange]).fetches.map
        (fun sent => (sent.ran, sent.response.map Reply.statusCode)) =
      [(false, some 403), (true, some 200), (true, some 200)] := by
  decide +kernel

end Pm2Manager
