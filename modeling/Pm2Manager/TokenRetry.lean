import Pm2Manager.ApiClient
import Pm2Manager.CsrfTokens

/-!
# The retry of the API client

A mutation is sent with the token the client has cached, which is the one of
an earlier session after a login in another tab.  As long as the fetches go
through, the one retry is enough: the call ends with what the server answers
to the secret of the session.
-/

namespace Pm2Manager

open ScriptText (truthy)

/-- The exchange goes through, and its session holds the secret. -/
structure Exchange.Open (exchange : Exchange) (secret : String) : Prop where
  delivered : exchange.delivered = true
  readable : exchange.readable = true
  accepted : exchange.arrival.refused = none
  session : (exchange.arrival.state.auth.openSession
    exchange.arrival.cookie).1.data.csrfSecret = some secret

variable {platform : Platform} {libraries : ApiLibraries} {call : ApiCall}
variable {exchange : Exchange} {exchanges : List Exchange} {secret token : String}

/-! ## A fetch -/

theorem fetch_csrfToken (hopen : exchange.Open secret) (hsecret : secret ≠ "") :
    (fetch platform libraries .csrfToken none exchange).response =
      some (.success 200 (.csrfToken secret)) := by
  have htruthy := truthy_some hsecret
  simp [fetch, hopen.delivered, serve, hopen.accepted, ApiRequest.route,
    ApiRequest.isProtected, RouteGuard.check, ApiHandler.serve, controller,
    csrfTokenHandler, hopen.session, htruthy, answerEndpoint]

theorem presentsToken_stale {data : SessionData} (hsecret : data.csrfSecret = some secret)
    (hstale : token ≠ secret) :
    presentsToken (some token) data =
      .error (.forbidden "Invalid or missing CSRF token") := by
  unfold presentsToken
  split
  next held provided hheld hprovided =>
    rw [hsecret] at hheld
    obtain ⟨hheld, -⟩ := truthy_eq_some hheld
    obtain ⟨hprovided, -⟩ := truthy_eq_some hprovided
    have hne : provided ≠ held := by
      rw [← Option.some.inj hheld, ← Option.some.inj hprovided]
      exact hstale
    rw [if_neg hne]
  · rfl

/-- Another token than the secret is refused with a 403. -/
theorem fetch_stale (hopen : exchange.Open secret) (hstale : token ≠ secret)
    (hprotected : (ApiRequest.mutation call).isProtected = true) :
    (fetch platform libraries (.mutation call) (some token) exchange).response =
      some (.failure (.forbidden "Invalid or missing CSRF token")) := by
  have hrefused := presentsToken_stale hopen.session hstale
  simp [fetch, hopen.delivered, serve, hopen.accepted, hprotected, hrefused, refusal]

/-- Outside of `/api` nobody looks at the token. -/
theorem fetch_unprotected {first second : Option String}
    (hunprotected : (ApiRequest.mutation call).isProtected = false) :
    fetch platform libraries (.mutation call) first exchange =
      fetch platform libraries (.mutation call) second exchange := by
  have hhandler : ∀ handler session, (apiRoute libraries call).handler = .ok handler →
      handler.serve platform first exchange.arrival session exchange.moments =
        handler.serve platform second exchange.arrival session exchange.moments := by
    intro handler session hroute
    cases handler with
    | endpoint endpoint =>
        rw [isProtected_of_endpoint hroute] at hunprotected
        cases hunprotected
    | process request => rfl
  have hserve : serve platform libraries (.mutation call) first exchange.arrival
      exchange.moments = serve platform libraries (.mutation call) second
        exchange.arrival exchange.moments := by
    simp only [serve, hunprotected, Bool.false_eq_true, if_false, ApiRequest.route]
    split
    case h_6 handler _ _ _ _ hroute => exact hhandler handler _ hroute
    all_goals rfl
  rw [fetch, fetch, hserve]

/-! ## A call -/

/-- The result is what the server answers to the call with this token in one of
the exchanges. -/
def CallResult.AnswersTo (platform : Platform) (libraries : ApiLibraries)
    (call : ApiCall) (token : String) (exchanges : List Exchange)
    (result : CallResult) : Prop :=
  ∃ exchange ∈ exchanges, result = settle
    (fetch platform libraries (.mutation call) (some token) exchange).response true

theorem CallResult.AnswersTo.cons {result : CallResult}
    (hanswers : result.AnswersTo platform libraries call token exchanges) :
    result.AnswersTo platform libraries call token (exchange :: exchanges) := by
  obtain ⟨other, hother, hresult⟩ := hanswers
  exact ⟨other, List.mem_cons_of_mem _ hother, hresult⟩

theorem getCsrfToken_fresh {cached : Option String} {rest : List Exchange}
    (hcached : truthy cached = none) (hopen : exchange.Open secret)
    (hsecret : secret ≠ "") :
    getCsrfToken platform libraries cached (exchange :: rest) =
      (.ok secret, [fetch platform libraries .csrfToken none exchange], rest) := by
  have hfetch : (fetch platform libraries .csrfToken none exchange).response = _ :=
    fetch_csrfToken hopen hsecret
  have hsettle : settle (fetch platform libraries .csrfToken none exchange).response
      exchange.readable = .returned (.csrfToken secret) := by
    rw [hfetch, hopen.readable]
    rfl
  simp only [getCsrfToken, hcached, hsettle]

theorem getCsrfToken_cached {cached : Option String} (hcached : truthy cached = some token) :
    getCsrfToken platform libraries cached exchanges = (.ok token, [], exchanges) := by
  simp only [getCsrfToken, hcached]

section Request

variable {cached : Option String} {fetches : List Fetch} {rest : List Exchange}

/-- A call ends with its fetch, or is made again after a 403. -/
theorem request_result {retries : ℕ}
    (hget : getCsrfToken platform libraries cached exchanges =
      (.ok token, fetches, exchange :: rest)) :
    (request platform libraries call retries cached exchanges).result =
        settle (fetch platform libraries (.mutation call) (some token) exchange).response
          exchange.readable ∨
      ∃ left, retries = left + 1 ∧
        (request platform libraries call retries cached exchanges).result =
          (request platform libraries call left none rest).result := by
  rw [request.eq_def]
  simp only [hget]
  split
  next reply left hsettle =>
    split
    · exact .inr ⟨left, rfl, rfl⟩
    · exact .inl hsettle.symm
  · exact .inl rfl

theorem request_again {left : ℕ} {error : AppError}
    (hget : getCsrfToken platform libraries cached exchanges =
      (.ok token, fetches, exchange :: rest))
    (hresponse : (fetch platform libraries (.mutation call) (some token)
      exchange).response = some (.failure error))
    (hforbidden : error.statusCode = 403) :
    (request platform libraries call (left + 1) cached exchanges).result =
      (request platform libraries call left none rest).result := by
  have hsettle : settle (fetch platform libraries (.mutation call) (some token)
      exchange).response exchange.readable = .failed (.failure error) := by
    have hsignedIn : ¬ error.statusCode = 401 := by
      rw [hforbidden]
      decide
    rw [hresponse]
    simp [settle, Reply.statusCode, hsignedIn]
  rw [request.eq_def]
  simp only [hget, hsettle, Reply.statusCode, hforbidden, if_true]

/-- Without a cached token the first fetch of the call carries the secret, and
so does its repetition. -/
theorem request_fresh {retries : ℕ} (hcached : truthy cached = none)
    (hsecret : secret ≠ "") (hopen : ∀ exchange ∈ exchanges, exchange.Open secret)
    (hlength : 2 * (retries + 1) ≤ exchanges.length) :
    (request platform libraries call retries cached exchanges).result.AnswersTo
      platform libraries call secret exchanges := by
  induction retries generalizing cached exchanges with
  | zero =>
      match exchanges, hlength with
      | first :: exchange :: rest, _ =>
          have hget : getCsrfToken platform libraries cached
              (first :: exchange :: rest) = _ :=
            getCsrfToken_fresh hcached (hopen first List.mem_cons_self) hsecret
          have hmem : exchange ∈ first :: exchange :: rest := by simp
          rcases request_result hget with hresult | ⟨left, hleft, -⟩
          · exact ⟨exchange, hmem, (hopen exchange hmem).readable ▸ hresult⟩
          · cases hleft
  | succ retries ih =>
      match exchanges, hlength with
      | first :: exchange :: rest, hlength =>
          have hget : getCsrfToken platform libraries cached
              (first :: exchange :: rest) = _ :=
            getCsrfToken_fresh hcached (hopen first List.mem_cons_self) hsecret
          have hmem : exchange ∈ first :: exchange :: rest := by simp
          rcases request_result hget with hresult | ⟨left, hleft, hagain⟩
          · exact ⟨exchange, hmem, (hopen exchange hmem).readable ▸ hresult⟩
          · obtain rfl := Nat.succ.inj hleft
            have hrest : 2 * (retries + 1) ≤ rest.length := by
              simp only [List.length_cons] at hlength
              omega
            rw [hagain]
            exact (ih rfl (fun other hother => hopen other (by simp [hother]))
              hrest).cons.cons

end Request

/-- A call whose fetches go through in a session with a secret ends with what
the server answers to this secret, whatever token was cached. -/
theorem send_outlives_stale_token (platform : Platform) (libraries : ApiLibraries)
    (call : ApiCall) (cached : Option String) {exchanges : List Exchange}
    {secret : String} (hsecret : secret ≠ "")
    (hopen : ∀ exchange ∈ exchanges, exchange.Open secret)
    (hlength : 4 ≤ exchanges.length) :
    (call.send platform libraries cached exchanges).result.AnswersTo platform
      libraries call secret exchanges := by
  cases hcached : truthy cached with
  | none => exact request_fresh hcached hsecret hopen hlength
  | some token =>
      match exchanges, hlength with
      | exchange :: rest, hlength =>
          have hmem : exchange ∈ exchange :: rest := List.mem_cons_self
          have hget : getCsrfToken platform libraries cached (exchange :: rest) =
              (.ok token, [], exchange :: rest) := getCsrfToken_cached hcached
          have hrest : 2 * (0 + 1) ≤ rest.length := by
            simp only [List.length_cons] at hlength
            omega
          have hagain : (request platform libraries call 0 none rest).result.AnswersTo
              platform libraries call secret (exchange :: rest) :=
            (request_fresh rfl hsecret
              (fun other hother => hopen other (List.mem_cons_of_mem _ hother))
              hrest).cons
          rw [ApiCall.send]
          rcases request_result hget with hresult | ⟨left, hleft, hrepeated⟩
          · rw [(hopen exchange hmem).readable] at hresult
            by_cases hsame : token = secret
            · exact ⟨exchange, hmem, hsame ▸ hresult⟩
            · cases hprotected : (ApiRequest.mutation call).isProtected with
              | true =>
                  have hstale : (fetch platform libraries (.mutation call) (some token)
                      exchange).response = _ :=
                    fetch_stale (hopen exchange hmem) hsame hprotected
                  rwa [request_again hget hstale rfl]
              | false =>
                  rw [fetch_unprotected hprotected] at hresult
                  exact ⟨exchange, hmem, hresult⟩
          · obtain rfl := Nat.succ.inj hleft
            rwa [hrepeated]

theorem send_outlives_stale_token_sampleExchange :
    (ApiCall.send samplePlatform sampleLibraries
        ⟨.post, "/api/processes/web/restart", .object []⟩ (some "stale")
        (List.replicate 4 sampleExchange)).result.AnswersTo samplePlatform
      sampleLibraries ⟨.post, "/api/processes/web/restart", .object []⟩ "fresh"
      (List.replicate 4 sampleExchange) := by
  refine send_outlives_stale_token samplePlatform sampleLibraries _ _ (by decide) ?_
    (by decide)
  intro exchange hexchange
  obtain rfl := List.eq_of_mem_replicate hexchange
  exact ⟨rfl, rfl, rfl, by decide⟩

end Pm2Manager
