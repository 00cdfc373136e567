/-
**The middleware of the server.**

`dispatch_with_middleware` asks the middleware whether a request goes on to the router: a preflight
is answered at once, and so is a request over the limit of its rate or of its body.  The response of
the router, its error and a timeout are given the CORS headers afterwards; the other answers leave
without them, except a preflight.

What a handler does, and whether it is faster than the timeout, are inputs of the model; the error
of a handler is given by its text, which is all that is read of it.  So are the address of the peer,
as text, and what the rate limiter needs of its surroundings.

Main definitions:

* `OxiHttp.MiddlewarePipeline`, with `preHandle` and `postHandle`;
* `OxiHttp.dispatchWithMiddleware` — the response to a request, and the pipeline after it;
* `OxiHttp.MiddlewarePipeline.Admits` — neither limit stops the request.

Main results:

* `OxiHttp.MiddlewarePipeline.preHandle_of_admits`,
  `OxiHttp.MiddlewarePipeline.preHandle_of_not_admits` — what the checks before the handler come to;
* `OxiHttp.dispatch_allowsOrigin_iff` — which responses name the origin of their request.
-/

import OxiHttp.Cors
import OxiHttp.RateLimiter
import OxiHttp.RouterNesting

set_option relaxedAutoImplicit false
set_option autoImplicit false

namespace OxiHttp

/-! ### Responses -/

/-- `hyper::Response<Full<Bytes>>`. -/
structure HttpResponse where
  status : ℕ
  headers : HeaderMap := {}
  body : List UInt8 := []
deriving DecidableEq

/-- A response with a text. -/
def textResponse (status : ℕ) (text : Str) : HttpResponse where
  status := status
  body := Utf8.encode text

/-- `CorsConfig::preflight_response`; `none` is a panic. -/
def CorsConfig.preflightResponse (config : CorsConfig) (debugAssertions : Bool)
    (origin : Option Str) : Option HttpResponse :=
  (config.applyHeaders debugAssertions {} origin).map fun headers => { status := 204, headers }

/-! ### The limits -/

/-- `BodyLimitConfig`. -/
structure BodyLimitConfig where
  maxBytes : ℕ
deriving DecidableEq

/-- `check_content_length`. -/
def BodyLimitConfig.checkContentLength (config : BodyLimitConfig) (contentLength : Option ℕ) :
    Except OxiHttpError Unit :=
  match contentLength with
  | some len =>
      if config.maxBytes < len then
        .error (.body ("request body too large: " ++ toString len ++ " bytes exceeds limit of " ++
          toString config.maxBytes ++ " bytes"))
      else .ok ()
  | none => .ok ()

/-- `RateLimiter::too_many_requests`. -/
def RateLimiter.tooManyRequests : HttpResponse := textResponse 429 "Too Many Requests".toList

/-- `TimeoutConfig`, in nanoseconds. -/
structure TimeoutConfig where
  duration : ℕ
deriving DecidableEq

/-- `TimeoutConfig::timeout_response`. -/
def TimeoutConfig.timeoutResponse : HttpResponse := textResponse 408 "Request Timeout".toList

/-- What stands after the last comma. -/
def lastItem (s : Str) : Str := s.rtakeWhile (· ≠ ',')

/-- `rate_limit_key`. -/
def rateLimitKey (headers : HeaderMap) (remoteIp : Str) (trustForwardedFor : Bool) : Str :=
  match (if trustForwardedFor then
      (headers.get "x-forwarded-for".toList).bind HeaderValue.toStr else none) with
  | some xff => if (trim (lastItem xff)).isEmpty then remoteIp else trim (lastItem xff)
  | none => remoteIp

/-! ### The pipeline -/

/-- `MiddlewarePipeline`. -/
structure MiddlewarePipeline where
  cors : Option CorsConfig := none
  bodyLimit : Option BodyLimitConfig := none
  rateLimiter : Option RateLimiter := none
  timeout : Option TimeoutConfig := none
  trustForwardedFor : Bool := false

/-- The origin of a request. -/
def originOf (headers : HeaderMap) : Option Str :=
  (headers.get "origin".toList).bind HeaderValue.toStr

/-- The length a request declares. -/
def declaredLength (headers : HeaderMap) : Option ℕ :=
  ((headers.get "content-length".toList).bind HeaderValue.toStr).bind parseU64

/-- The surroundings a request is handled in. -/
structure Surroundings where
  /-- The build has debug assertions. -/
  debugAssertions : Bool
  /-- The address of the peer. -/
  remoteIp : Str
  /-- The time at which the rate limiter is asked, and the key a walk of its map gives first. -/
  now : ℕ
  first : ℕ
  /-- The handler takes longer than the timeout. -/
  late : Bool

namespace MiddlewarePipeline

variable {E : Type} (p : MiddlewarePipeline) (env : Surroundings)

/-- The call of the rate limiter for a request. -/
def checkOf (headers : HeaderMap) : Check where
  key := rateLimitKey headers env.remoteIp p.trustForwardedFor
  now := env.now
  first := env.first

/-- The part of `pre_handle` about the length of the body. -/
def checkBody (headers : HeaderMap) : Option HttpResponse :=
  p.bodyLimit.bind fun limit =>
    match limit.checkContentLength (declaredLength headers) with
    | .ok () => none
    | .error e => some (textResponse 413 e.display.toList)

/-- `pre_handle`: the response that answers the request at once, if there is one, and the pipeline
after it.  A panic is a response that is `none`. -/
def preHandle (req : HttpRequest E) : Option (Option HttpResponse) × MiddlewarePipeline :=
  match (if req.method = .options then p.cors else none) with
  | some cors => (some (cors.preflightResponse env.debugAssertions (originOf req.headers)), p)
  | none =>
      match p.rateLimiter with
      | some limiter =>
          let checked := limiter.check (p.checkOf env req.headers)
          let p' := { p with rateLimiter := some checked.2 }
          if checked.1 then ((p.checkBody req.headers).map some, p')
          else (some (some RateLimiter.tooManyRequests), p')
      | none => ((p.checkBody req.headers).map some, p)

/-- `inject_body_limit`, when `insert` inserts a limit into the extensions. -/
def injectBodyLimit (insert : BodyLimitConfig → E → E) (req : HttpRequest E) : HttpRequest E :=
  match p.bodyLimit with
  | some limit => { req with extensions := insert limit req.extensions }
  | none => req

/-- `post_handle`; `none` is a panic. -/
def postHandle (debugAssertions : Bool) (resp : HttpResponse) (origin : Option Str) :
    Option HttpResponse :=
  match p.cors with
  | some cors =>
      (cors.applyHeaders debugAssertions resp.headers origin).map fun headers =>
        { resp with headers }
  | none => some resp

end MiddlewarePipeline

section

variable {H E : Type}

/-- What a dispatch comes to, when the handlers do this. -/
def Outcome.respond (handle : H → Request E → Except Str HttpResponse) :
    Outcome H E → Except Str HttpResponse
  | .handled handler req => handle handler req
  | .reply status body => .ok (textResponse status body)
  | .error e => .error e.display.toList

variable (buildUri : Str → Except String Uri) (router : Router H E)
  (handle : H → Request E → Except Str HttpResponse) (insertLimit : BodyLimitConfig → E → E)
  (p : MiddlewarePipeline) (env : Surroundings)

/-- The response of the router, or that of the timeout. -/
def handlerResult (req : HttpRequest E) : Except Str HttpResponse :=
  if p.timeout.isSome && env.late then .ok TimeoutConfig.timeoutResponse
  else (router.dispatch buildUri (p.injectBodyLimit insertLimit req)).outcome.respond handle

/-- `dispatch_with_middleware`: the response, and the pipeline after it; `none` is a panic. -/
def dispatchWithMiddleware (req : HttpRequest E) : Option HttpResponse × MiddlewarePipeline :=
  match p.preHandle env req with
  | (some resp, p') => (resp, p')
  | (none, p') =>
      let resp :=
        match handlerResult buildUri router handle insertLimit p env req with
        | .ok resp => resp
        | .error e => textResponse 500 e
      (p.postHandle env.debugAssertions resp (originOf req.headers), p')

end

/-! ### What the checks come to -/

namespace MiddlewarePipeline

variable {E : Type} {p : MiddlewarePipeline} {env : Surroundings} {req : HttpRequest E}

/-- The rate limiter grants the request, and its body is not declared to be too long. -/
def Admits (p : MiddlewarePipeline) (env : Surroundings) (headers : HeaderMap) : Prop :=
  (∀ limiter ∈ p.rateLimiter, (limiter.check (p.checkOf env headers)).1 = true) ∧
    ∀ limit ∈ p.bodyLimit, limit.checkContentLength (declaredLength headers) = .ok ()

theorem checkBody_eq_none_iff {headers : HeaderMap} :
    p.checkBody headers = none ↔
      ∀ limit ∈ p.bodyLimit, limit.checkContentLength (declaredLength headers) = .ok () := by
  unfold checkBody
  cases p.bodyLimit with
  | none => simp
  | some limit =>
      simp only [Option.bind_some, Option.mem_def, Option.some.injEq, forall_eq']
      cases limit.checkContentLength (declaredLength headers) <;> simp

/-- A request that is no preflight goes on to the router when neither limit stops it. -/
theorem preHandle_of_admits (hno : req.method ≠ .options) (h : p.Admits env req.headers) :
    (p.preHandle env req).1 = none := by
  have hbody := checkBody_eq_none_iff.2 h.2
  rw [preHandle, if_neg hno]
  dsimp only
  cases hlimiter : p.rateLimiter with
  | none => simp [hbody]
  | some limiter =>
      have hgranted := h.1 limiter hlimiter
      simp [hgranted, hbody]

/-- One that is stopped is answered without any header. -/
theorem preHandle_of_not_admits (hno : req.method ≠ .options) (h : ¬ p.Admits env req.headers) :
    ∃ resp, (p.preHandle env req).1 = some (some resp) ∧ resp.headers = {} := by
  have hbody : ∀ resp, p.checkBody req.headers = some resp → resp.headers = {} := by
    intro resp hresp
    unfold checkBody at hresp
    obtain ⟨limit, -, hlimit⟩ := Option.bind_eq_some_iff.1 hresp
    split at hlimit <;> cases hlimit
    rfl
  rw [preHandle, if_neg hno]
  dsimp only
  cases hlimiter : p.rateLimiter with
  | none =>
      cases hcheck : p.checkBody req.headers with
      | none => exact absurd ⟨by simp [hlimiter], checkBody_eq_none_iff.1 hcheck⟩ h
      | some resp => exact ⟨resp, rfl, hbody resp hcheck⟩
  | some limiter =>
      dsimp only
      cases hgranted : (limiter.check (p.checkOf env req.headers)).1 with
      | false => exact ⟨_, rfl, rfl⟩
      | true =>
          cases hcheck : p.checkBody req.headers with
          | none =>
              refine absurd ⟨?_, checkBody_eq_none_iff.1 hcheck⟩ h
              rintro _ hmem
              cases hlimiter.symm.trans hmem
              exact hgranted
          | some resp => exact ⟨resp, rfl, hbody resp hcheck⟩

/-- A preflight is answered at once. -/
theorem preHandle_options (h : req.method = .options) {cors : CorsConfig}
    (hcors : p.cors = some cors) : (p.preHandle env req).1
      = some (cors.preflightResponse env.debugAssertions (originOf req.headers)) := by
  rw [preHandle, if_pos h, hcors]

end MiddlewarePipeline

/-! ### The origin of a response -/

/-- The response names this origin, and no other. -/
def AllowsOrigin (v : HeaderValue) (resp : Option HttpResponse) : Prop :=
  ∃ r, resp = some r ∧ r.headers.getAll "access-control-allow-origin".toList = [v]

section

variable {H E : Type}

section

variable {buildUri : Str → Except String Uri} {router : Router H E}
  {handle : H → Request E → Except Str HttpResponse} {insertLimit : BodyLimitConfig → E → E}
  {p : MiddlewarePipeline} {env : Surroundings} {req : HttpRequest E}

/-- A request that is answered at once. -/
theorem dispatchWithMiddleware_of_some {resp : Option HttpResponse}
    (h : (p.preHandle env req).1 = some resp) :
    (dispatchWithMiddleware buildUri router handle insertLimit p env req).1 = resp := by
  rcases hpre : p.preHandle env req with ⟨r, p'⟩
  rw [hpre] at h
  cases h
  rw [dispatchWithMiddleware, hpre]

/-- A request that goes on to the router. -/
theorem dispatchWithMiddleware_of_none (h : (p.preHandle env req).1 = none) :
    ∃ resp, (dispatchWithMiddleware buildUri router handle insertLimit p env req).1
      = p.postHandle env.debugAssertions resp (originOf req.headers) := by
  rcases hpre : p.preHandle env req with ⟨r, p'⟩
  rw [hpre] at h
  cases h
  exact ⟨_, by rw [dispatchWithMiddleware, hpre]⟩

end

/-- The response to a request whose origin is in a list without `*` names that origin exactly when
the request is a preflight or neither limit stops it. -/
theorem dispatch_allowsOrigin_iff (buildUri : Str → Except String Uri) (router : Router H E)
    (handle : H → Request E → Except Str HttpResponse) (insertLimit : BodyLimitConfig → E → E)
    (p : MiddlewarePipeline) (env : Surroundings) (req : HttpRequest E) {cors : CorsConfig}
    {v : HeaderValue} {origin : Str} (hcors : p.cors = some cors)
    (hlist : "*".toList ∉ cors.allowedOrigins) (hget : req.headers.get "origin".toList = some v)
    (hv : v.toStr = some origin) (hallowed : origin ∈ cors.allowedOrigins) :
    AllowsOrigin v (dispatchWithMiddleware buildUri router handle insertLimit p env req).1 ↔
      req.method = .options ∨ p.Admits env req.headers := by
  have horigin : originOf req.headers = some origin := by
    rw [originOf, hget, Option.bind_some, hv]
  have hnamed := CorsConfig.getAll_allowOrigin hlist hv hallowed env.debugAssertions
  by_cases hoptions : req.method = .options
  · refine iff_of_true ?_ (.inl hoptions)
    have hpre : (p.preHandle env req).1
        = some (cors.preflightResponse env.debugAssertions (originOf req.headers)) :=
      MiddlewarePipeline.preHandle_options hoptions hcors
    obtain ⟨headers, happly, hall⟩ := hnamed {}
    rw [horigin, CorsConfig.preflightResponse, happly] at hpre
    exact ⟨{ status := 204, headers }, dispatchWithMiddleware_of_some hpre, hall⟩
  · rw [or_iff_right hoptions]
    constructor
    · intro hallows
      by_contra hadmits
      obtain ⟨resp, hpre, hnone⟩ := MiddlewarePipeline.preHandle_of_not_admits hoptions hadmits
      rw [dispatchWithMiddleware_of_some hpre] at hallows
      obtain ⟨r, hr, hall⟩ := hallows
      cases hr
      rw [hnone] at hall
      cases hall
    · intro hadmits
      have hpre := MiddlewarePipeline.preHandle_of_admits hoptions hadmits
      obtain ⟨resp, hresp⟩ := @dispatchWithMiddleware_of_none H E buildUri router handle insertLimit
        p env req hpre
      obtain ⟨headers, happly, hall⟩ := hnamed resp.headers
      rw [horigin, MiddlewarePipeline.postHandle, hcors] at hresp
      simp only [happly, Option.map_some] at hresp
      exact ⟨{ resp with headers }, hresp, hall⟩

end

/-- A server for one origin, whose requests have at most one byte and whose clients have this many
tokens. -/
def strictPipeline (tokens : ℕ) : MiddlewarePipeline where
  cors := some (.withOrigins ["https://app.test".toList])
  bodyLimit := some ⟨1⟩
  rateLimiter := some (.new tokens 0)

/-- A request of that origin that declares this length. -/
def crossOriginRequest (method : Method) (length : Str) : HttpRequest Unit where
  method := method
  uri := plainUri "/".toList (by decide)
  headers := ⟨[("origin".toList, ⟨Utf8.encode "https://app.test".toList⟩),
    ("content-length".toList, ⟨Utf8.encode length⟩)]⟩
  extensions := ()

/-- Its surroundings. -/
def quietSurroundings : Surroundings where
  debugAssertions := true
  remoteIp := "10.0.0.1".toList
  now := 0
  first := 0
  late := false

/-- The response of a server without routes. -/
def strictResponse (tokens : ℕ) (method : Method) (length : Str) : Option HttpResponse :=
  (dispatchWithMiddleware uriOfPath (Router.new : Router ℕ Unit) (fun _ _ => .ok { status := 200 })
    (fun _ e => e) (strictPipeline tokens) quietSurroundings (crossOriginRequest method length)).1

/-- A preflight is told that its origin is allowed. -/
theorem dispatch_allowsOrigin_preflight :
    AllowsOrigin ⟨Utf8.encode "https://app.test".toList⟩ (strictResponse 0 .options "2".toList) :=
  (dispatch_allowsOrigin_iff uriOfPath (Router.new : Router ℕ Unit)
    (fun _ _ => .ok { status := 200 }) (fun _ e => e) (strictPipeline 0) quietSurroundings
    (crossOriginRequest .options "2".toList) rfl (by decide) rfl
    (HeaderValue.toStr_of_isVisible (by decide)) (by decide)).2 (.inl rfl)

/-- A response without headers names no origin. -/
theorem not_allowsOrigin_of_headers {resp : Option HttpResponse} {status : ℕ} (v : HeaderValue)
    (h : resp.map (fun r => (r.status, r.headers)) = some (status, {})) :
    ¬ AllowsOrigin v resp := by
  rintro ⟨r, rfl, hall⟩
  have hnone : r.headers = {} := congrArg Prod.snd (Option.some.inj h)
  rw [hnone] at hall
  cases hall

/-- A body that is too long, and a client without tokens, are refused without a word about the
origin. -/
theorem not_allowsOrigin_refused :
    ¬ AllowsOrigin ⟨Utf8.encode "https://app.test".toList⟩ (strictResponse 1 .post "2".toList) ∧
      ¬ AllowsOrigin ⟨Utf8.encode "https://app.test".toList⟩
        (strictResponse 0 .post "1".toList) := by
  have htooLong : (strictResponse 1 .post "2".toList).map (fun r => (r.status, r.headers))
      = some (413, {}) := by decide +kernel
  have htooMany : (strictResponse 0 .post "1".toList).map (fun r => (r.status, r.headers))
      = some (429, {}) := by decide +kernel
  exact ⟨not_allowsOrigin_of_headers _ htooLong, not_allowsOrigin_of_headers _ htooMany⟩

end OxiHttp
