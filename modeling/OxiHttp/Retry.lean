/-
**Retries.**

`RequestBuilder::send` hands the request to `send_inner` until the outcome is none that the retry
policy retries, or the attempts are used up.  What `send_inner` comes to is an input of the model,
one outcome for each attempt, and so is the question whether the timeout comes first.  The hooks of
the middleware, which only observe, are left out.

Main definitions:

* `OxiHttp.RetryPolicy` — the policy, with the decisions it takes;
* `OxiHttp.RequestBuilder.send` — the attempts, and what they come to.

Main results:

* `OxiHttp.RequestBuilder.length_calls_attempts` — how many attempts there are, from one on;
* `OxiHttp.RequestBuilder.sendsOnce_iff` — which requests are handed over once.
-/

import Mathlib.Data.Finset.Insert
import OxiHttp.SendInner

set_option relaxedAutoImplicit false
set_option autoImplicit false

namespace OxiHttp

/-- `Method::is_idempotent`; what a method of another name does is not known. -/
def Method.isIdempotent : Method → Bool
  | .get | .head | .put | .delete | .options | .trace => true
  | .post | .patch | .connect | .extension _ => false

/-! ### The policy -/

/-- `Duration::MAX`, in nanoseconds. -/
def durationMax : ℕ := (2 ^ 64 - 1) * 10 ^ 9 + 999999999

/-- `RetryPolicy`; durations are nanoseconds. -/
structure RetryPolicy where
  maxRetries : UInt32
  backoffBase : ℕ
  backoffMax : ℕ
  retryableStatusCodes : Finset ℕ
  retryOnConnectionError : Bool
  retryOnTimeout : Bool

namespace RetryPolicy

def new (maxRetries : UInt32) : RetryPolicy where
  maxRetries := maxRetries
  backoffBase := 100 * 10 ^ 6
  backoffMax := 30 * 10 ^ 9
  retryableStatusCodes := {429, 500, 502, 503, 504}
  retryOnConnectionError := true
  retryOnTimeout := true

def default : RetryPolicy := new 3

variable (p : RetryPolicy)

def shouldRetryStatus (statusCode : ℕ) : Bool := statusCode ∈ p.retryableStatusCodes

/-- The decision of `send` about an error. -/
def shouldRetryError : OxiHttpError → Bool
  | .hyper _ => p.retryOnConnectionError
  | .timeout _ => p.retryOnTimeout
  | .io _ => p.retryOnConnectionError
  | _ => false

/-- `backoff_delay`; the multiplication and the power saturate. -/
def backoffDelay (attempt : ℕ) : ℕ :=
  min (min (p.backoffBase * min (2 ^ attempt) (2 ^ 32 - 1)) durationMax) p.backoffMax

/-- Whether an outcome is retried, while there are attempts left. -/
def retries : Except OxiHttpError Response → Bool
  | .ok resp => p.shouldRetryStatus resp.status
  | .error e => p.shouldRetryError e

end RetryPolicy

/-! ### The attempts -/

/-- What `send` is called with beside the request. -/
structure SendOptions where
  config : SendConfig
  timeout : Option ℕ
  retryPolicy : Option RetryPolicy

/-- The arguments of `send_inner`. -/
structure SendCall where
  method : Method
  uri : Uri
  body : OutgoingBody
  headers : HeaderMap
  config : SendConfig

/-- What becomes of a call, when its requests fare as the hops say. -/
def SendCall.outcome (fromStr : Str → Except String Uri) (jar : Option CookieJar) (c : SendCall)
    (hops : List Hop) : SendOutcome :=
  (sendInner c.config fromStr c.method c.uri c.body c.headers jar hops).2

/-- What becomes of a call of `send_inner`, and whether that takes longer than the timeout. -/
structure AttemptOutcome where
  outcome : SendOutcome
  late : Bool

/-- What `send` does: it calls `send_inner`, or sleeps. -/
inductive SendEvent where
  | call (c : SendCall)
  | sleep (delay : ℕ)

/-- The calls of `send_inner`. -/
def callsOf (log : List SendEvent) : List SendCall :=
  log.filterMap fun
    | .call c => some c
    | .sleep _ => none

/-- `tokio::time::timeout`, when there is a timeout. -/
def awaited (timeout : Option ℕ) (o : AttemptOutcome) : SendOutcome :=
  match timeout with
  | some dur =>
    if o.late then
      .done (.error (.timeout ("request timed out after " ++ toString (dur / 10 ^ 6) ++ "ms")))
    else o.outcome
  | none => o.outcome

namespace RequestBuilder

variable (request : RequestBuilder) (options : SendOptions) (outcome : ℕ → AttemptOutcome)

/-- The call of one attempt; a streaming body is there for the first one only. -/
def sendCall (slot : Option Body) : SendCall where
  method := request.method
  uri := request.uri
  body := if request.streamBody.isSome then .oneShot slot else .reusable request.body
  headers := request.headers
  config := options.config

/-- The loop, with the attempts that are left and those that have been made. -/
def attempts (maxAttempts : ℕ) : (left attempt : ℕ) → (slot : Option Body) →
    List SendEvent × SendOutcome
  | 0, _, _ => ([], .done (.error (.hyper "max retries exceeded")))
  | left + 1, attempt, slot =>
    let call := SendEvent.call (request.sendCall options slot)
    match awaited options.timeout (outcome attempt) with
    | .waiting => ([call], .waiting)
    | .panicked => ([call], .panicked)
    | .done result =>
      match options.retryPolicy with
      | none => ([call], .done result)
      | some policy =>
        if attempt < maxAttempts - 1 ∧ policy.retries result then
          let rest := attempts maxAttempts left (attempt + 1) none
          (call :: .sleep (policy.backoffDelay attempt) :: rest.1, rest.2)
        else ([call], .done result)

/-- The number of attempts, computed in `u32`. -/
def maxAttempts : UInt32 :=
  if request.streamBody.isSome then 1
  else
    match options.retryPolicy with
    | some policy => policy.maxRetries + 1
    | none => 1

/-- Whether the computation of the number of attempts overflows. -/
def overflows : Bool :=
  !request.streamBody.isSome && options.retryPolicy.any fun policy =>
    policy.maxRetries.toNat = 2 ^ 32 - 1

/-- `RequestBuilder::send`, in a build with or without overflow checks. -/
def send (overflowChecks : Bool) : List SendEvent × SendOutcome :=
  if overflowChecks && request.overflows options then ([], .panicked)
  else
    let n := (request.maxAttempts options).toNat
    request.attempts options outcome n n 0 request.streamBody

/-! ### How often a request is handed over -/

/-- Whether the policy retries what becomes of a call. -/
def retried (o : AttemptOutcome) : Bool :=
  match awaited options.timeout o, options.retryPolicy with
  | .done result, some policy => policy.retries result
  | _, _ => false

/-- The calls that are made from an attempt on, and what they come to: the attempt alone, or, when
it is retried, those after it as well. -/
theorem attempts_succ (n left attempt : ℕ) (slot : Option Body) :
    let run := request.attempts options outcome n (left + 1) attempt slot
    let rest := request.attempts options outcome n left (attempt + 1) none
    if attempt < n - 1 ∧ retried options (outcome attempt) = true then
      (callsOf run.1).length = (callsOf rest.1).length + 1 ∧ run.2 = rest.2
    else
      (callsOf run.1).length = 1 ∧ run.2 = awaited options.timeout (outcome attempt) := by
  dsimp only
  rw [attempts, retried]
  cases hawaited : awaited options.timeout (outcome attempt) with
  | waiting => simp [callsOf]
  | panicked => simp [callsOf]
  | done result =>
      cases options.retryPolicy with
      | none => simp [callsOf]
      | some policy =>
          dsimp only
          split_ifs with h
          · exact ⟨rfl, rfl⟩
          · exact ⟨rfl, rfl⟩

/-- From one attempt on: the attempt itself, and those that follow when it is retried. -/
theorem length_calls_attempts (n left attempt : ℕ) (slot : Option Body) :
    (callsOf (request.attempts options outcome n (left + 1) attempt slot).1).length =
      1 + if attempt < n - 1 ∧ retried options (outcome attempt) then
        (callsOf (request.attempts options outcome n left (attempt + 1) none).1).length else 0 := by
  have hstep := attempts_succ request options outcome n left attempt slot
  dsimp only at hstep
  split_ifs at hstep ⊢
  · rw [hstep.1, Nat.add_comm]
  · exact hstep.1

/-- There is at least one attempt when one is left. -/
theorem length_calls_pos (n left attempt : ℕ) (slot : Option Body) :
    0 < (callsOf (request.attempts options outcome n (left + 1) attempt slot).1).length := by
  rw [length_calls_attempts]
  omega

/-- A request that may be sent only once is handed to `send_inner` exactly once. -/
def SendsOnce (overflowChecks : Bool) : Prop :=
  request.method.isIdempotent = false →
    (callsOf (request.send options outcome overflowChecks).1).length = 1

variable {request options outcome}

/-- When there are no attempts to come, nothing is retried. -/
theorem length_calls_single {n : ℕ} (h : n = 1) (slot : Option Body) :
    (callsOf (request.attempts options outcome n n 0 slot).1).length = 1 := by
  rw [h, length_calls_attempts, if_neg (by simp)]

theorem toNat_maxAttempts {policy : RetryPolicy} (hstream : request.streamBody.isSome = false)
    (hpolicy : options.retryPolicy = some policy) :
    (request.maxAttempts options).toNat =
      if policy.maxRetries.toNat = 2 ^ 32 - 1 then 0 else policy.maxRetries.toNat + 1 := by
  have hlt := policy.maxRetries.toNat_lt
  rw [maxAttempts, if_neg (by simp [hstream]), hpolicy]
  simp only [UInt32.toNat_add, UInt32.toNat_one]
  split_ifs <;> omega

/-- A request with a policy, whose body is not a stream, is handed over exactly once when the number
of attempts can be computed and there is no retry. -/
theorem length_calls_policy {policy : RetryPolicy} (hstream : request.streamBody.isSome = false)
    (hpolicy : options.retryPolicy = some policy) (overflowChecks : Bool) :
    (callsOf (request.send options outcome overflowChecks).1).length = 1 ↔
      policy.maxRetries.toNat ≠ 2 ^ 32 - 1 ∧
        (policy.maxRetries = 0 ∨ retried options (outcome 0) = false) := by
  have hoverflows : request.overflows options = true ↔ policy.maxRetries.toNat = 2 ^ 32 - 1 := by
    simp [overflows, hstream, hpolicy]
  have hn := toNat_maxAttempts hstream hpolicy
  rw [send]
  by_cases hmax : policy.maxRetries.toNat = 2 ^ 32 - 1
  · -- with overflow checks the computation panics, and without them there is no attempt
    rw [if_pos hmax] at hn
    rw [hn]
    cases overflowChecks <;> simp [hoverflows.2 hmax, hmax, attempts, callsOf]
  · have hno : request.overflows options = false := by
      simpa using mt hoverflows.1 hmax
    rw [if_neg hmax] at hn
    rw [hno, Bool.and_false, if_neg (by simp), hn, length_calls_attempts, Nat.add_sub_cancel]
    by_cases hzero : policy.maxRetries = 0
    · simp [hzero]
    · have hpos : 0 < policy.maxRetries.toNat := by
        rw [Nat.pos_iff_ne_zero]
        exact fun h => hzero (UInt32.toNat_inj.1 h)
      obtain ⟨left, hleft⟩ := Nat.exists_eq_add_of_lt hpos
      rw [zero_add] at hleft
      cases hretried : retried options (outcome 0) with
      | false =>
          rw [if_neg (by simp)]
          exact ⟨fun _ => ⟨hmax, .inr rfl⟩, fun _ => rfl⟩
      | true =>
          have hmore := length_calls_pos request options outcome (left + 1 + 1) left (0 + 1) none
          rw [hleft, if_pos ⟨Nat.succ_pos left, rfl⟩]
          refine ⟨fun h => ?_, fun h => ?_⟩
          · omega
          · rcases h.2 with h | h
            · exact absurd h hzero
            · cases h

/-- A request that is not idempotent is handed over exactly once if and only if its body is a
stream, or there is no policy, or the number of attempts can be computed and the policy allows no
retry or does not retry the first outcome. -/
theorem sendsOnce_iff (request : RequestBuilder) (options : SendOptions)
    (outcome : ℕ → AttemptOutcome) (overflowChecks : Bool) :
    request.SendsOnce options outcome overflowChecks ↔
      request.method.isIdempotent = true ∨ request.streamBody.isSome = true ∨
        ∀ policy ∈ options.retryPolicy, policy.maxRetries.toNat ≠ 2 ^ 32 - 1 ∧
          (policy.maxRetries = 0 ∨ retried options (outcome 0) = false) := by
  rw [SendsOnce]
  cases hmethod : request.method.isIdempotent with
  | true => simp
  | false =>
      cases hstream : request.streamBody.isSome with
      | true =>
          have hno : request.overflows options = false := by simp [overflows, hstream]
          have hone : (request.maxAttempts options).toNat = 1 := by simp [maxAttempts, hstream]
          simp [send, hno, length_calls_single hone]
      | false =>
          cases hpolicy : options.retryPolicy with
          | none =>
              have hno : request.overflows options = false := by simp [overflows, hpolicy]
              have hone : (request.maxAttempts options).toNat = 1 := by
                simp [maxAttempts, hstream, hpolicy]
              simp [send, hno, length_calls_single hone]
          | some policy => simp [length_calls_policy hstream hpolicy]

/-- The default policy and no timeout. -/
def defaultOptions : SendOptions where
  config := { maxResponseBody := 0, clockMax := 0 }
  timeout := none
  retryPolicy := some .default

/-- A server that is unavailable when it is first asked. -/
def flakyServer (attempt : ℕ) : AttemptOutcome where
  outcome := (plainRequest.sendCall defaultOptions none).outcome readUri none
    [{ sentAt := 0
       answer := .response (if attempt = 0 then 503 else 200) {}
       clock := fun _ => 0 }]
  late := false

/-- A `POST` is handed over twice. -/
theorem not_sendsOnce_flakyServer : ¬ plainRequest.SendsOnce defaultOptions flakyServer true := by
  intro h
  exact absurd (h rfl) (by decide +kernel)

end RequestBuilder

end OxiHttp
