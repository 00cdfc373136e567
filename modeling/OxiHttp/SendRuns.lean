/-
**A whole `send`.**

`RequestBuilder::send` tells the middleware about the request, makes its attempts, and tells the
middleware about the response.  Each attempt is a run of `send_inner` from the beginning: what an
earlier one was redirected to is forgotten, and the request of the caller is sent anew.  Between the
attempts it sleeps, longer each time until the bound of the policy.  So there is a bound for all the
requests that one call can come to, and with a timeout for the time as well, whatever the servers
do.

The clock of the machine is the only one: `tokio::time::timeout` ends an attempt that has not ended
when the time is up, and then its hops are those it has come to.

Main definitions:

* `OxiHttp.TimedAttempt`, `OxiHttp.RequestBuilder.sendRun` — the attempts, and all that is seen of a
  `send`;
* `OxiHttp.RequestBuilder.KeepsSend` — what is expected of it.

Main results:

* `OxiHttp.RetryPolicy.backoffDelay_mono` — the delays do not get shorter;
* `OxiHttp.RequestBuilder.attempts_events` — what the loop does, without its recursion;
* `OxiHttp.RequestBuilder.keepsSend_sendRun` — every `send` is as expected.
-/

import Mathlib.Algebra.Order.BigOperators.Group.List
import OxiHttp.AttemptBudget
import OxiHttp.RedirectBudget

set_option relaxedAutoImplicit false
set_option autoImplicit false

namespace OxiHttp

/-! ### Delays -/

namespace RetryPolicy

variable (p : RetryPolicy)

theorem backoffDelay_le (attempt : ℕ) : p.backoffDelay attempt ≤ p.backoffMax :=
  Nat.min_le_right _ _

/-- The delays do not get shorter. -/
theorem backoffDelay_mono : Monotone p.backoffDelay := by
  intro a b hab
  have hpow : min (2 ^ a) (2 ^ 32 - 1) ≤ min (2 ^ b) (2 ^ 32 - 1) :=
    min_le_min (Nat.pow_le_pow_right Nat.two_pos hab) le_rfl
  exact min_le_min (min_le_min (Nat.mul_le_mul_left _ hpow) le_rfl) le_rfl

end RetryPolicy

/-- The delay after an attempt that is retried. -/
def SendOptions.delay (options : SendOptions) (attempt : ℕ) : ℕ :=
  (options.retryPolicy.map fun p => p.backoffDelay attempt).getD 0

/-- The longest delay. -/
def SendOptions.delayMax (options : SendOptions) : ℕ :=
  (options.retryPolicy.map RetryPolicy.backoffMax).getD 0

theorem SendOptions.delay_le (options : SendOptions) (attempt : ℕ) :
    options.delay attempt ≤ options.delayMax := by
  unfold delay delayMax
  cases options.retryPolicy with
  | none => exact le_rfl
  | some p => exact p.backoffDelay_le attempt

theorem SendOptions.delay_mono (options : SendOptions) : Monotone options.delay := by
  intro a b hab
  unfold delay
  cases options.retryPolicy with
  | none => exact le_rfl
  | some p => exact p.backoffDelay_mono hab

/-! ### A `send` -/

/-- What becomes of one attempt: the jar as it finds it, how its requests fare, and the time it
takes, or would take. -/
structure TimedAttempt where
  jar : Option CookieJar
  hops : List Hop
  duration : ℕ

namespace TimedAttempt

variable (fromStr : Str → Except String Uri) (timeout : Option ℕ) (a : TimedAttempt) (c : SendCall)

/-- The requests of an attempt. -/
def requests : List SentRequest :=
  (sendInner c.config fromStr c.method c.uri c.body c.headers a.jar a.hops).1

/-- What it comes to, and whether the timeout comes first. -/
def outcome : AttemptOutcome where
  outcome := c.outcome fromStr a.jar a.hops
  late := timeout.any (· < a.duration)

/-- The time until it ends or is ended. -/
def time : ℕ :=
  match timeout with
  | some dur => min dur a.duration
  | none => a.duration

end TimedAttempt

/-- What is seen of a `send`; the middleware is told by its place in the list. -/
inductive SendStep where
  | beforeRequest (middleware : ℕ) (method : Method) (uri : Uri) (headers : HeaderMap)
  | sent (request : SentRequest)
  | slept (delay : ℕ)
  | afterResponse (middleware : ℕ) (status elapsed : ℕ)

/-- The requests that are sent. -/
def sentIn (steps : List SendStep) : List SentRequest :=
  steps.filterMap fun
    | .sent request => some request
    | _ => none

/-- The times it sleeps. -/
def sleptIn (steps : List SendStep) : List ℕ :=
  steps.filterMap fun
    | .slept delay => some delay
    | _ => none

/-- What the calls and the sleeps of the loop are, from an attempt on. -/
def stepsOf (fromStr : Str → Except String Uri) (attempts : ℕ → TimedAttempt) :
    (attempt : ℕ) → List SendEvent → List SendStep
  | _, [] => []
  | k, .call c :: log =>
      ((attempts k).requests fromStr c).map .sent ++ stepsOf fromStr attempts (k + 1) log
  | k, .sleep delay :: log => .slept delay :: stepsOf fromStr attempts k log

/-- The time they take. -/
def timeOf (timeout : Option ℕ) (attempts : ℕ → TimedAttempt) : (attempt : ℕ) → List SendEvent → ℕ
  | _, [] => 0
  | k, .call _ :: log => (attempts k).time timeout + timeOf timeout attempts (k + 1) log
  | k, .sleep delay :: log => delay + timeOf timeout attempts k log

namespace RequestBuilder

variable (request : RequestBuilder) (options : SendOptions) (fromStr : Str → Except String Uri)
  (attempts : ℕ → TimedAttempt)

/-- The call of an attempt; a streaming body is there for the first one only. -/
def callAt (attempt : ℕ) : SendCall :=
  request.sendCall options (if attempt = 0 then request.streamBody else none)

/-- What becomes of an attempt. -/
def outcomeAt (attempt : ℕ) : AttemptOutcome :=
  (attempts attempt).outcome fromStr options.timeout (request.callAt options attempt)

/-- The requests of an attempt. -/
def requestsAt (attempt : ℕ) : List SentRequest :=
  (attempts attempt).requests fromStr (request.callAt options attempt)

/-- The middleware is told of the request. -/
def hooksBefore (middleware : ℕ) : List SendStep :=
  (List.range middleware).map fun i =>
    .beforeRequest i request.method request.uri request.headers

/-- The middleware is told of a response. -/
def hooksAfter (middleware elapsed : ℕ) : SendOutcome → List SendStep
  | .done (.ok resp) => (List.range middleware).map fun i => .afterResponse i resp.status elapsed
  | _ => []

/-- `RequestBuilder::send`, with all that is seen of it, the outcome and the time it takes. -/
def sendRun (middleware : ℕ) (overflowChecks : Bool) : List SendStep × SendOutcome × ℕ :=
  let run := request.send options (request.outcomeAt options fromStr attempts) overflowChecks
  let elapsed := timeOf options.timeout attempts 0 run.1
  (request.hooksBefore middleware ++ stepsOf fromStr attempts 0 run.1 ++
    hooksAfter middleware elapsed run.2, run.2, elapsed)

/-- The number of retries that are allowed. -/
def retriesAllowed : ℕ :=
  if request.streamBody.isSome then 0
  else (options.retryPolicy.map fun p => p.maxRetries.toNat).getD 0

/-! ### The loop without its recursion -/

variable (outcome : ℕ → AttemptOutcome)

/-- The events of a number of retries, from the delay after an attempt on. -/
def retryEvents (attempt again : ℕ) : List SendEvent :=
  (List.range again).flatMap fun k =>
    [.sleep (options.delay (attempt + k)), .call (request.sendCall options none)]

theorem retryEvents_succ (attempt again : ℕ) : request.retryEvents options attempt (again + 1) =
    .sleep (options.delay attempt) :: .call (request.sendCall options none) ::
      request.retryEvents options (attempt + 1) again := by
  rw [retryEvents, List.range_succ_eq_map, List.flatMap_cons, List.flatMap_map, retryEvents]
  simp only [Nat.succ_eq_add_one, Nat.add_zero, List.cons_append,
    List.nil_append, Nat.add_assoc, Nat.add_comm 1]

/-- What the loop does from an attempt on: it calls `send_inner`, and then sleeps and calls it again
a number of times. -/
theorem attempts_events {n attempt left : ℕ} (h : attempt + left + 1 = n) (slot : Option Body) :
    let run := request.attempts options outcome n (left + 1) attempt slot
    run.1 = .call (request.sendCall options slot) ::
      request.retryEvents options attempt ((callsOf run.1).length - 1) := by
  induction left generalizing attempt slot with
  | zero =>
      dsimp only
      rw [attempts]
      cases awaited options.timeout (outcome attempt) with
      | waiting => rfl
      | panicked => rfl
      | done result =>
          cases options.retryPolicy with
          | none => rfl
          | some policy =>
              dsimp only
              rw [if_neg (by omega)]
              rfl
  | succ left ih =>
      dsimp only at ih ⊢
      rw [attempts]
      cases awaited options.timeout (outcome attempt) with
      | waiting => rfl
      | panicked => rfl
      | done result =>
          cases hpolicy : options.retryPolicy with
          | none => rfl
          | some policy =>
              dsimp only
              split_ifs with hretried
              · have hrest := ih (show attempt + 1 + left + 1 = n by omega) none
                have hdelay : policy.backoffDelay attempt = options.delay attempt := by
                  rw [SendOptions.delay, hpolicy]
                  rfl
                have hpos := length_calls_pos request options outcome n left (attempt + 1) none
                obtain ⟨again, hagain⟩ := Nat.exists_eq_succ_of_ne_zero hpos.ne'
                rw [hagain] at hrest
                have hlength : (callsOf (.call (request.sendCall options slot) ::
                    .sleep (policy.backoffDelay attempt) ::
                    (request.attempts options outcome n (left + 1) (attempt + 1) none).1)).length
                      - 1 = again + 1 := hagain
                rw [hlength, retryEvents_succ, hdelay, hrest]
                rfl
              · rfl

/-! ### What is seen of the loop -/

variable {request options fromStr attempts}

theorem stepsOf_retryEvents (k again : ℕ) :
    stepsOf fromStr attempts (k + 1) (request.retryEvents options k again) =
      (List.range again).flatMap fun i => .slept (options.delay (k + i)) ::
        (request.requestsAt options fromStr attempts (k + i + 1)).map .sent := by
  induction again generalizing k with
  | zero => rfl
  | succ again ih =>
      have hcall : request.sendCall options none = request.callAt options (k + 1) := by
        rw [callAt, if_neg (Nat.succ_ne_zero k)]
      rw [retryEvents_succ, stepsOf, stepsOf, ih, List.range_succ_eq_map, List.flatMap_cons,
        List.flatMap_map, hcall]
      simp only [Nat.add_zero, Nat.succ_eq_add_one, Nat.add_assoc, Nat.add_comm 1]
      rfl

theorem timeOf_retryEvents {dur : ℕ} (k again : ℕ) :
    timeOf (some dur) attempts (k + 1) (request.retryEvents options k again) ≤
      again * dur + again * options.delayMax := by
  induction again generalizing k with
  | zero => exact Nat.zero_le _
  | succ again ih =>
      have htime : (attempts (k + 1)).time (some dur) ≤ dur := Nat.min_le_left _ _
      have hdelay := options.delay_le k
      have hrest := ih (k + 1)
      rw [retryEvents_succ, timeOf, timeOf, Nat.succ_mul, Nat.succ_mul]
      omega

/-- The number of attempts is computed without a wrap. -/
theorem toNat_maxAttempts_of_not_overflows (h : request.overflows options = false) :
    (request.maxAttempts options).toNat = request.retriesAllowed options + 1 := by
  cases hstream : request.streamBody.isSome with
  | true => simp [maxAttempts, retriesAllowed, hstream]
  | false =>
      cases hpolicy : options.retryPolicy with
      | none => simp [maxAttempts, retriesAllowed, hstream, hpolicy]
      | some policy =>
          have hmax : policy.maxRetries.toNat ≠ 2 ^ 32 - 1 := by
            simpa [overflows, hstream, hpolicy] using h
          rw [toNat_maxAttempts hstream hpolicy, if_neg hmax]
          simp [retriesAllowed, hstream, hpolicy]

/-- Or it wraps to zero. -/
theorem toNat_maxAttempts_of_overflows (h : request.overflows options = true) :
    (request.maxAttempts options).toNat = 0 := by
  cases hstream : request.streamBody.isSome with
  | true => simp [overflows, hstream] at h
  | false =>
      cases hpolicy : options.retryPolicy with
      | none => simp [overflows, hpolicy] at h
      | some policy =>
          have hmax : policy.maxRetries.toNat = 2 ^ 32 - 1 := by
            simpa [overflows, hstream, hpolicy] using h
          rw [toNat_maxAttempts hstream hpolicy, if_pos hmax]

/-! ### What is expected -/

variable (request options fromStr attempts)

/-- The steps of the loop with a number of retries. -/
def loopSteps (again : ℕ) : List SendStep :=
  (request.requestsAt options fromStr attempts 0).map .sent ++
    (List.range again).flatMap fun k => .slept (options.delay k) ::
      (request.requestsAt options fromStr attempts (k + 1)).map .sent

/-- What is expected of a `send`: the attempts that are made, what they begin with, and how much of
it there can be. -/
structure KeepsSend (middleware : ℕ) (steps : List SendStep) (outcome : SendOutcome)
    (elapsed : ℕ) : Prop where
  /-- Without a number of attempts there are none. -/
  unsent : request.overflows options = true → steps = request.hooksBefore middleware ∧
    ∀ resp, outcome ≠ .done (.ok resp)
  /-- Attempts are made until one is not retried or no more are allowed, with the delays of the
  policy in between, and the middleware is told of the response if there is one. -/
  made : request.overflows options = false → ∃ again ≤ request.retriesAllowed options,
    (∀ k < again, retried options (request.outcomeAt options fromStr attempts k) = true) ∧
    (again < request.retriesAllowed options →
      retried options (request.outcomeAt options fromStr attempts again) = false) ∧
    outcome = awaited options.timeout (request.outcomeAt options fromStr attempts again) ∧
    steps = request.hooksBefore middleware ++ request.loopSteps options fromStr attempts again ++
      hooksAfter middleware elapsed outcome
  /-- Each attempt begins with the request of the caller. -/
  afresh : ∀ k, ∀ r ∈ (request.requestsAt options fromStr attempts k).head?,
    r.method = request.method ∧ r.uri = request.uri ∧
    r.headers = requestHeaders options.config request.headers
      (jarCookie r.sentAt r.jar request.uri) ∧
    r.body = request.streamBody.getD (Body.fromBytes request.body)
  /-- The requests of all attempts are limited. -/
  budget : ∀ n, options.config.redirectPolicy.maxRedirects = some n →
    (sentIn steps).length ≤ (request.retriesAllowed options + 1) * (n + 1)
  /-- The delays do not get shorter, and there are not more of them than retries. -/
  delays : (sleptIn steps).length ≤ request.retriesAllowed options ∧
    (sleptIn steps).Pairwise (· ≤ ·) ∧ ∀ d ∈ sleptIn steps, d ≤ options.delayMax
  /-- With a timeout the time is limited as well. -/
  deadline : ∀ dur, options.timeout = some dur → elapsed ≤
    (request.retriesAllowed options + 1) * dur +
      request.retriesAllowed options * options.delayMax

variable {request options fromStr attempts}

theorem sentIn_append (steps steps' : List SendStep) :
    sentIn (steps ++ steps') = sentIn steps ++ sentIn steps' := List.filterMap_append

theorem sleptIn_append (steps steps' : List SendStep) :
    sleptIn (steps ++ steps') = sleptIn steps ++ sleptIn steps' := List.filterMap_append

theorem sentIn_map_sent (requests : List SentRequest) :
    sentIn (requests.map .sent) = requests ∧ sleptIn (requests.map .sent) = [] := by
  induction requests with
  | nil => exact ⟨rfl, rfl⟩
  | cons r requests ih => exact ⟨congrArg (r :: ·) ih.1, ih.2⟩

/-- The hooks neither send nor sleep. -/
theorem sentIn_hooks (middleware elapsed : ℕ) (outcome : SendOutcome) :
    (sentIn (request.hooksBefore middleware) = [] ∧
      sleptIn (request.hooksBefore middleware) = []) ∧
    sentIn (hooksAfter middleware elapsed outcome) = [] ∧
      sleptIn (hooksAfter middleware elapsed outcome) = [] := by
  refine ⟨?_, ?_⟩
  · constructor <;> exact List.filterMap_eq_nil_iff.2 (by simp [hooksBefore])
  · match outcome with
    | .done (.ok resp) =>
        constructor <;> exact List.filterMap_eq_nil_iff.2 (by simp [hooksAfter])
    | .done (.error e) => exact ⟨rfl, rfl⟩
    | .waiting => exact ⟨rfl, rfl⟩
    | .panicked => exact ⟨rfl, rfl⟩

/-- The requests and the delays of the loop. -/
theorem sentIn_loopSteps (again : ℕ) :
    sentIn (request.loopSteps options fromStr attempts again) =
      (List.range (again + 1)).flatMap (request.requestsAt options fromStr attempts) ∧
    sleptIn (request.loopSteps options fromStr attempts again) =
      (List.range again).map options.delay := by
  obtain ⟨hsent, hslept⟩ := sentIn_map_sent (request.requestsAt options fromStr attempts 0)
  rw [loopSteps, sentIn_append, sleptIn_append, hsent, hslept, List.range_succ_eq_map,
    List.flatMap_cons, List.flatMap_map]
  induction again with
  | zero => exact ⟨rfl, rfl⟩
  | succ again ih =>
      obtain ⟨ihsent, ihslept⟩ := ih
      have hihsent := List.append_cancel_left ihsent
      obtain ⟨hsent, hslept⟩ :=
        sentIn_map_sent (request.requestsAt options fromStr attempts (again + 1))
      rw [List.range_succ, List.flatMap_append, sentIn_append, hihsent, sleptIn_append,
        List.flatMap_append, List.map_append]
      constructor
      · refine congrArg _ (congrArg _ ?_)
        rw [List.flatMap_singleton, List.flatMap_singleton]
        exact hsent
      · rw [List.nil_append] at ihslept
        rw [List.nil_append, ihslept, List.flatMap_singleton]
        exact congrArg (fun l => _ ++ (options.delay again :: l)) hslept

/-- The first request of a run is made from the state it begins with. -/
theorem head?_sendLoop {config : SendConfig} {originalUri : Uri} {s : SendState} {hops : List Hop}
    {r : SentRequest} (h : r ∈ (sendLoop config fromStr originalUri s hops).1.head?) :
    ∃ pinned body hop, s.body.takeForHop = (.ok pinned, body) ∧ r = s.request config hop pinned := by
  cases hops with
  | nil => cases h
  | cons hop hops =>
      rcases take : s.body.takeForHop with ⟨taken, body⟩
      cases taken with
      | error e =>
          have hhop : sendHop config fromStr originalUri s hop = (none, .done (.error e)) := by
            rw [sendHop, take]
          rw [sendLoop_cons_of_done hhop] at h
          cases h
      | ok pinned =>
          refine ⟨pinned, body, hop, rfl, ?_⟩
          obtain ⟨result, hhop⟩ : ∃ result, sendHop config fromStr originalUri s hop =
              (some (s.request config hop pinned), result) :=
            ⟨_, sendHop_of_take config fromStr originalUri take hop⟩
          have hfirst : some (s.request config hop pinned) = some r := by
            cases result <;>
              · rw [sendLoop, hhop] at h
                exact h
          exact (Option.some.inj hfirst).symm

/-- Each attempt begins with the request of the caller. -/
theorem requestsAt_head? {k : ℕ} {r : SentRequest}
    (h : r ∈ (request.requestsAt options fromStr attempts k).head?) :
    r.method = request.method ∧ r.uri = request.uri ∧
    r.headers = requestHeaders options.config request.headers
      (jarCookie r.sentAt r.jar request.uri) ∧
    r.body = request.streamBody.getD (Body.fromBytes request.body) := by
  obtain ⟨pinned, body, hop, take, rfl⟩ := head?_sendLoop h
  refine ⟨rfl, rfl, rfl, ?_⟩
  change pinned = _
  dsimp only [callAt, sendCall] at take
  cases hstream : request.streamBody with
  | none =>
      simp only [hstream, Option.isSome_none, Bool.false_eq_true, if_false,
        OutgoingBody.takeForHop, Prod.mk.injEq, Except.ok.injEq] at take
      exact take.1.symm
  | some b =>
      simp only [hstream, Option.isSome_some, if_true] at take
      split_ifs at take with hk
      · simp only [OutgoingBody.takeForHop, Prod.mk.injEq, Except.ok.injEq] at take
        exact take.1.symm
      · -- the stream has been sent with the first attempt
        simp only [OutgoingBody.takeForHop, Prod.mk.injEq, reduceCtorEq, false_and] at take

/-- The requests of a number of attempts. -/
theorem length_flatMap_requestsAt {n : ℕ}
    (hpolicy : options.config.redirectPolicy.maxRedirects = some n) (made : ℕ) :
    ((List.range made).flatMap (request.requestsAt options fromStr attempts)).length ≤
      made * (n + 1) := by
  have hone : ∀ k, (request.requestsAt options fromStr attempts k).length ≤ n + 1 :=
    fun k => length_sendLoop_le hpolicy _ _ (Nat.zero_le _)
  rw [List.length_flatMap]
  have hsum := List.sum_le_card_nsmul ((List.range made).map fun k =>
    (request.requestsAt options fromStr attempts k).length) (n + 1) fun l hl => by
      obtain ⟨k, -, rfl⟩ := List.mem_map.1 hl
      exact hone k
  simpa using hsum

/-- The events of a `send` whose attempts can be counted. -/
theorem send_events (h : request.overflows options = false) (outcome : ℕ → AttemptOutcome)
    (overflowChecks : Bool) :
    ∃ again ≤ request.retriesAllowed options, (∀ k < again, retried options (outcome k) = true) ∧
      (again < request.retriesAllowed options → retried options (outcome again) = false) ∧
      request.send options outcome overflowChecks =
        (.call (request.sendCall options request.streamBody) ::
          request.retryEvents options 0 again, awaited options.timeout (outcome again)) := by
  have hn := toNat_maxAttempts_of_not_overflows h
  have hsend : request.send options outcome overflowChecks =
      request.attempts options outcome (request.retriesAllowed options + 1)
        (request.retriesAllowed options + 1) 0 request.streamBody := by
    rw [send, h, Bool.and_false, if_neg Bool.false_ne_true, hn]
  have hcount : 0 + request.retriesAllowed options + 1 = request.retriesAllowed options + 1 := by
    rw [Nat.zero_add]
  obtain ⟨hrun, hlast⟩ :=
    @attempts_run request options outcome _ 0 _ hcount request.streamBody
  have hevents := attempts_events request options outcome hcount request.streamBody
  dsimp only at hrun hlast hevents
  rw [← hsend] at hrun hlast hevents
  have hpos := hrun.pos
  have hle := hrun.le
  refine ⟨_, by omega, fun k hk => ?_, fun hlt => ?_, Prod.ext hevents ?_⟩
  · have hbefore := hrun.retried_before k (by omega)
    rwa [Nat.zero_add] at hbefore
  · have hstops := hrun.stops (by omega)
    rwa [Nat.zero_add] at hstops
  · rw [hlast, Nat.zero_add]

/-- Without a response the middleware is told nothing more. -/
theorem hooksAfter_eq_nil {outcome : SendOutcome} (h : ∀ resp, outcome ≠ .done (.ok resp))
    (middleware elapsed : ℕ) : hooksAfter middleware elapsed outcome = [] := by
  match outcome with
  | .done (.ok resp) => exact absurd rfl (h resp)
  | .done (.error _) => rfl
  | .waiting => rfl
  | .panicked => rfl

/-- Without a number of attempts nothing is sent. -/
theorem sendRun_of_overflows (h : request.overflows options = true) (middleware : ℕ)
    (overflowChecks : Bool) :
    ∃ outcome : SendOutcome, (∀ resp, outcome ≠ .done (.ok resp)) ∧
      request.sendRun options fromStr attempts middleware overflowChecks =
        (request.hooksBefore middleware, outcome, 0) := by
  have hzero := toNat_maxAttempts_of_overflows h
  obtain ⟨outcome, hfails, hsend⟩ : ∃ outcome : SendOutcome,
      (∀ resp, outcome ≠ .done (.ok resp)) ∧
      request.send options (request.outcomeAt options fromStr attempts) overflowChecks =
        ([], outcome) := by
    rw [send, h, hzero]
    cases overflowChecks with
    | true =>
        refine ⟨.panicked, fun resp hresp => ?_, rfl⟩
        cases hresp
    | false =>
        refine ⟨.done (.error _), fun resp hresp => ?_, rfl⟩
        cases hresp
  refine ⟨outcome, hfails, ?_⟩
  rw [sendRun, hsend]
  dsimp only
  rw [hooksAfter_eq_nil hfails, stepsOf, timeOf, List.append_nil, List.append_nil]

/-- With one, the loop is made with a number of retries. -/
theorem sendRun_of_not_overflows (h : request.overflows options = false) (middleware : ℕ)
    (overflowChecks : Bool) :
    ∃ again ≤ request.retriesAllowed options,
      (∀ k < again, retried options (request.outcomeAt options fromStr attempts k) = true) ∧
      (again < request.retriesAllowed options →
        retried options (request.outcomeAt options fromStr attempts again) = false) ∧
      let outcome := awaited options.timeout (request.outcomeAt options fromStr attempts again)
      let elapsed := (attempts 0).time options.timeout +
        timeOf options.timeout attempts 1 (request.retryEvents options 0 again)
      request.sendRun options fromStr attempts middleware overflowChecks =
        (request.hooksBefore middleware ++ request.loopSteps options fromStr attempts again ++
          hooksAfter middleware elapsed outcome, outcome, elapsed) := by
  obtain ⟨again, hle, hretried, hstops, hsend⟩ :=
    send_events h (request.outcomeAt options fromStr attempts) overflowChecks
  refine ⟨again, hle, hretried, hstops, ?_⟩
  have hloop : stepsOf fromStr attempts 0 (.call (request.sendCall options request.streamBody) ::
      request.retryEvents options 0 again) = request.loopSteps options fromStr attempts again := by
    rw [stepsOf, Nat.zero_add, ← Nat.zero_add 1, stepsOf_retryEvents]
    simp only [Nat.zero_add]
    rfl
  dsimp only
  rw [sendRun, hsend]
  dsimp only
  rw [hloop, timeOf, Nat.zero_add]

/-- **Every `send` is as expected**, whatever becomes of its attempts. -/
theorem keepsSend_sendRun (request : RequestBuilder) (options : SendOptions)
    (fromStr : Str → Except String Uri) (attempts : ℕ → TimedAttempt) (middleware : ℕ)
    (overflowChecks : Bool) :
    let run := request.sendRun options fromStr attempts middleware overflowChecks
    request.KeepsSend options fromStr attempts middleware run.1 run.2.1 run.2.2 := by
  dsimp only
  cases hoverflows : request.overflows options with
  | true =>
      obtain ⟨outcome, hfails, hrun⟩ := @sendRun_of_overflows request options fromStr attempts
        hoverflows middleware overflowChecks
      obtain ⟨⟨hsent, hslept⟩, -⟩ := @sentIn_hooks request middleware 0 outcome
      rw [hrun]
      exact
        { unsent := fun _ => ⟨rfl, hfails⟩
          made := fun h => by cases hoverflows.symm.trans h
          afresh := fun k r h => requestsAt_head? h
          budget := fun n _ => by
            dsimp only
            rw [hsent]
            exact Nat.zero_le _
          delays := by
            dsimp only
            rw [hslept]
            exact ⟨Nat.zero_le _, List.Pairwise.nil, fun d hd => by cases hd⟩
          deadline := fun _ _ => Nat.zero_le _ }
  | false =>
      obtain ⟨again, hle, hretried, hstops, hrun⟩ := @sendRun_of_not_overflows request options
        fromStr attempts hoverflows middleware overflowChecks
      dsimp only at hrun
      obtain ⟨⟨hbsent, hbslept⟩, hasent, haslept⟩ := @sentIn_hooks request middleware
        ((attempts 0).time options.timeout +
          timeOf options.timeout attempts 1 (request.retryEvents options 0 again))
        (awaited options.timeout (request.outcomeAt options fromStr attempts again))
      obtain ⟨hlsent, hlslept⟩ :=
        @sentIn_loopSteps request options fromStr attempts again
      rw [hrun]
      exact
        { unsent := fun h => by cases hoverflows.symm.trans h
          made := fun _ => ⟨again, hle, hretried, hstops, rfl, rfl⟩
          afresh := fun k r h => requestsAt_head? h
          budget := fun n hn => by
            dsimp only
            rw [sentIn_append, sentIn_append, hbsent, hlsent, hasent, List.append_nil,
              List.nil_append]
            calc _ ≤ (again + 1) * (n + 1) := length_flatMap_requestsAt hn (again + 1)
              _ ≤ (request.retriesAllowed options + 1) * (n + 1) :=
                Nat.mul_le_mul_right _ (Nat.succ_le_succ hle)
          delays := by
            dsimp only
            rw [sleptIn_append, sleptIn_append, hbslept, hlslept, haslept, List.append_nil,
              List.nil_append]
            refine ⟨by rwa [List.length_map, List.length_range], ?_, ?_⟩
            · rw [List.pairwise_map]
              exact List.pairwise_lt_range.imp fun hab => options.delay_mono hab.le
            · intro d hd
              obtain ⟨k, -, rfl⟩ := List.mem_map.1 hd
              exact options.delay_le k
          deadline := fun dur hdur => by
            have hfirst : (attempts 0).time options.timeout ≤ dur := by
              rw [hdur]
              exact Nat.min_le_left _ _
            have hrest := @timeOf_retryEvents request options attempts dur 0 again
            rw [Nat.zero_add, ← hdur] at hrest
            have htimes := Nat.mul_le_mul_right dur hle
            have hsleeps := Nat.mul_le_mul_right options.delayMax hle
            rw [Nat.succ_mul]
            dsimp only
            omega }

end RequestBuilder

end OxiHttp
