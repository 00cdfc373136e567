/-
**The limit on the rate of requests.**

The server asks the rate limiter about every request that is no preflight, under a key that tells
the clients apart, and refuses those that it does not grant.  So the bound of the limiter is a bound
of what reaches the router, whatever the requests ask for; and a client is answered as if it were
alone.

Main definitions:

* `OxiHttp.Arrival` — a request with its surroundings;
* `OxiHttp.MiddlewarePipeline.finds` — a run: the requests, and the pipeline each of them finds;
* `OxiHttp.MiddlewarePipeline.RateLimited` — what the limit comes to, for a client.

Main results:

* `OxiHttp.MiddlewarePipeline.preHandle_limited` — what becomes of one request;
* `OxiHttp.MiddlewarePipeline.rateLimited` — what becomes of the requests of a client in any run.
-/

import OxiHttp.Middleware
import OxiHttp.RateBound
import OxiHttp.RateIdeal

set_option relaxedAutoImplicit false
set_option autoImplicit false

namespace OxiHttp

/-- A request, with the surroundings it is handled in. -/
structure Arrival (E : Type) where
  env : Surroundings
  req : HttpRequest E

namespace MiddlewarePipeline

variable {E : Type}

/-! ### Runs -/

/-- The requests of a run, each with the pipeline it finds. -/
def finds : MiddlewarePipeline → List (Arrival E) → List (MiddlewarePipeline × Arrival E)
  | _, [] => []
  | p, a :: arrivals => (p, a) :: finds (p.preHandle a.env a.req).2 arrivals

/-- A dispatch leaves the pipeline as its checks have left it. -/
theorem dispatchWithMiddleware_snd {H : Type} (buildUri : Str → Except String Uri)
    (router : Router H E) (handle : H → Request E → Except Str HttpResponse)
    (insertLimit : BodyLimitConfig → E → E) (p : MiddlewarePipeline) (env : Surroundings)
    (req : HttpRequest E) :
    (dispatchWithMiddleware buildUri router handle insertLimit p env req).2 =
      (p.preHandle env req).2 := by
  unfold dispatchWithMiddleware
  split
  · rename_i heq
    rw [heq]
  · rename_i heq
    rw [heq]

/-- The limiter is not asked about a preflight. -/
def isPreflight (p : MiddlewarePipeline) (a : Arrival E) : Bool :=
  a.req.method = .options && p.cors.isSome

/-- The key of a request. -/
def keyOf (p : MiddlewarePipeline) (a : Arrival E) : Str :=
  rateLimitKey a.req.headers a.env.remoteIp p.trustForwardedFor

/-- A request is handed to the router. -/
def reachesRouter (p : MiddlewarePipeline) (a : Arrival E) : Bool :=
  (p.preHandle a.env a.req).1.isNone

/-- A request is refused for its rate. -/
def refuses (p : MiddlewarePipeline) (a : Arrival E) : Bool :=
  (p.preHandle a.env a.req).1 = some (some RateLimiter.tooManyRequests)

/-- How many requests with a key reach the router in an interval. -/
def reaching (p : MiddlewarePipeline) (key : Str) (t₀ t₁ : ℕ) (arrivals : List (Arrival E)) : ℕ :=
  (p.finds arrivals).countP fun x =>
    t₀ ≤ x.2.env.now ∧ x.2.env.now ≤ t₁ ∧ x.1.keyOf x.2 = key ∧ x.1.reachesRouter x.2

/-- The requests that the limiter is asked about. -/
def asked (p : MiddlewarePipeline) (arrivals : List (Arrival E)) :
    List (MiddlewarePipeline × Arrival E) :=
  (p.finds arrivals).filter fun x => !x.1.isPreflight x.2

/-- Those with a key. -/
def requestsOf (p : MiddlewarePipeline) (key : Str) (arrivals : List (Arrival E)) :
    List (MiddlewarePipeline × Arrival E) :=
  (p.asked arrivals).filter fun x => x.1.keyOf x.2 = key

/-- The calls of the limiter in a run. -/
def checks (p : MiddlewarePipeline) (arrivals : List (Arrival E)) : List Check :=
  (arrivals.filter fun a => !p.isPreflight a).map fun a => p.checkOf a.env a.req.headers

/-! ### One request -/

variable {p : MiddlewarePipeline} {l : RateLimiter} {a : Arrival E}

theorem tooManyRequests_ne_textResponse (text : Str) :
    textResponse 413 text ≠ RateLimiter.tooManyRequests := by
  intro h
  exact absurd (congrArg HttpResponse.status h) (show (413 : ℕ) ≠ 429 by decide)

/-- A body that is too long is not the rate. -/
theorem map_checkBody_ne (headers : HeaderMap) :
    (p.checkBody headers).map some ≠ some (some RateLimiter.tooManyRequests) := by
  intro h
  obtain ⟨resp, hresp, heq⟩ := Option.map_eq_some_iff.1 h
  obtain ⟨limit, -, hlimit⟩ := Option.bind_eq_some_iff.1 hresp
  split at hlimit <;> cases hlimit
  exact tooManyRequests_ne_textResponse _ (Option.some.inj heq)

theorem preHandle_preflight (h : p.isPreflight a = true) :
    (p.preHandle a.env a.req).2 = p ∧ p.reachesRouter a = false := by
  obtain ⟨hmethod, hcors⟩ := Bool.and_eq_true_iff.1 h
  obtain ⟨cors, hcors⟩ := Option.isSome_iff_exists.1 hcors
  have hpre : p.preHandle a.env a.req =
      (some (cors.preflightResponse a.env.debugAssertions (originOf a.req.headers)), p) := by
    rw [preHandle, if_pos (of_decide_eq_true hmethod), hcors]
  rw [reachesRouter, hpre]
  exact ⟨rfl, rfl⟩

/-- The limiter is asked about any other request. -/
theorem preHandle_eq (hlimiter : p.rateLimiter = some l) (h : p.isPreflight a = false) :
    p.preHandle a.env a.req =
      (if (l.check (p.checkOf a.env a.req.headers)).1 then (p.checkBody a.req.headers).map some
        else some (some RateLimiter.tooManyRequests),
        { p with rateLimiter := some (l.check (p.checkOf a.env a.req.headers)).2 }) := by
  have hnone : (if a.req.method = .options then p.cors else none) = none := by
    split_ifs with hmethod
    · simpa [isPreflight, hmethod] using h
    · rfl
  rw [preHandle, hnone, hlimiter]
  dsimp only
  split_ifs <;> rfl

/-- A request that is no preflight is refused when it is not granted. -/
theorem preHandle_limited (hlimiter : p.rateLimiter = some l) (h : p.isPreflight a = false) :
    (p.preHandle a.env a.req).2 =
        { p with rateLimiter := some (l.check (p.checkOf a.env a.req.headers)).2 } ∧
      p.refuses a = !(l.check (p.checkOf a.env a.req.headers)).1 ∧
      (p.reachesRouter a = true → (l.check (p.checkOf a.env a.req.headers)).1 = true) := by
  rw [refuses, reachesRouter, preHandle_eq hlimiter h]
  refine ⟨rfl, ?_⟩
  cases (l.check (p.checkOf a.env a.req.headers)).1 with
  | true => exact ⟨decide_eq_false (map_checkBody_ne a.req.headers), fun _ => rfl⟩
  | false => exact ⟨rfl, nofun⟩

/-! ### Any number of requests -/

/-- The call of the limiter for a request, and its answer. -/
def entryOf (x : MiddlewarePipeline × Arrival E) : LogEntry where
  limiter := x.1.rateLimiter.getD (.new 0 0)
  call := x.1.checkOf x.2.env x.2.req.headers
  granted := !x.1.refuses x.2

/-- The calls of the limiter are those for the requests. -/
theorem log_checks (hlimiter : p.rateLimiter = some l) (arrivals : List (Arrival E)) :
    l.log (p.checks arrivals) = (p.asked arrivals).map entryOf := by
  induction arrivals generalizing p l with
  | nil => rfl
  | cons a arrivals ih =>
      rw [asked, finds]
      cases hpre : p.isPreflight a with
      | true =>
          have hchecks : p.checks (a :: arrivals) = p.checks arrivals := by
            rw [checks, List.filter_cons_of_neg (by simp [hpre]), ← checks]
          rw [List.filter_cons_of_neg (by simp [hpre]), (preHandle_preflight hpre).1, hchecks]
          exact ih hlimiter
      | false =>
          obtain ⟨hafter, hrefuses, -⟩ := preHandle_limited hlimiter hpre
          have hchecks : p.checks (a :: arrivals) =
              p.checkOf a.env a.req.headers :: p.checks arrivals := by
            rw [checks, List.filter_cons_of_pos (by simp [hpre]), List.map_cons, ← checks]
          have hentry : entryOf (p, a) = ⟨l, p.checkOf a.env a.req.headers,
              (l.check (p.checkOf a.env a.req.headers)).1⟩ := by
            rw [entryOf, hlimiter, hrefuses, Bool.not_not]
            rfl
          rw [List.filter_cons_of_pos (by simp [hpre]), hafter, hchecks, RateLimiter.log,
            List.map_cons, hentry]
          exact congrArg _ (@ih { p with
            rateLimiter := some (l.check (p.checkOf a.env a.req.headers)).2 } _ rfl)

theorem call_log (l : RateLimiter) (calls : List Check) : (l.log calls).map LogEntry.call = calls := by
  induction calls generalizing l with
  | nil => rfl
  | cons c calls ih => rw [RateLimiter.log, List.map_cons, ih]

/-- What reaches the router has been granted. -/
theorem reaching_le_granted (hlimiter : p.rateLimiter = some l) (key : Str) (t₀ t₁ : ℕ)
    (arrivals : List (Arrival E)) :
    p.reaching key t₀ t₁ arrivals ≤ RateLimiter.granted key t₀ t₁ (l.log (p.checks arrivals)) := by
  rw [RateLimiter.granted, log_checks hlimiter, List.countP_map, asked, List.countP_filter,
    reaching]
  refine List.countP_mono_left fun x _ hx => ?_
  obtain ⟨h₀, h₁, hkey, hreaches⟩ := of_decide_eq_true hx
  have hpre : x.1.isPreflight x.2 = false := by
    by_contra hpre
    rw [(preHandle_preflight (Bool.not_eq_false _ ▸ hpre)).2] at hreaches
    cases hreaches
  have hrefuses : x.1.refuses x.2 = false := by
    rw [reachesRouter, Option.isNone_iff_eq_none] at hreaches
    rw [refuses, hreaches]
    rfl
  simp [entryOf, checkOf, hpre, hrefuses, h₀, h₁, ← hkey, keyOf]

/-- What the limit comes to for the requests with a key: the ones that reach the router in an
interval are at most the tokens of a bucket and those refilled meanwhile, and the ones that are no
preflights are refused as by a bucket that no other key is asked of. -/
structure RateLimited (maxTokens : ℕ) (refillRate : ℚ) (p : MiddlewarePipeline)
    (arrivals : List (Arrival E)) (key : Str) : Prop where
  bound : ∀ t₀ t₁, t₀ ≤ t₁ →
    (p.reaching key t₀ t₁ arrivals : ℚ) ≤ maxTokens + refillRate * asSecs (t₁ - t₀)
  alone : (p.requestsOf key arrivals).map (fun x => !x.1.refuses x.2) =
    RateLimiter.ideal maxTokens refillRate ((p.requestsOf key arrivals).map fun x => x.2.env.now)

/-- The answers and the times of the requests with a key are those of the calls for it. -/
theorem map_requestsOf (hlimiter : p.rateLimiter = some l) (key : Str)
    (arrivals : List (Arrival E)) :
    (p.requestsOf key arrivals).map (fun x => !x.1.refuses x.2) =
        RateLimiter.answersFor key (l.log (p.checks arrivals)) ∧
      (p.requestsOf key arrivals).map (fun x => x.2.env.now) =
        RateLimiter.timesOf key (p.checks arrivals) := by
  have hlog := log_checks hlimiter arrivals
  constructor
  · rw [RateLimiter.answersFor, hlog, List.filter_map, List.map_map]
    rfl
  · rw [RateLimiter.timesOf, ← call_log l (p.checks arrivals), hlog, List.map_map,
      List.filter_map, List.map_map]
    rfl

/-- **The rate of a client is limited, in any run**, by its own requests alone. -/
theorem rateLimited {maxTokens : ℕ} {refillRate : ℚ} {idleTimeout maxBuckets : ℕ}
    (hlimiter : p.rateLimiter = some (.withLimits maxTokens refillRate idleTimeout maxBuckets))
    (hrate : 0 ≤ refillRate) (hfast : (maxTokens : ℚ) ≤ refillRate * asSecs idleTimeout)
    {arrivals : List (Arrival E)} (hclock : arrivals.Pairwise fun a a' => a.env.now ≤ a'.env.now)
    (hkeys : (arrivals.map p.keyOf).toFinset.card ≤ maxBuckets) (key : Str) :
    p.RateLimited maxTokens refillRate arrivals key := by
  have hsound := RateLimiter.sound_withLimits maxTokens hrate idleTimeout maxBuckets
  have hmem : ∀ c ∈ p.checks arrivals, c.key ∈ (arrivals.map p.keyOf).toFinset := by
    intro c hc
    obtain ⟨a, ha, rfl⟩ := List.mem_map.1 hc
    exact List.mem_toFinset.2 (List.mem_map_of_mem (List.mem_of_mem_filter ha))
  have hfits := RateLimiter.fits_withLimits maxTokens refillRate idleTimeout hkeys
  have hcalls : (p.checks arrivals).Pairwise fun c c' => c.now ≤ c'.now :=
    List.pairwise_map.2 (hclock.filter _)
  obtain ⟨hanswers, htimes⟩ := map_requestsOf hlimiter key arrivals
  constructor
  · intro t₀ t₁ ht
    have hle := reaching_le_granted hlimiter key t₀ t₁ arrivals
    have hbound := @RateLimiter.granted_le_maxTokens _ _ key t₀ t₁ 0 _ hsound hfits hmem hcalls
      (fun _ _ => Nat.zero_le _) (Nat.zero_le _) ht
    have hzero := @RateLimiter.forgotten_eq_zero _ key t₀ t₁ 0 _ hsound hcalls
      (fun _ _ => Nat.zero_le _) hfast
    rw [hzero, Nat.cast_zero, mul_zero, add_zero] at hbound
    rw [mul_comm]
    exact (Nat.cast_le.2 hle).trans hbound
  · rw [hanswers, htimes]
    refine RateLimiter.answers_log key hsound hfits hmem hcalls (fun _ _ => Nat.zero_le _) hfast
      le_rfl ?_
    rw [RateLimiter.secsBetween_self]
    exact (TokenLevel.refill_zero refillRate (le_refl (maxTokens : ℚ))).symm

/-- A server that grants one request in a second to each client. -/
def slowPipeline : MiddlewarePipeline where
  cors := some (.withOrigins ["https://app.test".toList])
  rateLimiter := some (.withLimits 1 1 1000000000 10)

/-- Two requests and a preflight of one client, with one of another client in between. -/
def burst : List (Arrival Unit) :=
  [⟨quietSurroundings, crossOriginRequest .get []⟩,
    ⟨{ quietSurroundings with remoteIp := "10.0.0.2".toList }, crossOriginRequest .get []⟩,
    ⟨quietSurroundings, crossOriginRequest .options []⟩,
    ⟨{ quietSurroundings with now := 500000000 }, crossOriginRequest .get []⟩]

theorem rateLimited_burst : slowPipeline.RateLimited 1 1 burst "10.0.0.1".toList :=
  rateLimited rfl zero_le_one (by norm_num [asSecs]) (by decide) (by decide +kernel) _

end MiddlewarePipeline

end OxiHttp
