/-
**How many attempts there are.**

The loop of `RequestBuilder::send` makes attempts until one is not retried or the last one that the
policy allows is made.  Their number is `max_retries + 1`, and it is computed in `u32`: for the
greatest `max_retries` there is no such number, and the request is never sent.

Main definitions:

* `OxiHttp.AttemptRun` — a number of attempts that stops where it should;
* `OxiHttp.RequestBuilder.KeepsAttempts` — what is expected of the attempts.

Main results:

* `OxiHttp.RequestBuilder.attempts_run` — what the loop does from any attempt on.
-/

import OxiHttp.Retry

set_option relaxedAutoImplicit false
set_option autoImplicit false

namespace OxiHttp

/-- From an attempt on there are `made` attempts, with `left` more that were allowed after it: each
but the last is retried, and the last one only when it was the last allowed. -/
structure AttemptRun (retried : ℕ → Bool) (attempt left made : ℕ) : Prop where
  pos : 1 ≤ made
  le : made ≤ left + 1
  retried_before : ∀ i, i + 1 < made → retried (attempt + i) = true
  stops : made ≤ left → retried (attempt + (made - 1)) = false

namespace AttemptRun

variable {retried : ℕ → Bool} {attempt left made : ℕ}

/-- An attempt that is not retried, or that is the last one allowed. -/
theorem single (h : left = 0 ∨ retried attempt = false) : AttemptRun retried attempt left 1 where
  pos := le_rfl
  le := by omega
  retried_before := by
    intro i hi
    omega
  stops := by
    intro hle
    exact h.resolve_left (by omega)

/-- An attempt that is retried, and those after it. -/
theorem cons (h : retried attempt = true) (hrun : AttemptRun retried (attempt + 1) left made) :
    AttemptRun retried attempt (left + 1) (made + 1) where
  pos := by omega
  le := Nat.succ_le_succ hrun.le
  retried_before := by
    intro i hi
    cases i with
    | zero => exact h
    | succ i =>
        have := hrun.retried_before i (by omega)
        rwa [Nat.add_assoc, Nat.add_comm 1] at this
  stops := by
    intro hle
    have hpos := hrun.pos
    have := hrun.stops (by omega)
    rwa [show attempt + 1 + (made - 1) = attempt + (made + 1 - 1) by omega] at this

end AttemptRun

namespace RequestBuilder

variable (request : RequestBuilder) (options : SendOptions) (outcome : ℕ → AttemptOutcome)

/-- The attempts of a request whose body can be sent again: at least one and at most
`max_retries + 1`, up to the first that the policy does not retry; the outcome of the last one is
returned, and their number does not overflow. -/
def KeepsAttempts (policy : RetryPolicy) (overflowChecks : Bool) : Prop :=
  let made := (callsOf (request.send options outcome overflowChecks).1).length
  request.overflows options = false ∧
    AttemptRun (fun i => retried options (outcome i)) 0 policy.maxRetries.toNat made ∧
    (request.send options outcome overflowChecks).2 =
      awaited options.timeout (outcome (made - 1))

variable {request options outcome}

/-- From an attempt on, with `left` more allowed after it: the attempts that are made, and the
outcome of the last of them. -/
theorem attempts_run {n attempt left : ℕ} (h : attempt + left + 1 = n) (slot : Option Body) :
    let run := request.attempts options outcome n (left + 1) attempt slot
    AttemptRun (fun i => retried options (outcome i)) attempt left (callsOf run.1).length ∧
      run.2 = awaited options.timeout (outcome (attempt + ((callsOf run.1).length - 1))) := by
  induction left generalizing attempt slot with
  | zero =>
      have hstep := @attempts_succ request options outcome n 0 attempt slot
      dsimp only at hstep ⊢
      rw [if_neg (by omega)] at hstep
      rw [hstep.1, hstep.2]
      exact ⟨.single (.inl rfl), rfl⟩
  | succ left ih =>
      have hstep := @attempts_succ request options outcome n (left + 1) attempt slot
      obtain ⟨hrun, hlast⟩ := ih (show attempt + 1 + left + 1 = n by omega) none
      dsimp only at hstep hrun hlast ⊢
      split_ifs at hstep with hretried
      · rw [hstep.1, hstep.2, hlast]
        refine ⟨.cons hretried.2 hrun, ?_⟩
        have hpos := hrun.pos
        congr 2
        omega
      · rw [hstep.1, hstep.2]
        refine ⟨.single (.inr ?_), rfl⟩
        have hnot := fun h => hretried ⟨by omega, h⟩
        simpa using hnot

/-- **The attempts keep to the budget exactly when** the policy allows fewer retries than the
greatest number of 32 bits. -/
theorem keepsAttempts_iff (request : RequestBuilder) (options : SendOptions)
    (outcome : ℕ → AttemptOutcome) (overflowChecks : Bool)
    (hstream : request.streamBody.isSome = false) {policy : RetryPolicy}
    (hpolicy : options.retryPolicy = some policy) :
    request.KeepsAttempts options outcome policy overflowChecks ↔
      policy.maxRetries.toNat ≠ 2 ^ 32 - 1 := by
  have hoverflows : request.overflows options = true ↔ policy.maxRetries.toNat = 2 ^ 32 - 1 := by
    simp [overflows, hstream, hpolicy]
  constructor
  · rintro ⟨hno, -⟩ hmax
    rw [hoverflows.2 hmax] at hno
    cases hno
  · intro hmax
    have hno : request.overflows options = false := by simpa using mt hoverflows.1 hmax
    have hn := toNat_maxAttempts hstream hpolicy
    rw [if_neg hmax] at hn
    have hsend : request.send options outcome overflowChecks =
        request.attempts options outcome (policy.maxRetries.toNat + 1)
          (policy.maxRetries.toNat + 1) 0 request.streamBody := by
      rw [send, hno, Bool.and_false, if_neg (by simp), hn]
    obtain ⟨hrun, hlast⟩ := @attempts_run request options outcome (policy.maxRetries.toNat + 1) 0
      policy.maxRetries.toNat (by omega) request.streamBody
    rw [KeepsAttempts, hsend]
    rw [Nat.zero_add] at hlast
    exact ⟨hno, hrun, hlast⟩

/-- A server that is unavailable when first asked, and the default policy. -/
theorem keepsAttempts_default :
    plainRequest.KeepsAttempts defaultOptions flakyServer .default true :=
  (keepsAttempts_iff plainRequest defaultOptions flakyServer true rfl rfl).2 (by decide)

/-- A policy with the greatest number of retries. -/
def tirelessOptions : SendOptions := { defaultOptions with retryPolicy := some (.new 4294967295) }

/-- It makes no attempt. -/
theorem not_keepsAttempts_tireless :
    ¬ plainRequest.KeepsAttempts tirelessOptions flakyServer (.new 4294967295) false ∧
      (callsOf (plainRequest.send tirelessOptions flakyServer false).1).length = 0 := by
  refine ⟨fun h => ?_, by decide +kernel⟩
  have hpos := h.2.1.pos
  exact absurd hpos (by decide +kernel)

end RequestBuilder

end OxiHttp
