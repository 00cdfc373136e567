/-
**The bound of the rate limiter.**

How many calls of a key are granted in an interval of time.  Every token that is taken was in the
bucket at the beginning, has been refilled since, or comes with a bucket that replaces one which a
sweep dropped before it was full.

Main definitions:

* `OxiHttp.RateLimiter.granted`, `OxiHttp.RateLimiter.forgotten` — the calls that are granted in an
  interval, and the sweeps that drop a bucket which is not full.

Main results:

* `OxiHttp.RateLimiter.granted_le_level` — the bound, from the level at the beginning;
* `OxiHttp.RateLimiter.granted_le` — the bound of a limiter and any interval.
-/

import Mathlib.Tactic.Positivity
import OxiHttp.RateLimiter

set_option relaxedAutoImplicit false
set_option autoImplicit false

namespace OxiHttp

namespace RateLimiter

variable {l : RateLimiter}

/-! ### Series of calls -/

/-- The calls for the key that were granted in an interval. -/
def granted (key : Str) (t₀ t₁ : ℕ) (entries : List LogEntry) : ℕ :=
  entries.countP fun e => t₀ ≤ e.call.now ∧ e.call.now ≤ t₁ ∧ e.call.key = key ∧ e.granted

/-- The sweeps of an interval that dropped the bucket of the key before it was full. -/
def forgotten (key : Str) (t₀ t₁ : ℕ) (entries : List LogEntry) : ℕ :=
  entries.countP fun e => t₀ ≤ e.call.now ∧ e.call.now ≤ t₁ ∧ e.limiter.Forgets e.call.now key

theorem call_mem_of_mem_log {calls : List Check} {e : LogEntry} (h : e ∈ l.log calls) :
    e.call ∈ calls := by
  induction calls generalizing l with
  | nil => cases h
  | cons c calls ih =>
      rw [log, List.mem_cons] at h
      rcases h with rfl | h
      · exact List.mem_cons_self
      · exact List.mem_cons_of_mem _ (ih h)

/-- Calls after an interval do not count in it. -/
theorem granted_after {key : Str} {t₀ t₁ : ℕ} {calls : List Check} (h : ∀ c ∈ calls, t₁ < c.now) :
    granted key t₀ t₁ (l.log calls) = 0 := by
  rw [granted, List.countP_eq_zero]
  intro e he
  have := h e.call (call_mem_of_mem_log he)
  simp only [decide_eq_true_eq]
  omega

/-- The bound of the calls from a time of the interval on: every token that is taken was there, has
been refilled since, or comes with a bucket that replaces a forgotten one. -/
theorem granted_le_level (key : Str) {keys : Finset Str} {t₀ t₁ t : ℕ} {calls : List Check}
    (h : l.Sound t) (hfits : l.Fits keys) (hkeys : ∀ c ∈ calls, c.key ∈ keys)
    (hclock : calls.Pairwise fun c c' => c.now ≤ c'.now) (hfrom : ∀ c ∈ calls, t ≤ c.now)
    (ht₀ : t₀ ≤ t) (ht₁ : t ≤ t₁) :
    (granted key t₀ t₁ (l.log calls) : ℚ) ≤ l.level key t + asSecs (t₁ - t) * l.refillRate +
      l.maxTokens * forgotten key t₀ t₁ (l.log calls) := by
  induction calls generalizing l t with
  | nil =>
      have := h.level_nonneg key t
      have := mul_nonneg (asSecs_nonneg (t₁ - t)) h.rate
      simp only [log, granted, forgotten, List.countP_nil, Nat.cast_zero, mul_zero, add_zero]
      linarith
  | cons c calls ih =>
      obtain ⟨hfirst, hclock⟩ := List.pairwise_cons.1 hclock
      obtain ⟨hnow, hfrom⟩ := List.forall_mem_cons.1 hfrom
      by_cases hin : c.now ≤ t₁
      · have ih := ih (h.check hnow) (hfits.check (hkeys c List.mem_cons_self))
          (fun c' hc' => hkeys c' (List.mem_cons_of_mem _ hc')) hclock hfirst
          (le_trans ht₀ hnow) hin
        have hstep := hfits.level_check (hkeys c List.mem_cons_self) key
        have hlater := h.level_later hnow key
        have hnonneg := h.level_nonneg key c.now
        have hmax : (0 : ℚ) ≤ l.maxTokens := Nat.cast_nonneg _
        have htime := asSecs_sub hnow hin
        have hboth : t₀ ≤ c.now ∧ c.now ≤ t₁ := ⟨le_trans ht₀ hnow, hin⟩
        rw [hstep, check_maxTokens, check_refillRate] at ih
        rw [granted, forgotten, log, List.countP_cons, List.countP_cons, ← granted, ← forgotten]
        simp only [hboth, true_and, decide_eq_true_eq]
        push_cast
        rw [htime, add_mul]
        -- A token that is granted has left the level, and a forgotten bucket is paid for in full.
        split_ifs at ih ⊢ <;> linarith
      · have hzero : granted key t₀ t₁ (l.log (c :: calls)) = 0 :=
          granted_after (List.forall_mem_cons.2 ⟨Nat.lt_of_not_le hin,
            fun c' hc' => lt_of_lt_of_le (Nat.lt_of_not_le hin) (hfirst c' hc')⟩)
        have := h.level_nonneg key t
        have := mul_nonneg (asSecs_nonneg (t₁ - t)) h.rate
        rw [hzero]
        positivity

/-- The bound of an interval, from a limiter that has been called up to its beginning. -/
theorem granted_le_maxTokens {keys : Finset Str} {key : Str} {t₀ t₁ t : ℕ} {calls : List Check}
    (h : l.Sound t) (hfits : l.Fits keys) (hkeys : ∀ c ∈ calls, c.key ∈ keys)
    (hclock : calls.Pairwise fun c c' => c.now ≤ c'.now) (hfrom : ∀ c ∈ calls, t ≤ c.now)
    (ht₀ : t ≤ t₀) (ht₁ : t₀ ≤ t₁) :
    (granted key t₀ t₁ (l.log calls) : ℚ) ≤ l.maxTokens + asSecs (t₁ - t₀) * l.refillRate +
      l.maxTokens * forgotten key t₀ t₁ (l.log calls) := by
  induction calls generalizing l t with
  | nil =>
      have := mul_nonneg (asSecs_nonneg (t₁ - t₀)) h.rate
      simp only [log, granted, forgotten, List.countP_nil, Nat.cast_zero, mul_zero, add_zero]
      positivity
  | cons c calls ih =>
      by_cases hin : t₀ ≤ c.now
      · have hall : ∀ c' ∈ c :: calls, t₀ ≤ c'.now := List.forall_mem_cons.2
          ⟨hin, fun c' hc' => le_trans hin ((List.pairwise_cons.1 hclock).1 c' hc')⟩
        have hbound := granted_le_level key (h.mono ht₀) hfits hkeys hclock hall le_rfl ht₁
        have hlevel := l.level_le key t₀
        linarith
      · obtain ⟨hfirst, hclock⟩ := List.pairwise_cons.1 hclock
        obtain ⟨hnow, hfrom⟩ := List.forall_mem_cons.1 hfrom
        have ih := ih (h.check hnow) (hfits.check (hkeys c List.mem_cons_self))
          (fun c' hc' => hkeys c' (List.mem_cons_of_mem _ hc')) hclock hfirst
          (Nat.le_of_not_le hin)
        rw [check_maxTokens, check_refillRate] at ih
        rw [granted, forgotten, log, List.countP_cons_of_neg (by simp [hin]),
          List.countP_cons_of_neg (by simp [hin])]
        exact ih

/-- A bucket that is filled within the idle timeout is full when it is dropped. -/
theorem Sound.not_forgets {t now : ℕ} (h : l.Sound t)
    (hfast : (l.maxTokens : ℚ) ≤ l.refillRate * asSecs l.idleTimeout) (key : Str) :
    ¬ l.Forgets now key := by
  rintro ⟨hmem, hgone, hlt⟩
  rcases lookup_sweep l now key with heq | ⟨-, b, hb, hidle⟩
  · rw [← AList.lookup_isSome, ← heq, AList.lookup_isSome] at hmem
    exact hgone hmem
  · have hfull : (l.maxTokens : ℚ) ≤ b.tokens + asSecs (now - b.lastRefill) * l.refillRate := by
      have h₁ := mul_le_mul_of_nonneg_left (asSecs_mono hidle) h.rate
      have h₂ := (h.tokens key b hb).1
      linarith
    rw [level, hb] at hlt
    simp only at hlt
    rw [TokenLevel.refill_eq_cap hfull] at hlt
    exact lt_irrefl _ hlt

/-- And so nothing is forgotten in a whole series of calls. -/
theorem forgotten_eq_zero {key : Str} {t₀ t₁ t : ℕ} {calls : List Check} (h : l.Sound t)
    (hclock : calls.Pairwise fun c c' => c.now ≤ c'.now) (hfrom : ∀ c ∈ calls, t ≤ c.now)
    (hfast : (l.maxTokens : ℚ) ≤ l.refillRate * asSecs l.idleTimeout) :
    forgotten key t₀ t₁ (l.log calls) = 0 := by
  induction calls generalizing l t with
  | nil => rfl
  | cons c calls ih =>
      obtain ⟨hfirst, hclock⟩ := List.pairwise_cons.1 hclock
      obtain ⟨hnow, hfrom⟩ := List.forall_mem_cons.1 hfrom
      have ih := ih (h.check hnow) hclock hfirst (by simpa using hfast)
      rw [forgotten, log, List.countP_cons_of_neg (by simp [h.not_forgets hfast])]
      exact ih

theorem fits_withLimits (maxTokens : ℕ) (refillRate : ℚ) (idleTimeout : ℕ) {maxBuckets : ℕ}
    {keys : Finset Str} (hkeys : keys.card ≤ maxBuckets) :
    (withLimits maxTokens refillRate idleTimeout maxBuckets).Fits keys where
  room := le_trans hkeys (le_max_left _ _)
  known _ h := nomatch h

/-- Within an interval a key is granted the capacity of a bucket, what is refilled meanwhile, and
once more the capacity for each sweep that drops its bucket before it is full; there is no such
sweep when buckets fill within the idle timeout. -/
theorem granted_le {maxTokens : ℕ} {refillRate : ℚ} {idleTimeout maxBuckets : ℕ}
    {calls : List Check} (hrate : 0 ≤ refillRate)
    (hclock : calls.Pairwise fun c c' => c.now ≤ c'.now)
    (hkeys : (calls.map Check.key).toFinset.card ≤ maxBuckets) (key : Str) {t₀ t₁ : ℕ}
    (ht : t₀ ≤ t₁) :
    let entries := (withLimits maxTokens refillRate idleTimeout maxBuckets).log calls
    (granted key t₀ t₁ entries : ℚ) ≤ maxTokens + refillRate * asSecs (t₁ - t₀) +
        maxTokens * forgotten key t₀ t₁ entries ∧
      (maxTokens ≤ refillRate * asSecs idleTimeout →
        (granted key t₀ t₁ entries : ℚ) ≤ maxTokens + refillRate * asSecs (t₁ - t₀)) := by
  intro entries
  have hsound := sound_withLimits maxTokens hrate idleTimeout maxBuckets
  have hmem : ∀ c ∈ calls, c.key ∈ (calls.map Check.key).toFinset := fun c hc =>
    List.mem_toFinset.2 (List.mem_map_of_mem hc)
  have hbound : (granted key t₀ t₁ entries : ℚ) ≤ maxTokens + refillRate * asSecs (t₁ - t₀) +
      maxTokens * forgotten key t₀ t₁ entries := by
    rw [mul_comm refillRate]
    exact granted_le_maxTokens hsound (fits_withLimits maxTokens refillRate idleTimeout hkeys) hmem
      hclock (fun _ _ => Nat.zero_le _) (Nat.zero_le _) ht
  refine ⟨hbound, fun hfast => ?_⟩
  have hzero : forgotten key t₀ t₁ entries = 0 :=
    forgotten_eq_zero hsound hclock (fun _ _ => Nat.zero_le _) hfast
  rw [hzero, Nat.cast_zero, mul_zero, add_zero] at hbound
  exact hbound

/-- The default limits with two tokens and no refill: 255 calls at one instant, and one after the
idle timeout. -/
def returningClient : List Check :=
  List.replicate 255 ⟨"client-a".toList, 0, 0⟩ ++ [⟨"client-a".toList, defaultIdleTimeout, 0⟩]

theorem returningClient_clock : returningClient.Pairwise fun c c' => c.now ≤ c'.now := by
  decide +kernel

theorem returningClient_keys :
    (returningClient.map Check.key).toFinset.card ≤ defaultMaxBuckets := by
  decide +kernel

theorem granted_le_returningClient :
    let entries := (withLimits 2 0 defaultIdleTimeout defaultMaxBuckets).log returningClient
    (granted "client-a".toList 0 defaultIdleTimeout entries : ℚ) ≤
        (2 : ℕ) + 0 * asSecs (defaultIdleTimeout - 0) +
          (2 : ℕ) * forgotten "client-a".toList 0 defaultIdleTimeout entries ∧
      ((2 : ℕ) ≤ 0 * asSecs defaultIdleTimeout →
        (granted "client-a".toList 0 defaultIdleTimeout entries : ℚ) ≤
          (2 : ℕ) + 0 * asSecs (defaultIdleTimeout - 0)) :=
  granted_le le_rfl returningClient_clock returningClient_keys "client-a".toList (Nat.zero_le _)

/-- The third token is granted although nothing has been refilled. -/
theorem not_granted_le_returningClient :
    ¬ ((granted "client-a".toList 0 defaultIdleTimeout ((new 2 0).log returningClient) : ℚ) ≤
      (2 : ℕ) + 0 * asSecs (defaultIdleTimeout - 0)) := by
  have hthree :
      granted "client-a".toList 0 defaultIdleTimeout ((new 2 0).log returningClient) = 3 := by
    decide +kernel
  rw [hthree, zero_mul, add_zero]
  norm_num

end RateLimiter

end OxiHttp
