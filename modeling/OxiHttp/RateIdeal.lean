/-
**The rate limiter against ideal buckets.**

The buckets of a limiter are refilled when they are looked at, dropped when nobody has asked for a
while, and share one map.  None of this can be told from its answers when buckets fill within the
idle timeout and there is room for all keys: each key is answered as by a bucket of its own.

Main definitions:

* `OxiHttp.RateLimiter.ideal` — the answers of a bucket that serves one key and is never dropped.

Main results:

* `OxiHttp.RateLimiter.answers_log` — the simulation, from any limiter on;
* `OxiHttp.RateLimiter.log_eq_ideal` — each key is answered as by an ideal bucket.
-/

import OxiHttp.RateBound

set_option relaxedAutoImplicit false
set_option autoImplicit false

namespace OxiHttp

namespace RateLimiter

variable {l : RateLimiter}

/-- The seconds between two readings of the clock. -/
def secsBetween (t now : ℕ) : ℚ := asSecs (now - t)

theorem secsBetween_nonneg (t now : ℕ) : 0 ≤ secsBetween t now := asSecs_nonneg _

theorem secsBetween_self (t : ℕ) : secsBetween t t = 0 := by simp [secsBetween, asSecs]

theorem secsBetween_add {t₀ t now : ℕ} (h₀ : t₀ ≤ t) (h : t ≤ now) :
    secsBetween t₀ t + secsBetween t now = secsBetween t₀ now :=
  (asSecs_sub h₀ h).symm

/-- The answers of a bucket that is full at the beginning and is asked at these times. -/
def ideal (maxTokens : ℕ) (refillRate : ℚ) (times : List ℕ) : List Bool :=
  TokenLevel.answers secsBetween (maxTokens : ℚ) refillRate maxTokens 0 times

/-- The answers to the calls for a key. -/
def answersFor (key : Str) (entries : List LogEntry) : List Bool :=
  (entries.filter fun e => e.call.key = key).map LogEntry.granted

/-- The times at which a key is asked for. -/
def timesOf (key : Str) (calls : List Check) : List ℕ :=
  (calls.filter fun c => c.key = key).map Check.now

/-! ### The level of a key -/

/-- A call is answered from the level of its key, when no bucket has to make room and no sweep drops
one before it is full. -/
theorem Fits.check_fst {keys : Finset Str} {c : Check} (h : l.Fits keys) (hkey : c.key ∈ keys)
    (hkept : ¬ l.Forgets c.now c.key) :
    (l.check c).1 = (TokenLevel.take (l.level c.key c.now)).1 := by
  rw [RateLimiter.check, (h.sweep c.now).makeRoom hkey, take_fst, level_sweep, if_neg hkept]

/-! ### The simulation -/

/-- From a limiter on, a key is answered as by one bucket, which held `found` at `t₀` and has been
refilled to the level of the key since. -/
theorem answers_log (key : Str) {keys : Finset Str} {t₀ t : ℕ} {found : ℚ} {calls : List Check}
    (h : l.Sound t) (hfits : l.Fits keys) (hkeys : ∀ c ∈ calls, c.key ∈ keys)
    (hclock : calls.Pairwise fun c c' => c.now ≤ c'.now) (hfrom : ∀ c ∈ calls, t ≤ c.now)
    (hfast : (l.maxTokens : ℚ) ≤ l.refillRate * asSecs l.idleTimeout) (ht₀ : t₀ ≤ t)
    (hlevel : l.level key t
      = TokenLevel.refill (l.maxTokens : ℚ) l.refillRate found (secsBetween t₀ t)) :
    answersFor key (l.log calls)
      = TokenLevel.answers secsBetween (l.maxTokens : ℚ) l.refillRate found t₀
          (timesOf key calls) := by
  induction calls generalizing l t t₀ found with
  | nil => rfl
  | cons c calls ih =>
      obtain ⟨hfirst, hclock⟩ := List.pairwise_cons.1 hclock
      obtain ⟨hnow, hfrom⟩ := List.forall_mem_cons.1 hfrom
      obtain ⟨hkey, hkeys⟩ := List.forall_mem_cons.1 hkeys
      -- the level at the call, from the level of the ideal bucket
      have hcall : l.level key c.now
          = TokenLevel.refill (l.maxTokens : ℚ) l.refillRate found (secsBetween t₀ c.now) := by
        rw [h.level_refill hnow, ← secsBetween, hlevel,
          TokenLevel.refill_refill h.rate (secsBetween_nonneg _ _), secsBetween_add ht₀ hnow]
      have hafter := hfits.level_check hkey key
      rw [if_neg (h.not_forgets hfast key)] at hafter
      have ih := fun t₀ (found : ℚ) => @ih (l.check c).2 t₀ c.now found (h.check hnow)
        (hfits.check hkey) hkeys hclock hfirst (by simpa using hfast)
      simp only [check_maxTokens, check_refillRate] at ih
      by_cases heq : c.key = key
      · -- the call takes a token from both, or from neither
        have hanswer : (l.check c).1 = (TokenLevel.take (l.level key c.now)).1 := by
          rw [hfits.check_fst hkey (h.not_forgets hfast _), heq]
        have htaken : (l.check c).2.level key c.now
            = (TokenLevel.take (l.level key c.now)).2 := by
          rw [hafter, hanswer, TokenLevel.take_snd]
          simp [heq]
        have hle : (TokenLevel.take (l.level key c.now)).2 ≤ l.maxTokens :=
          le_trans (TokenLevel.take_snd_le _) (l.level_le key c.now)
        have hrest := ih c.now (TokenLevel.take (l.level key c.now)).2 le_rfl (by
          rw [htaken, secsBetween_self, TokenLevel.refill_zero _ hle])
        simp only [answersFor, log, timesOf, List.filter_cons, heq, decide_true, if_pos,
          List.map_cons, TokenLevel.answers, ← hcall, hanswer] at hrest ⊢
        rw [hrest]
      · -- the call of another key leaves the level where it is
        have hrest := ih t₀ found (le_trans ht₀ hnow) (by
          rw [hafter, if_neg (fun hc => heq hc.1), sub_zero, hcall])
        simpa [answersFor, log, timesOf, List.filter_cons, heq] using hrest

/-- A limiter without room for a token refuses every call. -/
theorem answersFor_of_maxTokens_zero (key : Str) (h : l.maxTokens = 0) (calls : List Check) :
    answersFor key (l.log calls) = (timesOf key calls).map fun _ => false := by
  induction calls generalizing l with
  | nil => rfl
  | cons c calls ih =>
      have hrest := ih (l := (l.check c).2) (by simpa using h)
      have hlevel : ((l.sweep c.now).makeRoom c.key c.first).level c.key c.now < 1 := by
        refine lt_of_le_of_lt (level_le _ _ _) ?_
        rw [makeRoom_maxTokens, sweep_maxTokens, h]
        exact zero_lt_one
      have hanswer : (l.check c).1 = false := by
        rw [check, take_fst, TokenLevel.take_of_lt hlevel]
      by_cases heq : c.key = key <;>
        simpa [answersFor, log, timesOf, List.filter_cons, heq, hanswer] using hrest

/-- When buckets fill within the idle timeout and there is room for all keys, each key is answered
as by an ideal bucket of its own. -/
theorem log_eq_ideal {maxTokens : ℕ} {refillRate : ℚ} {idleTimeout maxBuckets : ℕ}
    {calls : List Check} (hfast : (maxTokens : ℚ) ≤ refillRate * asSecs idleTimeout)
    (hclock : calls.Pairwise fun c c' => c.now ≤ c'.now)
    (hkeys : (calls.map Check.key).toFinset.card ≤ maxBuckets) (key : Str) :
    answersFor key ((withLimits maxTokens refillRate idleTimeout maxBuckets).log calls)
      = ideal maxTokens refillRate (timesOf key calls) := by
  have hmem : ∀ c ∈ calls, c.key ∈ (calls.map Check.key).toFinset := fun c hc =>
    List.mem_toFinset.2 (List.mem_map_of_mem hc)
  by_cases hmax : maxTokens = 0
  · rw [answersFor_of_maxTokens_zero key hmax, ideal,
      TokenLevel.answers_of_cap_lt _ (by simp [hmax])]
  · -- otherwise the rate is positive, as buckets fill at all
    have hrate : 0 ≤ refillRate := by
      have hpos : (0 : ℚ) < maxTokens := Nat.cast_pos.2 (Nat.pos_of_ne_zero hmax)
      exact (pos_of_mul_pos_left (lt_of_lt_of_le hpos hfast) (asSecs_nonneg _)).le
    exact answers_log key (sound_withLimits maxTokens hrate idleTimeout maxBuckets)
      (fits_withLimits maxTokens refillRate idleTimeout hkeys) hmem hclock
      (fun _ _ => Nat.zero_le _) hfast le_rfl
      (by
        rw [secsBetween_self]
        exact (TokenLevel.refill_zero refillRate (le_refl (maxTokens : ℚ))).symm)

/-- Three calls of a client in one second, with one of another client in between. -/
def twoClients : List Check :=
  [⟨"client-a".toList, 0, 0⟩, ⟨"client-a".toList, 0, 0⟩, ⟨"client-b".toList, 0, 0⟩,
    ⟨"client-a".toList, 500000000, 0⟩]

theorem log_eq_ideal_twoClients :
    answersFor "client-a".toList
        ((withLimits 2 1 defaultIdleTimeout defaultMaxBuckets).log twoClients)
      = [true, true, false] := by
  rw [log_eq_ideal (by norm_num [asSecs, defaultIdleTimeout]) (by decide) (by decide +kernel)]
  decide +kernel

end RateLimiter

end OxiHttp
