/-
**The rate limiter.**

`RateLimiter::check` looks up the bucket of a key, refills it for the time since it was last looked
at, and takes a token.  Every 256 calls the buckets that nobody has asked about for a while are
dropped, and at capacity some bucket makes room for that of a new key; a key without a bucket gets
a full one.

Instants and durations are nanoseconds, and tokens are exact.  Which key a walk of the hash map
gives first is up to the map: each call says which one it is.

Main definitions:

* `OxiHttp.TokenBucket`, `OxiHttp.RateLimiter` — the buckets and the limiter;
* `OxiHttp.RateLimiter.check` — one call;
* `OxiHttp.RateLimiter.log` — a series of calls, with the limiter that each of them finds;
* `OxiHttp.RateLimiter.level` — the tokens that a key would find at a moment.

Main results:

* `OxiHttp.RateLimiter.Sound.check` — what every call keeps;
* `OxiHttp.RateLimiter.level_check` — what a call does to the levels of all keys.
-/

import Mathlib.Algebra.Order.Ring.Unbundled.Rat
import Mathlib.Data.Finset.Card
import Mathlib.Data.List.AList
import OxiHttp.Text
import OxiHttp.TokenLevel

set_option relaxedAutoImplicit false
set_option autoImplicit false

namespace OxiHttp

/-! ### The limiter -/

/-- `Duration::as_secs_f64`. -/
def asSecs (ns : ℕ) : ℚ := ns / 1000000000

structure TokenBucket where
  tokens : ℚ
  lastRefill : ℕ

/-- The buckets by key. -/
abbrev Buckets : Type := AList fun _ : Str => TokenBucket

/-- `HashMap::retain`. -/
def Buckets.retain (keep : TokenBucket → Bool) (bs : Buckets) : Buckets :=
  ⟨bs.entries.filter fun e => keep e.2, bs.nodupKeys.sublist List.filter_sublist⟩

structure RateLimiter where
  buckets : Buckets
  maxTokens : ℕ
  /-- Tokens per second. -/
  refillRate : ℚ
  idleTimeout : ℕ
  maxBuckets : ℕ
  checksSinceSweep : ℕ

/-- A call of `check`: its key, the reading of the clock, and which key a walk of the map would give
first. -/
structure Check where
  key : Str
  now : ℕ
  first : ℕ

namespace RateLimiter

def defaultIdleTimeout : ℕ := 300 * 1000000000

def defaultMaxBuckets : ℕ := 100000

def sweepInterval : ℕ := 256

def withLimits (maxTokens : ℕ) (refillRate : ℚ) (idleTimeout maxBuckets : ℕ) : RateLimiter where
  buckets := ∅
  maxTokens := maxTokens
  refillRate := refillRate
  idleTimeout := idleTimeout
  maxBuckets := max maxBuckets 1
  checksSinceSweep := 0

def new (maxTokens : ℕ) (refillRate : ℚ) : RateLimiter :=
  withLimits maxTokens refillRate defaultIdleTimeout defaultMaxBuckets

variable (l : RateLimiter)

/-- The periodic sweep. -/
def sweep (now : ℕ) : RateLimiter :=
  if sweepInterval ≤ l.checksSinceSweep + 1 then
    { l with
      checksSinceSweep := 0
      buckets := l.buckets.retain fun b => now - b.lastRefill < l.idleTimeout }
  else { l with checksSinceSweep := l.checksSinceSweep + 1 }

/-- The hard cap: some bucket makes room for that of a new key. -/
def makeRoom (key : Str) (first : ℕ) : RateLimiter :=
  if key ∉ l.buckets ∧ l.maxBuckets ≤ l.buckets.keys.length then
    match l.buckets.keys[first % l.buckets.keys.length]? with
    | some evict => { l with buckets := l.buckets.erase evict }
    | none => l
  else l

/-- The bucket of a key, a full one when there is none. -/
def entry (key : Str) (now : ℕ) : TokenBucket :=
  (l.buckets.lookup key).getD ⟨l.maxTokens, now⟩

/-- The refill and the token. -/
def take (key : Str) (now : ℕ) : Bool × RateLimiter :=
  let bucket := l.entry key now
  let tokens := TokenLevel.refill (l.maxTokens : ℚ) l.refillRate bucket.tokens
    (asSecs (now - bucket.lastRefill))
  ((TokenLevel.take tokens).1,
    { l with buckets := l.buckets.insert key ⟨(TokenLevel.take tokens).2, now⟩ })

/-- `RateLimiter::check`. -/
def check (c : Check) : Bool × RateLimiter :=
  ((l.sweep c.now).makeRoom c.key c.first).take c.key c.now

end RateLimiter

/-- A call, the limiter it finds, and its answer. -/
structure LogEntry where
  limiter : RateLimiter
  call : Check
  granted : Bool

namespace RateLimiter

/-- A series of calls. -/
def log : RateLimiter → List Check → List LogEntry
  | _, [] => []
  | l, c :: calls => ⟨l, c, (l.check c).1⟩ :: log (l.check c).2 calls

variable (l : RateLimiter)

/-- The tokens that a call for the key would find. -/
def level (key : Str) (now : ℕ) : ℚ :=
  match l.buckets.lookup key with
  | some b =>
    TokenLevel.refill (l.maxTokens : ℚ) l.refillRate b.tokens (asSecs (now - b.lastRefill))
  | none => l.maxTokens

end RateLimiter

/-! ### Time -/

theorem asSecs_nonneg (ns : ℕ) : 0 ≤ asSecs ns := by
  rw [asSecs]
  positivity

theorem asSecs_add (a b : ℕ) : asSecs (a + b) = asSecs a + asSecs b := by
  rw [asSecs, asSecs, asSecs, Nat.cast_add, add_div]

theorem asSecs_mono {a b : ℕ} (h : a ≤ b) : asSecs a ≤ asSecs b := by
  obtain ⟨c, rfl⟩ := Nat.exists_eq_add_of_le h
  rw [asSecs_add]
  exact le_add_of_nonneg_right (asSecs_nonneg c)

/-- The time between two readings, with a third one in between. -/
theorem asSecs_sub {a b c : ℕ} (hab : a ≤ b) (hbc : b ≤ c) :
    asSecs (c - a) = asSecs (b - a) + asSecs (c - b) := by
  rw [← asSecs_add]
  congr 1
  omega

theorem Buckets.lookup_retain (keep : TokenBucket → Bool) (bs : Buckets) (key : Str) :
    (bs.retain keep).lookup key = (bs.lookup key).filter keep := by
  ext b
  rw [← Option.mem_def, ← Option.mem_def, AList.mem_lookup_iff, Option.mem_filter_iff,
    AList.mem_lookup_iff]
  simp [Buckets.retain]

namespace RateLimiter

variable {l : RateLimiter}

/-! ### What a call does to the buckets -/

@[simp] theorem sweep_maxTokens (now : ℕ) : (l.sweep now).maxTokens = l.maxTokens := by
  rw [sweep]
  split_ifs <;> rfl

@[simp] theorem sweep_refillRate (now : ℕ) : (l.sweep now).refillRate = l.refillRate := by
  rw [sweep]
  split_ifs <;> rfl

@[simp] theorem sweep_idleTimeout (now : ℕ) : (l.sweep now).idleTimeout = l.idleTimeout := by
  rw [sweep]
  split_ifs <;> rfl

@[simp] theorem sweep_maxBuckets (now : ℕ) : (l.sweep now).maxBuckets = l.maxBuckets := by
  rw [sweep]
  split_ifs <;> rfl

/-- A sweep keeps a bucket, or drops it after its time. -/
theorem lookup_sweep (l : RateLimiter) (now : ℕ) (key : Str) :
    (l.sweep now).buckets.lookup key = l.buckets.lookup key ∨
      (l.sweep now).buckets.lookup key = none ∧
        ∃ b ∈ l.buckets.lookup key, l.idleTimeout ≤ now - b.lastRefill := by
  rw [sweep]
  split_ifs
  · cases hb : l.buckets.lookup key with
    | none => exact .inl (by simp [Buckets.lookup_retain, hb])
    | some b =>
        by_cases hidle : now - b.lastRefill < l.idleTimeout
        · exact .inl (by simp [Buckets.lookup_retain, hb, hidle])
        · refine .inr ⟨?_, b, rfl, Nat.le_of_not_lt hidle⟩
          simp [Buckets.lookup_retain, hb, Nat.le_of_not_lt hidle]
  · exact .inl rfl

/-- The buckets after the sweep were there before. -/
theorem mem_lookup_of_sweep {now : ℕ} {key : Str} {b : TokenBucket}
    (h : b ∈ (l.sweep now).buckets.lookup key) : b ∈ l.buckets.lookup key := by
  rcases lookup_sweep l now key with heq | ⟨hnone, -⟩
  · rwa [heq] at h
  · rw [hnone] at h
    cases h

@[simp] theorem makeRoom_maxTokens (key : Str) (first : ℕ) :
    (l.makeRoom key first).maxTokens = l.maxTokens := by
  rw [makeRoom]
  split <;> [split; skip] <;> rfl

@[simp] theorem makeRoom_refillRate (key : Str) (first : ℕ) :
    (l.makeRoom key first).refillRate = l.refillRate := by
  rw [makeRoom]
  split <;> [split; skip] <;> rfl

@[simp] theorem makeRoom_idleTimeout (key : Str) (first : ℕ) :
    (l.makeRoom key first).idleTimeout = l.idleTimeout := by
  rw [makeRoom]
  split <;> [split; skip] <;> rfl

/-- And so were those that are left when room has been made. -/
theorem mem_lookup_of_makeRoom {key key' : Str} {first : ℕ} {b : TokenBucket}
    (h : b ∈ (l.makeRoom key first).buckets.lookup key') : b ∈ l.buckets.lookup key' := by
  rw [makeRoom] at h
  split at h
  · split at h
    · rename_i evict _
      by_cases heq : key' = evict
      · rw [heq, AList.lookup_erase] at h
        cases h
      · rwa [AList.lookup_erase_ne heq] at h
    · exact h
  · exact h

/-! ### The state of a limiter -/

/-- What holds of a limiter that has been called up to a time. -/
structure Sound (l : RateLimiter) (now : ℕ) : Prop where
  rate : 0 ≤ l.refillRate
  tokens : ∀ key, ∀ b ∈ l.buckets.lookup key, 0 ≤ b.tokens ∧ b.tokens ≤ l.maxTokens
  past : ∀ key, ∀ b ∈ l.buckets.lookup key, b.lastRefill ≤ now

theorem sound_withLimits (maxTokens : ℕ) {refillRate : ℚ} (hrate : 0 ≤ refillRate)
    (idleTimeout maxBuckets : ℕ) :
    (withLimits maxTokens refillRate idleTimeout maxBuckets).Sound 0 where
  rate := hrate
  tokens _ _ hb := nomatch hb
  past _ _ hb := nomatch hb

theorem Sound.mono {t now : ℕ} (h : l.Sound t) (hle : t ≤ now) : l.Sound now where
  rate := h.rate
  tokens := h.tokens
  past key b hb := le_trans (h.past key b hb) hle

theorem Sound.sweep {t now : ℕ} (h : l.Sound t) : (l.sweep now).Sound t where
  rate := by simpa using h.rate
  tokens key b hb := by simpa using h.tokens key b (mem_lookup_of_sweep hb)
  past key b hb := h.past key b (mem_lookup_of_sweep hb)

theorem Sound.makeRoom {t : ℕ} (h : l.Sound t) (key : Str) (first : ℕ) :
    (l.makeRoom key first).Sound t where
  rate := by simpa using h.rate
  tokens key b hb := by simpa using h.tokens key b (mem_lookup_of_makeRoom hb)
  past key b hb := h.past key b (mem_lookup_of_makeRoom hb)

theorem lookup_take (l : RateLimiter) (key key' : Str) (now : ℕ) :
    (l.take key now).2.buckets.lookup key' =
      if key' = key then some ⟨(TokenLevel.take (l.level key now)).2, now⟩
      else l.buckets.lookup key' := by
  have hlevel : TokenLevel.refill (l.maxTokens : ℚ) l.refillRate (l.entry key now).tokens
      (asSecs (now - (l.entry key now).lastRefill)) = l.level key now := by
    rw [level, entry]
    cases l.buckets.lookup key with
    | some b => rfl
    | none => simp [TokenLevel.refill_zero, asSecs]
  rw [take]
  simp only [hlevel]
  split_ifs with heq
  · rw [heq, AList.lookup_insert]
  · rw [AList.lookup_insert_ne heq]

theorem take_fst (l : RateLimiter) (key : Str) (now : ℕ) :
    (l.take key now).1 = (TokenLevel.take (l.level key now)).1 := by
  rw [take, level, entry]
  cases l.buckets.lookup key with
  | some b => rfl
  | none => simp [TokenLevel.refill_zero, asSecs]

theorem level_le (l : RateLimiter) (key : Str) (now : ℕ) : l.level key now ≤ l.maxTokens := by
  rw [level]
  cases l.buckets.lookup key with
  | some b => exact TokenLevel.refill_le_cap _ _ _ _
  | none => exact le_rfl

theorem Sound.level_nonneg {t : ℕ} (h : l.Sound t) (key : Str) (now : ℕ) :
    0 ≤ l.level key now := by
  rw [level]
  cases hb : l.buckets.lookup key with
  | some b =>
      exact TokenLevel.refill_nonneg (Nat.cast_nonneg _) h.rate (h.tokens key b hb).1
        (asSecs_nonneg _)
  | none => exact Nat.cast_nonneg _

theorem Sound.take {t now : ℕ} (h : l.Sound t) (hle : t ≤ now) (key : Str) :
    (l.take key now).2.Sound now where
  rate := h.rate
  tokens key' b hb := by
    rw [lookup_take] at hb
    split_ifs at hb with heq
    · cases hb
      exact ⟨TokenLevel.take_snd_nonneg (h.level_nonneg key now),
        le_trans (TokenLevel.take_snd_le _) (l.level_le key now)⟩
    · exact h.tokens key' b hb
  past key' b hb := by
    rw [lookup_take] at hb
    split_ifs at hb
    · cases hb
      exact le_rfl
    · exact le_trans (h.past key' b hb) hle

/-- Every call keeps the limiter sound. -/
theorem Sound.check {t : ℕ} {c : Check} (h : l.Sound t) (hle : t ≤ c.now) :
    (l.check c).2.Sound c.now :=
  (h.sweep.makeRoom c.key c.first).take hle c.key

/-! ### The levels -/

/-- Whether a sweep drops the bucket of the key before it is full. -/
def Forgets (l : RateLimiter) (now : ℕ) (key : Str) : Prop :=
  key ∈ l.buckets ∧ key ∉ (l.sweep now).buckets ∧ l.level key now < l.maxTokens

instance (now : ℕ) (key : Str) : Decidable (l.Forgets now key) := by
  unfold Forgets
  infer_instance

/-- While nobody asks, a level is refilled. -/
theorem Sound.level_refill {t now : ℕ} (h : l.Sound t) (hle : t ≤ now) (key : Str) :
    l.level key now
      = TokenLevel.refill (l.maxTokens : ℚ) l.refillRate (l.level key t) (asSecs (now - t)) := by
  rw [level, level]
  cases hb : l.buckets.lookup key with
  | some b =>
      simp only
      rw [asSecs_sub (h.past key b hb) hle, ← TokenLevel.refill_refill h.rate (asSecs_nonneg _)]
  | none =>
      have hgain : 0 ≤ asSecs (now - t) * l.refillRate := mul_nonneg (asSecs_nonneg _) h.rate
      exact (TokenLevel.refill_eq_cap (le_add_of_nonneg_right hgain)).symm

/-- A level grows by no more than what has been refilled. -/
theorem Sound.level_later {t now : ℕ} (h : l.Sound t) (hle : t ≤ now) (key : Str) :
    l.level key now ≤ l.level key t + asSecs (now - t) * l.refillRate := by
  rw [h.level_refill hle key]
  exact TokenLevel.refill_le _ _ _ _

/-- A sweep fills the buckets that it forgets, and leaves the levels of the others. -/
theorem level_sweep (l : RateLimiter) (key : Str) (now : ℕ) :
    (l.sweep now).level key now =
      if l.Forgets now key then (l.maxTokens : ℚ) else l.level key now := by
  rcases lookup_sweep l now key with heq | ⟨hnone, b, hb, -⟩
  · have hnot : ¬ l.Forgets now key := by
      rintro ⟨hmem, hgone, -⟩
      rw [← AList.lookup_isSome, ← heq, AList.lookup_isSome] at hmem
      exact hgone hmem
    rw [if_neg hnot, level, level, heq, sweep_maxTokens, sweep_refillRate]
  · have hlevel : (l.sweep now).level key now = l.maxTokens := by
      rw [level, hnone]
      simp
    rw [hlevel]
    split_ifs with hf
    · rfl
    · have hmem : key ∈ l.buckets := by
        rw [← AList.lookup_isSome, hb]
        rfl
      have hfull : ¬ l.level key now < l.maxTokens := fun hlt =>
        hf ⟨hmem, AList.lookup_eq_none.1 hnone, hlt⟩
      exact le_antisymm (not_lt.1 hfull) (l.level_le key now)

/-- A token is taken from the key of the call, when it is granted, and from no other. -/
theorem level_take (l : RateLimiter) (key key' : Str) (now : ℕ) :
    (l.take key now).2.level key' now =
      l.level key' now - if key = key' ∧ (l.take key now).1 then 1 else 0 := by
  by_cases heq : key' = key
  · have hcap : (TokenLevel.take (l.level key now)).2 ≤ l.maxTokens :=
      le_trans (TokenLevel.take_snd_le _) (l.level_le key now)
    have hzero : asSecs (now - now) = 0 := by simp [asSecs]
    simp only [heq, true_and, take_fst]
    rw [level, lookup_take, if_pos rfl, ← TokenLevel.take_snd]
    change TokenLevel.refill _ _ _ (asSecs (now - now)) = _
    rw [hzero]
    exact TokenLevel.refill_zero _ hcap
  · rw [level, lookup_take, if_neg heq, if_neg (fun hc => heq hc.1.symm), sub_zero]
    rfl

/-- The keys that a limiter is used with, when it has a bucket for each. -/
structure Fits (l : RateLimiter) (keys : Finset Str) : Prop where
  room : keys.card ≤ l.maxBuckets
  known : ∀ key ∈ l.buckets, key ∈ keys

/-- With no more keys than buckets nothing has to make room. -/
theorem Fits.makeRoom {keys : Finset Str} (h : l.Fits keys) {key : Str} (hkey : key ∈ keys)
    (first : ℕ) : l.makeRoom key first = l := by
  rw [RateLimiter.makeRoom, if_neg]
  rintro ⟨hnew, hfull⟩
  have hsub : l.buckets.keys.toFinset ⊆ keys.erase key := by
    intro k hk
    rw [List.mem_toFinset, ← AList.mem_keys] at hk
    exact Finset.mem_erase.2 ⟨fun heq => hnew (heq ▸ hk), h.known k hk⟩
  have hcard := Finset.card_le_card hsub
  rw [List.toFinset_card_of_nodup l.buckets.keys_nodup, Finset.card_erase_of_mem hkey] at hcard
  have hroom := h.room
  have hpos := Finset.card_pos.2 ⟨key, hkey⟩
  omega

theorem Fits.sweep {keys : Finset Str} (h : l.Fits keys) (now : ℕ) : (l.sweep now).Fits keys where
  room := by simpa using h.room
  known key hkey := by
    rw [← AList.lookup_isSome, Option.isSome_iff_exists] at hkey
    obtain ⟨b, hb⟩ := hkey
    apply h.known
    rw [← AList.lookup_isSome, mem_lookup_of_sweep hb]
    rfl

theorem Fits.check {keys : Finset Str} {c : Check} (h : l.Fits keys) (hkey : c.key ∈ keys) :
    (l.check c).2.Fits keys where
  room := by
    have := (h.sweep c.now).room
    rwa [RateLimiter.check, (h.sweep c.now).makeRoom hkey]
  known key hmem := by
    rw [RateLimiter.check, (h.sweep c.now).makeRoom hkey, RateLimiter.take,
      AList.mem_insert] at hmem
    rcases hmem with rfl | hmem
    · exact hkey
    · exact (h.sweep c.now).known key hmem

@[simp] theorem check_maxTokens (c : Check) : (l.check c).2.maxTokens = l.maxTokens := by
  simp [check, take]

@[simp] theorem check_refillRate (c : Check) : (l.check c).2.refillRate = l.refillRate := by
  simp [check, take]

@[simp] theorem check_idleTimeout (c : Check) : (l.check c).2.idleTimeout = l.idleTimeout := by
  simp [check, take]

/-- What one call does to the level of a key. -/
theorem Fits.level_check {keys : Finset Str} {c : Check} (h : l.Fits keys)
    (hkey : c.key ∈ keys) (key : Str) :
    (l.check c).2.level key c.now =
      (if l.Forgets c.now key then (l.maxTokens : ℚ) else l.level key c.now) -
        if c.key = key ∧ (l.check c).1 then 1 else 0 := by
  rw [← level_sweep, RateLimiter.check, (h.sweep c.now).makeRoom hkey]
  exact level_take _ c.key key c.now

end RateLimiter

end OxiHttp
