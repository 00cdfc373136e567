/-
**The buckets of the rate limiter.**

A limiter keeps no more buckets than its limit, however many keys it is asked about: the call that
adds one has made room for it first.  The bucket of the key that was asked about last is there, and
no bucket ever holds less than nothing or more than the burst capacity.

Main definitions:

* `OxiHttp.RateLimiter.bucketCount` — `bucket_count`;
* `OxiHttp.RateLimiter.after` — the limiter after a series of calls;
* `OxiHttp.RateLimiter.Bounded` — the buckets are within their limit.

Main results:

* `OxiHttp.RateLimiter.Bounded.check` — every call keeps them there;
* `OxiHttp.RateLimiter.buckets_after` — the buckets after any series of calls.
-/

import OxiHttp.RateLimiter

set_option relaxedAutoImplicit false
set_option autoImplicit false

namespace OxiHttp

/-! ### The number of keys of a map -/

section

variable {α : Type} {β : α → Type} [DecidableEq α] {s : AList β} {a : α}

theorem length_keys_erase (h : a ∈ s) : (s.erase a).keys.length + 1 = s.keys.length := by
  rw [AList.keys_erase, List.length_erase_of_mem (AList.mem_keys.1 h)]
  exact Nat.sub_add_cancel (List.length_pos_of_mem (AList.mem_keys.1 h))

theorem length_keys_insert (b : β a) :
    (s.insert a b).keys.length = if a ∈ s then s.keys.length else s.keys.length + 1 := by
  rw [AList.keys_insert, List.length_cons]
  split_ifs with hmem
  · rw [← AList.keys_erase, length_keys_erase hmem]
  · rw [List.erase_of_not_mem fun h => hmem (AList.mem_keys.2 h)]

end

namespace RateLimiter

/-- `bucket_count`. -/
def bucketCount (l : RateLimiter) : ℕ := l.buckets.keys.length

/-- The limiter after a series of calls. -/
def after (l : RateLimiter) (calls : List Check) : RateLimiter :=
  calls.foldl (fun l c => (l.check c).2) l

/-- There is room for a bucket, and there are no more than the limit. -/
structure Bounded (l : RateLimiter) : Prop where
  room : 1 ≤ l.maxBuckets
  count : l.bucketCount ≤ l.maxBuckets

variable {l : RateLimiter}

theorem after_concat (l : RateLimiter) (calls : List Check) (c : Check) :
    l.after (calls ++ [c]) = ((l.after calls).check c).2 := by
  rw [after, List.foldl_append]
  rfl

/-! ### The number of buckets -/

@[simp] theorem makeRoom_maxBuckets (key : Str) (first : ℕ) :
    (l.makeRoom key first).maxBuckets = l.maxBuckets := by
  rw [makeRoom]
  split <;> [split; skip] <;> rfl

@[simp] theorem check_maxBuckets (c : Check) : (l.check c).2.maxBuckets = l.maxBuckets := by
  simp [check, take]

theorem bucketCount_sweep (l : RateLimiter) (now : ℕ) :
    (l.sweep now).bucketCount ≤ l.bucketCount := by
  rw [sweep]
  split_ifs
  · simp only [bucketCount, Buckets.retain, AList.keys, List.keys, List.length_map]
    exact List.length_filter_le _ _
  · exact le_rfl

theorem Bounded.sweep (h : l.Bounded) (now : ℕ) : (l.sweep now).Bounded where
  room := by simpa using h.room
  count := by
    rw [sweep_maxBuckets]
    exact (bucketCount_sweep l now).trans h.count

/-- A key has a bucket, or there is room for one. -/
theorem Bounded.makeRoom (h : l.Bounded) (key : Str) (first : ℕ) :
    (l.makeRoom key first).Bounded ∧ (key ∈ (l.makeRoom key first).buckets ∨
      (l.makeRoom key first).bucketCount < l.maxBuckets) := by
  have hroom := h.room
  have hcount := h.count
  unfold RateLimiter.makeRoom
  split
  case isTrue hfull =>
      -- the limiter is full, and so there is a bucket to be dropped
      have hpos : 0 < l.buckets.keys.length := hroom.trans hfull.2
      have hlt : first % l.buckets.keys.length < l.buckets.keys.length := Nat.mod_lt _ hpos
      rw [List.getElem?_eq_getElem hlt]
      have herase := length_keys_erase (AList.mem_keys.2 (List.getElem_mem hlt))
      have hless : (l.buckets.erase (l.buckets.keys[first % l.buckets.keys.length])).keys.length
          < l.maxBuckets := by
        unfold bucketCount at hcount
        omega
      exact ⟨⟨hroom, hless.le⟩, .inr hless⟩
  case isFalse hnot =>
      rw [not_and_or, not_not, not_le] at hnot
      exact ⟨h, hnot⟩

theorem bucketCount_take (l : RateLimiter) (key : Str) (now : ℕ) :
    (l.take key now).2.bucketCount = if key ∈ l.buckets then l.bucketCount
      else l.bucketCount + 1 :=
  length_keys_insert _

/-- Every call keeps the number of buckets within its limit. -/
theorem Bounded.check (h : l.Bounded) (c : Check) : (l.check c).2.Bounded := by
  have hsweep := h.sweep c.now
  obtain ⟨hbounded, hfree⟩ := hsweep.makeRoom c.key c.first
  refine ⟨by simpa using h.room, ?_⟩
  rw [check_maxBuckets, RateLimiter.check, bucketCount_take]
  have hcount := hbounded.count
  simp only [makeRoom_maxBuckets, sweep_maxBuckets] at hcount hfree
  split_ifs with hmem
  · exact hcount
  · exact hfree.resolve_left hmem

/-- The key of a call has a bucket afterwards. -/
theorem key_mem_check (l : RateLimiter) (c : Check) : c.key ∈ (l.check c).2.buckets := by
  rw [check, take, AList.mem_insert]
  exact .inl rfl

/-! ### Series of calls -/

theorem after_maxBuckets (l : RateLimiter) (calls : List Check) :
    (l.after calls).maxBuckets = l.maxBuckets := by
  induction calls using List.reverseRecOn with
  | nil => rfl
  | append_singleton calls c ih => rw [after_concat, check_maxBuckets, ih]

theorem after_maxTokens (l : RateLimiter) (calls : List Check) :
    (l.after calls).maxTokens = l.maxTokens := by
  induction calls using List.reverseRecOn with
  | nil => rfl
  | append_singleton calls c ih => rw [after_concat, check_maxTokens, ih]

theorem Bounded.after (h : l.Bounded) (calls : List Check) : (l.after calls).Bounded := by
  induction calls using List.reverseRecOn with
  | nil => exact h
  | append_singleton calls c ih =>
      rw [after_concat]
      exact ih.check c

/-- A limiter that is called in the order of time is sound at the time of the last call. -/
theorem Sound.after {t now : ℕ} {calls : List Check} (h : l.Sound t)
    (hclock : calls.Pairwise fun c c' => c.now ≤ c'.now) (hfrom : ∀ c ∈ calls, t ≤ c.now)
    (hto : ∀ c ∈ calls, c.now ≤ now) (hle : t ≤ now) : (l.after calls).Sound now := by
  induction calls generalizing l t with
  | nil => exact h.mono hle
  | cons c calls ih =>
      rw [List.pairwise_cons] at hclock
      rw [List.forall_mem_cons] at hfrom hto
      exact ih (h.check hfrom.1) hclock.2 hclock.1 hto.2 hto.1

/-- After each call of any series there are no more buckets than the limit, which is at least one;
the key of the call has one; and each bucket holds no less than nothing and no more than the burst
capacity. -/
theorem buckets_after (maxTokens : ℕ) {refillRate : ℚ} (hrate : 0 ≤ refillRate)
    (idleTimeout maxBuckets : ℕ) {calls : List Check} {c : Check}
    (hclock : (calls ++ [c]).Pairwise fun c c' => c.now ≤ c'.now) :
    let l := (withLimits maxTokens refillRate idleTimeout maxBuckets).after (calls ++ [c])
    l.bucketCount ≤ max maxBuckets 1 ∧ c.key ∈ l.buckets ∧
      ∀ key, ∀ b ∈ l.buckets.lookup key, 0 ≤ b.tokens ∧ b.tokens ≤ maxTokens := by
  intro l
  have hbounded : (withLimits maxTokens refillRate idleTimeout maxBuckets).Bounded :=
    ⟨le_max_right _ _, Nat.zero_le _⟩
  have hlast : ∀ c' ∈ calls ++ [c], c'.now ≤ c.now := by
    intro c' hc'
    rcases List.mem_append.1 hc' with hc' | hc'
    · exact (List.pairwise_append.1 hclock).2.2 c' hc' c List.mem_cons_self
    · rw [List.mem_singleton.1 hc']
  have hsound : l.Sound c.now :=
    (sound_withLimits maxTokens hrate idleTimeout maxBuckets).after hclock
      (fun _ _ => Nat.zero_le _) hlast (Nat.zero_le _)
  refine ⟨?_, ?_, fun key b hb => ?_⟩
  · have hcount := (hbounded.after (calls ++ [c])).count
    rwa [after_maxBuckets] at hcount
  · change c.key ∈ ((withLimits maxTokens refillRate idleTimeout maxBuckets).after
      (calls ++ [c])).buckets
    rw [after_concat]
    exact key_mem_check _ c
  · have htokens := hsound.tokens key b hb
    rwa [after_maxTokens] at htokens

/-- Two keys that take turns at one bucket. -/
theorem buckets_after_twoKeys :
    let l := (withLimits 2 1 0 0).after
      ([⟨"client-a".toList, 0, 0⟩, ⟨"client-b".toList, 0, 0⟩] ++ [⟨"client-a".toList, 1, 0⟩])
    l.bucketCount ≤ max 0 1 ∧ "client-a".toList ∈ l.buckets ∧
      ∀ key, ∀ b ∈ l.buckets.lookup key, 0 ≤ b.tokens ∧ b.tokens ≤ (2 : ℕ) :=
  buckets_after 2 zero_le_one 0 0 (by decide)

end RateLimiter

end OxiHttp
