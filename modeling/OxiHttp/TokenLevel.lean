/-
**Token buckets.**

A token bucket holds at most `cap` tokens and gains `rate` tokens per unit of time; a request takes
one token, or is refused when there is none.  The level of a bucket is what it holds at a moment;
this module says how it changes, and what a bucket that is asked at given times answers.
-/

import Mathlib.Algebra.Order.Field.Basic
import Mathlib.Tactic.Linarith

set_option relaxedAutoImplicit false
set_option autoImplicit false

namespace TokenLevel

variable {K : Type*} [Field K] [LinearOrder K]

/-- The level after some time. -/
def refill (cap rate level elapsed : K) : K := min (level + elapsed * rate) cap

/-- A request: the answer, and the level after it. -/
def take (level : K) : Bool × K := if 1 ≤ level then (true, level - 1) else (false, level)

/-- The answers of a bucket that holds `level` at time `t` and is asked at the times of the list,
when `elapsed` measures the time between two of them. -/
def answers {T : Type*} (elapsed : T → T → K) (cap rate : K) : (level : K) → (t : T) → List T →
    List Bool
  | _, _, [] => []
  | level, t, now :: times =>
      let found := refill cap rate level (elapsed t now)
      (take found).1 :: answers elapsed cap rate (take found).2 now times

theorem refill_le_cap (cap rate level elapsed : K) : refill cap rate level elapsed ≤ cap :=
  min_le_right _ _

theorem refill_le (cap rate level elapsed : K) :
    refill cap rate level elapsed ≤ level + elapsed * rate :=
  min_le_left _ _

/-- A bucket that had time enough is full. -/
theorem refill_eq_cap {cap rate level elapsed : K} (h : cap ≤ level + elapsed * rate) :
    refill cap rate level elapsed = cap :=
  min_eq_right h

theorem refill_zero {cap level : K} (rate : K) (h : level ≤ cap) :
    refill cap rate level 0 = level := by
  rw [refill, zero_mul, add_zero, min_eq_left h]

/-- A request takes one token when it is granted. -/
theorem take_snd (level : K) : (take level).2 = level - if (take level).1 then 1 else 0 := by
  by_cases h : 1 ≤ level <;> simp [take, h]

theorem take_of_lt {level : K} (h : level < 1) : take level = (false, level) :=
  if_neg (not_le.2 h)

/-- A bucket without room for a token refuses every request. -/
theorem answers_of_cap_lt {T : Type*} (elapsed : T → T → K) {cap : K} (hcap : cap < 1) (rate : K)
    (level : K) (t : T) (times : List T) :
    answers elapsed cap rate level t times = times.map fun _ => false := by
  induction times generalizing level t with
  | nil => rfl
  | cons now times ih =>
      have hfound : refill cap rate level (elapsed t now) < 1 :=
        lt_of_le_of_lt (refill_le_cap _ _ _ _) hcap
      simp only [answers, take_of_lt hfound, ih, List.map_cons]

section Ordered

variable [IsStrictOrderedRing K] {cap rate level elapsed : K}

theorem refill_nonneg (hcap : 0 ≤ cap) (hrate : 0 ≤ rate) (hlevel : 0 ≤ level)
    (helapsed : 0 ≤ elapsed) : 0 ≤ refill cap rate level elapsed :=
  le_min (add_nonneg hlevel (mul_nonneg helapsed hrate)) hcap

/-- It does not matter when a bucket is looked at in between. -/
theorem refill_refill (hrate : 0 ≤ rate) {later : K} (hlater : 0 ≤ later) :
    refill cap rate (refill cap rate level elapsed) later =
      refill cap rate level (elapsed + later) := by
  have hgain : 0 ≤ later * rate := mul_nonneg hlater hrate
  rw [refill, refill, refill, ← min_add_add_right, min_assoc,
    min_eq_right (le_add_of_nonneg_right hgain), add_mul, add_assoc]

theorem take_snd_nonneg (h : 0 ≤ level) : 0 ≤ (take level).2 := by
  rw [take]
  split_ifs with h₁
  · exact sub_nonneg.2 h₁
  · exact h

theorem take_snd_le (level : K) : (take level).2 ≤ level := by
  rw [take]
  split_ifs
  · exact sub_le_self level zero_le_one
  · exact le_rfl

end Ordered

end TokenLevel
