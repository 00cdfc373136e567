/-
**Resumed transfers.**

A source goes through versions, each of which is a list with a validator.  A client asks for it, and
the transfer breaks off somewhere; it keeps what has come with the validator, and asks for the rest
the next time.  What it has is continued when the validator is still the same and there is a rest,
and is given up otherwise.

What a client ends with may have parts of several versions in it.  It is the version that it was
completed with, wherever the transfers break off, if and only if versions with the same validator do
not differ before their last elements.

Main definitions:

* `Resumption.position` — where the client goes on;
* `Resumption.step`, `Resumption.run` — the client over the versions of a source;
* `Resumption.Agree` — two versions that can be continued with each other.

Main results:

* `Resumption.run_current_iff` — when a completed transfer is the current version.
-/

import Mathlib.Data.List.Forall2
import Mathlib.Data.List.TakeDrop
import Mathlib.Data.Stream.Defs

set_option relaxedAutoImplicit false
set_option autoImplicit false

namespace Resumption

variable {κ α : Type*}

/-- What has come of a version. -/
abbrev Started (κ α : Type*) := Option (κ × List α)

/-- The position at which it is continued. -/
def position (s : Started κ α) : ℕ := s.elim 0 fun started => started.2.length

/-- What a client has after some of the version has come: all of it, or a part. -/
def finish (version : κ × List α) (got : List α) : Option (List α) × Started κ α :=
  if version.2.length ≤ got.length then (some got, none) else (none, some (version.1, got))

/-- What is completed is the version. -/
def Current (version : κ × List α) (completed : Option (List α)) : Prop :=
  ∀ c ∈ completed, c = version.2

/-- What has come is the beginning of a version, and not all of it. -/
def StartOf (version : κ × List α) (s : Started κ α) : Prop :=
  ∃ n < version.2.length, s = some (version.1, version.2.take n)

theorem finish_take (version : κ × List α) (n : ℕ) :
    Current version (finish version (version.2.take n)).1 ∧
      ((finish version (version.2.take n)).2 = none ∨
        StartOf version (finish version (version.2.take n)).2) := by
  rw [finish]
  split_ifs with hle
  · rw [List.length_take] at hle
    have hall : version.2.take n = version.2 := List.take_of_length_le (by omega)
    refine ⟨fun c hc => ?_, .inl rfl⟩
    obtain rfl : version.2.take n = c := Option.some.inj hc
    exact hall
  · rw [List.length_take] at hle
    exact ⟨fun c hc => (by cases hc), .inr ⟨n, by omega, rfl⟩⟩

/-- What has come of the one can be continued with the other. -/
def Agree (a b : κ × List α) : Prop :=
  a.1 = b.1 → ∀ n, n < a.2.length → n < b.2.length → a.2.take n = b.2.take n

variable [DecidableEq κ]

/-- The client asks for a version, and so many elements come before the transfer breaks off. -/
def step (s : Started κ α) (version : κ × List α) (n : ℕ) : Option (List α) × Started κ α :=
  match s with
  | none => finish version (version.2.take n)
  | some (k, got) =>
      if k = version.1 ∧ got.length < version.2.length then
        finish version (got ++ (version.2.drop got.length).take n)
      else (none, none)

/-- What is completed with the versions of a source, when the transfers break off there; with some
the client does not come to ask. -/
def run (breaks : ℕ → Option ℕ) (s : Started κ α) : List (κ × List α) → List (Option (List α))
  | [] => []
  | version :: versions =>
      match breaks 0 with
      | none => none :: run (fun i => breaks (i + 1)) s versions
      | some n =>
          (step s version n).1 :: run (fun i => breaks (i + 1)) (step s version n).2 versions

/-! ### One version -/

/-- No more comes than there is. -/
theorem step_length_take (s : Started κ α) (version : κ × List α) (n : ℕ) :
    step s version ((version.2.drop (position s)).take n).length = step s version n := by
  have htake : ∀ l : List α, l.take (l.take n).length = l.take n := fun l =>
    (List.prefix_iff_eq_take.1 (List.take_prefix n l)).symm
  cases s with
  | none => exact congrArg (finish version) (htake version.2)
  | some started =>
      rw [step, step]
      exact if_congr Iff.rfl (congrArg (fun rest => finish version (started.2 ++ rest))
        (htake (version.2.drop started.2.length))) rfl

/-- What has come of a version is continued with one that agrees. -/
theorem step_startOf {s : Started κ α} {earlier version : κ × List α} (h : StartOf earlier s)
    (hagree : Agree earlier version) (n : ℕ) :
    Current version (step s version n).1 ∧
      ((step s version n).2 = none ∨ StartOf version (step s version n).2) := by
  obtain ⟨m, hm, rfl⟩ := h
  have hlength : (earlier.2.take m).length = m := List.length_take_of_le (Nat.le_of_lt hm)
  rw [step]
  split_ifs with hmore
  · obtain ⟨hkey, hlt⟩ := hmore
    rw [hlength] at hlt ⊢
    rw [hagree hkey m hm hlt, ← List.take_add]
    exact finish_take version (m + n)
  · exact ⟨fun c hc => (by cases hc), .inl rfl⟩

/-! ### Any number of versions -/

/-- The client does not come to ask for the first version. -/
theorem run_skip (breaks : ℕ → Option ℕ) (s : Started κ α) (version : κ × List α)
    (versions : List (κ × List α)) :
    run (Stream'.cons none breaks) s (version :: versions) = none :: run breaks s versions := rfl

/-- The transfer of the first version breaks off after `n` elements. -/
theorem run_ask (n : ℕ) (breaks : ℕ → Option ℕ) (s : Started κ α) (version : κ × List α)
    (versions : List (κ × List α)) :
    run (Stream'.cons (some n) breaks) s (version :: versions) =
      (step s version n).1 :: run breaks (step s version n).2 versions := rfl

/-- Where they agree, what is completed is current. -/
theorem run_current {versions : List (κ × List α)} (h : versions.Pairwise Agree)
    {s : Started κ α}
    (hs : s = none ∨ ∃ earlier, StartOf earlier s ∧ ∀ v ∈ versions, Agree earlier v)
    (breaks : ℕ → Option ℕ) : List.Forall₂ Current versions (run breaks s versions) := by
  induction versions generalizing s breaks with
  | nil => exact .nil
  | cons version versions ih =>
      obtain ⟨hfirst, hrest⟩ := List.pairwise_cons.1 h
      rw [run]
      cases hbreak : breaks 0 with
      | none =>
          refine .cons (fun c hc => by cases hc) (ih hrest ?_ _)
          exact hs.imp_right fun ⟨earlier, hstart, hagree⟩ =>
            ⟨earlier, hstart, fun v hv => hagree v (List.mem_cons_of_mem _ hv)⟩
      | some n =>
          have hstep : Current version (step s version n).1 ∧
              ((step s version n).2 = none ∨ StartOf version (step s version n).2) := by
            rcases hs with rfl | ⟨earlier, hstart, hagree⟩
            · exact finish_take version n
            · exact step_startOf hstart (hagree version List.mem_cons_self) n
          exact .cons hstep.1
            (ih hrest (hstep.2.imp_right fun hstart => ⟨version, hstart, hfirst⟩) _)

/-- What has come is continued with a later version, when the client asks for no other. -/
theorem agree_of_run {versions : List (κ × List α)} {k : κ} {got : List α}
    (h : ∀ breaks, List.Forall₂ Current versions (run breaks (some (k, got)) versions)) :
    ∀ version ∈ versions, k = version.1 → got.length < version.2.length →
      got = version.2.take got.length := by
  induction versions with
  | nil => exact fun _ hmem => absurd hmem List.not_mem_nil
  | cons first versions ih =>
      intro version hmem hkey hlt
      rcases List.mem_cons.1 hmem with rfl | hmem
      · have hrun := h fun _ => some version.2.length
        rw [run] at hrun
        have hcurrent := (List.forall₂_cons.1 hrun).1
        have hlength : (got ++ (version.2.drop got.length).take version.2.length).length =
            version.2.length := by
          rw [List.length_append, List.length_take, List.length_drop]
          omega
        have hstep : (step (some (k, got)) version version.2.length).1 =
            some (got ++ (version.2.drop got.length).take version.2.length) := by
          rw [step, if_pos ⟨hkey, hlt⟩, finish, if_pos (Nat.le_of_eq hlength.symm)]
        have hall := hcurrent _ hstep
        rw [← hall, List.take_left]
      · refine ih (fun breaks => ?_) version hmem hkey hlt
        have hrun := h (Stream'.cons none breaks)
        rw [run_skip] at hrun
        exact (List.forall₂_cons.1 hrun).2

/-- **A completed transfer is the current version**, wherever the transfers break off, if and only
if the versions agree. -/
theorem run_current_iff (versions : List (κ × List α)) :
    (∀ breaks, List.Forall₂ Current versions (run breaks none versions)) ↔
      versions.Pairwise Agree := by
  refine ⟨fun h => ?_, fun h => run_current h (.inl rfl)⟩
  induction versions with
  | nil => exact .nil
  | cons first versions ih =>
      refine .cons (fun version hmem hkey n hn hn' => ?_) (ih fun breaks => ?_)
      · have hlength : (first.2.take n).length = n := List.length_take_of_le (Nat.le_of_lt hn)
        have hstart : finish first (first.2.take n) = (none, some (first.1, first.2.take n)) := by
          rw [finish, if_neg (by omega)]
        have hlater := agree_of_run (fun breaks => ?_) version hmem hkey (by rwa [hlength])
        · rwa [hlength] at hlater
        · have hrun := h (Stream'.cons (some n) breaks)
          rw [run_ask] at hrun
          have hrest := (List.forall₂_cons.1 hrun).2
          rwa [show step none first n = _ from hstart] at hrest
      · have hrun := h (Stream'.cons none breaks)
        rw [run_skip] at hrun
        exact (List.forall₂_cons.1 hrun).2

end Resumption
