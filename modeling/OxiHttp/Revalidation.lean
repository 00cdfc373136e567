/-
**Revalidation.**

A source goes through versions, each of which has a value and a validator that is computed from what
is known about it.  A client keeps the values that it has been given under their validators, and
offers some of these when it asks again; the source answers with the current value unless its
validator is among them.

Whatever the client offers, what it shows is a value that the source has had under the validator
that is current.  So it is the current value, for all that it may offer, if and only if no two
versions with the same validator differ.

Main definitions:

* `Revalidation.step`, `Revalidation.run` — the client over the versions of a source.

Main results:

* `Revalidation.run_shown` — what is shown has been there under the current validator;
* `Revalidation.run_eq_iff` — when it is always current.
-/

import Mathlib.Logic.Function.Basic
import Mathlib.Data.List.Basic

set_option relaxedAutoImplicit false
set_option autoImplicit false

namespace Revalidation

variable {κ α : Type*} [DecidableEq κ]

/-- The client asks for a version with a validator and a value, and may have offered the validator.
It shows the value that it keeps under it, or is given the value and keeps it. -/
def step (stored : κ → Option α) (version : κ × α) (offered : Bool) : α × (κ → Option α) :=
  match if offered then stored version.1 else none with
  | some v => (v, stored)
  | none => (version.2, Function.update stored version.1 (some version.2))

/-- What is shown for the versions of a source; the client offers some validators each time. -/
def run (offered : ℕ → κ → Bool) (stored : κ → Option α) : List (κ × α) → List α
  | [] => []
  | version :: versions =>
      (step stored version (offered 0 version.1)).1 ::
        run (fun i => offered (i + 1)) (step stored version (offered 0 version.1)).2 versions

/-! ### What is shown -/

/-- Either way, what is shown is what is kept under the validator from then on, and nothing else
has changed. -/
theorem step_cases (stored : κ → Option α) (version : κ × α) (offered : Bool) :
    (step stored version offered).2 version.1 = some (step stored version offered).1 ∧
    ((step stored version offered).1 = version.2 ∨
      stored version.1 = some (step stored version offered).1) ∧
    ∀ k ≠ version.1, (step stored version offered).2 k = stored k := by
  unfold step
  split
  case h_1 v hv =>
      split_ifs at hv
      exact ⟨hv, .inr hv, fun _ _ => rfl⟩
  case h_2 =>
      refine ⟨Function.update_self _ _ _, .inl rfl, fun k hk => ?_⟩
      exact Function.update_of_ne hk _ _

theorem length_run (versions : List (κ × α)) (offered : ℕ → κ → Bool) (stored : κ → Option α) :
    (run offered stored versions).length = versions.length := by
  induction versions generalizing offered stored with
  | nil => rfl
  | cons first versions ih => exact congrArg Nat.succ (ih _ _)

/-- Only what is offered of the validators of the versions matters. -/
theorem run_congr {offered offered' : ℕ → κ → Bool} (versions : List (κ × α))
    (h : ∀ i, ∀ version ∈ versions, offered i version.1 = offered' i version.1)
    (stored : κ → Option α) : run offered stored versions = run offered' stored versions := by
  induction versions generalizing offered offered' stored with
  | nil => rfl
  | cons first versions ih =>
      rw [run, run, h 0 first List.mem_cons_self]
      refine congrArg _ (ih (fun i version hmem => ?_) _)
      exact h (i + 1) version (List.mem_cons_of_mem first hmem)

/-- What is shown is kept already, or is the value of a version so far with the same validator. -/
theorem run_shown (versions : List (κ × α)) (offered : ℕ → κ → Bool) (stored : κ → Option α)
    {i : ℕ} {version : κ × α} {shown : α} (hversion : versions[i]? = some version)
    (hshown : (run offered stored versions)[i]? = some shown) :
    stored version.1 = some shown ∨ ∃ earlier ∈ versions.take (i + 1),
      earlier.1 = version.1 ∧ earlier.2 = shown := by
  induction versions generalizing offered stored i with
  | nil => cases hversion
  | cons first versions ih =>
      obtain ⟨hkept, hfrom, hothers⟩ := step_cases stored first (offered 0 first.1)
      cases i with
      | zero =>
          cases hversion
          cases hshown
          rcases hfrom with hvalue | hstored
          · exact .inr ⟨_, List.mem_cons_self, rfl, hvalue.symm⟩
          · exact .inl hstored
      | succ i =>
          rcases ih _ _ hversion hshown with hstored | ⟨earlier, hmem, hkey, hvalue⟩
          · by_cases hkey : version.1 = first.1
            · rw [hkey, hkept] at hstored
              rcases hfrom with hvalue | hbefore
              · exact .inr ⟨first, List.mem_cons_self, hkey.symm,
                  hvalue.symm.trans (Option.some.inj hstored)⟩
              · exact .inl (by rw [hkey, hbefore, hstored])
            · exact .inl (by rw [← hothers _ hkey, hstored])
          · exact .inr ⟨earlier, List.mem_cons_of_mem first hmem, hkey, hvalue⟩

/-! ### When it is current -/

/-- A client that offers everything shows what it keeps. -/
theorem eq_of_run_offering {stored : κ → Option α} {k : κ} {v : α} (hstored : stored k = some v)
    {versions : List (κ × α)}
    (h : run (fun _ _ => true) stored versions = versions.map Prod.snd) :
    ∀ version ∈ versions, version.1 = k → version.2 = v := by
  induction versions generalizing stored with
  | nil => exact fun _ hmem => absurd hmem List.not_mem_nil
  | cons first versions ih =>
      rw [run, List.map_cons] at h
      obtain ⟨hshown, hrest⟩ := List.cons_eq_cons.1 h
      obtain ⟨hkept, -, hothers⟩ := step_cases stored first true
      intro version hmem hkey
      by_cases hfirst : first.1 = k
      · have hstep : step stored first true = (v, stored) := by
          rw [step, if_pos rfl, hfirst, hstored]
        rw [hstep] at hshown hrest
        rcases List.mem_cons.1 hmem with rfl | hmem
        · exact hshown.symm
        · exact ih hstored hrest version hmem hkey
      · rcases List.mem_cons.1 hmem with rfl | hmem
        · exact absurd hkey hfirst
        · refine ih ?_ hrest version hmem hkey
          rw [hothers k (Ne.symm hfirst), hstored]

theorem pairwise_of_run {stored : κ → Option α} {versions : List (κ × α)}
    (h : ∀ offered, run offered stored versions = versions.map Prod.snd) :
    versions.Pairwise fun a b => a.1 = b.1 → a.2 = b.2 := by
  induction versions generalizing stored with
  | nil => exact List.Pairwise.nil
  | cons first versions ih =>
      -- the first version is asked for without an offer, and kept
      have hstep : step stored first false =
          (first.2, Function.update stored first.1 (some first.2)) := rfl
      have hrest : ∀ offered, run offered (Function.update stored first.1 (some first.2)) versions =
          versions.map Prod.snd := by
        intro offered
        have hrun := h fun i => if i = 0 then fun _ => false else offered (i - 1)
        rw [run, List.map_cons] at hrun
        exact (List.cons_eq_cons.1 hrun).2
      refine List.Pairwise.cons (fun version hmem hkey => ?_) (ih hrest)
      exact (eq_of_run_offering (Function.update_self _ _ _) (hrest _) version hmem hkey.symm).symm

theorem run_of_pairwise {stored : κ → Option α} {versions : List (κ × α)}
    (hstored : ∀ version ∈ versions, ∀ v, stored version.1 = some v → v = version.2)
    (h : versions.Pairwise fun a b => a.1 = b.1 → a.2 = b.2) (offered : ℕ → κ → Bool) :
    run offered stored versions = versions.map Prod.snd := by
  induction versions generalizing stored offered with
  | nil => rfl
  | cons first versions ih =>
      obtain ⟨hfirst, hrest⟩ := List.pairwise_cons.1 h
      obtain ⟨hkept, hfrom, hothers⟩ := step_cases stored first (offered 0 first.1)
      have hshown : (step stored first (offered 0 first.1)).1 = first.2 :=
        hfrom.elim id (hstored first List.mem_cons_self _)
      rw [run, List.map_cons, hshown]
      refine congrArg _ (ih (fun version hmem v hv => ?_) hrest _)
      by_cases hkey : version.1 = first.1
      · rw [hkey, hkept, hshown] at hv
        rw [← Option.some.inj hv]
        exact hfirst version hmem hkey.symm
      · rw [hothers _ hkey] at hv
        exact hstored version (List.mem_cons_of_mem first hmem) v hv

/-- **What is shown is always current**, whatever is offered, if and only if no two versions with
the same validator differ. -/
theorem run_eq_iff (versions : List (κ × α)) :
    (∀ offered, run offered (fun _ => none) versions = versions.map Prod.snd) ↔
      versions.Pairwise fun a b => a.1 = b.1 → a.2 = b.2 :=
  ⟨pairwise_of_run, run_of_pairwise fun _ _ _ hv => by cases hv⟩

end Revalidation
