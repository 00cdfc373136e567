/-
**Looking for the first that is free.**

Candidates that differ from each other are tried one after the other until one is not taken.  Each
that is tried in vain is one of those that are taken, so the search is over after no more turns than
there are taken candidates, and one more.

Main definitions:

* `FirstFree.taken` — the candidates that are taken.

Main results:

* `FirstFree.exists_first` — where the search ends.
-/

import Mathlib.Data.Set.Card

set_option relaxedAutoImplicit false
set_option autoImplicit false

namespace FirstFree

variable {α : Type*}

/-- The first `bound` candidates, as far as they are taken. -/
def taken (candidate : ℕ → α) (bound : ℕ) (isTaken : α → Prop) : Set α :=
  {a | isTaken a ∧ ∃ n < bound, candidate n = a}

variable {candidate : ℕ → α} {bound : ℕ} {isTaken : α → Prop}

theorem finite_taken : (taken candidate bound isTaken).Finite := by
  refine ((Finset.range bound).finite_toSet.image candidate).subset ?_
  rintro a ⟨-, n, hn, rfl⟩
  exact Set.mem_image_of_mem candidate (Finset.mem_coe.2 (Finset.mem_range.2 hn))

/-- As many candidates as are tried in vain are taken. -/
theorem le_ncard_taken {k : ℕ} (hinj : Set.InjOn candidate (Set.Iio bound)) (hk : k ≤ bound)
    (htaken : ∀ i < k, isTaken (candidate i)) : k ≤ (taken candidate bound isTaken).ncard := by
  have hsub : candidate '' Set.Iio k ⊆ taken candidate bound isTaken := by
    rintro a ⟨i, hi, rfl⟩
    exact ⟨htaken i hi, i, lt_of_lt_of_le hi hk, rfl⟩
  have hcard : (candidate '' Set.Iio k).ncard = k := by
    rw [(hinj.mono (Set.Iio_subset_Iio hk)).ncard_image, ← Finset.coe_range,
      Set.ncard_coe_finset, Finset.card_range]
  rw [← hcard]
  exact Set.ncard_le_ncard hsub finite_taken

/-- When fewer are taken than there are, there is a first that is free, and no more come before it
than are taken. -/
theorem exists_first (hinj : Set.InjOn candidate (Set.Iio bound))
    (hfew : (taken candidate bound isTaken).ncard < bound) :
    ∃ k < bound, k ≤ (taken candidate bound isTaken).ncard ∧ ¬ isTaken (candidate k) ∧
      ∀ i < k, isTaken (candidate i) := by
  classical
  have hfree : ∃ k, k < bound ∧ ¬ isTaken (candidate k) := by
    by_contra hnone
    have htaken : ∀ i < bound, isTaken (candidate i) := by
      intro i hi
      by_contra hnot
      exact hnone ⟨i, hi, hnot⟩
    exact absurd (le_ncard_taken hinj le_rfl htaken) (not_le.2 hfew)
  obtain ⟨hlt, hk⟩ := Nat.find_spec hfree
  have htaken : ∀ i < Nat.find hfree, isTaken (candidate i) := by
    intro i hi
    by_contra hnot
    exact Nat.find_min hfree hi ⟨hi.trans hlt, hnot⟩
  exact ⟨Nat.find hfree, hlt, le_ncard_taken hinj hlt.le htaken, hk, htaken⟩

end FirstFree
