/-
**The pieces of a sequence.**

`List.splitOn` and `List.splitOnP` cut a sequence at its separators.  What is no separator stands in
one of the pieces, and nothing else stands there.

Main results:

* `Pieces.mem_splitOnP`, `Pieces.mem_splitOn`, `Pieces.mem_of_mem_splitOnP` — where the elements
  are;
* `Pieces.sep_notMem_of_mem_splitOn` — where the separators are not.
-/

import Mathlib.Data.List.Basic
import Mathlib.Tactic.Common

set_option relaxedAutoImplicit false
set_option autoImplicit false

namespace Pieces

variable {α : Type}

/-- An element that is no separator stands in one of the pieces. -/
theorem mem_splitOnP (p : α → Bool) {a : α} {s : List α} (h : a ∈ s) (ha : p a = false) :
    ∃ w ∈ s.splitOnP p, a ∈ w := by
  induction s with
  | nil => cases h
  | cons x s ih =>
      rw [List.splitOnP_cons_eq_if_modifyHead]
      cases hx : p x with
      | true =>
          rcases List.mem_cons.1 h with rfl | h
          · rw [ha] at hx
            cases hx
          · obtain ⟨w, hw, haw⟩ := ih h
            exact ⟨w, List.mem_cons_of_mem _ hw, haw⟩
      | false =>
          obtain ⟨q, qs, hq⟩ := List.exists_cons_of_ne_nil (List.splitOnP_ne_nil p s)
          rw [if_neg Bool.false_ne_true, hq, List.modifyHead_cons]
          rcases List.mem_cons.1 h with rfl | h
          · exact ⟨_, List.mem_cons_self, List.mem_cons_self⟩
          · obtain ⟨w, hw, haw⟩ := ih h
            rw [hq] at hw
            rcases List.mem_cons.1 hw with rfl | hw
            · exact ⟨_, List.mem_cons_self, List.mem_cons_of_mem _ haw⟩
            · exact ⟨w, List.mem_cons_of_mem _ hw, haw⟩

/-- What stands in a piece stands in the sequence, and is no separator. -/
theorem mem_of_mem_splitOnP {p : α → Bool} {a : α} {s w : List α} (hw : w ∈ s.splitOnP p)
    (ha : a ∈ w) : a ∈ s ∧ p a = false := by
  induction s generalizing w with
  | nil =>
      rw [List.splitOnP_nil, List.mem_singleton] at hw
      rw [hw] at ha
      cases ha
  | cons x s ih =>
      rw [List.splitOnP_cons_eq_if_modifyHead] at hw
      split at hw
      case isTrue =>
          rcases List.mem_cons.1 hw with rfl | hw
          · cases ha
          · exact (ih hw ha).imp_left (List.mem_cons_of_mem _)
      case isFalse hx =>
          obtain ⟨q, qs, hq⟩ := List.exists_cons_of_ne_nil (List.splitOnP_ne_nil p s)
          rw [hq, List.modifyHead_cons] at hw
          rcases List.mem_cons.1 hw with rfl | hw
          · rcases List.mem_cons.1 ha with rfl | ha
            · exact ⟨List.mem_cons_self, Bool.not_eq_true _ ▸ hx⟩
            · exact (ih (hq ▸ List.mem_cons_self) ha).imp_left (List.mem_cons_of_mem _)
          · exact (ih (hq ▸ List.mem_cons_of_mem _ hw) ha).imp_left (List.mem_cons_of_mem _)

variable [BEq α]

theorem mem_of_mem_splitOn {sep : α} {a : α} {s w : List α} (hw : w ∈ s.splitOn sep)
    (ha : a ∈ w) : a ∈ s := by
  rw [List.splitOn_eq_splitOnP] at hw
  exact (mem_of_mem_splitOnP hw ha).1

variable [LawfulBEq α]

theorem mem_splitOn (sep : α) {a : α} {s : List α} (h : a ∈ s) (hne : a ≠ sep) :
    ∃ w ∈ s.splitOn sep, a ∈ w := by
  rw [List.splitOn_eq_splitOnP]
  exact mem_splitOnP _ h (beq_eq_false_iff_ne.2 hne)

/-- No piece has the separator in it. -/
theorem sep_notMem_of_mem_splitOn {sep : α} {s w : List α} (hw : w ∈ s.splitOn sep) :
    sep ∉ w := by
  intro h
  rw [List.splitOn_eq_splitOnP] at hw
  simpa using (mem_of_mem_splitOnP hw h).2

end Pieces
