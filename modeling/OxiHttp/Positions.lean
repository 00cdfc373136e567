/-
**Positions in a list.**

Statements about histories speak of an event, the events before it and the events after it:
`l = a ++ x :: b`.  This module has the facts their proofs use: such a statement is one about the
indices of the list, which makes it decidable; a list that grows at its end gains exactly one such
position; and two searches find the same when it depends on what stands in front.
-/

import Mathlib.Data.List.Basic
import Mathlib.Tactic.Common

set_option relaxedAutoImplicit false
set_option autoImplicit false

namespace Positions

variable {α : Type}

/-- A statement about every element of a list and the elements before it, by index. -/
theorem forall_split_iff {P : List α → α → Prop} {l : List α} :
    (∀ a x b, l = a ++ x :: b → P a x) ↔ ∀ (k : ℕ) (h : k < l.length), P (l.take k) l[k] := by
  constructor
  · intro hP k hk
    exact hP _ _ (l.drop (k + 1)) (by
      rw [← List.drop_eq_getElem_cons hk, List.take_append_drop])
  · rintro hP a x b rfl
    simpa using hP a.length (by simp)

/-- The positions of a list with one more element at its end. -/
theorem concat_eq_iff {l a b : List α} {x y : α} :
    l ++ [x] = a ++ y :: b ↔ (a = l ∧ y = x ∧ b = []) ∨ ∃ b', b = b' ++ [x] ∧ l = a ++ y :: b' := by
  constructor
  · intro h
    -- the position is the new one, or the new element is the last of those after it
    rcases List.eq_nil_or_concat b with rfl | ⟨b', z, rfl⟩
    · obtain ⟨rfl, hx⟩ := List.append_inj' h rfl
      cases hx
      exact .inl ⟨rfl, rfl, rfl⟩
    · rw [List.concat_eq_append, ← List.cons_append, ← List.append_assoc] at h
      obtain ⟨hl, hx⟩ := List.append_inj' h rfl
      cases hx
      exact .inr ⟨b', List.concat_eq_append, hl⟩
  · rintro (⟨rfl, rfl, rfl⟩ | ⟨b', rfl, rfl⟩)
    · rfl
    · simp

/-- What holds at the positions of a list, and at those of one that is put behind it. -/
theorem forall_split_append {P : List α → α → Prop} {l m : List α}
    (hl : ∀ a x b, l = a ++ x :: b → P a x) (hm : ∀ a x b, m = a ++ x :: b → P (l ++ a) x) :
    ∀ a x b, l ++ m = a ++ x :: b → P a x := by
  intro a x b h
  rcases List.append_eq_append_iff.1 h with ⟨c, rfl, hc⟩ | ⟨c, hc, hb⟩
  · exact hm c x b hc
  · cases c with
    | nil =>
        rw [List.append_nil] at hc
        rw [List.nil_append] at hb
        have hfirst := hm [] x b hb.symm
        rwa [List.append_nil, hc] at hfirst
    | cons y c =>
        obtain ⟨rfl, -⟩ := List.cons.inj hb
        exact hl a x c hc

/-- A search with a weaker test finds the same when something that passes the stronger one stands in
front of all that passes the weaker one only. -/
theorem find?_eq_find?_iff {p r : α → Bool} (himp : ∀ a, p a = true → r a = true)
    {l : List α} : l.find? r = l.find? p ↔
      ∀ front a back, l = front ++ a :: back → r a = true → p a = false →
        ∃ b ∈ front, p b = true := by
  induction l with
  | nil => simp
  | cons x l ih =>
      by_cases hp : p x = true
      · rw [List.find?_cons_of_pos (himp x hp), List.find?_cons_of_pos hp]
        refine iff_of_true rfl ?_
        rintro (_ | ⟨y, front⟩) a back heq - ha
        · cases heq
          exact absurd hp (by rw [ha]; decide)
        · cases heq
          exact ⟨x, List.mem_cons_self, hp⟩
      rw [List.find?_cons_of_neg hp]
      by_cases hr : r x = true
      · rw [List.find?_cons_of_pos hr]
        refine iff_of_false (fun h => hp (List.find?_some h.symm)) fun h => ?_
        obtain ⟨b, hb, -⟩ := h [] x l rfl hr (Bool.not_eq_true _ ▸ hp)
        cases hb
      rw [List.find?_cons_of_neg hr, ih]
      constructor
      · rintro h (_ | ⟨y, front⟩) a back heq ha hpa
        · cases heq
          exact absurd ha hr
        · cases heq
          obtain ⟨b, hb, hpb⟩ := h front a back rfl ha hpa
          exact ⟨b, List.mem_cons_of_mem _ hb, hpb⟩
      · intro h front a back heq ha hpa
        obtain ⟨b, hb, hpb⟩ := h (x :: front) a back (congrArg _ heq) ha hpa
        rcases List.mem_cons.1 hb with rfl | hb
        · exact absurd hpb hp
        · exact ⟨b, hb, hpb⟩

end Positions
