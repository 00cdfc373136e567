/-
**Sorting with a comparison.**

A stable sort with a comparison gives the elements in order when the comparison is that of a total
order on them.  When it is not, the elements may come in any order, and the sort may also stop with
a panic; which of these happens is left open.

Main definitions:

* `SortBy.IsTotal` — a comparison that is one of a total order on some elements;
* `SortBy.Disorder` — what becomes of elements on which it is not;
* `SortBy.sortBy` — the sort.

Main results:

* `SortBy.perm_of_sortBy`, `SortBy.sortBy_isSome` — what comes out of it, and when something does;
* `SortBy.exists_first_of_findSome?_mergeSort` — what is found first in a sorted list;
* `SortBy.pairwise_insertionSort` — a sort by insertion is stable.
-/

import Mathlib.Data.List.Basic
import Mathlib.Data.List.Sort
import Mathlib.Order.Compare
import Mathlib.Tactic.Common

set_option relaxedAutoImplicit false
set_option autoImplicit false

namespace SortBy

variable {α : Type}

/-- The comparison is one of a total order on these elements. -/
structure IsTotal (cmp : α → α → Ordering) (l : List α) : Prop where
  swap : ∀ a ∈ l, ∀ b ∈ l, cmp b a = (cmp a b).swap
  trans : ∀ a ∈ l, ∀ b ∈ l, ∀ c ∈ l, cmp a b ≠ .gt → cmp b c ≠ .gt → cmp a c ≠ .gt

theorem isTotal_iff {cmp : α → α → Ordering} {l : List α} :
    IsTotal cmp l ↔ (∀ a ∈ l, ∀ b ∈ l, cmp b a = (cmp a b).swap) ∧
      ∀ a ∈ l, ∀ b ∈ l, ∀ c ∈ l, cmp a b ≠ .gt → cmp b c ≠ .gt → cmp a c ≠ .gt :=
  ⟨fun h => ⟨h.swap, h.trans⟩, fun h => ⟨h.1, h.2⟩⟩

instance (cmp : α → α → Ordering) (l : List α) : Decidable (IsTotal cmp l) :=
  decidable_of_iff _ isTotal_iff.symm

/-- A comparison by a key that is totally ordered. -/
theorem isTotal_of_key {β : Type} [LinearOrder β] {cmp : α → α → Ordering} {l : List α}
    (key : α → β) (h : ∀ a ∈ l, ∀ b ∈ l, cmp a b = compare (key a) (key b)) : IsTotal cmp l where
  swap a ha b hb := by
    rw [h a ha b hb, h b hb a ha]
    exact Std.OrientedCmp.eq_swap
  trans a ha b hb c hc hab hbc := by
    rw [h a ha b hb, compare_le_iff_le] at hab
    rw [h b hb c hc, compare_le_iff_le] at hbc
    rw [h a ha c hc, compare_le_iff_le]
    exact hab.trans hbc

/-- What becomes of elements on which the comparison is not total: another order, or a panic. -/
def Disorder (α : Type) := (l : List α) → Option { l' : List α // l'.Perm l }

/-- A sort that always notices. -/
def Disorder.panics : Disorder α := fun _ => none

/-- The sorted elements, unless the sort panics. -/
def sortBy (disorder : Disorder α) (cmp : α → α → Ordering) (l : List α) : Option (List α) :=
  if IsTotal cmp l then some (l.mergeSort fun a b => cmp a b != .gt)
  else (disorder l).map Subtype.val

variable {disorder : Disorder α} {cmp : α → α → Ordering} {l l' : List α}

/-- No element is lost or added. -/
theorem perm_of_sortBy (h : sortBy disorder cmp l = some l') : l'.Perm l := by
  unfold sortBy at h
  split_ifs at h with htotal
  · cases h
    exact List.mergeSort_perm l _
  · obtain ⟨⟨_, hperm⟩, -, rfl⟩ := Option.map_eq_some_iff.1 h
    exact hperm

theorem sortBy_isSome (h : IsTotal cmp l) : (sortBy disorder cmp l).isSome = true := by
  rw [sortBy, if_pos h]
  rfl

/-! ### The first of a sorted list -/

section First

variable {β γ : Type} [LinearOrder β] (key : α → β)

/-- An element with its index comes before another one: its key is greater, or the same and it
stands in front of the other. -/
def Before (p q : α × ℕ) : Prop := key q.1 < key p.1 ∨ (key p.1 = key q.1 ∧ p.2 < q.2)

variable {key}

theorem before_of_not_before {p q : α × ℕ} (hne : p.2 ≠ q.2) (h : ¬ Before key p q) :
    Before key q p := by
  unfold Before at h ⊢
  rw [not_or, not_lt, not_and, not_lt] at h
  rcases h.1.lt_or_eq with hlt | heq
  · exact .inl hlt
  · exact .inr ⟨heq.symm, (h.2 heq).lt_of_ne (Ne.symm hne)⟩

/-- What is found first in a list sorted by greater keys is not behind anything else that could be
found. -/
theorem exists_first_of_findSome?_mergeSort {f : α → Option γ} {c : γ}
    (h : (l.mergeSort fun a b => decide (key b ≤ key a)).findSome? f = some c) :
    ∃ p, l[p.2]? = some p.1 ∧ f p.1 = some c ∧
      ∀ q, l[q.2]? = some q.1 → (f q.1).isSome = true → ¬ Before key q p := by
  let le := fun a b : α => decide (key b ≤ key a)
  have htrans : ∀ a b c, le a b = true → le b c = true → le a c = true := by
    intro a b c hab hbc
    exact decide_eq_true ((of_decide_eq_true hbc).trans (of_decide_eq_true hab))
  have htotal : ∀ a b, (le a b || le b a) = true := by
    intro a b
    simpa [le] using le_total (key b) (key a)
  -- the sort with the indices decides between equal keys as the stable sort does
  have hsorted := List.pairwise_mergeSort (List.zipIdxLE_trans htrans)
    (List.zipIdxLE_total htotal) l.zipIdx
  rw [← List.mergeSort_zipIdx, List.findSome?_map] at h
  obtain ⟨before, p, behind, hsplit, hp, hnone⟩ := List.findSome?_eq_some_iff.1 h
  have hmem : ∀ q : α × ℕ, l[q.2]? = some q.1 ↔ q ∈ before ++ p :: behind := by
    intro q
    rw [← hsplit, List.mem_mergeSort, List.mem_zipIdx_iff_getElem?]
  refine ⟨p, (hmem p).2 (by simp), hp, fun q hq hfound hbefore => ?_⟩
  rw [hsplit] at hsorted
  have hpq := (List.pairwise_cons.1 (List.pairwise_append.1 hsorted).2.1).1
  rcases List.mem_append.1 ((hmem q).1 hq) with hq | hq
  · have hq := hnone q hq
    rw [Function.comp_apply] at hq
    rw [hq] at hfound
    cases hfound
  rcases List.mem_cons.1 hq with rfl | hq
  · rcases hbefore with hlt | ⟨-, hlt⟩
    · exact lt_irrefl _ hlt
    · exact lt_irrefl _ hlt
  · have hle := hpq q hq
    unfold List.zipIdxLE at hle
    split_ifs at hle with h₁ h₂
    · rcases hbefore with hlt | ⟨-, hlt⟩
      · exact absurd (of_decide_eq_true h₁) (not_le.2 hlt)
      · exact absurd (of_decide_eq_true hle) (not_le.2 hlt)
    · rcases hbefore with hlt | ⟨heq, -⟩
      · exact absurd (of_decide_eq_true h₁) (not_le.2 hlt)
      · exact h₂ (decide_eq_true heq.ge)

end First

/-! ### Insertion -/

/-- Sorting by insertion is stable: of two elements that may stand either way, the one that stood
first before stands first. -/
theorem pairwise_insertionSort {r T : α → α → Prop} [DecidableRel r] (h : l.Pairwise T) :
    (l.insertionSort r).Pairwise fun a b => ¬ r b a ∨ T a b := by
  induction l with
  | nil => exact List.Pairwise.nil
  | cons x l ih =>
      obtain ⟨hx, hl⟩ := List.pairwise_cons.1 h
      have hx' : ∀ y ∈ l.insertionSort r, T x y := fun y hy =>
        hx y ((List.mem_insertionSort r).1 hy)
      have hsorted := ih hl
      rw [List.insertionSort_cons]
      clear ih
      -- `x` goes in front of the first element that it may stand in front of
      generalize l.insertionSort r = sorted at hx' hsorted ⊢
      induction sorted with
      | nil => exact List.pairwise_singleton _ _
      | cons y sorted ih =>
          obtain ⟨hy, hrest⟩ := List.pairwise_cons.1 hsorted
          rw [List.forall_mem_cons] at hx'
          rw [List.orderedInsert_cons]
          split
          case isTrue =>
              refine List.pairwise_cons.2 ⟨fun z hz => .inr ?_, hsorted⟩
              rcases List.mem_cons.1 hz with rfl | hz
              · exact hx'.1
              · exact hx'.2 z hz
          case isFalse hr =>
              refine List.pairwise_cons.2 ⟨fun z hz => ?_, ih hx'.2 hrest⟩
              rcases (List.mem_orderedInsert r).1 hz with rfl | hz
              · exact .inl hr
              · exact hy z hz

end SortBy
