/-
**Lists with keys.**

A table without duplicates can be kept as a list: what is put into it takes the place of whatever
has its key and goes to the end.  Putting by a key and putting by a part of it can be mixed, and the
keys stay distinct.

Main definitions:

* `KeyedList.Distinct` — no two entries have one key;
* `KeyedList.put` — an entry instead of those with its key;
* `KeyedList.putAll`, `KeyedList.LastBefore` — entries put one after the other, and which of two was
  put last earlier;
* `KeyedList.PutLast` — an entry that no later one has replaced;
* `KeyedList.latest` — the values that were put last.

Main results:

* `KeyedList.Distinct.put` — keys stay distinct when entries are put by a part of the key;
* `KeyedList.mem_putAll_iff`, `KeyedList.latest_eq_some_iff` — what is in the table;
* `KeyedList.pairwise_putAll` — the entries stand in the order in which they were put last;
* `KeyedList.foldl_put_idem` — putting entries twice is putting them once.
-/

import Mathlib.Data.List.Induction
import Mathlib.Data.List.Nodup

set_option relaxedAutoImplicit false
set_option autoImplicit false

namespace KeyedList

variable {α κ ι : Type*} {key : α → κ} {part : α → ι} {l l' : List α}

/-- No two entries have one key. -/
def Distinct (key : α → κ) (l : List α) : Prop := l.Pairwise fun a b => key a ≠ key b

/-- `x` instead of the entries that have its key. -/
def put [DecidableEq ι] (part : α → ι) (x : α) (l : List α) : List α :=
  l.filter (fun y => part y ≠ part x) ++ [x]

theorem distinct_nil : Distinct key [] := List.Pairwise.nil

theorem Distinct.sublist (h : Distinct key l) (hs : l'.Sublist l) : Distinct key l' :=
  List.Pairwise.sublist hs h

/-- Entries can be put by anything that the key determines. -/
theorem Distinct.put [DecidableEq ι] (h : Distinct key l)
    (hpart : ∀ a b, key a = key b → part a = part b) (x : α) : Distinct key (put part x l) := by
  refine List.pairwise_append.2 ⟨h.sublist List.filter_sublist, List.pairwise_singleton _ _, ?_⟩
  intro y hy z hz heq
  rw [List.mem_singleton.1 hz] at heq
  have hne : part y ≠ part x := by simpa using (List.mem_filter.1 hy).2
  exact hne (hpart y x heq)

/-! ### Entries put one after the other -/

/-- The table of the entries put into an empty one. -/
def putAll [DecidableEq ι] (part : α → ι) (xs : List α) : List α :=
  xs.foldl (fun l x => put part x l) []

/-- `a` stands in the list for the last time before `b` does. -/
def LastBefore (xs : List α) (a b : α) : Prop :=
  ∃ front back, xs = front ++ back ∧ a ∈ front ∧ a ∉ back ∧ b ∈ back

theorem putAll_concat [DecidableEq ι] (part : α → ι) (xs : List α) (x : α) :
    putAll part (xs ++ [x]) = put part x (putAll part xs) := by
  rw [putAll, List.foldl_concat, putAll]

/-- What is in the table was put there. -/
theorem mem_of_mem_putAll [DecidableEq ι] {part : α → ι} {xs : List α} {a : α}
    (h : a ∈ putAll part xs) : a ∈ xs := by
  induction xs using List.reverseRecOn with
  | nil => cases h
  | append_singleton xs x ih =>
      rw [putAll_concat, put, List.mem_append] at h
      exact List.mem_append.2 (h.imp_left fun h => ih (List.mem_filter.1 h).1)

/-- `a` is put, and nothing with its key after it. -/
def PutLast (part : α → ι) (xs : List α) (a : α) : Prop :=
  ∃ front back, xs = front ++ a :: back ∧ ∀ b ∈ back, part b ≠ part a

/-- What has been put last under its key is in the table. -/
theorem mem_putAll_iff [DecidableEq ι] {part : α → ι} {xs : List α} {a : α} :
    a ∈ putAll part xs ↔ PutLast part xs a := by
  induction xs using List.reverseRecOn with
  | nil => simp [putAll, PutLast]
  | append_singleton xs x ih =>
      rw [putAll_concat, put, List.mem_append, List.mem_filter, ih, List.mem_singleton]
      constructor
      · rintro (⟨⟨front, back, rfl, hback⟩, hne⟩ | rfl)
        · refine ⟨front, back ++ [x], by simp, fun b hb => ?_⟩
          rcases List.mem_append.1 hb with hb | hb
          · exact hback b hb
          · rw [List.mem_singleton.1 hb]
            exact (of_decide_eq_true hne).symm
        · exact ⟨xs, [], rfl, by simp⟩
      · rintro ⟨front, back, heq, hback⟩
        -- it is the entry put now, or that one is among those after it
        rcases List.eq_nil_or_concat back with rfl | ⟨back, y, rfl⟩
        · exact .inr (List.singleton_inj.1 (List.append_inj' heq rfl).2).symm
        · rw [List.concat_eq_append, ← List.cons_append, ← List.append_assoc] at heq
          obtain ⟨hxs, hy⟩ := List.append_inj' heq rfl
          cases hy
          have hne : part x ≠ part a := hback x (by simp)
          exact .inl ⟨⟨front, back, hxs, fun b hb => hback b (by simp [hb])⟩,
            decide_eq_true (Ne.symm hne)⟩

/-- The table of images is the image of the table, when the images have keys of their own. -/
theorem putAll_map {β : Type*} [DecidableEq κ] [DecidableEq ι] {part : β → ι} {f : α → β}
    (h : ∀ a b, part (f a) = part (f b) ↔ key a = key b) (xs : List α) :
    putAll part (xs.map f) = (putAll key xs).map f := by
  induction xs using List.reverseRecOn with
  | nil => rfl
  | append_singleton xs x ih =>
      rw [List.map_append, List.map_singleton, putAll_concat, putAll_concat, ih, put, put,
        List.map_append, List.map_singleton, List.filter_map]
      refine congrArg (fun l => List.map f l ++ [f x]) (List.filter_congr fun y _ => ?_)
      exact decide_eq_decide.2 (not_congr (h y x))

/-- The values that were put last under the keys. -/
def latest {β : Type*} [DecidableEq κ] (key : α → κ) (val : α → Option β) (xs : List α) :
    κ → Option β :=
  xs.foldl (fun m x => Function.update m (key x) (val x)) fun _ => none

/-- The table has them. -/
theorem latest_eq_some_iff {β : Type*} [DecidableEq κ] {val : α → Option β} {xs : List α} {k : κ}
    {b : β} :
    latest key val xs k = some b ↔ ∃ x ∈ putAll key xs, key x = k ∧ val x = some b := by
  induction xs using List.reverseRecOn with
  | nil => simp [latest, putAll]
  | append_singleton xs x ih =>
      rw [latest, List.foldl_concat, putAll_concat, put]
      by_cases hk : k = key x
      · subst hk
        rw [Function.update_self]
        constructor
        · intro hval
          exact ⟨x, List.mem_append_right _ (List.mem_singleton_self x), rfl, hval⟩
        · rintro ⟨y, hy, hkey, hval⟩
          rcases List.mem_append.1 hy with hy | hy
          · exact absurd hkey (of_decide_eq_true (List.mem_filter.1 hy).2)
          · rwa [← List.mem_singleton.1 hy]
      · rw [Function.update_of_ne hk]
        refine ih.trans (exists_congr fun y => and_congr_left fun ⟨hkey, _⟩ => ?_)
        have hne : key y ≠ key x := by rwa [hkey]
        have hyx : y ∉ [x] := fun hy => hne (by rw [List.mem_singleton.1 hy])
        rw [List.mem_append, List.mem_filter, or_iff_left hyx, decide_eq_true_iff,
          and_iff_left hne]

/-- The entries stand in the order in which they were put last. -/
theorem pairwise_putAll [DecidableEq ι] (part : α → ι) (xs : List α) :
    (putAll part xs).Pairwise (LastBefore xs) := by
  induction xs using List.reverseRecOn with
  | nil => exact List.Pairwise.nil
  | append_singleton xs x ih =>
      -- an entry that stays is not the one that is put
      have hne : ∀ a ∈ (putAll part xs).filter (fun y => part y ≠ part x), a ∉ [x] := by
        intro a ha hax
        rw [List.mem_singleton.1 hax] at ha
        simpa using (List.mem_filter.1 ha).2
      rw [putAll_concat]
      refine List.pairwise_append.2 ⟨?_, List.pairwise_singleton _ _, fun a ha b hb => ?_⟩
      · refine (ih.sublist List.filter_sublist).imp_of_mem fun ha _ h => ?_
        obtain ⟨front, back, rfl, hfront, hback, hb⟩ := h
        refine ⟨front, back ++ [x], List.append_assoc _ _ _, hfront, ?_, List.mem_append_left _ hb⟩
        exact fun hmem => (List.mem_append.1 hmem).elim hback (hne _ ha)
      · exact ⟨xs, [x], rfl, mem_of_mem_putAll (List.mem_filter.1 ha).1, hne a ha, hb⟩

/-! ### Entries put into a table -/

/-- Entries with distinct keys take the place of those that have their keys. -/
theorem foldl_put [DecidableEq ι] {part : α → ι} {xs : List α} (h : Distinct part xs)
    (l : List α) : xs.foldl (fun l x => put part x l) l
      = (l.filter fun y => ∀ x ∈ xs, part y ≠ part x) ++ xs := by
  induction xs generalizing l with
  | nil => simp
  | cons x xs ih =>
      obtain ⟨hx, hxs⟩ := List.pairwise_cons.1 h
      have hkeep : [x].filter (fun y => ∀ z ∈ xs, part y ≠ part z) = [x] :=
        List.filter_eq_self.2 fun y hy => by
          rw [List.mem_singleton.1 hy]
          exact decide_eq_true hx
      have hfilter : (l.filter fun y => part y ≠ part x).filter (fun y => ∀ z ∈ xs, part y ≠ part z)
          = l.filter fun y => ∀ z ∈ x :: xs, part y ≠ part z := by
        rw [List.filter_filter]
        refine List.filter_congr fun y _ => ?_
        rw [← Bool.decide_and]
        refine decide_eq_decide.2 ?_
        rw [List.forall_mem_cons]
        exact and_comm
      rw [List.foldl_cons, ih hxs, put, List.filter_append, hkeep, hfilter, List.append_assoc]
      rfl

/-- Putting them once more changes nothing. -/
theorem foldl_put_idem [DecidableEq ι] {part : α → ι} {xs : List α} (h : Distinct part xs)
    (l : List α) : xs.foldl (fun l x => put part x l) (xs.foldl (fun l x => put part x l) l)
      = xs.foldl (fun l x => put part x l) l := by
  have hnone : xs.filter (fun y => ∀ x ∈ xs, part y ≠ part x) = [] := by
    refine List.filter_eq_nil_iff.2 fun y hy hall => ?_
    exact of_decide_eq_true hall y hy rfl
  rw [foldl_put h l, foldl_put h, List.filter_append, hnone, List.append_nil, List.filter_filter]
  simp only [Bool.and_self]

end KeyedList
