/-
**Maps with a value of each type, and values that are handed down.**

A map holds at most one value for each key, and the type of the value depends on the key.  Along a
chain of places, some of which hold a value, a value is passed on to the next place when that one
has none of its own; what has been passed on, and the value of the last place, is inserted into a
map on the way.  The last of these is the nearest value; the map holds nothing else exactly when
every value that was passed on has the key of the nearest.

Main definitions:

* `TypeMap`, `TypeMap.insert`, `TypeMap.insertAll` — the maps;
* `TypeMap.nearest`, `TypeMap.passedOn` — along a chain.

Main results:

* `TypeMap.mem_passedOn` — what is passed on;
* `TypeMap.insertAll_passedOn_iff` — when only the nearest value is left.
-/

import Mathlib.Data.List.Induction
import Mathlib.Data.List.ReduceOption
import Mathlib.Logic.Function.Basic

set_option relaxedAutoImplicit false
set_option autoImplicit false

/-- A map with values of the type of their key. -/
abbrev TypeMap {K : Type} (V : K → Type) : Type := ∀ k, Option (V k)

namespace TypeMap

section

variable {K : Type} [DecidableEq K] {V : K → Type}

/-! ### Insertions -/

/-- The map with a value inserted. -/
def insert (s : Σ k, V k) (m : TypeMap V) : TypeMap V := Function.update m s.1 (some s.2)

/-- The map with the values of a list inserted, from the first on. -/
def insertAll (l : List (Σ k, V k)) (m : TypeMap V) : TypeMap V := l.foldl (fun m s => insert s m) m

@[simp] theorem insertAll_nil (m : TypeMap V) : insertAll [] m = m := rfl

@[simp] theorem insertAll_cons (s : Σ k, V k) (l : List (Σ k, V k)) (m : TypeMap V) :
    insertAll (s :: l) m = insertAll l (insert s m) := rfl

theorem insertAll_append (l l' : List (Σ k, V k)) (m : TypeMap V) :
    insertAll (l ++ l') m = insertAll l' (insertAll l m) := List.foldl_append

theorem insert_of_ne {s : Σ k, V k} {k : K} (h : k ≠ s.1) (m : TypeMap V) : insert s m k = m k :=
  Function.update_of_ne h _ _

/-- An insertion undoes those before it under its key. -/
theorem insert_insertAll {l : List (Σ k, V k)} {s : Σ k, V k} (h : ∀ t ∈ l, t.1 = s.1)
    (m : TypeMap V) : insert s (insertAll l m) = insert s m := by
  induction l generalizing m with
  | nil => rfl
  | cons t l ih =>
      rw [List.forall_mem_cons] at h
      rw [insertAll_cons, ih h.2]
      obtain ⟨k, v⟩ := t
      obtain ⟨k', v'⟩ := s
      obtain rfl : k = k' := h.1
      exact Function.update_idem _ _ _

/-- What was inserted has a value. -/
theorem isSome_insertAll {l : List (Σ k, V k)} {s : Σ k, V k} (h : s ∈ l) (m : TypeMap V) :
    (insertAll l m s.1).isSome = true := by
  induction l using List.reverseRecOn with
  | nil => cases h
  | append_singleton l t ih =>
      rw [insertAll_append, insertAll_cons, insertAll_nil]
      by_cases hkey : s.1 = t.1
      · rw [hkey, insert, Function.update_self]
        rfl
      · rw [insert_of_ne hkey]
        refine ih ((List.mem_append.1 h).resolve_right fun ht => hkey ?_)
        rw [List.mem_singleton.1 ht]

/-- Only the last insertion is left, in every map, exactly when all were made under its key. -/
theorem insertAll_concat_eq_iff {l : List (Σ k, V k)} {s : Σ k, V k} :
    (∀ m, insertAll (l ++ [s]) m = insert s m) ↔ ∀ t ∈ l, t.1 = s.1 := by
  constructor
  · intro h t ht
    by_contra hkey
    have hnone : insertAll (l ++ [s]) (fun _ => none) t.1 = none := by
      rw [h, insert_of_ne hkey]
    have hsome := isSome_insertAll (List.mem_append_left [s] ht) fun _ => none
    rw [hnone] at hsome
    cases hsome
  · intro h m
    rw [insertAll_append]
    exact insert_insertAll h m

end

/-! ### Chains -/

section

variable {α : Type}

/-- The value nearest to the end of a chain. -/
def nearest (chain : List (Option α)) : Option α := chain.reduceOption.getLast?

/-- The values that are passed on along a chain, and the one at its end. -/
def passedOn : List (Option α) → List α
  | [] => []
  | [s] => s.toList
  | s :: s' :: chain => (if s'.isNone then s.toList else []) ++ passedOn (s' :: chain)

theorem nearest_cons (s : Option α) (chain : List (Option α)) :
    nearest (s :: chain) = (nearest chain).or s := by
  cases s with
  | none => rw [nearest, List.reduceOption_cons_of_none, ← nearest, Option.or_none]
  | some x =>
      rw [nearest, List.reduceOption_cons_of_some, List.getLast?_cons, ← nearest]
      cases nearest chain <;> rfl

theorem isSome_nearest_cons_some (x : α) (chain : List (Option α)) :
    (nearest (some x :: chain)).isSome = true := by
  rw [nearest_cons]
  cases nearest chain <;> rfl

/-- The last value that is passed on is the nearest. -/
theorem getLast?_passedOn (chain : List (Option α)) :
    (passedOn chain).getLast? = nearest chain := by
  induction chain using passedOn.induct with
  | case1 => rfl
  | case2 s => cases s <;> rfl
  | case3 s s' chain ih =>
      rw [passedOn, List.getLast?_append, ih, nearest_cons s]
      cases s' with
      | none => cases s <;> rfl
      | some y =>
          obtain ⟨z, hz⟩ := Option.isSome_iff_exists.1 (isSome_nearest_cons_some y chain)
          rw [hz]
          rfl

/-- A value is passed on to a place without one, or it is at the end. -/
theorem mem_passedOn {chain : List (Option α)} {x : α} :
    x ∈ passedOn chain ↔
      (∃ a b, chain = a ++ some x :: none :: b) ∨ ∃ a, chain = a ++ [some x] := by
  induction chain using passedOn.induct with
  | case1 => simp [passedOn]
  | case2 s =>
      have hsingle : x ∈ passedOn [s] ↔ some x = s := by
        cases s <;> simp [passedOn, eq_comm]
      rw [hsingle]
      simp [List.cons_eq_append_iff]
  | case3 s s' chain ih =>
      have hhead : x ∈ (if s'.isNone then s.toList else []) ↔ s = some x ∧ s' = none := by
        cases s' <;> simp
      have hpassed : (∃ a b, s :: s' :: chain = a ++ some x :: none :: b) ↔
          (s = some x ∧ s' = none) ∨ ∃ a b, s' :: chain = a ++ some x :: none :: b := by
        constructor
        · rintro ⟨a, b, h⟩
          cases a with
          | nil => cases h; exact .inl ⟨rfl, rfl⟩
          | cons _ a => exact .inr ⟨a, b, (List.cons.inj h).2⟩
        · rintro (⟨rfl, rfl⟩ | ⟨a, b, h⟩)
          · exact ⟨[], chain, rfl⟩
          · exact ⟨s :: a, b, by rw [h, List.cons_append]⟩
      have hend : (∃ a, s :: s' :: chain = a ++ [some x]) ↔ ∃ a, s' :: chain = a ++ [some x] := by
        constructor
        · rintro ⟨a, h⟩
          cases a with
          | nil => cases h
          | cons _ a => exact ⟨a, (List.cons.inj h).2⟩
        · rintro ⟨a, h⟩
          exact ⟨s :: a, by rw [h, List.cons_append]⟩
      rw [passedOn, List.mem_append, ih, hhead, hpassed, hend, or_assoc]

end

section

variable {K : Type} [DecidableEq K] {V : K → Type}

/-- Only the nearest value is left, in every map, exactly when every value that is passed on to a
place without one has its key. -/
theorem insertAll_passedOn_iff (chain : List (Option (Σ k, V k))) :
    (∀ m, insertAll (passedOn chain) m = (nearest chain).elim m fun s => insert s m) ↔
      ∀ near ∈ nearest chain, ∀ a b s, chain = a ++ some s :: none :: b → s.1 = near.1 := by
  have hlast := getLast?_passedOn chain
  cases hnear : nearest chain with
  | none =>
      rw [hnear, List.getLast?_eq_none_iff] at hlast
      simp [hlast]
  | some near =>
      rw [hnear, List.getLast?_eq_some_iff] at hlast
      obtain ⟨l, hl⟩ := hlast
      simp only [Option.elim_some, hl, insertAll_concat_eq_iff, Option.mem_def, Option.some.injEq,
        forall_eq']
      constructor
      · intro h a b s hchain
        have hs : s ∈ passedOn chain := mem_passedOn.2 (.inl ⟨a, b, hchain⟩)
        rw [hl, List.mem_append, List.mem_singleton] at hs
        rcases hs with hs | rfl
        · exact h s hs
        · rfl
      · intro h s hs
        have hs : s ∈ passedOn chain := by
          rw [hl]
          exact List.mem_append_left _ hs
        rcases mem_passedOn.1 hs with ⟨a, b, hchain⟩ | ⟨a, rfl⟩
        · exact h a b s hchain
        · -- at the end of the chain it is the nearest
          rw [nearest, List.reduceOption_append, List.reduceOption_singleton] at hnear
          simp at hnear
          rw [hnear]

end

end TypeMap
