/-
**Lists in header fields.**

A header field that may occur more than once holds a list: the elements of all of its lines, which
commas separate.  White space around an element does not belong to it, and an empty element is
none.  The bytes of a line are taken as the characters of the same numbers.

Main definitions:

* `FieldList.trimOws` — a text without the white space around it;
* `FieldList.items`, `FieldList.tokens` — the elements of a line;
* `FieldList.IsElement` — what can stand in a line.

Main results:

* `FieldList.mem_items_iff` — an element is a piece of the line that is not empty;
* `FieldList.tokens_intercalate` — elements that are joined to a line are its elements;
* `FieldList.trim_eq_self_iff`, `FieldList.trim_append_cons` — taking two ends off;
* `FieldList.items_eq_tokens` — it does not matter whether the line is trimmed first.
-/

import OxiHttp.Pieces
import Mathlib.Data.List.DropRight

set_option relaxedAutoImplicit false
set_option autoImplicit false

namespace FieldList

/-- Optional white space. -/
def isOws (c : Char) : Bool := c == ' ' || c == '\t'

/-- A text without the white space around it. -/
def trimOws (s : List Char) : List Char := (s.dropWhile isOws).rdropWhile isOws

/-- The elements of a line. -/
def items (line : List Char) : List (List Char) :=
  (((trimOws line).splitOn ',').map trimOws).filter fun item => !item.isEmpty

theorem mem_items_iff {line item : List Char} :
    item ∈ items line ↔ item ≠ [] ∧ ∃ piece ∈ (trimOws line).splitOn ',', trimOws piece = item := by
  simp [items, and_comm]

example : items "  \"a\" ,, W/\"b\"\t".toList = ["\"a\"".toList, "W/\"b\"".toList] := by decide

/-- Nothing is added when the ends are taken off. -/
theorem trim_sublist {α : Type} (p : α → Bool) (s : List α) :
    ((s.dropWhile p).rdropWhile p).Sublist s :=
  (List.rdropWhile_prefix p _).sublist.trans (List.dropWhile_sublist p)

theorem mem_of_mem_trimOws {s : List Char} {c : Char} (h : c ∈ trimOws s) : c ∈ s :=
  (trim_sublist isOws s).mem h

/-- White space is what two tests agree on when they agree on the characters of the text. -/
theorem trim_congr {p q : Char → Bool} {s : List Char} (h : ∀ c ∈ s, p c = q c) :
    (s.dropWhile p).rdropWhile p = (s.dropWhile q).rdropWhile q := by
  have hdrop : ∀ t : List Char, (∀ c ∈ t, p c = q c) → t.dropWhile p = t.dropWhile q := by
    intro t ht
    induction t with
    | nil => rfl
    | cons x t ih =>
        rw [List.forall_mem_cons] at ht
        rw [List.dropWhile_cons, List.dropWhile_cons, ht.1, ih ht.2]
  rw [hdrop s h, List.rdropWhile, List.rdropWhile, hdrop]
  intro c hc
  exact h c ((List.dropWhile_sublist _).mem (List.mem_reverse.1 hc))

/-- What is taken off stands around what is left. -/
theorem exists_of_trim {α : Type} (p : α → Bool) (s : List α) :
    ∃ a b, (∀ c ∈ a, p c = true) ∧ (∀ c ∈ b, p c = true) ∧
      s = a ++ (s.dropWhile p).rdropWhile p ++ b := by
  refine ⟨s.takeWhile p, (s.dropWhile p).rtakeWhile p, fun c hc => List.mem_takeWhile_imp hc,
    fun c hc => List.mem_rtakeWhile_imp hc, ?_⟩
  rw [List.append_assoc, List.rdropWhile_append_rtakeWhile, List.takeWhile_append_dropWhile]

/-- What surrounds a sequence does not count when all of it is taken off. -/
theorem trim_around {α : Type} {p : α → Bool} {a b : List α} (ha : ∀ c ∈ a, p c = true)
    (hb : ∀ c ∈ b, p c = true) (s : List α) :
    ((a ++ s ++ b).dropWhile p).rdropWhile p = (s.dropWhile p).rdropWhile p := by
  have hend : ∀ t : List α, (t ++ b).rdropWhile p = t.rdropWhile p := by
    intro t
    rw [List.rdropWhile, List.reverse_append, List.dropWhile_append_of_pos, List.rdropWhile]
    intro c hc
    exact hb c (List.mem_reverse.1 hc)
  rw [List.append_assoc, List.dropWhile_append_of_pos ha, List.dropWhile_append]
  split_ifs with hnil
  · rw [List.isEmpty_iff.1 hnil, List.dropWhile_eq_nil_iff.2 hb]
  · exact hend _

/-- There is nothing to take off when neither end has anything of it. -/
theorem trim_eq_self {α : Type} {p : α → Bool} {s : List α}
    (hfirst : ∀ c, s.head? = some c → p c = false)
    (hlast : ∀ c, s.getLast? = some c → p c = false) : (s.dropWhile p).rdropWhile p = s := by
  have hdrop : s.dropWhile p = s := by
    cases s with
    | nil => rfl
    | cons x s => rw [List.dropWhile_cons_of_neg (by rw [hfirst x rfl]; exact Bool.false_ne_true)]
  rw [hdrop, List.rdropWhile_eq_self_iff]
  intro hne
  rw [hlast _ (List.getLast?_eq_some_getLast hne)]
  exact Bool.false_ne_true

/-- What is left has nothing of it at its ends. -/
theorem head?_trim {α : Type} {p : α → Bool} {s : List α} {c : α}
    (h : ((s.dropWhile p).rdropWhile p).head? = some c) : p c = false := by
  obtain ⟨u, hu⟩ := List.rdropWhile_prefix p (l := s.dropWhile p)
  have hne : (s.dropWhile p).rdropWhile p ≠ [] := List.ne_nil_of_mem (List.mem_of_head? h)
  have hhead : (s.dropWhile p).head? = some c := by
    rw [← hu]
    exact (List.head?_append_of_ne_nil _ hne).trans h
  have hnot := List.head?_dropWhile_not p s
  rwa [hhead] at hnot

theorem getLast?_trim {α : Type} {p : α → Bool} {s : List α} {c : α}
    (h : ((s.dropWhile p).rdropWhile p).getLast? = some c) : p c = false := by
  have hne : (s.dropWhile p).rdropWhile p ≠ [] := List.ne_nil_of_mem (List.mem_of_getLast? h)
  have hnot := List.rdropWhile_last_not p (s.dropWhile p) hne
  rw [List.getLast?_eq_some_getLast hne, Option.some.injEq] at h
  exact Bool.not_eq_true _ ▸ h ▸ hnot

theorem trim_trim {α : Type} (p : α → Bool) (s : List α) :
    (((s.dropWhile p).rdropWhile p).dropWhile p).rdropWhile p
      = (s.dropWhile p).rdropWhile p :=
  trim_eq_self (fun _ hc => head?_trim hc) fun _ hc => getLast?_trim hc

theorem trim_eq_self_iff {α : Type} {p : α → Bool} {s : List α} :
    (s.dropWhile p).rdropWhile p = s ↔
      (∀ c, s.head? = some c → p c = false) ∧ ∀ c, s.getLast? = some c → p c = false := by
  constructor
  · intro h
    refine ⟨fun c hc => ?_, fun c hc => ?_⟩
    · rw [← h] at hc
      exact head?_trim hc
    · rw [← h] at hc
      exact getLast?_trim hc
  · rintro ⟨hfirst, hlast⟩
    exact trim_eq_self hfirst hlast

/-- Nothing is taken off from an element on that stays. -/
theorem trim_append_cons {α : Type} {p : α → Bool} {c : α} (hc : p c = false) (a b : List α) :
    ((a ++ c :: b).dropWhile p).rdropWhile p = a.dropWhile p ++ c :: b.rdropWhile p := by
  have hdrop : ∀ x y : List α, (x ++ c :: y).dropWhile p = x.dropWhile p ++ c :: y := by
    intro x y
    have hstay : (c :: y).dropWhile p = c :: y :=
      List.dropWhile_cons_of_neg (by rw [hc]; exact Bool.false_ne_true)
    rw [List.dropWhile_append]
    split_ifs with hnil
    · rw [hstay, List.isEmpty_iff.1 hnil, List.nil_append]
    · rfl
  rw [hdrop, List.rdropWhile, List.reverse_append, List.reverse_cons, List.append_assoc,
    List.singleton_append, hdrop, List.rdropWhile]
  simp

/-! ### The elements of a line as it stands -/

/-- The elements, when the white space around the line is left to those at its ends. -/
def tokens (line : List Char) : List (List Char) :=
  ((line.splitOn ',').map trimOws).filter fun item => !item.isEmpty

theorem tokens_append_cons (a b : List Char) : tokens (a ++ ',' :: b) = tokens a ++ tokens b := by
  rw [tokens, List.splitOn_eq_splitOnP, List.splitOnP_append_cons a b (by decide), List.map_append,
    List.filter_append]
  rfl

/-- A text without a comma is one element, or none. -/
theorem tokens_of_notMem {s : List Char} (h : ',' ∉ s) :
    tokens s = if (trimOws s).isEmpty then [] else [trimOws s] := by
  rw [tokens, List.splitOn_eq_singleton h, List.map_singleton]
  cases trimOws s <;> rfl

/-- White space around a line does not count. -/
theorem tokens_around {a b : List Char} (ha : ∀ c ∈ a, isOws c = true)
    (hb : ∀ c ∈ b, isOws c = true) (s : List Char) : tokens (a ++ s ++ b) = tokens s := by
  have hnot : ∀ t : List Char, (∀ c ∈ t, isOws c = true) → ',' ∉ t := by
    intro t ht hmem
    exact absurd (ht ',' hmem) (by decide)
  have hone : ∀ {a s b : List Char}, (∀ c ∈ a, isOws c = true) → (∀ c ∈ b, isOws c = true) →
      ',' ∉ s → tokens (a ++ s ++ b) = tokens s := by
    intro a s b ha hb hs
    have hall : ',' ∉ a ++ s ++ b := by
      simp [hnot a ha, hs, hnot b hb]
    rw [tokens_of_notMem hall, tokens_of_notMem hs, trimOws, trim_around ha hb, ← trimOws]
  -- from one comma to the next
  induction hn : s.length using Nat.strong_induction_on generalizing a s with
  | _ n ih =>
      by_cases hs : ',' ∈ s
      · obtain ⟨front, behind, rfl, hfront⟩ := List.eq_append_cons_of_mem hs
        have hshort : behind.length < n := by
          rw [← hn, List.length_append, List.length_cons]
          omega
        have hcut : a ++ (front ++ ',' :: behind) ++ b
            = (a ++ front) ++ ',' :: ([] ++ behind ++ b) := by simp
        have hfirst := hone ha (List.forall_mem_nil _) hfront
        rw [List.append_nil] at hfirst
        rw [hcut, tokens_append_cons, tokens_append_cons, hfirst,
          ih _ hshort (List.forall_mem_nil _) behind rfl]
      · exact hone ha hb hs

/-- An element that can stand in a line. -/
structure IsElement (t : List Char) : Prop where
  ne_nil : t ≠ []
  comma_notMem : ',' ∉ t
  trim : trimOws t = t

theorem isElement_of_mem_tokens {line t : List Char} (h : t ∈ tokens line) : IsElement t := by
  obtain ⟨hmem, hne⟩ := List.mem_filter.1 h
  obtain ⟨piece, hpiece, rfl⟩ := List.mem_map.1 hmem
  refine ⟨by simpa using hne, fun hcomma => ?_, trim_trim isOws piece⟩
  exact Pieces.sep_notMem_of_mem_splitOn hpiece (mem_of_mem_trimOws hcomma)

theorem tokens_of_isElement {t : List Char} (h : IsElement t) : tokens t = [t] := by
  rw [tokens_of_notMem h.comma_notMem, h.trim, if_neg (by simpa using h.ne_nil)]

/-- Elements that are joined to a line are its elements. -/
theorem tokens_intercalate {ts : List (List Char)} (h : ∀ t ∈ ts, IsElement t) :
    tokens (", ".toList.intercalate ts) = ts := by
  induction ts with
  | nil => rfl
  | cons t ts ih =>
      rw [List.forall_mem_cons] at h
      cases ts with
      | nil => rw [List.intercalate_singleton, tokens_of_isElement h.1]
      | cons t' ts =>
          have hspace := tokens_around (List.forall_mem_singleton.2 (show isOws ' ' = true from rfl))
            (List.forall_mem_nil _) (", ".toList.intercalate (t' :: ts))
          rw [List.append_nil] at hspace
          have hline : ", ".toList.intercalate (t :: t' :: ts)
              = t ++ ',' :: ([' '] ++ ", ".toList.intercalate (t' :: ts)) := by
            simp [List.intercalate_cons_cons]
          rw [hline, tokens_append_cons, hspace, tokens_of_isElement h.1, ih h.2]
          rfl

/-- The elements of a line are those of the line as it stands. -/
theorem items_eq_tokens (line : List Char) : items line = tokens line := by
  obtain ⟨a, b, ha, hb, hline⟩ := exists_of_trim isOws line
  conv_rhs => rw [hline, tokens_around ha hb]
  rfl

end FieldList
