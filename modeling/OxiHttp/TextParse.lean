/-
**Taking texts apart.**

The parsers of the server take a text apart with the methods of `str`: at the first or the last
occurrence of a separator, at white space, and down to numbers, which may carry a plus sign.

Main definitions:

* `OxiHttp.splitOnceStr`, `OxiHttp.rsplitOnce` — `split_once` with a text, and `rsplit_once`;
* `OxiHttp.splitWhitespace` — `split_whitespace`;
* `OxiHttp.dropPlus`, `OxiHttp.parseU32` — `parse::<u32>`.

Main results:

* `OxiHttp.parseU64_eq_some_iff`, `OxiHttp.parseU32_eq_some_iff` — what reads as a number;
* `OxiHttp.splitWhitespace_cons` — words that white space separates.
-/

import OxiHttp.Decimal
import OxiHttp.FieldList
import OxiHttp.Pieces
import OxiHttp.Text

set_option relaxedAutoImplicit false
set_option autoImplicit false

namespace OxiHttp

/-! ### Numbers -/

/-- A number without its plus sign. -/
def dropPlus : Str → Str
  | '+' :: s => s
  | s => s

/-- `parse::<u32>`: digits, perhaps after a `+`, with a value below `2 ^ 32`. -/
def parseU32 (s : Str) : Option ℕ := (parseDigits (dropPlus s)).filter (· < 2 ^ 32)

theorem parseU64_eq (s : Str) : parseU64 s = (parseDigits (dropPlus s)).filter (· < 2 ^ 64) := rfl

/-- A text that begins with a digit has no plus sign. -/
theorem dropPlus_of_isNumeral {s : Str} (h : Decimal.IsNumeral s) : dropPlus s = s := by
  unfold dropPlus
  split
  · exact absurd List.mem_cons_self (h.notMem rfl)
  · rfl

theorem mem_of_mem_dropPlus {c : Char} {s : Str} (h : c ∈ s) (hc : c ≠ '+') :
    c ∈ dropPlus s := by
  unfold dropPlus
  split
  case h_1 => exact (List.mem_cons.1 h).resolve_left hc
  case h_2 => exact h

theorem notMem_of_isNumeral_dropPlus {s : Str} (h : Decimal.IsNumeral (dropPlus s)) {c : Char}
    (hc : c ≠ '+') (hdigit : c.isDigit = false) : c ∉ s :=
  fun hmem => h.notMem hdigit (mem_of_mem_dropPlus hmem hc)

/-- Reading digit by digit, from a number on. -/
theorem foldl_digits_eq_some_iff {s : Str} {init n : ℕ} :
    s.foldl (fun acc c => acc.bind fun n => (digitValue c).map fun d => 10 * n + d) (some init)
        = some n ↔
      (∀ c ∈ s, c.isDigit = true) ∧ Nat.ofDigitChars 10 s init = n := by
  induction s generalizing init with
  | nil => simp
  | cons c s ih =>
      rw [List.foldl_cons, List.forall_mem_cons, Nat.ofDigitChars_cons, Option.bind_some,
        digitValue]
      cases hc : c.isDigit with
      | true =>
          rw [if_pos rfl, Option.map_some, ih]
          simp
      | false =>
          rw [if_neg Bool.false_ne_true, Option.map_none]
          have hnone : ∀ s : Str, s.foldl (fun acc c => acc.bind fun n =>
              (digitValue c).map fun d => 10 * n + d) none = none := fun s => by
            induction s with
            | nil => rfl
            | cons c s ih => exact ih
          simp [hnone]

theorem parseDigits_eq_some_iff {s : Str} {n : ℕ} :
    parseDigits s = some n ↔ Decimal.IsNumeral s ∧ Decimal.value s = n := by
  unfold parseDigits Decimal.IsNumeral Decimal.value
  cases s with
  | nil => simp
  | cons c s =>
      rw [List.isEmpty_cons, if_neg Bool.false_ne_true, foldl_digits_eq_some_iff]
      simp

theorem parseU64_eq_some_iff {s : Str} {n : ℕ} :
    parseU64 s = some n ↔
      Decimal.IsNumeral (dropPlus s) ∧ Decimal.value (dropPlus s) = n ∧ n < 2 ^ 64 := by
  rw [parseU64_eq, Option.filter_eq_some_iff, parseDigits_eq_some_iff, decide_eq_true_eq, and_assoc]

/-- A number without a sign is read unless it is too large. -/
theorem parseU64_of_isNumeral {s : Str} (h : Decimal.IsNumeral s) :
    parseU64 s = if Decimal.value s < 2 ^ 64 then some (Decimal.value s) else none := by
  split
  case isTrue hlt =>
      rw [parseU64_eq_some_iff, dropPlus_of_isNumeral h]
      exact ⟨h, rfl, hlt⟩
  case isFalse hlt =>
      rw [Option.eq_none_iff_forall_ne_some]
      intro n hn
      obtain ⟨-, hvalue, hn⟩ := parseU64_eq_some_iff.1 hn
      rw [dropPlus_of_isNumeral h] at hvalue
      rw [hvalue] at hlt
      exact hlt hn

theorem parseU32_eq_some_iff {s : Str} {n : ℕ} :
    parseU32 s = some n ↔
      Decimal.IsNumeral (dropPlus s) ∧ Decimal.value (dropPlus s) = n ∧ n < 2 ^ 32 := by
  rw [parseU32, Option.filter_eq_some_iff, parseDigits_eq_some_iff, decide_eq_true_eq, and_assoc]

/-- A numeral is read as its value. -/
theorem parseU32_of_isNumeral {s : Str} (h : Decimal.IsNumeral s)
    (hlt : Decimal.value s < 2 ^ 32) : parseU32 s = some (Decimal.value s) := by
  rw [parseU32_eq_some_iff, dropPlus_of_isNumeral h]
  exact ⟨h, rfl, hlt⟩

theorem parseU32_padded {width n : ℕ} (h : n < 2 ^ 32) :
    parseU32 (Decimal.padded width n) = some n := by
  have hread := parseU32_of_isNumeral (Decimal.isNumeral_padded width n)
    (by rwa [Decimal.value_padded])
  rwa [Decimal.value_padded] at hread

/-! ### Separators -/

/-- `split_once` with a text that is not empty. -/
def splitOnceStr (pat : Str) : Str → Option (Str × Str)
  | [] => none
  | x :: s =>
      match stripPfx pat (x :: s) with
      | some rest => some ([], rest)
      | none => (splitOnceStr pat s).map fun p => (x :: p.1, p.2)

/-- `rsplit_once`. -/
def rsplitOnce (c : Char) (s : Str) : Option (Str × Str) :=
  (splitOnce c s.reverse).map fun p => (p.2.reverse, p.1.reverse)

theorem rsplitOnce_append {c : Char} {b : Str} (h : c ∉ b) (a : Str) :
    rsplitOnce c (a ++ c :: b) = some (a, b) := by
  have hrev : (a ++ c :: b).reverse = b.reverse ++ c :: a.reverse := by simp
  rw [rsplitOnce, hrev, splitOnce_append (by simpa using h)]
  simp

/-- Where the separator does not begin, the search goes on. -/
theorem splitOnceStr_cons {pat s : Str} {x : Char} (h : pat.head? ≠ some x) (hne : pat ≠ []) :
    splitOnceStr pat (x :: s) = (splitOnceStr pat s).map fun p => (x :: p.1, p.2) := by
  rw [splitOnceStr]
  cases hstrip : stripPfx pat (x :: s) with
  | none => rfl
  | some rest =>
      rw [stripPfx_eq_some_iff] at hstrip
      cases pat with
      | nil => exact absurd rfl hne
      | cons y pat =>
          cases hstrip
          exact absurd rfl h

/-- A text that is cut is put together from its parts. -/
theorem splitOnceStr_eq_some {pat s a b : Str} (h : splitOnceStr pat s = some (a, b)) :
    s = a ++ (pat ++ b) := by
  induction s generalizing a b with
  | nil => cases h
  | cons x s ih =>
      rw [splitOnceStr] at h
      cases hstrip : stripPfx pat (x :: s) with
      | some rest =>
          rw [hstrip] at h
          cases h
          rw [stripPfx_eq_some_iff.1 hstrip]
          rfl
      | none =>
          rw [hstrip] at h
          obtain ⟨⟨a', b'⟩, hsplit, heq⟩ := Option.map_eq_some_iff.1 h
          cases heq
          rw [ih hsplit]
          rfl

/-- A separator after a text without its first character. -/
theorem splitOnceStr_append {c : Char} {pat a : Str} (h : c ∉ a) (b : Str) :
    splitOnceStr (c :: pat) (a ++ (c :: pat ++ b)) = some (a, b) := by
  induction a with
  | nil =>
      rw [List.nil_append, List.cons_append, splitOnceStr]
      have hstrip : stripPfx (c :: pat) (c :: (pat ++ b)) = some b :=
        stripPfx_eq_some_iff.2 rfl
      rw [hstrip]
  | cons x a ih =>
      rw [List.mem_cons, not_or] at h
      rw [List.cons_append, splitOnceStr_cons (by simpa using h.1) (List.cons_ne_nil _ _), ih h.2]
      rfl

/-- A separator is searched for behind a text that it does not begin in. -/
theorem splitOnceStr_append_left {c : Char} {pat a : Str} (h : c ∉ a) (s : Str) :
    splitOnceStr (c :: pat) (a ++ s) =
      (splitOnceStr (c :: pat) s).map fun p => (a ++ p.1, p.2) := by
  induction a with
  | nil => simp
  | cons x a ih =>
      rw [List.mem_cons, not_or] at h
      rw [List.cons_append, splitOnceStr_cons (by simpa using h.1) (List.cons_ne_nil _ _), ih h.2,
        Option.map_map]
      rfl

theorem splitOnceStr_eq_none {c : Char} {pat s : Str} (h : c ∉ s) :
    splitOnceStr (c :: pat) s = none := by
  induction s with
  | nil => rfl
  | cons x s ih =>
      rw [List.mem_cons, not_or] at h
      rw [splitOnceStr_cons (by simpa using h.1) (List.cons_ne_nil _ _), ih h.2]
      rfl

theorem splitOnce_eq_some {c : Char} {s a b : Str} (h : splitOnce c s = some (a, b)) :
    s = a ++ c :: b ∧ c ∉ a := by
  induction s generalizing a with
  | nil => cases h
  | cons x s ih =>
      rw [splitOnce] at h
      split_ifs at h with hx
      · cases h
        exact ⟨by rw [hx]; rfl, List.not_mem_nil⟩
      · obtain ⟨⟨a', b'⟩, hsplit, heq⟩ := Option.map_eq_some_iff.1 h
        cases heq
        obtain ⟨hs, hnot⟩ := ih hsplit
        refine ⟨by rw [hs]; rfl, ?_⟩
        rw [List.mem_cons, not_or]
        exact ⟨Ne.symm hx, hnot⟩

/-- The separator of a text that has none does not stand in it. -/
theorem notMem_of_splitOnce_eq_none {c : Char} {s : Str} (h : splitOnce c s = none) : c ∉ s := by
  intro hmem
  obtain ⟨a, b, rfl, ha⟩ := List.eq_append_cons_of_mem hmem
  rw [splitOnce_append ha] at h
  cases h

theorem splitOnce_eq_none {c : Char} {s : Str} (h : c ∉ s) : splitOnce c s = none := by
  rw [Option.eq_none_iff_forall_ne_some]
  intro p hp
  rw [(splitOnce_eq_some hp).1] at h
  simp at h

/-! ### White space -/

/-- `split_whitespace`. -/
def splitWhitespace (s : Str) : List Str := (s.splitOnP isWhitespace).filter fun w => !w.isEmpty

/-- A word: there is something of it, and no white space. -/
def IsWord (s : Str) : Prop := s ≠ [] ∧ ∀ c ∈ s, isWhitespace c = false

instance (s : Str) : Decidable (IsWord s) := @instDecidableAnd _ _ _ (List.decidableBAll _ s)

/-- The words on both sides of white space. -/
theorem splitWhitespace_append_cons {c : Char} (hc : isWhitespace c = true) (a b : Str) :
    splitWhitespace (a ++ c :: b) = splitWhitespace a ++ splitWhitespace b := by
  rw [splitWhitespace, List.splitOnP_append_cons a b hc, List.filter_append]
  rfl

theorem splitWhitespace_of_isWord {w : Str} (h : IsWord w) : splitWhitespace w = [w] := by
  rw [splitWhitespace, List.splitOnP_eq_singleton h.2]
  simp [h.1]

/-- A word, and what comes behind white space. -/
theorem splitWhitespace_cons {w : Str} (h : IsWord w) {c : Char} (hc : isWhitespace c = true)
    (s : Str) : splitWhitespace (w ++ c :: s) = w :: splitWhitespace s := by
  rw [splitWhitespace, List.splitOnP_append_cons_of_forall_mem h.2 c hc, List.filter_cons_of_pos]
  · rfl
  · simp [h.1]

/-- White space in front is passed over. -/
theorem splitWhitespace_space {c : Char} (hc : isWhitespace c = true) (s : Str) :
    splitWhitespace (c :: s) = splitWhitespace s := by
  rw [splitWhitespace, List.splitOnP_cons_eq_if_modifyHead, if_pos hc]
  rfl

/-- There is nothing to trim when a text neither begins nor ends with white space. -/
theorem trim_eq_self {s : Str} (hfirst : ∀ c, s.head? = some c → isWhitespace c = false)
    (hlast : ∀ c, s.getLast? = some c → isWhitespace c = false) : trim s = s :=
  FieldList.trim_eq_self hfirst hlast

/-- White space around a text does not count. -/
theorem trim_around {a b : Str} (ha : ∀ c ∈ a, isWhitespace c = true)
    (hb : ∀ c ∈ b, isWhitespace c = true) (s : Str) : trim (a ++ s ++ b) = trim s :=
  FieldList.trim_around ha hb s

theorem mem_of_mem_trim {s : Str} {c : Char} (h : c ∈ trim s) : c ∈ s :=
  (FieldList.trim_sublist isWhitespace s).mem h

theorem trim_trim (s : Str) : trim (trim s) = trim s := FieldList.trim_trim isWhitespace s

example : splitWhitespace " Sun Nov  6\t1994".toList
    = ["Sun".toList, "Nov".toList, "6".toList, "1994".toList] := by decide
example : rsplitOnce ' ' "08:49:37 GMT".toList = some ("08:49:37".toList, "GMT".toList) := by decide

end OxiHttp
