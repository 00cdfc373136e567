/-
**Offsets and lower case in a text.**

The offsets of a text count the bytes of its characters.  A text can be split at an offset only
where a character begins or the text ends.

The lower case of a text may have another number of bytes.  Outside of ASCII it is taken from a
table, which may look at what stands around a character, as for a sigma at the end of a word.  ASCII
letters are in the table as the lower case of two characters only, the Kelvin sign and the dotted
capital I.

Main definitions:

* `UnicodeText.splitAtByte` — splitting a text at an offset;
* `UnicodeText.CaseTable`, `UnicodeText.CaseTable.lower` — lower case.

Main results:

* `UnicodeText.splitAtByte_eq_some_iff` — where a text can be split;
* `UnicodeText.CaseTable.lowerFrom_of_isAscii` — the lower case of an ASCII text;
* `UnicodeText.CaseTable.mem_lowerFrom` — its characters come from those of the text.
-/

import OxiHttp.Utf8
import Mathlib.Data.List.Induction

set_option relaxedAutoImplicit false
set_option autoImplicit false

namespace UnicodeText

/-! ### Offsets -/

/-- What stands in front of an offset, and from it on. -/
def splitAtByte : ℕ → List Char → Option (List Char × List Char)
  | 0, s => some ([], s)
  | _ + 1, [] => none
  | n + 1, c :: s =>
      if c.utf8Size ≤ n + 1 then (splitAtByte (n + 1 - c.utf8Size) s).map fun p => (c :: p.1, p.2)
      else none

theorem length_encode_cons (c : Char) (s : List Char) :
    (Utf8.encode (c :: s)).length = c.utf8Size + (Utf8.encode s).length := by
  rw [Utf8.encode_cons, List.length_append, String.length_utf8EncodeChar]

theorem splitAtByte_encode (a b : List Char) :
    splitAtByte (Utf8.encode a).length (a ++ b) = some (a, b) := by
  induction a with
  | nil => cases b <;> rfl
  | cons c a ih =>
      obtain ⟨n, hn⟩ := Nat.exists_eq_succ_of_ne_zero (Nat.ne_of_gt c.utf8Size_pos)
      have hlen : (Utf8.encode (c :: a)).length = n + (Utf8.encode a).length + 1 := by
        rw [length_encode_cons, hn]
        omega
      have hrest : n + (Utf8.encode a).length + 1 - c.utf8Size = (Utf8.encode a).length := by omega
      rw [hlen, List.cons_append, splitAtByte, if_pos (by omega), hrest, ih]
      rfl

/-- A text can be split where its first bytes are those of some of its characters. -/
theorem splitAtByte_eq_some_iff {n : ℕ} {s a b : List Char} :
    splitAtByte n s = some (a, b) ↔ s = a ++ b ∧ (Utf8.encode a).length = n := by
  constructor
  · intro h
    fun_induction splitAtByte n s generalizing a with
    | case1 s =>
        cases h
        exact ⟨rfl, rfl⟩
    | case2 n => cases h
    | case3 n c s hle ih =>
        obtain ⟨⟨a, b⟩, hsplit, heq⟩ := Option.map_eq_some_iff.1 h
        cases heq
        obtain ⟨rfl, hlen⟩ := ih hsplit
        refine ⟨rfl, ?_⟩
        rw [length_encode_cons, hlen]
        omega
    | case4 n c s hle => cases h
  · rintro ⟨rfl, rfl⟩
    exact splitAtByte_encode a b

/-! ### Lower case -/

/-- The lower case of the characters outside of ASCII, between what stands in front of them and
behind them. -/
structure CaseTable where
  form : List Char → Char → List Char → List Char
  form_ne : ∀ before c after, ¬ Utf8.IsAscii c → form before c after ≠ []
  ascii : ∀ before c after, ¬ Utf8.IsAscii c → ∀ d ∈ form before c after, Utf8.IsAscii d →
    d = 'k' ∨ d = 'i'

namespace CaseTable

variable (table : CaseTable)

def lowerChar (before : List Char) (c : Char) (after : List Char) : List Char :=
  if Utf8.IsAscii c then [c.toLower] else table.form before c after

/-- The lower case of a part of a text. -/
def lowerFrom (before : List Char) : List Char → List Char → List Char
  | [], _ => []
  | c :: s, after => table.lowerChar before c (s ++ after) ++ lowerFrom (before ++ [c]) s after

/-- `to_lowercase`. -/
def lower (s : List Char) : List Char := table.lowerFrom [] s []

/-- In an ASCII text the characters have their lower case one by one. -/
theorem lowerFrom_of_isAscii {s : List Char} (h : ∀ c ∈ s, Utf8.IsAscii c)
    (before after : List Char) : table.lowerFrom before s after = s.map Char.toLower := by
  induction s generalizing before with
  | nil => rfl
  | cons c s ih =>
      rw [List.forall_mem_cons] at h
      rw [lowerFrom, lowerChar, if_pos h.1, ih h.2]
      rfl

theorem lowerFrom_append (before s t after : List Char) :
    table.lowerFrom before (s ++ t) after =
      table.lowerFrom before s (t ++ after) ++ table.lowerFrom (before ++ s) t after := by
  induction s generalizing before with
  | nil => simp [lowerFrom]
  | cons c s ih => simp [lowerFrom, ih, List.append_assoc]

/-- Where a lower case begins with an ASCII character that no other character gets, this character
stands there itself, in one case or the other. -/
theorem eq_cons_of_lowerFrom_eq_cons {before s after t : List Char} {d : Char}
    (hd : Utf8.IsAscii d) (hk : d ≠ 'k') (hi : d ≠ 'i')
    (h : table.lowerFrom before s after = d :: t) :
    ∃ c s', s = c :: s' ∧ c.toLower = d ∧ t = table.lowerFrom (before ++ [c]) s' after := by
  cases s with
  | nil => cases h
  | cons c s =>
      rw [lowerFrom] at h
      by_cases hc : Utf8.IsAscii c
      · rw [lowerChar, if_pos hc, List.singleton_append, List.cons.injEq] at h
        exact ⟨c, s, rfl, h.1, h.2.symm⟩
      · rw [lowerChar, if_neg hc] at h
        obtain ⟨x, form, hform⟩ := List.exists_cons_of_ne_nil (table.form_ne before c _ hc)
        rw [hform, List.cons_append, List.cons.injEq] at h
        have hmem : d ∈ table.form before c (s ++ after) := by
          rw [hform, h.1]
          exact List.mem_cons_self
        rcases table.ascii before c _ hc d hmem hd with hdk | hdi
        · exact absurd hdk hk
        · exact absurd hdi hi

theorem lowerChar_ne (before : List Char) (c : Char) (after : List Char) :
    table.lowerChar before c after ≠ [] := by
  unfold lowerChar
  split_ifs with hc
  · exact List.cons_ne_nil _ _
  · exact table.form_ne before c after hc

/-- What stands in a lower case is in that of some character. -/
theorem mem_lowerFrom {before s after : List Char} {d : Char}
    (h : d ∈ table.lowerFrom before s after) :
    ∃ before' c after', c ∈ s ∧ d ∈ table.lowerChar before' c after' := by
  induction s generalizing before with
  | nil => cases h
  | cons c s ih =>
      rcases List.mem_append.1 h with h | h
      · exact ⟨_, c, _, List.mem_cons_self, h⟩
      · obtain ⟨before', c', after', hc, hd⟩ := ih h
        exact ⟨before', c', after', List.mem_cons_of_mem c hc, hd⟩

/-- What is its own lower case stays as it is. -/
theorem lowerFrom_eq_self {s : List Char}
    (h : ∀ d ∈ s, ∀ before after, table.lowerChar before d after = [d]) (before after : List Char) :
    table.lowerFrom before s after = s := by
  induction s generalizing before with
  | nil => rfl
  | cons d s ih =>
      rw [List.forall_mem_cons] at h
      rw [lowerFrom, h.1, ih h.2]
      rfl

/-- The first character of a lower case is in that of the first character. -/
theorem head?_lower {s : List Char} {d : Char} (h : (table.lower s).head? = some d) :
    ∃ c after, s.head? = some c ∧ d ∈ table.lowerChar [] c after := by
  cases s with
  | nil => cases h
  | cons c s =>
      refine ⟨c, s ++ [], rfl, ?_⟩
      rw [lower, lowerFrom, List.head?_append_of_ne_nil _ (table.lowerChar_ne _ _ _)] at h
      exact List.mem_of_head? h

theorem getLast?_lower {s : List Char} {d : Char} (h : (table.lower s).getLast? = some d) :
    ∃ before c, s.getLast? = some c ∧ d ∈ table.lowerChar before c [] := by
  induction s using List.reverseRecOn with
  | nil => cases h
  | append_singleton s c _ =>
      refine ⟨[] ++ s, c, List.getLast?_concat, ?_⟩
      have hlast : table.lowerFrom ([] ++ s) [c] [] = table.lowerChar ([] ++ s) c [] :=
        List.append_nil _
      rw [lower, lowerFrom_append, hlast, List.getLast?_append_of_ne_nil _
        (table.lowerChar_ne _ _ _)] at h
      exact List.mem_of_getLast? h

end CaseTable

end UnicodeText
