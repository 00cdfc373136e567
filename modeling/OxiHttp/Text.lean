/-
**Text.**

A `&str` or `String` of the source is a sequence of characters, which is what its users split,
compare and match.  `OxiHttp.Str` is that sequence; where the source goes through the bytes of a
text, `Utf8.encode` gives them.

Main definitions:

* `OxiHttp.Str` — a text;
* `OxiHttp.splitOnce` — `str::split_once`;
* `OxiHttp.lower`, `OxiHttp.eqIgnoreAsciiCase` — ASCII case;
* `OxiHttp.stripPfx`, `OxiHttp.trimEnd`, `OxiHttp.trim` — what is left of a text at its two ends;
* `OxiHttp.parseU64` — `str::parse::<u64>`.
-/

import Mathlib.Algebra.Group.Nat.Defs
import Mathlib.Data.List.Basic
import Mathlib.Data.List.DropRight
import Mathlib.Tactic.Common

set_option relaxedAutoImplicit false
set_option autoImplicit false

namespace OxiHttp

/-- A text, as a sequence of characters. -/
abbrev Str := List Char

/-- `split_once`: what stands before and after the first occurrence of `c`. -/
def splitOnce (c : Char) : Str → Option (Str × Str)
  | [] => none
  | x :: s =>
      if x = c then some ([], s)
      else (splitOnce c s).map fun p => (x :: p.1, p.2)

theorem splitOnce_append {c : Char} {a : Str} (h : c ∉ a) (b : Str) :
    splitOnce c (a ++ c :: b) = some (a, b) := by
  induction a with
  | nil => simp [splitOnce]
  | cons x a ih =>
      rw [List.mem_cons, not_or] at h
      rw [List.cons_append, splitOnce, if_neg (Ne.symm h.1), ih h.2]
      rfl

/-! ### ASCII case -/

/-- `to_ascii_lowercase`. -/
def lower (s : Str) : Str := s.map Char.toLower

/-- `eq_ignore_ascii_case`. -/
def eqIgnoreAsciiCase (a b : Str) : Bool := lower a = lower b

theorem toLower_val (c : Char) : c.toLower.val.toNat
    = if 65 ≤ c.val.toNat ∧ c.val.toNat ≤ 90 then c.val.toNat + 32 else c.val.toNat := by
  unfold Char.toLower
  split <;> grind [UInt32.toNat_add, UInt32.le_iff_toNat_le]

theorem toLower_toLower (c : Char) : c.toLower.toLower = c.toLower := by
  have h := toLower_val c
  rw [Char.ext_iff, ← UInt32.toNat_inj, toLower_val c.toLower]
  split <;> grind

/-- A character that is no letter is the lower case of itself only. -/
theorem toLower_eq_iff {c d : Char}
    (hd : d.val.toNat < 65 ∨ (90 < d.val.toNat ∧ d.val.toNat < 97) ∨ 122 < d.val.toNat) :
    c.toLower = d ↔ c = d := by
  have h := toLower_val c
  rw [Char.ext_iff, Char.ext_iff, ← UInt32.toNat_inj, ← UInt32.toNat_inj, h]
  split <;> grind

@[simp] theorem lower_lower (s : Str) : lower (lower s) = lower s := by
  rw [lower, lower, List.map_map]
  exact List.map_congr_left fun c _ => toLower_toLower c

/-- Lower case keeps and adds no character that is no letter. -/
theorem mem_lower_iff {d : Char}
    (hd : d.val.toNat < 65 ∨ (90 < d.val.toNat ∧ d.val.toNat < 97) ∨ 122 < d.val.toNat) {s : Str} :
    d ∈ lower s ↔ d ∈ s := by
  simp [lower, toLower_eq_iff hd]

@[simp] theorem length_lower (s : Str) : (lower s).length = s.length := by simp [lower]

theorem eqIgnoreAsciiCase_iff {a b : Str} : eqIgnoreAsciiCase a b = true ↔ lower a = lower b := by
  simp [eqIgnoreAsciiCase]

/-! ### The ends of a text -/

/-- `strip_prefix`: what follows a text at the start of another. -/
def stripPfx (pfx s : Str) : Option Str :=
  if pfx.isPrefixOf s then some (s.drop pfx.length) else none

/-- What follows a text at the start of another is what it has to be appended to it. -/
theorem stripPfx_eq_some_iff {pfx s t : Str} : stripPfx pfx s = some t ↔ s = pfx ++ t := by
  unfold stripPfx
  constructor
  · intro h
    split at h
    case isTrue hp =>
        cases h
        exact List.prefix_iff_eq_append.1 (List.isPrefixOf_iff_prefix.1 hp) |>.symm
    case isFalse => cases h
  · rintro rfl
    rw [if_pos (List.isPrefixOf_iff_prefix.2 (List.prefix_append _ _)), List.drop_left]

/-- `trim_end_matches(c)`. -/
def trimEnd (c : Char) (s : Str) : Str := s.rdropWhile (· = c)

/-- `char::is_whitespace`: the Unicode property White_Space. -/
def isWhitespace (c : Char) : Bool :=
  let n := c.toNat
  (0x09 ≤ n && n ≤ 0x0D) || n == 0x20 || n == 0x85 || n == 0xA0 || n == 0x1680 ||
    (0x2000 ≤ n && n ≤ 0x200A) || n == 0x2028 || n == 0x2029 || n == 0x202F || n == 0x205F ||
    n == 0x3000

/-- `trim`. -/
def trim (s : Str) : Str := (s.dropWhile isWhitespace).rdropWhile isWhitespace

/-- What stands before the first colon: `split(':').next()`. -/
def beforeColon (s : Str) : Str := s.takeWhile (· ≠ ':')

theorem beforeColon_of_notMem {s : Str} (h : ':' ∉ s) : beforeColon s = s := by
  refine List.takeWhile_eq_self_iff.2 fun c hc => ?_
  rw [decide_eq_true_eq]
  rintro rfl
  exact h hc

theorem colon_notMem_beforeColon (s : Str) : ':' ∉ beforeColon s := by
  intro h
  simpa using List.mem_takeWhile_imp h

/-! ### Numbers -/

/-- The value of a decimal digit. -/
def digitValue (c : Char) : Option ℕ := if c.isDigit then some (c.toNat - 0x30) else none

/-- The number with these decimal digits, of which there is at least one. -/
def parseDigits (s : Str) : Option ℕ :=
  if s.isEmpty then none
  else s.foldl (fun acc c => acc.bind fun n => (digitValue c).map fun d => 10 * n + d) (some 0)

/-- `parse::<u64>`: digits, perhaps after a `+`, with a value below `2 ^ 64`. -/
def parseU64 (s : Str) : Option ℕ :=
  (parseDigits (match s with
    | '+' :: s => s
    | s => s)).filter (· < 2 ^ 64)

end OxiHttp
