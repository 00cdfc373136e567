/-
**Base64.**

The encoding of RFC 4648 §4: three bytes become four characters of an alphabet of sixty-four, and
`=` pads the last group.

Main definitions:

* `Base64.digit`, `Base64.value` — the alphabet, both ways;
* `Base64.encode`, `Base64.decode` — byte strings to text and back.

Main results:

* `Base64.decode_encode` — decoding inverts encoding;
* `Base64.encode_injective` — different byte strings have different encodings;
* `Base64.mem_encode`, `Base64.printing_of_mem_encode` — the characters that occur.
-/

import Mathlib.Data.List.Basic
import Mathlib.Data.Nat.Basic
import Mathlib.Tactic.Common

set_option relaxedAutoImplicit false
set_option autoImplicit false

namespace Base64

/-- The alphabet. -/
def alphabet : List Char :=
  "ABCDEFGHIJKLMNOPQRSTUVWXYZabcdefghijklmnopqrstuvwxyz0123456789+/".toList

/-- The character of a number below 64. -/
def digit (n : ℕ) : Char := alphabet.getD n 'A'

/-- The number of a character. -/
def value (c : Char) : Option ℕ :=
  if c.isUpper then some (c.toNat - 65)
  else if c.isLower then some (c.toNat - 71)
  else if c.isDigit then some (c.toNat + 4)
  else if c = '+' then some 62
  else if c = '/' then some 63
  else none

theorem value_digit : ∀ n < 64, value (digit n) = some n := by decide +kernel

theorem digit_ne_pad : ∀ n < 64, digit n ≠ '=' := by decide +kernel

/-- The encoding. -/
def encode : List UInt8 → List Char
  | [] => []
  | [a] => [digit (a.toNat / 4), digit (a.toNat % 4 * 16), '=', '=']
  | [a, b] =>
      [digit (a.toNat / 4), digit (a.toNat % 4 * 16 + b.toNat / 16), digit (b.toNat % 16 * 4), '=']
  | a :: b :: c :: rest =>
      digit (a.toNat / 4) :: digit (a.toNat % 4 * 16 + b.toNat / 16) ::
        digit (b.toNat % 16 * 4 + c.toNat / 64) :: digit (c.toNat % 64) :: encode rest

/-- The bytes of one group: its characters give six bits each, and bits that make no whole byte have
to be zero. -/
def group (a b c d : Char) : Option (List UInt8) := do
  let x ← value a
  let y ← value b
  if c = '=' ∧ d = '=' then
    if y % 16 = 0 then some [UInt8.ofNat (x * 4 + y / 16)] else none
  else
    let z ← value c
    if d = '=' then
      if z % 4 = 0 then some [UInt8.ofNat (x * 4 + y / 16), UInt8.ofNat (y % 16 * 16 + z / 4)]
      else none
    else
      let w ← value d
      some [UInt8.ofNat (x * 4 + y / 16), UInt8.ofNat (y % 16 * 16 + z / 4),
        UInt8.ofNat (z % 4 * 64 + w)]

/-- The decoding.  Only the last group may be padded. -/
def decode : List Char → Option (List UInt8)
  | [] => some []
  | a :: b :: c :: d :: rest => do
      let bytes ← group a b c d
      if d = '=' ∧ rest ≠ [] then none
      else
        let tail ← decode rest
        some (bytes ++ tail)
  | _ => none

/-! ### One group -/

section Group

variable (a b c : UInt8)

theorem ofNat_of_eq {n : ℕ} {b : UInt8} (h : n = b.toNat) : UInt8.ofNat n = b := by
  rw [h, UInt8.ofNat_toNat]

theorem group_one :
    group (digit (a.toNat / 4)) (digit (a.toNat % 4 * 16)) '=' '=' = some [a] := by
  have ha := a.toNat_lt
  have hbyte : UInt8.ofNat (a.toNat / 4 * 4 + a.toNat % 4 * 16 / 16) = a := ofNat_of_eq (by omega)
  simp only [group, value_digit _ (show a.toNat / 4 < 64 by omega),
    value_digit _ (show a.toNat % 4 * 16 < 64 by omega), Option.bind_eq_bind, Option.bind_some]
  rw [if_pos (by simp), if_pos (by omega), hbyte]

theorem group_two :
    group (digit (a.toNat / 4)) (digit (a.toNat % 4 * 16 + b.toNat / 16))
      (digit (b.toNat % 16 * 4)) '=' = some [a, b] := by
  have ha := a.toNat_lt
  have hb := b.toNat_lt
  have hbyte₁ : UInt8.ofNat (a.toNat / 4 * 4 + (a.toNat % 4 * 16 + b.toNat / 16) / 16) = a :=
    ofNat_of_eq (by omega)
  have hbyte₂ : UInt8.ofNat ((a.toNat % 4 * 16 + b.toNat / 16) % 16 * 16 + b.toNat % 16 * 4 / 4)
      = b := ofNat_of_eq (by omega)
  have hpad := digit_ne_pad _ (show b.toNat % 16 * 4 < 64 by omega)
  simp only [group, value_digit _ (show a.toNat / 4 < 64 by omega),
    value_digit _ (show a.toNat % 4 * 16 + b.toNat / 16 < 64 by omega),
    value_digit _ (show b.toNat % 16 * 4 < 64 by omega), Option.bind_eq_bind, Option.bind_some]
  rw [if_neg fun h => hpad h.1, if_pos trivial, if_pos (by omega), hbyte₁, hbyte₂]

theorem group_three :
    group (digit (a.toNat / 4)) (digit (a.toNat % 4 * 16 + b.toNat / 16))
      (digit (b.toNat % 16 * 4 + c.toNat / 64)) (digit (c.toNat % 64)) = some [a, b, c] := by
  have ha := a.toNat_lt
  have hb := b.toNat_lt
  have hc := c.toNat_lt
  have hbyte₁ : UInt8.ofNat (a.toNat / 4 * 4 + (a.toNat % 4 * 16 + b.toNat / 16) / 16) = a :=
    ofNat_of_eq (by omega)
  have hbyte₂ : UInt8.ofNat ((a.toNat % 4 * 16 + b.toNat / 16) % 16 * 16
      + (b.toNat % 16 * 4 + c.toNat / 64) / 4) = b := ofNat_of_eq (by omega)
  have hbyte₃ : UInt8.ofNat ((b.toNat % 16 * 4 + c.toNat / 64) % 4 * 64 + c.toNat % 64) = c :=
    ofNat_of_eq (by omega)
  have hpad := digit_ne_pad _ (show c.toNat % 64 < 64 by omega)
  simp only [group, value_digit _ (show a.toNat / 4 < 64 by omega),
    value_digit _ (show a.toNat % 4 * 16 + b.toNat / 16 < 64 by omega),
    value_digit _ (show b.toNat % 16 * 4 + c.toNat / 64 < 64 by omega),
    value_digit _ (show c.toNat % 64 < 64 by omega), Option.bind_eq_bind, Option.bind_some]
  rw [if_neg fun h => hpad h.2, if_neg hpad, hbyte₁, hbyte₂, hbyte₃]

end Group

/-! ### The whole text -/

/-- Decoding inverts encoding. -/
theorem decode_encode (bs : List UInt8) : decode (encode bs) = some bs := by
  fun_induction encode bs with
  | case1 => rfl
  | case2 a => simp [decode, group_one]
  | case3 a b => simp [decode, group_two]
  | case4 a b c rest ih =>
      have hpad := digit_ne_pad _ (Nat.mod_lt c.toNat (show 0 < 64 by decide))
      simp [decode, group_three, hpad, ih]

theorem encode_injective : Function.Injective encode := by
  intro a b h
  rw [← Option.some_inj, ← decode_encode, h, decode_encode]

/-- Only characters of the alphabet and the padding occur. -/
theorem mem_encode {bs : List UInt8} {c : Char} (h : c ∈ encode bs) :
    c = '=' ∨ ∃ n < 64, c = digit n := by
  fun_induction encode bs with
  | case1 => cases h
  | case2 a =>
      have ha := a.toNat_lt
      simp only [List.mem_cons, List.not_mem_nil, or_false] at h
      rcases h with h | h | h | h
      · exact .inr ⟨_, by omega, h⟩
      · exact .inr ⟨_, by omega, h⟩
      · exact .inl h
      · exact .inl h
  | case3 a b =>
      have ha := a.toNat_lt
      have hb := b.toNat_lt
      simp only [List.mem_cons, List.not_mem_nil, or_false] at h
      rcases h with h | h | h | h
      · exact .inr ⟨_, by omega, h⟩
      · exact .inr ⟨_, by omega, h⟩
      · exact .inr ⟨_, by omega, h⟩
      · exact .inl h
  | case4 a b c rest ih =>
      have ha := a.toNat_lt
      have hb := b.toNat_lt
      have hc := c.toNat_lt
      simp only [List.mem_cons] at h
      rcases h with h | h | h | h | h
      · exact .inr ⟨_, by omega, h⟩
      · exact .inr ⟨_, by omega, h⟩
      · exact .inr ⟨_, by omega, h⟩
      · exact .inr ⟨_, by omega, h⟩
      · exact ih h

/-- They are printing ASCII characters. -/
theorem printing_of_mem_encode {bs : List UInt8} {c : Char} (h : c ∈ encode bs) :
    0x20 ≤ c.val.toNat ∧ c.val.toNat < 0x7F := by
  have hdigit : ∀ n < 64, 0x20 ≤ (digit n).val.toNat ∧ (digit n).val.toNat < 0x7F := by
    decide +kernel
  rcases mem_encode h with rfl | ⟨n, hn, rfl⟩
  · decide
  · exact hdigit n hn

end Base64
