/-
**Which queries `percent_decode` decodes right.**

The form-urlencoded decoding of a text turns `+` into a space and `%` with two hex digits into a
byte, keeps every other byte, and reads the result as UTF-8.  `percent_decode` differs in three
ways: a `%` that starts no escape takes the two bytes after it along, `%+f` is taken for an escape,
and each byte from `0x80` on becomes a character of its own.

Two such deviations may still cancel: `%%3d` loses `%3` and keeps `d` where the right decoding keeps
`%` and makes `=` of the rest.  The texts that are decoded right are those cut into pieces by
`OxiHttp.DecodesRight`.  That there are no others is a count: no deviation adds a `%` to the result,
so on a text that is decoded right none may lose one, and between two `%` the result has as many
ASCII bytes as it should and twice as many others.

Main definitions:

* `OxiHttp.formBytes` — the form-urlencoded decoding, as bytes;
* `OxiHttp.decodedBytes` — the bytes of what `percent_decode` returns;
* `OxiHttp.DecodesRight` — the texts that are decoded right.

Main results:

* `OxiHttp.count_decodedBytes_le` — no deviation adds a `%`;
* `OxiHttp.percentDecode_form_iff` — the exact condition.
-/

import OxiHttp.Query
import Mathlib.Data.List.Count

set_option relaxedAutoImplicit false
set_option autoImplicit false

namespace OxiHttp

/-! ### The form-urlencoded decoding -/

/-- The byte that an escape with these two digits stands for. -/
def escapeByte (h l : UInt8) : Option UInt8 :=
  (hexDigit h).bind fun h => (hexDigit l).map fun l => UInt8.ofNat (16 * h + l)

/-- A byte outside of escapes. -/
def formByte (b : UInt8) : UInt8 := if b = 0x2B then 0x20 else b

/-- The form-urlencoded decoding.  A `%` that starts no escape stays, and the bytes after it are
decoded like any others. -/
def formBytes : List UInt8 → List UInt8
  | b :: h :: l :: rest =>
      match if b = 0x25 then escapeByte h l else none with
      | some d => d :: formBytes rest
      | none => formByte b :: formBytes (h :: l :: rest)
  | b :: rest => formByte b :: formBytes rest
  | [] => []

/-- The bytes of what `percent_decode` makes of these bytes. -/
def decodedBytes (bs : List UInt8) : List UInt8 := Utf8.encode (decodeBytes bs)

/-- `percent_decode` returns the form-urlencoded decoding of its argument, read as UTF-8.  Where the
decoded bytes are no UTF-8 there is no such text. -/
def DecodesForm (s : Str) : Prop := Utf8.encode (percentDecode s) = formBytes (Utf8.encode s)

instance (s : Str) : Decidable (DecodesForm s) := inferInstanceAs (Decidable (_ = _))

/-- An ASCII digit. -/
def IsDecimal (b : UInt8) : Prop := 0x30 ≤ b ∧ b ≤ 0x39

/-- What stands for one byte in the form-urlencoded decoding. -/
inductive Token : List UInt8 → UInt8 → Prop
  | plain (b : UInt8) (hb : b ≠ 0x25) : Token [b] (formByte b)
  | escape {h l d : UInt8} (hd : escapeByte h l = some d) : Token [0x25, h, l] d

/-- The texts that are decoded right, by their bytes. -/
inductive DecodesRight : List UInt8 → Prop
  | nil : DecodesRight []
  /-- A `%` at the end. -/
  | percent : DecodesRight [0x25]
  /-- An ASCII character, as it is or escaped. -/
  | token {t r : List UInt8} {v : UInt8} (ht : Token t v) (hv : v < 0x80) (hr : DecodesRight r) :
      DecodesRight (t ++ r)
  /-- `%%3d` with a decimal digit for `d`: the right decoding makes `d` of the `%3d`, and
  `percent_decode` loses the `%3`. -/
  | doubled {d : UInt8} {r : List UInt8} (hd : IsDecimal d) (hr : DecodesRight r) :
      DecodesRight (0x25 :: 0x25 :: 0x33 :: d :: r)
  /-- `%3%3d` likewise. -/
  | split {d : UInt8} {r : List UInt8} (hd : IsDecimal d) (hr : DecodesRight r) :
      DecodesRight (0x25 :: 0x33 :: 0x25 :: 0x33 :: d :: r)
  /-- `%`, the letter `Â`, and a character from `U+0080` to `U+00BF`, which is read as two: the
  first of them stands in for the letter that was lost. -/
  | letter {t t' r : List UInt8} {v : UInt8} (ht : Token t 0xC2) (ht' : Token t' v)
      (hlow : 0x80 ≤ v) (hhigh : v < 0xC0) (hr : DecodesRight r) :
      DecodesRight (0x25 :: 0xC3 :: 0x82 :: (t ++ (t' ++ r)))

/-! ### Bytes -/

/-- The bytes of the character that `percent_decode` makes of a byte. -/
def charBytes (b : UInt8) : List UInt8 := String.utf8EncodeChar (asChar b)

theorem charBytes_eq : ∀ b : UInt8, charBytes b =
    if b < 0x80 then [b] else if b < 0xC0 then [0xC2, b] else [0xC3, b - 0x40] :=
  forall_byte (by decide +kernel)

theorem charBytes_of_lt {b : UInt8} (h : b < 0x80) : charBytes b = [b] := by
  rw [charBytes_eq, if_pos h]

/-- A byte that is not ASCII becomes two of its kind. -/
theorem charBytes_of_le {b : UInt8} (h : 0x80 ≤ b) :
    ∃ x y, charBytes b = [x, y] ∧ 0x80 ≤ x ∧ 0x80 ≤ y := by
  rw [charBytes_eq, if_neg (UInt8.not_lt.2 h)]
  split
  case isTrue => exact ⟨_, _, rfl, by decide, h⟩
  case isFalse hhigh =>
      refine ⟨_, _, rfl, by decide, ?_⟩
      rw [UInt8.not_lt, UInt8.le_iff_toNat_le] at hhigh
      rw [UInt8.le_iff_toNat_le, UInt8.toNat_sub_of_le _ _ (by
        rw [UInt8.le_iff_toNat_le]
        exact le_trans (by decide) hhigh)]
      exact Nat.sub_le_sub_right hhigh 0x40

theorem hexDigit_cases : ∀ b : UInt8, ∀ n ∈ hexDigit b,
    b ≠ 0x25 ∧ b ≠ 0x2B ∧ b < 0x80 ∧ n < 16 :=
  forall_byte (by decide +kernel)

section HexDigit

variable {b : UInt8} {n : ℕ}

theorem hexDigit_lt (h : hexDigit b = some n) : n < 16 := (hexDigit_cases b n h).2.2.2

theorem ne_percent_of_hexDigit (h : hexDigit b = some n) : b ≠ 0x25 := (hexDigit_cases b n h).1

theorem ne_plus_of_hexDigit (h : hexDigit b = some n) : b ≠ 0x2B := (hexDigit_cases b n h).2.1

theorem ascii_of_hexDigit (h : hexDigit b = some n) : b < 0x80 := (hexDigit_cases b n h).2.2.1

end HexDigit

theorem escapeByte_eq_some {h l d : UInt8} : escapeByte h l = some d ↔
    ∃ m n, hexDigit h = some m ∧ hexDigit l = some n ∧ UInt8.ofNat (16 * m + n) = d := by
  simp only [escapeByte, Option.bind_eq_some_iff, Option.map_eq_some_iff, exists_and_left]

/-- Without a sign, what is read is the value of the escape. -/
theorem fromStrRadix16_of_ne {h l : UInt8} (hplus : h ≠ 0x2B) :
    fromStrRadix16 h l = (escapeByte h l).map UInt8.toNat := by
  rw [fromStrRadix16, if_neg hplus, escapeByte]
  cases hh : hexDigit h with
  | none => rfl
  | some m =>
      cases hl : hexDigit l with
      | none => rfl
      | some n =>
          have hm := hexDigit_lt hh
          have hn := hexDigit_lt hl
          have hvalue : (UInt8.ofNat (16 * m + n)).toNat = 16 * m + n := by
            rw [UInt8.toNat_ofNat', Nat.mod_eq_of_lt (by omega)]
          exact congrArg some hvalue.symm

/-- What is an escape is read as one. -/
theorem fromStrRadix16_of_escapeByte {h l d : UInt8} (hd : escapeByte h l = some d) :
    fromStrRadix16 h l = some d.toNat := by
  obtain ⟨m, n, hm, -⟩ := escapeByte_eq_some.1 hd
  rw [fromStrRadix16_of_ne (ne_plus_of_hexDigit hm), hd]
  rfl

theorem escapeByte_self_cases : ∀ b : UInt8, ∀ n ∈ hexDigit b, ∀ m < 16,
    UInt8.ofNat (16 * m + n) = b → m = 3 ∧ 0x30 ≤ b ∧ b ≤ 0x39 :=
  forall_byte (by decide +kernel)

theorem hexDigit_three : ∀ b : UInt8, hexDigit b = some 3 → b = 0x33 :=
  forall_byte (by decide +kernel)

theorem escapeByte_three : ∀ b : UInt8, 0x30 ≤ b ∧ b ≤ 0x39 → escapeByte 0x33 b = some b :=
  forall_byte (by decide +kernel)

/-- The digits of an escape whose value is its second digit: `3` and a decimal digit. -/
theorem escapeByte_eq_self {h l : UInt8} : escapeByte h l = some l ↔ h = 0x33 ∧ IsDecimal l := by
  constructor
  · intro hd
    obtain ⟨m, n, hm, hn, hl⟩ := escapeByte_eq_some.1 hd
    obtain ⟨rfl, hdigit⟩ := escapeByte_self_cases l n hn m (hexDigit_lt hm) hl
    exact ⟨hexDigit_three h hm, hdigit⟩
  · rintro ⟨rfl, hdigit⟩
    exact escapeByte_three l hdigit

@[simp] theorem formByte_percent : formByte 0x25 = 0x25 := rfl

theorem formByte_of_high {b : UInt8} (h : 0x80 ≤ formByte b) : formByte b = b := by
  rw [formByte] at h ⊢
  split
  case isTrue hplus => simp [hplus] at h
  case isFalse => rfl

theorem formByte_of_hexDigit {b : UInt8} {n : ℕ} (h : hexDigit b = some n) : formByte b = b :=
  if_neg (ne_plus_of_hexDigit h)

/-! ### One piece of a text -/

theorem formBytes_plain {b : UInt8} (hb : b ≠ 0x25) (rest : List UInt8) :
    formBytes (b :: rest) = formByte b :: formBytes rest := by
  rcases rest with _ | ⟨h, _ | ⟨l, rest⟩⟩ <;> simp [formBytes, hb]

theorem formBytes_escape {h l d : UInt8} (hd : escapeByte h l = some d) (rest : List UInt8) :
    formBytes (0x25 :: h :: l :: rest) = d :: formBytes rest := by
  simp [formBytes, hd]

theorem formBytes_percent {h l : UInt8} (hd : escapeByte h l = none) (rest : List UInt8) :
    formBytes (0x25 :: h :: l :: rest) = 0x25 :: formBytes (h :: l :: rest) := by
  simp [formBytes, hd]

@[simp] theorem decodedBytes_nil : decodedBytes [] = [] := rfl

theorem decodedBytes_plain {b : UInt8} (hb : b ≠ 0x25) (rest : List UInt8) :
    decodedBytes (b :: rest) = charBytes (formByte b) ++ decodedBytes rest := by
  rw [decodedBytes]
  by_cases hplus : b = 0x2B
  case pos =>
      subst hplus
      rcases rest with _ | ⟨h, _ | ⟨l, rest⟩⟩ <;> rfl
  case neg =>
      rw [decodeBytes_plain hb hplus, Utf8.encode_cons, formByte, if_neg hplus]
      rfl

theorem decodedBytes_escape {h l : UInt8} {n : ℕ} (hn : fromStrRadix16 h l = some n)
    (hlt : n < 256) (rest : List UInt8) :
    decodedBytes (0x25 :: h :: l :: rest) = charBytes (UInt8.ofNat n) ++ decodedBytes rest := by
  rw [decodedBytes, decodeBytes_escape hn, Utf8.encode_cons, charBytes, asChar, UInt8.toNat_ofNat',
    Nat.mod_eq_of_lt hlt]
  rfl

theorem decodedBytes_broken {h l : UInt8} (hn : fromStrRadix16 h l = none) (rest : List UInt8) :
    decodedBytes (0x25 :: h :: l :: rest) = 0x25 :: decodedBytes rest := by
  rw [decodedBytes, decodeBytes, if_pos rfl]
  simp [hn, decodedBytes, String.utf8EncodeChar]

theorem Token.formBytes_append {t : List UInt8} {v : UInt8} (ht : Token t v) (rest : List UInt8) :
    formBytes (t ++ rest) = v :: formBytes rest := by
  cases ht with
  | plain b hb => exact formBytes_plain hb rest
  | escape hd => exact formBytes_escape hd rest

theorem Token.decodedBytes_append {t : List UInt8} {v : UInt8} (ht : Token t v)
    (rest : List UInt8) : decodedBytes (t ++ rest) = charBytes v ++ decodedBytes rest := by
  cases ht with
  | plain b hb => exact decodedBytes_plain hb rest
  | escape hd =>
      have := decodedBytes_escape (fromStrRadix16_of_escapeByte hd) (UInt8.toNat_lt _) rest
      rwa [UInt8.ofNat_toNat] at this

/-- How `percent_decode` takes a text apart. -/
inductive Parse : List UInt8 → Prop
  | nil : Parse []
  /-- A `%` at the end, which stays. -/
  | percent : Parse [0x25]
  /-- A `%` before the last byte, which is lost. -/
  | cut (x : UInt8) : Parse [0x25, x]
  | token {t r : List UInt8} {v : UInt8} (ht : Token t v) (hr : Parse r) : Parse (t ++ r)
  /-- `%+f`. -/
  | signed {l : UInt8} {n : ℕ} {r : List UInt8} (hl : hexDigit l = some n) (hr : Parse r) :
      Parse (0x25 :: 0x2B :: l :: r)
  /-- A `%` that starts no escape, with the two bytes that are lost. -/
  | broken {h l : UInt8} {r : List UInt8} (hn : fromStrRadix16 h l = none) (hr : Parse r) :
      Parse (0x25 :: h :: l :: r)

theorem escapeByte_of_fromStrRadix16 {h l : UInt8} (hn : fromStrRadix16 h l = none) :
    escapeByte h l = none := by
  cases hd : escapeByte h l with
  | none => rfl
  | some d =>
      rw [fromStrRadix16_of_escapeByte hd] at hn
      cases hn

theorem parse : ∀ bs : List UInt8, Parse bs
  | [] => .nil
  | b :: rest => by
      by_cases hb : b = 0x25
      case neg => exact (parse rest).token (.plain b hb)
      subst hb
      match rest with
      | [] => exact .percent
      | [x] => exact .cut x
      | h :: l :: r =>
          cases hd : escapeByte h l with
          | some d => exact (parse r).token (.escape hd)
          | none =>
              by_cases hplus : h = 0x2B
              case pos =>
                  subst hplus
                  cases hl : hexDigit l with
                  | some n => exact (parse r).signed hl
                  | none => exact (parse r).broken (by rw [fromStrRadix16, if_pos rfl, hl])
              case neg =>
                  exact (parse r).broken (by rw [fromStrRadix16_of_ne hplus, hd]; rfl)

/-! ### The `%` of the result -/

theorem formBytes_cut (x : UInt8) : formBytes [0x25, x] = [0x25, formByte x] := rfl

theorem formBytes_signed {l : UInt8} {n : ℕ} (hl : hexDigit l = some n) (r : List UInt8) :
    formBytes (0x25 :: 0x2B :: l :: r) = 0x25 :: 0x20 :: l :: formBytes r := by
  rw [formBytes_percent rfl, formBytes_plain (by decide),
    formBytes_plain (ne_percent_of_hexDigit hl), formByte_of_hexDigit hl]
  rfl

/-- `%+f` becomes a control character. -/
theorem ofNat_lt_of_hexDigit {l : UInt8} {n : ℕ} (hl : hexDigit l = some n) :
    UInt8.ofNat n < 0x20 := by
  have hn := hexDigit_lt hl
  rw [UInt8.lt_iff_toNat_lt, UInt8.toNat_ofNat', Nat.mod_eq_of_lt (by omega)]
  exact lt_trans hn (by decide)

theorem decodedBytes_signed {l : UInt8} {n : ℕ} (hl : hexDigit l = some n) (r : List UInt8) :
    decodedBytes (0x25 :: 0x2B :: l :: r) = UInt8.ofNat n :: decodedBytes r := by
  have hlt := hexDigit_lt hl
  rw [decodedBytes_escape (by rw [fromStrRadix16, if_pos rfl, hl]) (by omega),
    charBytes_of_lt (UInt8.lt_trans (ofNat_lt_of_hexDigit hl) (by decide))]
  rfl

/-- A byte more never costs a `%`. -/
theorem count_formBytes_cons (b : UInt8) (rest : List UInt8) :
    (formBytes rest).count 0x25 ≤ (formBytes (b :: rest)).count 0x25 := by
  by_cases hb : b = 0x25
  case neg =>
      rw [formBytes_plain hb]
      exact List.count_le_count_cons
  subst hb
  match rest with
  | [] => exact Nat.zero_le _
  | [x] => exact List.count_le_count_cons
  | h :: l :: r =>
      cases hd : escapeByte h l with
      | some d =>
          -- the digits are no `%`
          obtain ⟨m, n, hm, hn, -⟩ := escapeByte_eq_some.1 hd
          have hm' := ne_percent_of_hexDigit hm
          have hn' := ne_percent_of_hexDigit hn
          rw [formBytes_escape hd, formBytes_plain hm', formBytes_plain hn',
            formByte_of_hexDigit hm, formByte_of_hexDigit hn, List.count_cons_of_ne hm',
            List.count_cons_of_ne hn']
          exact List.count_le_count_cons
      | none =>
          rw [formBytes_percent hd]
          exact List.count_le_count_cons

theorem count_charBytes (v : UInt8) : (charBytes v).count 0x25 = [v].count 0x25 := by
  by_cases hv : v < 0x80
  case pos => rw [charBytes_of_lt hv]
  case neg =>
      rw [UInt8.not_lt] at hv
      obtain ⟨x, y, hxy, hx, hy⟩ := charBytes_of_le hv
      have hne : ∀ b : UInt8, 0x80 ≤ b → b ≠ 0x25 := by
        rintro b hb rfl
        exact absurd hb (by decide)
      rw [hxy, List.count_cons_of_ne (hne x hx), List.count_cons_of_ne (hne y hy),
        List.count_cons_of_ne (hne v hv)]

/-- A signed pair of digits costs the result the `%` before it. -/
theorem count_signed {l : UInt8} {n : ℕ} (hl : hexDigit l = some n) {r : List UInt8}
    (hle : (decodedBytes r).count 0x25 ≤ (formBytes r).count 0x25) :
    (decodedBytes (0x25 :: 0x2B :: l :: r)).count 0x25
      < (formBytes (0x25 :: 0x2B :: l :: r)).count 0x25 := by
  have hne : UInt8.ofNat n ≠ 0x25 :=
    UInt8.ne_of_lt (UInt8.lt_trans (ofNat_lt_of_hexDigit hl) (by decide))
  rw [decodedBytes_signed hl, formBytes_signed hl, List.count_cons_of_ne hne,
    List.count_cons_self, List.count_cons_of_ne (by decide),
    List.count_cons_of_ne (ne_percent_of_hexDigit hl)]
  exact Nat.lt_succ_of_le hle

theorem count_charBytes_append (v : UInt8) (bs : List UInt8) :
    (charBytes v ++ bs).count 0x25 = (v :: bs).count 0x25 := by
  rw [List.count_append, count_charBytes, ← List.count_append]
  rfl

/-- No deviation adds a `%` to the result. -/
theorem count_decodedBytes_le {bs : List UInt8} (hp : Parse bs) :
    (decodedBytes bs).count 0x25 ≤ (formBytes bs).count 0x25 := by
  induction hp with
  | nil => exact le_rfl
  | percent => exact le_rfl
  | cut x =>
      rw [formBytes_cut]
      exact List.count_le_count_cons
  | @token t r v ht _ ih =>
      rw [ht.decodedBytes_append, ht.formBytes_append, count_charBytes_append, List.count_cons,
        List.count_cons]
      exact Nat.add_le_add_right ih _
  | signed hl _ ih => exact (count_signed hl ih).le
  | @broken h l r hn _ ih =>
      rw [decodedBytes_broken hn, formBytes_percent (escapeByte_of_fromStrRadix16 hn),
        List.count_cons_self, List.count_cons_self]
      exact Nat.succ_le_succ
        (ih.trans ((count_formBytes_cons l r).trans (count_formBytes_cons h (l :: r))))

/-! ### The bytes before the first `%` -/

/-- What stands before the first `%`. -/
def untilPercent (bs : List UInt8) : List UInt8 := bs.takeWhile (· != 0x25)

/-- How many bytes are ASCII. -/
def asciiCount (bs : List UInt8) : ℕ := bs.countP (· < 0x80)

/-- How many bytes are not. -/
def highCount (bs : List UInt8) : ℕ := bs.countP (0x80 ≤ ·)

@[simp] theorem untilPercent_percent (bs : List UInt8) : untilPercent (0x25 :: bs) = [] := rfl

theorem untilPercent_append {p : List UInt8} (hp : 0x25 ∉ p) (bs : List UInt8) :
    untilPercent (p ++ bs) = p ++ untilPercent bs := by
  refine List.takeWhile_append_of_pos fun b hb => ?_
  rw [bne_iff_ne]
  rintro rfl
  exact hp hb

@[simp] theorem asciiCount_append (a b : List UInt8) :
    asciiCount (a ++ b) = asciiCount a + asciiCount b := List.countP_append

@[simp] theorem highCount_append (a b : List UInt8) :
    highCount (a ++ b) = highCount a + highCount b := List.countP_append

theorem counts_charBytes (v : UInt8) :
    asciiCount (charBytes v) = asciiCount [v] ∧ highCount (charBytes v) = 2 * highCount [v] := by
  by_cases hv : v < 0x80
  case pos => simp [charBytes_of_lt hv, highCount, UInt8.not_le.2 hv]
  case neg =>
      obtain ⟨x, y, hxy, hx, hy⟩ := charBytes_of_le (UInt8.not_lt.1 hv)
      simp [hxy, asciiCount, highCount, hx, hy, UInt8.not_lt.1 hv]

/-- On a text that loses no `%`, up to the first one of the result there are as many ASCII bytes as
there should be, and twice as many others. -/
theorem counts_untilPercent {bs : List UInt8} (hp : Parse bs)
    (hcount : (decodedBytes bs).count 0x25 = (formBytes bs).count 0x25) :
    asciiCount (untilPercent (decodedBytes bs)) = asciiCount (untilPercent (formBytes bs)) ∧
      highCount (untilPercent (decodedBytes bs))
        = 2 * highCount (untilPercent (formBytes bs)) := by
  induction hp with
  | nil => exact ⟨rfl, rfl⟩
  | percent => exact ⟨rfl, rfl⟩
  | cut x => exact ⟨rfl, rfl⟩
  | @token t r v ht hr ih =>
      rw [ht.decodedBytes_append, ht.formBytes_append] at hcount ⊢
      by_cases hv : v = 0x25
      case pos =>
          subst hv
          exact ⟨rfl, rfl⟩
      case neg =>
          have hnot : 0x25 ∉ charBytes v := by
            rw [← List.count_eq_zero, count_charBytes, List.count_cons_of_ne hv, List.count_nil]
          rw [count_charBytes_append, List.count_cons_of_ne hv, List.count_cons_of_ne hv] at hcount
          obtain ⟨hascii, hhigh⟩ := ih hcount
          obtain ⟨hv₁, hv₂⟩ := counts_charBytes v
          rw [← List.singleton_append, untilPercent_append hnot,
            untilPercent_append (by simpa using Ne.symm hv)]
          simp only [asciiCount_append, highCount_append]
          omega
  | @signed l n r hl hr ih =>
      exact absurd hcount (count_signed hl (count_decodedBytes_le hr)).ne
  | @broken h l r hn _ ih =>
      rw [decodedBytes_broken hn, formBytes_percent (escapeByte_of_fromStrRadix16 hn)]
      exact ⟨rfl, rfl⟩

/-- A byte more that is not ASCII is not made up for. -/
theorem high_cons_decodedBytes_ne {y : UInt8} (hy : 0x80 ≤ y) (bs : List UInt8) :
    y :: decodedBytes bs ≠ formBytes bs := by
  intro h
  have hy' : y ≠ 0x25 := by
    rintro rfl
    exact absurd hy (by decide)
  have hcount := congrArg (List.count 0x25) h
  rw [List.count_cons_of_ne hy'] at hcount
  have hhigh := congrArg (fun l => highCount (untilPercent l)) h
  rw [← List.singleton_append, untilPercent_append (by simpa using Ne.symm hy'), highCount_append,
    (counts_untilPercent (parse bs) hcount).2] at hhigh
  have hone : highCount [y] = 1 := by simp [highCount, hy]
  omega

/-- A `%` is not made up for. -/
theorem percent_notMem {p bs : List UInt8} (h : decodedBytes bs = p ++ formBytes bs) :
    0x25 ∉ p := by
  have hle := count_decodedBytes_le (parse bs)
  rw [h, List.count_append] at hle
  exact List.count_eq_zero.1 (by omega)

/-- Nor is an ASCII byte. -/
theorem asciiCount_eq_zero {p bs : List UInt8} (h : decodedBytes bs = p ++ formBytes bs) :
    asciiCount p = 0 := by
  have hp := percent_notMem h
  have hcount : (decodedBytes bs).count 0x25 = (formBytes bs).count 0x25 := by
    rw [h, List.count_append, List.count_eq_zero.2 hp, Nat.zero_add]
  have hascii := (counts_untilPercent (parse bs) hcount).1
  rw [h, untilPercent_append hp, asciiCount_append] at hascii
  omega

theorem decodedBytes_digit {b : UInt8} {n : ℕ} (hb : hexDigit b = some n) (rest : List UInt8) :
    decodedBytes (b :: rest) = b :: decodedBytes rest := by
  rw [decodedBytes_plain (ne_percent_of_hexDigit hb), formByte_of_hexDigit hb,
    charBytes_of_lt (ascii_of_hexDigit hb)]
  rfl

/-- The first byte of the result is not ASCII only if the text begins with such a byte. -/
theorem exists_token_of_high {bs rest : List UInt8} {x : UInt8} (hx : 0x80 ≤ x)
    (h : decodedBytes bs = x :: rest) : ∃ t v r, Token t v ∧ 0x80 ≤ v ∧ bs = t ++ r := by
  have hne : ∀ {b : UInt8}, b < 0x80 → b ≠ x := by
    rintro b hb rfl
    exact UInt8.not_lt.2 hx hb
  cases parse bs with
  | nil => cases h
  | percent => exact absurd (List.cons.inj h).1 (hne (by decide))
  | cut y => exact absurd (List.cons.inj h).1 (hne (by decide))
  | @token t r v ht hr =>
      refine ⟨t, v, r, ht, UInt8.not_lt.1 fun hv => ?_, rfl⟩
      rw [ht.decodedBytes_append, charBytes_of_lt hv] at h
      exact hne hv (List.cons.inj h).1
  | @signed l n r hl hr =>
      rw [decodedBytes_signed hl] at h
      exact absurd (List.cons.inj h).1
        (hne (UInt8.lt_trans (ofNat_lt_of_hexDigit hl) (by decide)))
  | @broken h' l r hn hr =>
      rw [decodedBytes_broken hn] at h
      exact absurd (List.cons.inj h).1 (hne (by decide))

/-- The second byte of a character from `U+00C0` on differs from the byte it was made of. -/
theorem sub_ne_self (v : UInt8) : v - 0x40 ≠ v := by
  intro h
  rw [UInt8.sub_eq_iff_eq_add] at h
  exact absurd (UInt8.add_eq_left.1 h.symm) (by decide)

/-- Two bytes that are not ASCII are made up for by one character that becomes two. -/
theorem exists_letter {bs : List UInt8} {x y : UInt8} (hx : 0x80 ≤ x)
    (h : decodedBytes bs = x :: y :: formBytes bs) :
    x = 0xC3 ∧ y = 0x82 ∧ ∃ t t' v r, Token t 0xC2 ∧ Token t' v ∧ 0x80 ≤ v ∧ v < 0xC0 ∧
      bs = t ++ (t' ++ r) ∧ decodedBytes r = formBytes r := by
  obtain ⟨t, v, r, ht, hv, rfl⟩ := exists_token_of_high hx h
  obtain ⟨x', y', hxy, -, -⟩ := charBytes_of_le hv
  rw [ht.decodedBytes_append, ht.formBytes_append, hxy] at h
  injection h with hxx h
  injection h with hyy h
  subst hxx hyy
  -- the byte `v` itself is the first one of the next character
  obtain ⟨t', v', r', ht', hv', rfl⟩ := exists_token_of_high hv h
  change decodedBytes (t' ++ r') = _ at h
  rw [ht'.decodedBytes_append, ht'.formBytes_append, charBytes_eq,
    if_neg (UInt8.not_lt.2 hv')] at h
  split at h
  case isTrue hlt =>
      injection h with hvv h
      injection h with _ h
      subst hvv
      obtain ⟨rfl, rfl⟩ : 0xC3 = x' ∧ 0x82 = y' := by
        simpa [show charBytes 0xC2 = [0xC3, 0x82] from by decide +kernel] using hxy
      exact ⟨rfl, rfl, t, t', v', r', ht, ht', hv', hlt, rfl, h⟩
  case isFalse =>
      injection h with _ h
      injection h with hself
      exact absurd hself (sub_ne_self v')

/-! ### A `%` that starts no escape -/

theorem formBytes_percent_cases (bs : List UInt8) :
    (∃ x y d r, bs = x :: y :: r ∧ escapeByte x y = some d) ∨
      formBytes (0x25 :: bs) = 0x25 :: formBytes bs := by
  match bs with
  | [] => exact .inr rfl
  | [x] => exact .inr rfl
  | x :: y :: r =>
      cases hd : escapeByte x y with
      | some d => exact .inl ⟨x, y, d, r, rfl, hd⟩
      | none => exact .inr (formBytes_percent hd r)

/-- An escape is kept as its second digit only if that is what it stands for. -/
theorem escape_kept {x y d : UInt8} {r : List UInt8} (hd : escapeByte x y = some d)
    (h : decodedBytes (y :: r) = d :: formBytes r) :
    x = 0x33 ∧ IsDecimal y ∧ decodedBytes r = formBytes r := by
  obtain ⟨-, n, -, hn, -⟩ := escapeByte_eq_some.1 hd
  rw [decodedBytes_digit hn] at h
  injection h with hyd h
  subst hyd
  obtain ⟨hx, hy⟩ := escapeByte_eq_self.1 hd
  exact ⟨hx, hy, h⟩

/-- `%` after the `%`. -/
theorem DecodesRight.of_doubled {l : UInt8} {r : List UInt8}
    (h : decodedBytes r = formBytes (0x25 :: l :: r))
    (ih : ∀ {r'}, r'.length ≤ r.length → decodedBytes r' = formBytes r' → DecodesRight r') :
    DecodesRight (0x25 :: 0x25 :: l :: r) := by
  obtain ⟨x, y, d, r', hr, hd⟩ | hkept := formBytes_percent_cases (l :: r)
  case inl =>
      injection hr with hl hr
      subst hl hr
      rw [formBytes_escape hd] at h
      obtain ⟨rfl, hy, heq⟩ := escape_kept hd h
      exact .doubled hy (ih (by simp) heq)
  case inr =>
      have hle := count_decodedBytes_le (parse r)
      have hcons := count_formBytes_cons l r
      rw [h, hkept, List.count_cons_self] at hle
      omega

/-- `%` as the second byte after the `%`. -/
theorem DecodesRight.of_split {h : UInt8} {r : List UInt8} (hpercent : h ≠ 0x25)
    (heq : decodedBytes r = formBytes (h :: 0x25 :: r))
    (ih : ∀ {r'}, r'.length ≤ r.length → decodedBytes r' = formBytes r' → DecodesRight r') :
    DecodesRight (0x25 :: h :: 0x25 :: r) := by
  rw [formBytes_plain hpercent] at heq
  obtain ⟨x, y, d, r', rfl, hd⟩ | hkept := formBytes_percent_cases r
  case inl =>
      obtain ⟨m, -, hm, -⟩ := escapeByte_eq_some.1 hd
      rw [formBytes_escape hd, decodedBytes_digit hm] at heq
      injection heq with hx heq
      obtain ⟨rfl, hy, heq⟩ := escape_kept hd heq
      have hh : h = 0x33 := by
        rw [formByte] at hx
        split at hx
        case isTrue => exact absurd hx (by decide)
        case isFalse => exact hx.symm
      subst hh
      exact .split hy (ih (by simp only [List.length_cons]; omega) heq)
  case inr =>
      have hnot := percent_notMem (p := [formByte h, 0x25]) (heq.trans (by rw [hkept]; rfl))
      exact absurd (by simp) hnot

/-- Two other bytes after the `%`. -/
theorem DecodesRight.of_letter {h l : UInt8} {r : List UInt8} (hh : h ≠ 0x25) (hl : l ≠ 0x25)
    (heq : decodedBytes r = formBytes (h :: l :: r))
    (ih : ∀ {r'}, r'.length ≤ r.length → decodedBytes r' = formBytes r' → DecodesRight r') :
    DecodesRight (0x25 :: h :: l :: r) := by
  rw [formBytes_plain hh, formBytes_plain hl] at heq
  have hascii := asciiCount_eq_zero (p := [formByte h, formByte l]) heq
  rw [asciiCount, List.countP_eq_zero] at hascii
  have hh' : 0x80 ≤ formByte h := UInt8.not_lt.1 (by simpa using hascii (formByte h) (by simp))
  have hl' : 0x80 ≤ formByte l := UInt8.not_lt.1 (by simpa using hascii (formByte l) (by simp))
  obtain ⟨hx, hy, t, t', v, r', ht, ht', hlow, hhigh, rfl, heq'⟩ := exists_letter hh' heq
  rw [formByte_of_high hh'] at hx
  rw [formByte_of_high hl'] at hy
  subst hx hy
  exact .letter ht ht' hlow hhigh (ih (by simp only [List.length_append]; omega) heq')

/-- What is decoded right is cut into those pieces. -/
theorem DecodesRight.of_eq (bs : List UInt8) (h : decodedBytes bs = formBytes bs) :
    DecodesRight bs := by
  induction hlen : bs.length using Nat.strongRecOn generalizing bs with
  | ind n ih =>
  subst hlen
  cases parse bs with
  | nil => exact .nil
  | percent => exact .percent
  | cut x => cases h
  | @token t r v ht hr =>
      rw [ht.decodedBytes_append, ht.formBytes_append] at h
      have hpos : 0 < t.length := by cases ht <;> simp
      by_cases hv : v < 0x80
      case pos =>
          rw [charBytes_of_lt hv] at h
          exact .token ht hv (ih _ (by simpa using hpos) r (List.cons.inj h).2 rfl)
      case neg =>
          obtain ⟨x, y, hxy, -, hy⟩ := charBytes_of_le (UInt8.not_lt.1 hv)
          rw [hxy] at h
          exact absurd (List.cons.inj h).2 (high_cons_decodedBytes_ne hy r)
  | @signed l n r hl hr =>
      exact absurd (congrArg (List.count 0x25) h) (count_signed hl (count_decodedBytes_le hr)).ne
  | @broken h' l r hn hr =>
      rw [decodedBytes_broken hn, formBytes_percent (escapeByte_of_fromStrRadix16 hn)] at h
      have heq := (List.cons.inj h).2
      have ih' : ∀ {r'}, r'.length ≤ r.length → decodedBytes r' = formBytes r' →
          DecodesRight r' := by
        intro r' hle heq'
        exact ih _ (by simp only [List.length_cons]; omega) r' heq' rfl
      by_cases hh : h' = 0x25
      case pos =>
          subst hh
          exact .of_doubled heq ih'
      by_cases hl : l = 0x25
      case pos =>
          subst hl
          exact .of_split hh heq ih'
      exact .of_letter hh hl heq ih'

/-- Those pieces are decoded right. -/
theorem DecodesRight.eq {bs : List UInt8} (h : DecodesRight bs) :
    decodedBytes bs = formBytes bs := by
  induction h with
  | nil => rfl
  | percent => rfl
  | token ht hv _ ih =>
      rw [ht.decodedBytes_append, ht.formBytes_append, charBytes_of_lt hv, ih]
      rfl
  | @doubled d r hd _ ih =>
      have hvalue := escapeByte_eq_self.2 ⟨rfl, hd⟩
      obtain ⟨-, n, -, hn, -⟩ := escapeByte_eq_some.1 hvalue
      rw [decodedBytes_broken rfl, decodedBytes_digit hn, ih, formBytes_percent rfl,
        formBytes_escape hvalue]
  | @split d r hd _ ih =>
      have hvalue := escapeByte_eq_self.2 ⟨rfl, hd⟩
      obtain ⟨-, n, -, hn, -⟩ := escapeByte_eq_some.1 hvalue
      rw [decodedBytes_broken rfl, decodedBytes_digit rfl, decodedBytes_digit hn, ih,
        formBytes_percent rfl, formBytes_plain (by decide), formBytes_escape hvalue]
      rfl
  | @letter t t' r v ht ht' hlow hhigh _ ih =>
      have hpair : charBytes v = [0xC2, v] := by
        rw [charBytes_eq, if_neg (UInt8.not_lt.2 hlow), if_pos hhigh]
      rw [decodedBytes_broken rfl, ht.decodedBytes_append, ht'.decodedBytes_append, hpair, ih,
        formBytes_percent rfl, formBytes_plain (by decide), formBytes_plain (by decide),
        ht.formBytes_append, ht'.formBytes_append]
      rfl

/-- `percent_decode` is the form-urlencoded decoding exactly for the texts that are cut into ASCII
characters, escapes of such, a `%` at the end, `%%3d`, `%3%3d`, and `%Â` before a character that is
read as two of which the first is `Â`. -/
theorem percentDecode_form_iff (s : Str) :
    DecodesForm s ↔ DecodesRight (Utf8.encode s) :=
  ⟨DecodesRight.of_eq _, DecodesRight.eq⟩

/-- `%zz` loses its two letters. -/
theorem not_decodesForm_letters : ¬ ∀ s : Str, DecodesForm s := by
  intro h
  exact absurd (h "%zz".toList) (by decide +kernel)

end OxiHttp
