/-
**UTF-8 at the boundary between bytes and text.**

Rust's `String::from_utf8` and `String::from_utf8_lossy` decide what becomes of the bytes a peer
sends as text.  Lean's `String` is a byte array that is valid UTF-8, so the strict decoder is the
library's; what this module adds is the scanner that walks over invalid bytes, which the lossy
decoder and the error text of the strict one are computed from.

Main definitions:

* `Utf8.bytes`, `Utf8.fromUtf8` — the bytes of a text and the strict decoder;
* `Utf8.chunk` — one character, or one maximal ill-formed subsequence, at the head of the input;
* `Utf8.fromUtf8Lossy` — the lossy decoder;
* `Utf8.errorText` — the text of the error the strict decoder reports.

Main results:

* `Utf8.bytes_of_fromUtf8` — what the strict decoder accepts has the given bytes;
* `Utf8.fromUtf8_bytes`, `Utf8.fromUtf8Lossy_bytes` — both decoders invert `Utf8.bytes`.
-/

import Mathlib.Data.List.Basic
import Mathlib.Tactic.Common

set_option relaxedAutoImplicit false
set_option autoImplicit false

namespace Utf8

/-- The UTF-8 bytes of a text. -/
def bytes (s : String) : List UInt8 := s.toByteArray.data.toList

/-- `String::from_utf8`: the text with these bytes, when they are valid UTF-8. -/
def fromUtf8 (bs : List UInt8) : Option String := String.fromUTF8? ⟨bs.toArray⟩

theorem bytes_of_fromUtf8 {bs : List UInt8} {s : String} (h : fromUtf8 bs = some s) :
    bytes s = bs := by
  unfold fromUtf8 String.fromUTF8? at h
  split at h
  · have hs := Option.some_inj.1 h
    subst hs
    simp [bytes, String.fromUTF8]
  · simp at h

@[simp] theorem fromUtf8_bytes (s : String) : fromUtf8 (bytes s) = some s := by
  have hv : (ByteArray.mk (bytes s).toArray).IsValidUTF8 := by
    simpa [bytes] using s.isValidUTF8
  -- both sides are the bytes of `s`, once the test that they are valid is passed
  unfold fromUtf8 String.fromUTF8?
  rw [dif_pos hv, Option.some_inj, ← String.toByteArray_inj]
  simp [bytes, String.fromUTF8]

/-! ### Characters -/

/-- The UTF-8 bytes of a sequence of characters. -/
def encode (cs : List Char) : List UInt8 := cs.flatMap String.utf8EncodeChar

@[simp] theorem encode_nil : encode [] = [] := rfl

@[simp] theorem encode_cons (c : Char) (cs : List Char) :
    encode (c :: cs) = String.utf8EncodeChar c ++ encode cs := rfl

@[simp] theorem encode_append (a b : List Char) : encode (a ++ b) = encode a ++ encode b := by
  simp [encode]

theorem bytes_eq_encode (s : String) : bytes s = encode s.toList := by
  rw [bytes, ← String.utf8Encode_toList, List.utf8Encode, List.toList_data_toByteArray]
  rfl

theorem bytes_injective : Function.Injective bytes := by
  intro s t h
  have := fromUtf8_bytes s
  rw [h, fromUtf8_bytes] at this
  exact (Option.some_inj.1 this).symm

theorem encode_injective : Function.Injective encode := by
  intro a b h
  have hs : bytes (String.ofList a) = bytes (String.ofList b) := by
    simpa [bytes_eq_encode] using h
  simpa using congrArg String.toList (bytes_injective hs)

/-- A character of one byte. -/
def IsAscii (c : Char) : Prop := c.utf8Size = 1

instance (c : Char) : Decidable (IsAscii c) := inferInstanceAs (Decidable (_ = _))

instance (cs : List Char) : Decidable (∀ c ∈ cs, IsAscii c) := List.decidableBAll _ cs

theorem IsAscii.encode {c : Char} (h : IsAscii c) :
    String.utf8EncodeChar c = [c.val.toUInt8] := String.utf8EncodeChar_eq_singleton h

/-- The bytes of an ASCII text are the codes of its characters. -/
theorem encode_of_isAscii {cs : List Char} (h : ∀ c ∈ cs, IsAscii c) :
    encode cs = cs.map fun c => c.val.toUInt8 := by
  induction cs with
  | nil => rfl
  | cons c cs ih =>
      rw [encode_cons, (h c List.mem_cons_self).encode,
        ih fun d hd => h d (List.mem_cons_of_mem _ hd)]
      rfl

/-- There are at least as many bytes as characters. -/
theorem length_le_length_encode (cs : List Char) : cs.length ≤ (encode cs).length := by
  induction cs with
  | nil => simp
  | cons c cs ih =>
      have := c.utf8Size_pos
      simp only [encode_cons, List.length_append, String.length_utf8EncodeChar, List.length_cons]
      omega

/-- There are as many bytes as characters exactly in an ASCII text. -/
theorem length_encode_eq_iff {cs : List Char} :
    (encode cs).length = cs.length ↔ ∀ c ∈ cs, IsAscii c := by
  induction cs with
  | nil => simp
  | cons c cs ih =>
      have hpos := c.utf8Size_pos
      have hle := length_le_length_encode cs
      rw [List.forall_mem_cons, ← ih, IsAscii]
      simp only [encode_cons, List.length_append, String.length_utf8EncodeChar, List.length_cons]
      omega

/-- Every byte of a character that is not ASCII has its high bit set. -/
theorem high_of_not_isAscii {c : Char} (h : ¬ IsAscii c) {b : UInt8}
    (hb : b ∈ String.utf8EncodeChar c) : 0x80 ≤ b.toNat := by
  rw [IsAscii, ← String.length_utf8EncodeChar] at h
  revert h hb
  fun_cases String.utf8EncodeChar c with
  | case1 => simp
  | case2 v h₁ h₂ =>
      intro _ hb
      simp only [List.mem_cons, List.not_mem_nil, or_false] at hb
      rcases hb with rfl | rfl <;> simp only [UInt8.toNat_ofNat'] <;> omega
  | case3 v h₁ h₂ h₃ =>
      intro _ hb
      simp only [List.mem_cons, List.not_mem_nil, or_false] at hb
      rcases hb with rfl | rfl | rfl <;> simp only [UInt8.toNat_ofNat'] <;> omega
  | case4 v h₁ h₂ h₃ =>
      intro _ hb
      simp only [List.mem_cons, List.not_mem_nil, or_false] at hb
      rcases hb with rfl | rfl | rfl | rfl <;> simp only [UInt8.toNat_ofNat'] <;> omega

theorem IsAscii.val_le {c : Char} (h : IsAscii c) : c.val.toNat ≤ 127 := by
  simpa [IsAscii, Char.utf8Size_eq_one_iff, UInt32.le_iff_toNat_le] using h

/-- The byte of an ASCII character is a byte of that character only. -/
theorem mem_encodeChar_iff {c d : Char} (hd : IsAscii d) :
    d.val.toUInt8 ∈ String.utf8EncodeChar c ↔ c = d := by
  have hdval := hd.val_le
  constructor
  · intro h
    by_cases hc : IsAscii c
    · rw [hc.encode, List.mem_singleton, ← UInt8.toNat_inj] at h
      have hcval := hc.val_le
      rw [Char.ext_iff, ← UInt32.toNat_inj]
      simp only [UInt32.toNat_toUInt8] at h
      omega
    · have hhigh := high_of_not_isAscii hc h
      simp only [UInt32.toNat_toUInt8] at hhigh
      omega
  · rintro rfl
    rw [hd.encode]
    exact List.mem_singleton_self _

/-- The byte of an ASCII character occurs where the character does. -/
theorem mem_encode_iff {d : Char} (hd : IsAscii d) {cs : List Char} :
    d.val.toUInt8 ∈ encode cs ↔ d ∈ cs := by
  rw [encode, List.mem_flatMap]
  constructor
  · rintro ⟨c, hc, hb⟩
    rwa [← (mem_encodeChar_iff hd).1 hb]
  · exact fun h => ⟨d, h, (mem_encodeChar_iff hd).2 rfl⟩

/-- Where an ASCII text stands at the start of the bytes, it stands at the start of the text. -/
theorem prefix_of_encode_prefix {a s : List Char} (ha : ∀ c ∈ a, IsAscii c)
    (h : encode a <+: encode s) : a <+: s := by
  induction a generalizing s with
  | nil => exact List.nil_prefix
  | cons c a ih =>
      have hc := ha c List.mem_cons_self
      rw [encode_cons, hc.encode, List.singleton_append] at h
      cases s with
      | nil => simpa using h.length_le
      | cons d s =>
          rw [encode_cons] at h
          -- the first byte is that of an ASCII character, so it is the whole first character
          have hd : d = c := by
            refine (mem_encodeChar_iff hc).1 ?_
            cases hdb : String.utf8EncodeChar d with
            | nil => exact absurd hdb String.utf8EncodeChar_ne_nil
            | cons b bs =>
                rw [hdb, List.cons_append] at h
                rw [(List.cons_prefix_cons.1 h).1]
                exact List.mem_cons_self
          rw [hd, hc.encode, List.singleton_append] at h
          rw [hd]
          exact List.cons_prefix_cons.2
            ⟨rfl, ih (fun c' hc' => ha c' (List.mem_cons_of_mem _ hc'))
              (List.cons_prefix_cons.1 h).2⟩

/-! ### Scanning ill-formed input -/

/-- A continuation byte `10xxxxxx`. -/
def isCont (b : UInt8) : Bool := b &&& 0xC0 == 0x80

/-- The range the second byte must lie in, for the lead bytes of three- and four-byte sequences
whose second byte is restricted further than to a continuation byte. -/
def secondOk (lead b : UInt8) : Bool :=
  match lead with
  | 0xE0 => 0xA0 ≤ b && b ≤ 0xBF
  | 0xED => 0x80 ≤ b && b ≤ 0x9F
  | 0xF0 => 0x90 ≤ b && b ≤ 0xBF
  | 0xF4 => 0x80 ≤ b && b ≤ 0x8F
  | _ => isCont b

/-- The number of bytes of the sequence that starts with `b`; `0` when no sequence does. -/
def width (b : UInt8) : ℕ :=
  if b < 0x80 then 1
  else if 0xC2 ≤ b && b ≤ 0xDF then 2
  else if 0xE0 ≤ b && b ≤ 0xEF then 3
  else if 0xF0 ≤ b && b ≤ 0xF4 then 4
  else 0

/-- What stands at the head of the input: a well-formed sequence of `n` bytes, an ill-formed
one whose first `n` bytes are to be skipped, or a sequence the input ends inside of. -/
inductive Chunk where
  | good (n : ℕ)
  | bad (n : ℕ)
  | cut
deriving DecidableEq, Repr

/-- The chunk that starts with `b` and continues with `rest`. -/
def chunk (b : UInt8) (rest : List UInt8) : Chunk :=
  match width b, rest with
  | 1, _ => .good 1
  | 2, [] => .cut
  | 2, b₁ :: _ => if isCont b₁ then .good 2 else .bad 1
  | 3, [] => .cut
  -- cut short only if what is there could still be continued
  | 3, [b₁] => if secondOk b b₁ then .cut else .bad 1
  | 3, b₁ :: b₂ :: _ =>
      if !secondOk b b₁ then .bad 1 else if isCont b₂ then .good 3 else .bad 2
  | 4, [] => .cut
  | 4, [b₁] => if secondOk b b₁ then .cut else .bad 1
  | 4, [b₁, b₂] => if !secondOk b b₁ then .bad 1 else if isCont b₂ then .cut else .bad 2
  | 4, b₁ :: b₂ :: b₃ :: _ =>
      if !secondOk b b₁ then .bad 1 else if !isCont b₂ then .bad 2
      else if isCont b₃ then .good 4 else .bad 3
  | _, _ => .bad 1

/-- The position of the first ill-formed sequence and the number of bytes it takes, which is
absent when the input merely ends too early.  `skip` bytes of a sequence already accepted are
still to be passed over, and `pos` bytes lie behind. -/
def firstError : List UInt8 → (skip pos : ℕ) → Option (ℕ × Option ℕ)
  | [], _, _ => none
  | _ :: rest, skip + 1, pos => firstError rest skip (pos + 1)
  | b :: rest, 0, pos =>
      match chunk b rest with
      | .good n => firstError rest (n - 1) (pos + 1)
      | .bad n => some (pos, some n)
      | .cut => some (pos, none)

/-- The text of `std::string::FromUtf8Error` for these bytes. -/
def errorText (bs : List UInt8) : String :=
  match firstError bs 0 0 with
  | some (pos, some n) =>
      "invalid utf-8 sequence of " ++ toString n ++ " bytes from index " ++ toString pos
  | some (pos, none) => "incomplete utf-8 byte sequence from index " ++ toString pos
  | none => ""

/-- The bytes with every ill-formed subsequence replaced by the encoding of U+FFFD. -/
def repair : List UInt8 → (copy drop : ℕ) → List UInt8
  | [], _, _ => []
  | _ :: rest, copy, drop + 1 => repair rest copy drop
  | b :: rest, copy + 1, 0 => b :: repair rest copy 0
  | b :: rest, 0, 0 =>
      match chunk b rest with
      | .good n => b :: repair rest (n - 1) 0
      | .bad n => 0xEF :: 0xBF :: 0xBD :: repair rest 0 (n - 1)
      | .cut => [0xEF, 0xBF, 0xBD]

/-- `String::from_utf8_lossy`: valid input is taken as it is, and otherwise every ill-formed
subsequence becomes the replacement character. -/
def fromUtf8Lossy (bs : List UInt8) : String :=
  match fromUtf8 bs with
  | some s => s
  | none => (fromUtf8 (repair bs 0 0)).getD ""

@[simp] theorem fromUtf8Lossy_bytes (s : String) : fromUtf8Lossy (bytes s) = s := by
  simp [fromUtf8Lossy]

example : fromUtf8Lossy [0x61, 0xE2, 0x82, 0x62, 0xFF] = "a\uFFFDb\uFFFD" := by decide
example : errorText [0x61, 0xE2, 0x82] = "incomplete utf-8 byte sequence from index 1" := by decide

end Utf8
