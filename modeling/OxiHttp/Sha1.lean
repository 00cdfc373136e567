/-
**SHA-1.**

The hash function on byte strings: the message is padded to blocks of sixteen words, and every block
is mixed into five words in eighty rounds.

Main definitions:

* `Sha1.pad`, `Sha1.words` — the padded message and its words;
* `Sha1.compress` — one block;
* `Sha1.digest` — the hash.
-/

import OxiHttp.BigEndian

set_option relaxedAutoImplicit false
set_option autoImplicit false

namespace Sha1

/-- The five words of the hash. -/
structure State where
  a : UInt32
  b : UInt32
  c : UInt32
  d : UInt32
  e : UInt32
deriving DecidableEq, Repr

/-- The initial hash value. -/
def init : State := ⟨0x67452301, 0xEFCDAB89, 0x98BADCFE, 0x10325476, 0xC3D2E1F0⟩

/-- Rotation to the left. -/
def rotl (n : UInt32) (x : UInt32) : UInt32 := (x <<< n) ||| (x >>> (32 - n))

/-- The message with a one bit, zeros and its length in bits. -/
def pad (msg : List UInt8) : List UInt8 :=
  msg ++ 0x80 :: (List.replicate ((119 - msg.length % 64) % 64) 0 ++
    BigEndian.toBytes 8 (8 * msg.length))

/-- Big-endian words. -/
def words : List UInt8 → List UInt32
  | b₀ :: b₁ :: b₂ :: b₃ :: rest => UInt32.ofNat (BigEndian.ofBytes [b₀, b₁, b₂, b₃]) :: words rest
  | _ => []

/-- The function and the constant of round `t`. -/
def mix (t : ℕ) (s : State) : UInt32 :=
  if t < 20 then ((s.b &&& s.c) ^^^ (~~~s.b &&& s.d)) + 0x5A827999
  else if t < 40 then (s.b ^^^ s.c ^^^ s.d) + 0x6ED9EBA1
  else if t < 60 then ((s.b &&& s.c) ^^^ (s.b &&& s.d) ^^^ (s.c &&& s.d)) + 0x8F1BBCDC
  else (s.b ^^^ s.c ^^^ s.d) + 0xCA62C1D6

/-- One round on the word `w`. -/
def round (t : ℕ) (w : UInt32) (s : State) : State :=
  ⟨rotl 5 s.a + mix t s + s.e + w, s.a, rotl 30 s.b, s.c, s.d⟩

/-- `n` rounds from round `t` on.  The window holds the next sixteen words of the schedule. -/
def rounds : ℕ → ℕ → List UInt32 → State → State
  | 0, _, _, s => s
  | n + 1, t, window, s =>
      let w := window.getD 0 0
      let next := rotl 1 (window.getD 13 0 ^^^ window.getD 8 0 ^^^ window.getD 2 0 ^^^ w)
      rounds n (t + 1) (window.tail ++ [next]) (round t w s)

/-- The hash value after one more block. -/
def compress (h : State) (block : List UInt32) : State :=
  let s := rounds 80 0 block h
  ⟨h.a + s.a, h.b + s.b, h.c + s.c, h.d + s.d, h.e + s.e⟩

/-- The hash value after `n` blocks. -/
def blocks : ℕ → List UInt32 → State → State
  | 0, _, h => h
  | n + 1, ws, h => blocks n (ws.drop 16) (compress h (ws.take 16))

/-- The hash of a message, twenty bytes. -/
def digest (msg : List UInt8) : List UInt8 :=
  let ws := words (pad msg)
  let h := blocks (ws.length / 16) ws init
  [h.a, h.b, h.c, h.d, h.e].flatMap fun w => BigEndian.toBytes 4 w.toNat

example : digest [0x61, 0x62, 0x63] = [0xA9, 0x99, 0x3E, 0x36, 0x47, 0x06, 0x81, 0x6A, 0xBA, 0x3E,
    0x25, 0x71, 0x78, 0x50, 0xC2, 0x6C, 0x9C, 0xD0, 0xD8, 0x9D] := by decide +kernel

end Sha1
