/-
**The DEFLATE and zlib formats.**

RFC 1951: a DEFLATE stream is a series of blocks, each stored as it is, or written with prefix codes
for bytes and for copies of what came before; the codes are fixed ones, or the block begins with the
lengths of its own.  RFC 1950: a zlib stream is a header of two bytes, a DEFLATE stream, and a
checksum of the content.

Main definitions:

* `Deflate.Code` — prefix codes, given by the lengths of their words;
* `Deflate.Token`, `Deflate.expand` — the bytes and copies, and the content they stand for;
* `Deflate.tokens`, `Deflate.inflate` — the tokens and the content of a DEFLATE stream;
* `Zlib.adler32`, `Zlib.decode` — the checksum, and the content of a zlib stream;
* `Deflate.store`, `Zlib.store` — streams of one stored block.

Main results:

* `Deflate.inflate_store`, `Zlib.decode_store` — their content is what was stored.
-/

import Mathlib.Tactic.Ring
import OxiHttp.BigEndian
import OxiHttp.LittleEndian

set_option relaxedAutoImplicit false
set_option autoImplicit false

namespace Deflate

/-! ### Bits -/

/-- What is left to read: the rest of a byte, and the bytes after it. -/
structure Reader where
  bits : List Bool
  bytes : List UInt8

namespace Reader

/-- The next bit; the lowest one of a byte comes first. -/
def bit : Reader → Option (ℕ × Reader)
  | ⟨b :: bs, bytes⟩ => some (b.toNat, ⟨bs, bytes⟩)
  | ⟨[], b :: bytes⟩ =>
    some (b.toNat % 2, ⟨(List.range 7).map fun k => b.toNat.testBit (k + 1), bytes⟩)
  | ⟨[], []⟩ => none

/-- A number of `n` bits, the lowest one first. -/
def number : ℕ → Reader → Option (ℕ × Reader)
  | 0, r => some (0, r)
  | n + 1, r => do
    let (b, r) ← r.bit
    let (m, r) ← number n r
    return (b + 2 * m, r)

end Reader

/-! ### Prefix codes -/

/-- A code: how many words there are of each length from one on, and what they stand for, in the
order of the words. -/
structure Code where
  counts : List ℕ
  symbols : List ℕ

namespace Code

/-- The code in which symbol `s` has a word of the length at place `s`; symbols of length zero have
none. -/
def ofLengths (lengths : List ℕ) : Code where
  counts := (List.range 15).map fun k => lengths.count (k + 1)
  symbols := (List.range 15).flatMap fun k =>
    (lengths.zipIdx.filter fun entry => entry.1 = k + 1).map Prod.snd

/-- The symbol of the next word: `first` is the first word of the present length, and `word` what
was read of it so far. -/
def next : List ℕ → List ℕ → ℕ → ℕ → Reader → Option (ℕ × Reader)
  | [], _, _, _, _ => none
  | count :: counts, symbols, first, word, r => do
    let (b, r) ← r.bit
    let word := 2 * word + b
    if word < first + count then return (symbols.getD (word - first) 0, r)
    else next counts (symbols.drop count) (2 * (first + count)) word r

/-- The next symbol. -/
def read (c : Code) (r : Reader) : Option (ℕ × Reader) := next c.counts c.symbols 0 0 r

/-- The fixed code of bytes and lengths. -/
def fixed : Code :=
  ofLengths (List.replicate 144 8 ++ List.replicate 112 9 ++ List.replicate 24 7 ++
    List.replicate 8 8)

/-- The fixed code of distances. -/
def fixedDistance : Code := ofLengths (List.replicate 30 5)

end Code

/-! ### Tokens -/

/-- What the content is made of. -/
inductive Token where
  | literal (b : UInt8)
  | stored (bs : List UInt8)
  | copy (length distance : ℕ)
deriving DecidableEq

/-- The content after a token: a copy takes the last `distance` bytes, over and over. -/
def Token.apply (out : List UInt8) : Token → Option (List UInt8)
  | literal b => some (out ++ [b])
  | stored bs => some (out ++ bs)
  | copy length distance =>
    if distance = 0 ∨ out.length < distance then none
    else some (out ++ (List.range length).map fun k =>
      out.getD (out.length - distance + k % distance) 0)

/-- The content that the tokens stand for. -/
def expand (ts : List Token) : Option (List UInt8) := ts.foldlM Token.apply []

/-- A copy at distance one repeats the last byte. -/
theorem apply_copy_one (out : List UInt8) (b : UInt8) (n : ℕ) :
    Token.apply (out ++ [b]) (.copy n 1) = some (out ++ List.replicate (n + 1) b) := by
  have hlast : ∀ k, (out ++ [b]).getD ((out ++ [b]).length - 1 + k % 1) 0 = b := by
    intro k
    simp [Nat.mod_one]
  rw [Token.apply, if_neg (by simp), List.replicate_succ, List.append_cons out b (.replicate n b),
    List.map_congr_left fun k _ => hlast k, List.map_const', List.length_range]

/-- Copies at distance one make one run of the last byte. -/
theorem foldlM_copy_one (out : List UInt8) (b : UInt8) (n k : ℕ) :
    (List.replicate k (Token.copy n 1)).foldlM Token.apply (out ++ [b]) =
      some (out ++ List.replicate (k * n + 1) b) := by
  induction k generalizing out with
  | zero => simp
  | succ k ih =>
      have hrun : out ++ List.replicate (n + 1) b = out ++ List.replicate n b ++ [b] := by
        rw [List.replicate_succ', List.append_assoc]
      rw [List.replicate_succ, List.foldlM_cons, apply_copy_one, hrun]
      refine (ih (out ++ List.replicate n b)).trans ?_
      rw [List.append_assoc, List.replicate_append_replicate]
      congr 3
      ring

/-- The lengths that the symbols from 257 on stand for, and how many bits are added to each. -/
def lengthTable : List (ℕ × ℕ) :=
  [(3, 0), (4, 0), (5, 0), (6, 0), (7, 0), (8, 0), (9, 0), (10, 0), (11, 1), (13, 1), (15, 1),
    (17, 1), (19, 2), (23, 2), (27, 2), (31, 2), (35, 3), (43, 3), (51, 3), (59, 3), (67, 4),
    (83, 4), (99, 4), (115, 4), (131, 5), (163, 5), (195, 5), (227, 5), (258, 0)]

/-- The same for distances. -/
def distanceTable : List (ℕ × ℕ) :=
  [(1, 0), (2, 0), (3, 0), (4, 0), (5, 1), (7, 1), (9, 2), (13, 2), (17, 3), (25, 3), (33, 4),
    (49, 4), (65, 5), (97, 5), (129, 6), (193, 6), (257, 7), (385, 7), (513, 8), (769, 8),
    (1025, 9), (1537, 9), (2049, 10), (3073, 10), (4097, 11), (6145, 11), (8193, 12), (12289, 12),
    (16385, 13), (24577, 13)]

/-- An entry of a table, with the bits that are added to it. -/
def extended (table : List (ℕ × ℕ)) (i : ℕ) (r : Reader) : Option (ℕ × Reader) := do
  let (base, extra) ← table[i]?
  let (n, r) ← r.number extra
  return (base + n, r)

/-! ### Blocks -/

/-- A block with codes, of less than `fuel` symbols. -/
def codedBlock (code distances : Code) : ℕ → Reader → Option (List Token × Reader)
  | 0, _ => none
  | fuel + 1, r => do
    let (symbol, r) ← code.read r
    if symbol = 256 then return ([], r)
    if symbol < 256 then
      let (ts, r) ← codedBlock code distances fuel r
      return (.literal (UInt8.ofNat symbol) :: ts, r)
    else
      let (length, r) ← extended lengthTable (symbol - 257) r
      let (symbol, r) ← distances.read r
      let (distance, r) ← extended distanceTable symbol r
      let (ts, r) ← codedBlock code distances fuel r
      return (.copy length distance :: ts, r)

/-- A stored block: its length, the complement of it, and the content from the next byte on. -/
def storedBlock (r : Reader) : Option (List Token × Reader) :=
  match r.bytes with
  | l₀ :: l₁ :: n₀ :: n₁ :: rest =>
    let length := LittleEndian.ofBytes [l₀, l₁]
    if LittleEndian.ofBytes [n₀, n₁] ≠ 65535 - length ∨ rest.length < length then none
    else some ([.stored (rest.take length)], ⟨[], rest.drop length⟩)
  | _ => none

/-- The order in which the lengths of the code of the lengths are written. -/
def lengthOrder : List ℕ := [16, 17, 18, 0, 8, 7, 9, 6, 10, 5, 11, 4, 12, 3, 13, 2, 14, 1, 15]

/-- `n` numbers of three bits. -/
def smallNumbers : ℕ → Reader → Option (List ℕ × Reader)
  | 0, r => some ([], r)
  | n + 1, r => do
    let (m, r) ← r.number 3
    let (ms, r) ← smallNumbers n r
    return (m :: ms, r)

/-- At least `n` lengths, some of them repetitions; they are kept last one first. -/
def codeLengths (code : Code) (n : ℕ) : ℕ → List ℕ → Reader → Option (List ℕ × Reader)
  | 0, _, _ => none
  | fuel + 1, lengths, r => do
    if n ≤ lengths.length then return (lengths, r)
    let (symbol, r) ← code.read r
    if symbol < 16 then codeLengths code n fuel (symbol :: lengths) r
    else if symbol = 16 then
      let last ← lengths.head?
      let (k, r) ← r.number 2
      codeLengths code n fuel (List.replicate (k + 3) last ++ lengths) r
    else
      let (k, r) ← if symbol = 17 then extended [(3, 3)] 0 r else extended [(11, 7)] 0 r
      codeLengths code n fuel (List.replicate k 0 ++ lengths) r

/-- A block with codes of its own. -/
def dynamicBlock (fuel : ℕ) (r : Reader) : Option (List Token × Reader) := do
  let (symbols, r) ← extended [(257, 5)] 0 r
  let (distances, r) ← extended [(1, 5)] 0 r
  let (count, r) ← extended [(4, 4)] 0 r
  let (written, r) ← smallNumbers count r
  let order := lengthOrder.zip written
  let code := Code.ofLengths ((List.range 19).map fun s => (order.lookup s).getD 0)
  let (lengths, r) ← codeLengths code (symbols + distances) fuel [] r
  if lengths.length ≠ symbols + distances then none
  else
    codedBlock (.ofLengths (lengths.reverse.take symbols))
      (.ofLengths (lengths.reverse.drop symbols)) fuel r

/-- The blocks up to the last one, less than `fuel` of them, each of less than `size` symbols. -/
def blocks (size : ℕ) : ℕ → Reader → Option (List Token × Reader)
  | 0, _ => none
  | fuel + 1, r => do
    let (final, r) ← r.bit
    let (kind, r) ← r.number 2
    let (ts, r) ←
      match kind with
      | 0 => storedBlock r
      | 1 => codedBlock .fixed .fixedDistance size r
      | 2 => dynamicBlock size r
      | _ => none
    if final = 1 then return (ts, r)
    let (ts', r) ← blocks size fuel r
    return (ts ++ ts', r)

/-- The tokens of a stream, and the bytes after it.  A symbol takes a bit at least, so there are
fewer than the bits of the stream. -/
def tokens (src : List UInt8) : Option (List Token × List UInt8) := do
  let size := 8 * src.length + 1
  let (ts, r) ← blocks size size ⟨[], src⟩
  return (ts, r.bytes)

/-- The content of the stream that the bytes begin with. -/
def inflate (src : List UInt8) : Option (List UInt8) := do
  let (ts, _) ← tokens src
  expand ts

/-! ### Streams of one stored block -/

/-- Fewer than `2 ^ 16` bytes as a stream. -/
def store (content : List UInt8) : List UInt8 :=
  1 :: (LittleEndian.toBytes 2 content.length ++
    (LittleEndian.toBytes 2 (65535 - content.length) ++ content))

theorem storedBlock_store {content : List UInt8} (h : content.length < 65536) (bits : List Bool)
    (rest : List UInt8) :
    storedBlock ⟨bits, (store content).tail ++ rest⟩ = some ([.stored content], ⟨[], rest⟩) := by
  have hlength : LittleEndian.ofBytes [UInt8.ofNat content.length,
      UInt8.ofNat (content.length / 256)] = content.length :=
    (LittleEndian.ofBytes_toBytes 2 content.length).trans (Nat.mod_eq_of_lt h)
  have hcomplement : LittleEndian.ofBytes [UInt8.ofNat (65535 - content.length),
      UInt8.ofNat ((65535 - content.length) / 256)] = 65535 - content.length :=
    (LittleEndian.ofBytes_toBytes 2 _).trans (Nat.mod_eq_of_lt (by omega))
  simp only [storedBlock, store, LittleEndian.toBytes, List.tail_cons, List.cons_append,
    List.nil_append, hlength, hcomplement]
  rw [if_neg (by simp), List.take_left, List.drop_left]

/-- The block is the last one, and what follows it is left. -/
theorem blocks_store {content : List UInt8} (h : content.length < 65536) (rest : List UInt8)
    (size fuel : ℕ) :
    blocks size (fuel + 1) ⟨[], store content ++ rest⟩ = some ([.stored content], ⟨[], rest⟩) := by
  have hbit : (⟨[], store content ++ rest⟩ : Reader).bit =
      some (1, ⟨List.replicate 7 false, (store content).tail ++ rest⟩) := rfl
  have hkind : (⟨List.replicate 7 false, (store content).tail ++ rest⟩ : Reader).number 2 =
      some (0, ⟨List.replicate 5 false, (store content).tail ++ rest⟩) := rfl
  rw [blocks, hbit]
  dsimp only [bind, Option.bind]
  rw [hkind]
  dsimp only [bind, Option.bind]
  rw [storedBlock_store h]
  rfl

theorem tokens_store {content : List UInt8} (h : content.length < 65536) (rest : List UInt8) :
    tokens (store content ++ rest) = some ([.stored content], rest) := by
  rw [tokens]
  dsimp only
  rw [blocks_store h]
  rfl

theorem inflate_store {content : List UInt8} (h : content.length < 65536) (rest : List UInt8) :
    inflate (store content ++ rest) = some content := by
  rw [inflate, tokens_store h]
  rfl

end Deflate

namespace Zlib

/-- What a byte adds to the two sums of the checksum. -/
def step (sums : ℕ × ℕ) (b : UInt8) : ℕ × ℕ := (sums.1 + b.toNat, sums.2 + (sums.1 + b.toNat))

/-- What a run of one byte adds to the sums. -/
theorem foldl_step_replicate (s t n : ℕ) (b : UInt8) :
    (List.replicate n b).foldl step (s, t) =
      (s + n * b.toNat, t + n * s + b.toNat * (n * (n + 1) / 2)) := by
  induction n generalizing s t with
  | zero => simp
  | succ n ih =>
      have hsum : (n + 1) * (n + 1 + 1) / 2 = n * (n + 1) / 2 + (n + 1) := by
        rw [show (n + 1) * (n + 1 + 1) = n * (n + 1) + (n + 1) * 2 by ring,
          Nat.add_mul_div_right _ _ (by omega)]
      rw [List.replicate_succ, List.foldl_cons, step, ih, hsum, Prod.mk.injEq]
      constructor
      · ring
      · ring

/-- The checksum of a zlib stream: the sum of the bytes and the sum of these sums. -/
def adler32 (bs : List UInt8) : ℕ :=
  let sums := bs.foldl step (1, 0)
  65536 * (sums.2 % 65521) + sums.1 % 65521

/-- The content of the zlib stream that the bytes begin with. -/
def decode : List UInt8 → Option (List UInt8)
  | cmf :: flg :: src =>
    if cmf.toNat % 16 ≠ 8 ∨ 7 < cmf.toNat / 16 ∨ (256 * cmf.toNat + flg.toNat) % 31 ≠ 0 ∨
      flg.toNat.testBit 5 then none
    else do
      let (ts, rest) ← Deflate.tokens src
      let out ← Deflate.expand ts
      if rest.length < 4 ∨ BigEndian.ofBytes (rest.take 4) ≠ adler32 out then none else some out
  | _ => none

/-- Fewer than `2 ^ 16` bytes as a stream. -/
def store (content : List UInt8) : List UInt8 :=
  0x78 :: 0x01 :: (Deflate.store content ++ BigEndian.toBytes 4 (adler32 content))

theorem adler32_lt (content : List UInt8) : adler32 content < 256 ^ 4 := by
  unfold adler32
  dsimp only
  omega

theorem decode_store {content : List UInt8} (h : content.length < 65536) :
    decode (store content) = some content := by
  have hexpand : Deflate.expand [.stored content] = some content := rfl
  have hsum : BigEndian.ofBytes ((BigEndian.toBytes 4 (adler32 content)).take 4) =
      adler32 content := by
    rw [List.take_of_length_le (BigEndian.length_toBytes 4 _).le]
    exact BigEndian.ofBytes_toBytes (adler32_lt content)
  rw [store, decode, if_neg (by decide), Deflate.tokens_store h]
  simp only [bind, Option.bind, hexpand]
  rw [if_neg (by simp [hsum])]

end Zlib
