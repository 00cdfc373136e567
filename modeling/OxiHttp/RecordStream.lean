/-
**Records on a stream.**

A stream format writes records one after the other with nothing between them, and its reader takes
one record from the head of what has arrived.  `RecordStream.Codec` is such a format with the two
properties that make it one: a record that was written is read back whatever follows it, and more
bytes do not change what has been read.  From them follows what a reader sees of a stream that
ends inside a record.

Main definitions:

* `RecordStream.Codec` — a format;
* `RecordStream.Codec.decodeAll` — all the records on a stream.

Main results:

* `RecordStream.Codec.decode_of_truncated` — of a record cut short nothing is read;
* `RecordStream.Codec.decodeAll_encode` — the records that were written are the records that are
  read, also when the last one was cut short.
-/

import Mathlib.Data.List.Basic
import Mathlib.Tactic.Common

set_option relaxedAutoImplicit false
set_option autoImplicit false

namespace RecordStream

/-- A format for records of type `α` on a stream of symbols of type `β`. -/
structure Codec (α β : Type) where
  /-- The records that can be written. -/
  Valid : α → Prop
  encode : α → List β
  /-- The first record on a stream, and what follows it. -/
  decode : List β → Option (α × List β)
  encode_ne_nil : ∀ a, encode a ≠ []
  decode_encode : ∀ a rest, Valid a → decode (encode a ++ rest) = some (a, rest)
  decode_append : ∀ bs t a rest, decode bs = some (a, rest) → decode (bs ++ t) = some (a, rest ++ t)

namespace Codec

variable {α β : Type} (c : Codec α β)

/-- At most `n` records from the head of a stream. -/
def decodeUpTo : ℕ → List β → List α
  | 0, _ => []
  | n + 1, bs =>
      match c.decode bs with
      | some (a, rest) => a :: decodeUpTo n rest
      | none => []

/-- All the records on a stream, up to the first position where none stands. -/
def decodeAll (bs : List β) : List α := c.decodeUpTo bs.length bs

/-- Of a record cut short nothing is read. -/
theorem decode_of_truncated {a : α} {p t : List β} (ha : c.Valid a) (h : p ++ t = c.encode a)
    (ht : t ≠ []) : c.decode p = none := by
  cases hp : c.decode p with
  | none => rfl
  | some r =>
      obtain ⟨a', rest⟩ := r
      -- what is read from the part is read from the whole, and leaves the missing rest behind
      have h₁ := c.decode_append p t a' rest hp
      have h₂ := c.decode_encode a [] ha
      rw [List.append_nil, ← h, h₁] at h₂
      simp_all

theorem decodeUpTo_encode {as : List α} {tail : List β} (has : ∀ a ∈ as, c.Valid a)
    (htail : c.decode tail = none) {n : ℕ} (hn : as.length ≤ n) :
    c.decodeUpTo n (as.flatMap c.encode ++ tail) = as := by
  induction as generalizing n with
  | nil => cases n <;> simp [decodeUpTo, htail]
  | cons a as ih =>
      cases n with
      | zero => simp at hn
      | succ n =>
          have hrest := ih (fun b hb => has b (List.mem_cons_of_mem _ hb)) (by simpa using hn)
          rw [List.flatMap_cons, List.append_assoc, decodeUpTo,
            c.decode_encode _ _ (has a List.mem_cons_self)]
          simp [hrest]

theorem length_le_length_encode (as : List α) : as.length ≤ (as.flatMap c.encode).length := by
  induction as with
  | nil => simp
  | cons a as ih =>
      have := List.length_pos_iff.2 (c.encode_ne_nil a)
      simp only [List.flatMap_cons, List.length_append, List.length_cons]
      omega

/-- The records that were written are read back, whatever unfinished rest follows them. -/
theorem decodeAll_encode {as : List α} {tail : List β} (has : ∀ a ∈ as, c.Valid a)
    (htail : c.decode tail = none) : c.decodeAll (as.flatMap c.encode ++ tail) = as := by
  refine c.decodeUpTo_encode has htail ?_
  have := c.length_le_length_encode as
  rw [List.length_append]
  omega

end Codec

end RecordStream
