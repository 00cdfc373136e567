/-
**The byte stream under a connection.**

A connection of the repository is any value that implements `tokio::io::{AsyncRead, AsyncWrite}`.
What its users see of it is modelled here: the bytes the peer sends before its side ends, the
bytes written so far, and how many more the transport takes before it breaks for good.

Main definitions:

* `OxiHttp.ByteStream` — the stream;
* `OxiHttp.ByteStream.push` — writing as many bytes as there is room for;
* `OxiHttp.readExact`, `OxiHttp.writeAll`, `OxiHttp.flush` — the three operations the codecs use,
  each with the text its caller puts in front of an I/O error.

Main results:

* `OxiHttp.readExact_append` — reading exactly what stands at the head of the input;
* `OxiHttp.run_writeTwo` — what the two writes and the flush of a frame do to the stream, however
  much room it has;
* `OxiHttp.reads_readExact` — a read consumes input and touches nothing else.
-/

import OxiHttp.Error
import Mathlib.Data.List.Basic

set_option relaxedAutoImplicit false
set_option autoImplicit false

namespace OxiHttp

/-- A full-duplex byte stream. -/
structure ByteStream where
  /-- The bytes the peer sends and that have not been read yet; after them its side is closed. -/
  input : List UInt8
  /-- The bytes that have been written. -/
  output : List UInt8 := []
  /-- How many more bytes can be written before every write fails; `none` when none ever does. -/
  room : Option ℕ := none
  /-- The text of the I/O error of a read beyond the last byte. -/
  readErr : String := "early eof"
  /-- The text of the I/O error of a write that the transport does not take. -/
  writeErr : String := "broken pipe"
deriving DecidableEq, Repr

/-- The transport has failed: nothing more can be written. -/
def ByteStream.Broken (s : ByteStream) : Prop := s.room = some 0

instance (s : ByteStream) : Decidable s.Broken := inferInstanceAs (Decidable (_ = _))

/-- `read_exact` into a buffer of `n` bytes.  On an early end the bytes that were there are
lost. -/
def readExact (what : String) (n : ℕ) : Attempt ByteStream (List UInt8) := ⟨fun s =>
  if n ≤ s.input.length then (.ok (s.input.take n), { s with input := s.input.drop n })
  else (.error (.body (what ++ ": " ++ s.readErr)), { s with input := [] })⟩

/-- The stream after writing `bs`, or the part of it there is room for. -/
def ByteStream.push (s : ByteStream) (bs : List UInt8) : ByteStream :=
  match s.room with
  | none => { s with output := s.output ++ bs }
  | some r => { s with output := s.output ++ bs.take r, room := some (r - bs.length) }

/-- There is room for `n` more bytes. -/
def ByteStream.Fits (s : ByteStream) (n : ℕ) : Prop := ∀ r ∈ s.room, n ≤ r

instance (s : ByteStream) (n : ℕ) : Decidable (s.Fits n) :=
  inferInstanceAs (Decidable (∀ r ∈ s.room, n ≤ r))

/-- `write_all`: either all the bytes are taken, or as many as there is room for. -/
def writeAll (what : String) (bs : List UInt8) : Attempt ByteStream Unit := ⟨fun s =>
  (if s.Fits bs.length then .ok () else .error (.body (what ++ ": " ++ s.writeErr)), s.push bs)⟩

/-- `flush`, which fails once the transport has. -/
def flush (what : String) : Attempt ByteStream Unit := ⟨fun s =>
  if s.Broken then (.error (.body (what ++ ": " ++ s.writeErr)), s) else (.ok (), s)⟩

theorem run_readExact (what : String) (n : ℕ) (s : ByteStream) :
    (readExact what n).run s =
      if n ≤ s.input.length then (.ok (s.input.take n), { s with input := s.input.drop n })
      else (.error (.body (what ++ ": " ++ s.readErr)), { s with input := [] }) := rfl

theorem run_writeAll (what : String) (bs : List UInt8) (s : ByteStream) :
    (writeAll what bs).run s =
      (if s.Fits bs.length then .ok () else .error (.body (what ++ ": " ++ s.writeErr)),
        s.push bs) := rfl

theorem run_flush (what : String) (s : ByteStream) :
    (flush what).run s =
      if s.Broken then (.error (.body (what ++ ": " ++ s.writeErr)), s) else (.ok (), s) := rfl

/-- Reading exactly the bytes that stand at the head of the input. -/
theorem readExact_append {what : String} {n : ℕ} {a b : List UInt8} {s : ByteStream}
    (hin : s.input = a ++ b) (hn : a.length = n) :
    (readExact what n).run s = (.ok a, { s with input := b }) := by
  subst hn
  simp [run_readExact, hin]

/-- A read that succeeds takes as many bytes from the head of the input. -/
theorem readExact_ok {what : String} {n : ℕ} {a : List UInt8} {s s' : ByteStream}
    (h : (readExact what n).run s = (.ok a, s')) :
    s.input = a ++ s'.input ∧ a.length = n ∧ s' = { s with input := s'.input } := by
  rw [run_readExact] at h
  split at h
  case isTrue hn =>
      cases h
      exact ⟨(List.take_append_drop n s.input).symm, List.length_take_of_le hn, rfl⟩
  case isFalse => cases h

/-- A read that fails has used up the input. -/
theorem readExact_error {what : String} {n : ℕ} {e : OxiHttpError} {s s' : ByteStream}
    (h : (readExact what n).run s = (.error e, s')) :
    s.input.length < n ∧ s' = { s with input := [] } := by
  rw [run_readExact] at h
  split at h
  case isTrue => cases h
  case isFalse hn =>
      cases h
      exact ⟨by omega, rfl⟩

/-! ### Writing -/

@[simp] theorem ByteStream.push_input (s : ByteStream) (bs : List UInt8) :
    (s.push bs).input = s.input := by
  unfold push
  split <;> rfl

/-- Writing in two pieces is writing once, also when the room ends inside one of them. -/
theorem ByteStream.push_push (s : ByteStream) (a b : List UInt8) :
    (s.push a).push b = s.push (a ++ b) := by
  cases h : s.room with
  | none => simp [push, h]
  | some r =>
      have htake : a.take r ++ b.take (r - a.length) = (a ++ b).take r := by
        rw [List.take_append]
      simp only [push, h, List.append_assoc, htake, List.length_append]
      rw [show r - a.length - b.length = r - (a.length + b.length) by omega]

/-- A write that does not fit, or that fills the room to the last byte, breaks the stream. -/
theorem ByteStream.broken_push_iff {s : ByteStream} {bs : List UInt8} :
    (s.push bs).Broken ↔ ∃ r ∈ s.room, r ≤ bs.length := by
  cases h : s.room with
  | none => simp [push, h, Broken]
  | some r =>
      simp only [push, h, Broken, Option.some.injEq, Option.mem_def, exists_eq_left']
      omega

/-- A piece that does not fit breaks the stream for what follows. -/
theorem ByteStream.broken_push_append {s : ByteStream} {a b : List UInt8}
    (h : ¬ s.Fits a.length) : (s.push (a ++ b)).Broken ∧ s.push (a ++ b) = s.push a := by
  obtain ⟨r, hr, hlt⟩ : ∃ r ∈ s.room, r < a.length := by simpa [Fits] using h
  have hroom : s.room = some r := hr
  refine ⟨broken_push_iff.2 ⟨r, hr, by simp; omega⟩, ?_⟩
  have htake : (a ++ b).take r = a.take r := List.take_append_of_le_length (by omega)
  simp only [push, hroom, htake, List.length_append]
  rw [show r - (a.length + b.length) = r - a.length by omega]

/-- Two writes and a flush write everything there is room for, and succeed exactly when the
stream is not broken by it. -/
theorem run_writeTwo (w₁ w₂ w₃ : String) (a b : List UInt8) (s : ByteStream) :
    ∃ e, (do writeAll w₁ a; writeAll w₂ b; flush w₃ : Attempt ByteStream Unit).run s
      = (if (s.push (a ++ b)).Broken then .error e else .ok (), s.push (a ++ b)) := by
  by_cases ha : s.Fits a.length
  · have h₁ : (writeAll w₁ a).run s = (.ok (), s.push a) := by rw [run_writeAll, if_pos ha]
    rw [Attempt.bind_ok h₁]
    by_cases hb : (s.push a).Fits b.length
    · have h₂ : (writeAll w₂ b).run (s.push a) = (.ok (), s.push (a ++ b)) := by
        rw [run_writeAll, if_pos hb, s.push_push]
      rw [Attempt.bind_ok h₂, run_flush]
      exact ⟨.body (w₃ ++ ": " ++ (s.push (a ++ b)).writeErr), by split <;> rfl⟩
    · have h₂ : (writeAll w₂ b).run (s.push a)
          = (.error (.body (w₂ ++ ": " ++ (s.push a).writeErr)), s.push (a ++ b)) := by
        rw [run_writeAll, if_neg hb, s.push_push]
      have hbroken : (s.push (a ++ b)).Broken := by
        have := (ByteStream.broken_push_append (b := []) hb).1
        rwa [List.append_nil, s.push_push] at this
      exact ⟨_, by rw [Attempt.bind_error h₂, if_pos hbroken]⟩
  -- the header does not fit, so nothing of the payload is written
  · obtain ⟨hbroken, hpush⟩ := ByteStream.broken_push_append (b := b) ha
    have h₁ : (writeAll w₁ a).run s
        = (.error (.body (w₁ ++ ": " ++ s.writeErr)), s.push (a ++ b)) := by
      rw [run_writeAll, if_neg ha, hpush]
    exact ⟨_, by rw [Attempt.bind_error h₁, if_pos hbroken]⟩

/-! ### What reading leaves alone -/

/-- `s'` is `s` with some of the input consumed. -/
def Consumed (s s' : ByteStream) : Prop :=
  ∃ c, s.input = c ++ s'.input ∧ s' = { s with input := s'.input }

theorem Consumed.refl (s : ByteStream) : Consumed s s := ⟨[], rfl, rfl⟩

theorem Consumed.trans {a b c : ByteStream} (h₁ : Consumed a b) (h₂ : Consumed b c) :
    Consumed a c := by
  obtain ⟨u, hu, eu⟩ := h₁
  obtain ⟨v, hv, ev⟩ := h₂
  refine ⟨u ++ v, by rw [hu, hv, List.append_assoc], ?_⟩
  rw [ev, eu]

theorem Consumed.length_le {s s' : ByteStream} (h : Consumed s s') :
    s'.input.length ≤ s.input.length := by
  obtain ⟨c, hc, -⟩ := h
  simp [hc]

/-- A computation that only consumes input. -/
abbrev Reads {α : Type} (x : Attempt ByteStream α) : Prop := Attempt.Keeps Consumed x

theorem Reads.bind {α β : Type} {x : Attempt ByteStream α} {f : α → Attempt ByteStream β}
    (hx : Reads x) (hf : ∀ a, Reads (f a)) : Reads (x >>= f) :=
  Attempt.Keeps.bind Consumed.trans hx hf

theorem reads_pure {α : Type} (a : α) : Reads (pure a) := Attempt.keeps_pure Consumed.refl a

theorem reads_fail {α : Type} (e : OxiHttpError) : Reads (.fail e : Attempt ByteStream α) :=
  Attempt.keeps_fail Consumed.refl e

theorem reads_readExact (what : String) (n : ℕ) : Reads (readExact what n) := by
  intro s
  rcases h : (readExact what n).run s with ⟨r, s'⟩
  cases r with
  | ok a =>
      obtain ⟨hin, -, hs⟩ := readExact_ok h
      exact ⟨a, hin, hs⟩
  | error e =>
      obtain ⟨-, hs⟩ := readExact_error h
      exact ⟨s.input, by simp [hs], by simp [hs]⟩

end OxiHttp
