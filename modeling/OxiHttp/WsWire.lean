/-
**What the peer sees of the frames a server writes.**

The peer of a connection sees bytes.  This module reads the frames of the server back from them,
as RFC 6455 §5.2 lays a frame out, so that a statement about "the frames on the wire" is one
about the bytes the code has written and not about the calls it has made.

Main definitions:

* `OxiHttp.nextFrame` — the first unmasked frame on a stream;
* `OxiHttp.serverFrames` — unmasked frames as a format for records;
* `OxiHttp.wireFrames` — all complete frames on a stream.

Main results:

* `OxiHttp.nextFrame_frameBytes` — a frame is read back from the bytes the server writes for it;
* `OxiHttp.wrote_push` — writing one more frame adds that frame to those on the wire, or, where
  the transport breaks inside it, nothing.
-/

import OxiHttp.RecordStream
import OxiHttp.WsFrame

set_option relaxedAutoImplicit false
set_option autoImplicit false

namespace OxiHttp

/-- The first `n` bytes of a stream, and what follows them. -/
def splitBytes (n : ℕ) (bs : List UInt8) : Option (List UInt8 × List UInt8) :=
  if n ≤ bs.length then some (bs.take n, bs.drop n) else none

theorem splitBytes_append {n : ℕ} {a b : List UInt8} (h : a.length = n) :
    splitBytes n (a ++ b) = some (a, b) := by
  subst h
  simp [splitBytes]

theorem splitBytes_mono {n : ℕ} {bs a b : List UInt8} (h : splitBytes n bs = some (a, b))
    (t : List UInt8) : splitBytes n (bs ++ t) = some (a, b ++ t) := by
  unfold splitBytes at h ⊢
  split at h
  case isTrue hn =>
      cases h
      rw [if_pos (by rw [List.length_append]; omega), List.take_append_of_le_length hn,
        List.drop_append_of_le_length hn]
  case isFalse => cases h

/-- The payload length: the seven-bit one, or the extended one it announces. -/
def nextLen (code : ℕ) (bs : List UInt8) : Option (ℕ × List UInt8) :=
  if code ≤ 125 then some (code, bs)
  else (splitBytes (if code = 126 then 2 else 8) bs).map fun p => (BigEndian.ofBytes p.1, p.2)

theorem nextLen_extLen {len : ℕ} (hlen : len < 2 ^ 64) (rest : List UInt8) :
    nextLen (lenCode len) (extLen len ++ rest) = some (len, rest) := by
  unfold nextLen lenCode extLen
  split
  case isTrue => simp [*]
  case isFalse h₁ =>
      split
      case isTrue h₂ =>
          rw [if_neg (by omega), if_pos rfl, splitBytes_append (by simp), Option.map_some,
            BigEndian.ofBytes_toBytes (by omega)]
      case isFalse h₂ =>
          rw [if_neg (by omega), if_neg (by omega), splitBytes_append (by simp), Option.map_some,
            BigEndian.ofBytes_toBytes (by omega)]

theorem nextLen_mono {code len : ℕ} {bs rest : List UInt8} (h : nextLen code bs = some (len, rest))
    (t : List UInt8) : nextLen code (bs ++ t) = some (len, rest ++ t) := by
  unfold nextLen at h ⊢
  split at h
  case isTrue hc =>
      cases h
      rw [if_pos hc]
  case isFalse hc =>
      obtain ⟨p, hp, heq⟩ := Option.map_eq_some_iff.1 h
      cases heq
      rw [if_neg hc, splitBytes_mono hp, Option.map_some]

/-- The FIN bit, the opcode and the seven-bit length of an unmasked header. -/
def nextHeader (b₀ b₁ : UInt8) : Option (Bool × Opcode × ℕ) :=
  if b₀ &&& 0x70 = 0 ∧ b₁ &&& 0x80 = 0 then
    (Opcode.fromU8 (b₀ &&& 0x0F)).map fun opcode => (b₀ &&& 0x80 != 0, opcode, b₁.toNat)
  else none

/-- The first unmasked frame on a stream, and what follows it. -/
def nextFrame (bs : List UInt8) : Option (Frame × List UInt8) :=
  match bs with
  | b₀ :: b₁ :: bs =>
      (nextHeader b₀ b₁).bind fun (fin, opcode, code) =>
        (nextLen code bs).bind fun (len, bs) =>
          (splitBytes len bs).map fun (payload, rest) => ({ fin, opcode, payload }, rest)
  | _ => none

theorem nextFrame_mono (bs t : List UInt8) (f : Frame) (rest : List UInt8)
    (h : nextFrame bs = some (f, rest)) : nextFrame (bs ++ t) = some (f, rest ++ t) := by
  unfold nextFrame at h ⊢
  split at h
  case h_1 b₀ b₁ bs =>
      obtain ⟨⟨fin, opcode, code⟩, h₀, h⟩ := Option.bind_eq_some_iff.1 h
      obtain ⟨⟨len, bs₁⟩, h₁, h⟩ := Option.bind_eq_some_iff.1 h
      obtain ⟨⟨payload, bs₂⟩, h₂, heq⟩ := Option.map_eq_some_iff.1 h
      cases heq
      simp only [List.cons_append, h₀, Option.bind_some, nextLen_mono h₁ t,
        splitBytes_mono h₂ t, Option.map_some]
  case h_2 => cases h

theorem unmasked_bits : ∀ n < 128, (0x00 ||| UInt8.ofNat n) &&& 0x80 = 0 ∧
    (0x00 ||| UInt8.ofNat n).toNat = n := by decide

/-- A frame is read back from the bytes the server writes for it. -/
theorem nextFrame_frameBytes (f : Frame) (rest : List UInt8) (h : f.payload.length < 2 ^ 64) :
    nextFrame (frameBytes f ++ rest) = some (f, rest) := by
  obtain ⟨hmask, hcode⟩ := unmasked_bits _ (lenCode_lt f.payload.length)
  have hheader : nextHeader (firstByte f.opcode f.fin)
      (0x00 ||| UInt8.ofNat (lenCode f.payload.length))
      = some (f.fin, f.opcode, lenCode f.payload.length) := by
    unfold nextHeader
    rw [hmask, hcode]
    cases f.opcode <;> cases f.fin <;> rfl
  simp only [nextFrame, frameBytes, lenField, List.cons_append, hheader, Option.bind_some,
    List.append_assoc, nextLen_extLen h, splitBytes_append rfl, Option.map_some]

/-- The frames of a server as records on a stream. -/
def serverFrames : RecordStream.Codec Frame UInt8 where
  Valid f := f.payload.length < 2 ^ 64
  encode := frameBytes
  decode := nextFrame
  encode_ne_nil f := by simp [frameBytes]
  decode_encode f rest h := nextFrame_frameBytes f rest h
  decode_append := nextFrame_mono

/-- The complete frames among the bytes written. -/
def wireFrames (output : List UInt8) : List Frame := serverFrames.decodeAll output

/-! ### The frames on a stream -/

/-- These are the frames that were written to the stream, and where more than that was written,
it is the first part of one more frame and the stream is broken. -/
def Wrote (s : ByteStream) (fs : List Frame) : Prop :=
  (∀ f ∈ fs, f.payload.length < 2 ^ 64) ∧
    ∃ tail, s.output = fs.flatMap frameBytes ++ tail ∧ nextFrame tail = none ∧
      (s.Broken ∨ tail = [])

theorem Wrote.wireFrames {s : ByteStream} {fs : List Frame} (h : Wrote s fs) :
    wireFrames s.output = fs := by
  obtain ⟨hlen, tail, hout, htail, -⟩ := h
  rw [hout]
  exact serverFrames.decodeAll_encode hlen htail

theorem wrote_nil {s : ByteStream} (h : s.output = []) : Wrote s [] :=
  ⟨by simp, [], by simpa using h, rfl, .inr rfl⟩

theorem Wrote.of_eq {s s' : ByteStream} {fs : List Frame} (h : Wrote s fs)
    (hout : s'.output = s.output) (hroom : s'.room = s.room) : Wrote s' fs := by
  simpa [Wrote, ByteStream.Broken, hout, hroom] using h

/-- Nothing more is written to a broken stream. -/
theorem ByteStream.push_of_broken {s : ByteStream} (h : s.Broken) (bs : List UInt8) :
    s.push bs = s := by
  cases s
  simp_all [Broken, push]

/-- A frame that does not fit breaks the stream, and nothing is added to the frames on the
wire. -/
theorem wrote_push_of_not_fits {s : ByteStream} {fs : List Frame} {f : Frame} (h : Wrote s fs)
    (hlen : f.payload.length < 2 ^ 64) (hfit : ¬ s.Fits (frameBytes f).length) :
    (s.push (frameBytes f)).Broken ∧ Wrote (s.push (frameBytes f)) fs := by
  obtain ⟨hbroken, -⟩ := ByteStream.broken_push_append (b := []) hfit
  rw [List.append_nil] at hbroken
  refine ⟨hbroken, ?_⟩
  obtain ⟨hfs, tail, hout, htail, hr⟩ := h
  by_cases hb : s.Broken
  · rw [s.push_of_broken hb]
    exact ⟨hfs, tail, hout, htail, hr⟩
  · obtain rfl := hr.resolve_left hb
    obtain ⟨r, hroom, hlt⟩ : ∃ r ∈ s.room, r < (frameBytes f).length := by
      simpa [ByteStream.Fits] using hfit
    refine ⟨hfs, (frameBytes f).take r, ?_, ?_, .inl hbroken⟩
    · simp [ByteStream.push, Option.mem_def.1 hroom, hout]
    -- a first part of a frame is not a frame, as the codec is prefix-free
    · refine serverFrames.decode_of_truncated (t := (frameBytes f).drop r) hlen
        (List.take_append_drop _ _) ?_
      simpa using hlt

/-- Writing one more frame adds it to the frames on the wire, or breaks the stream. -/
theorem wrote_push {s : ByteStream} {fs : List Frame} {f : Frame} (h : Wrote s fs)
    (hlen : f.payload.length < 2 ^ 64) :
    Wrote (s.push (frameBytes f)) (fs ++ [f]) ∨
      (s.push (frameBytes f)).Broken ∧ Wrote (s.push (frameBytes f)) fs := by
  by_cases hfit : s.Fits (frameBytes f).length
  · have hb : ¬ s.Broken := by
      intro hb
      have := hfit 0 hb
      simp [frameBytes] at this
    obtain ⟨hfs, tail, hout, -, hr⟩ := h
    obtain rfl := hr.resolve_left hb
    -- a stream that is not broken ends with a complete frame, so the new one starts there
    refine .inl ⟨fun g hg => ?_, [], ?_, rfl, .inr rfl⟩
    · rcases List.mem_append.1 hg with hg | hg
      · exact hfs g hg
      · rwa [List.mem_singleton.1 hg]
    · cases hroom : s.room with
      | none => simp [ByteStream.push, hroom, hout]
      | some r => simp [ByteStream.push, hroom, hout, List.take_of_length_le (hfit r hroom)]
  · exact .inr (wrote_push_of_not_fits h hlen hfit)

end OxiHttp
