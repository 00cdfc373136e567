/-
**The WebSocket frame codec.**

The functions of `ws_frame.rs`: reading one frame a client sent, which must be masked, and
writing one frame, unmasked in the direction of the server and masked in the direction of the
client.  A frame is read with four sequential reads of the stream, and written with two writes
and a flush.

Main definitions:

* `OxiHttp.Opcode`, `OxiHttp.Frame`, `OxiHttp.MaskKey` — the data of the codec;
* `OxiHttp.readFrame` — reading a masked frame under a cap on its payload;
* `OxiHttp.writeFrame`, `OxiHttp.writeFrameMasked` — writing a frame;
* `OxiHttp.frameBytes`, `OxiHttp.maskedFrameBytes` — the bytes the two writers produce.

Main results:

* `OxiHttp.run_writeFrame`, `OxiHttp.run_writeFrameMasked` — what writing a frame does to a stream;
* `OxiHttp.readFrame_masked` — a legal frame within the cap is read back from the bytes the
  masked writer produces, and exactly those bytes are consumed;
* `OxiHttp.readFrame_masked_error` — every other frame is refused;
* `OxiHttp.readFrame_consumed` — reading a frame consumes input and touches nothing else.
-/

import OxiHttp.BigEndian
import OxiHttp.ByteStream
import Mathlib.Data.List.Basic
import Mathlib.Tactic.IntervalCases

set_option relaxedAutoImplicit false
set_option autoImplicit false

namespace OxiHttp

/-- WebSocket opcodes. -/
inductive Opcode where
  | continuation
  | text
  | binary
  | close
  | ping
  | pong
deriving DecidableEq, Repr

namespace Opcode

/-- `opcode as u8`. -/
def toU8 : Opcode → UInt8
  | continuation => 0x0
  | text => 0x1
  | binary => 0x2
  | close => 0x8
  | ping => 0x9
  | pong => 0xA

/-- `Opcode::from_u8`. -/
def fromU8 (v : UInt8) : Option Opcode :=
  match v with
  | 0x0 => some continuation
  | 0x1 => some text
  | 0x2 => some binary
  | 0x8 => some close
  | 0x9 => some ping
  | 0xA => some pong
  | _ => none

/-- `Opcode::is_control`. -/
def isControl : Opcode → Bool
  | close | ping | pong => true
  | continuation | text | binary => false

/-- An opcode that starts a data message. -/
def isStart : Opcode → Bool
  | text | binary => true
  | _ => false

theorem isStart_ne_continuation {o : Opcode} (h : o.isStart = true) : o ≠ continuation := by
  rintro rfl
  cases h

theorem isStart_not_control {o : Opcode} (h : o.isStart = true) : o.isControl = false := by
  cases o <;> simp_all [isStart, isControl]

/-- An opcode that neither starts a message nor is a control opcode continues a message. -/
theorem eq_continuation {o : Opcode} (h₁ : o.isStart = false) (h₂ : o.isControl = false) :
    o = continuation := by
  cases o <;> simp_all [isStart, isControl]

theorem isControl_not_start {o : Opcode} (h : o.isControl = true) : o.isStart = false := by
  cases o <;> simp_all [isStart, isControl]

theorem isControl_ne_continuation {o : Opcode} (h : o.isControl = true) : o ≠ continuation := by
  rintro rfl
  cases h

end Opcode

/-- A WebSocket frame with its payload in the clear. -/
structure Frame where
  fin : Bool
  opcode : Opcode
  payload : List UInt8
deriving DecidableEq, Repr

/-- A masking key, `[u8; 4]`. -/
structure MaskKey where
  k₀ : UInt8
  k₁ : UInt8
  k₂ : UInt8
  k₃ : UInt8
deriving DecidableEq, Repr

namespace MaskKey

/-- The four bytes of a key. -/
def toBytes (key : MaskKey) : List UInt8 := [key.k₀, key.k₁, key.k₂, key.k₃]

/-- The key with these four bytes. -/
def ofBytes (bs : List UInt8) : MaskKey :=
  ⟨bs.getD 0 0, bs.getD 1 0, bs.getD 2 0, bs.getD 3 0⟩

/-- `key[i % 4]`. -/
def byteAt (key : MaskKey) (i : ℕ) : UInt8 := key.toBytes.getD (i % 4) 0

@[simp] theorem ofBytes_toBytes (key : MaskKey) : ofBytes key.toBytes = key := rfl

@[simp] theorem length_toBytes (key : MaskKey) : key.toBytes.length = 4 := rfl

/-- Masking, which is also unmasking: byte `i` is XOR-ed with `key[i % 4]`. -/
def apply (key : MaskKey) (payload : List UInt8) : List UInt8 :=
  payload.mapIdx fun i b => b ^^^ key.byteAt i

@[simp] theorem length_apply (key : MaskKey) (payload : List UInt8) :
    (key.apply payload).length = payload.length := by simp [apply]

/-- Masking twice with one key gives the payload back. -/
@[simp] theorem apply_apply (key : MaskKey) (payload : List UInt8) :
    key.apply (key.apply payload) = payload := by
  rw [apply, apply, List.mapIdx_mapIdx, List.mapIdx_eq_iff]
  intro i
  cases payload[i]? with
  | none => rfl
  | some b =>
      change some b = some (b ^^^ key.byteAt i ^^^ key.byteAt i)
      rw [UInt8.xor_assoc, UInt8.xor_self, UInt8.xor_zero]

end MaskKey

/-! ### Reading -/

/-- The extended payload length that follows the two-byte header, if any. -/
def readPayloadLen (lenByte : ℕ) : Attempt ByteStream ℕ :=
  if lenByte ≤ 125 then pure lenByte
  else if lenByte = 126 then do
    let b ← readExact "WebSocket: read ext len16" 2
    return BigEndian.ofBytes b
  else do
    let b ← readExact "WebSocket: read ext len64" 8
    return BigEndian.ofBytes b

/-- The text of `{opcode_byte:#x}`. -/
def hexByte (b : UInt8) : String := "0x" ++ String.ofList (Nat.toDigits 16 b.toNat)

/-- The checks `readFrame` makes on the two-byte header, and what it takes from it: the FIN bit,
the opcode and the seven-bit length. -/
def parseHeader (b₀ b₁ : UInt8) : Except OxiHttpError (Bool × Opcode × ℕ) :=
  let fin := b₀ &&& 0x80 != 0
  let rsv := b₀ &&& 0x70
  let opcodeByte := b₀ &&& 0x0F
  let masked := b₁ &&& 0x80 != 0
  let lenByte := (b₁ &&& 0x7F).toNat
  if rsv ≠ 0 then
    .error (.body "WebSocket: reserved bits set without extension")
  else if !masked then
    .error (.body ("WebSocket: received unmasked frame from client (server requires masking per " ++
      "RFC 6455 §5.1)"))
  else
    -- the opcode is looked at only after the mask bit
    match Opcode.fromU8 opcodeByte with
    | none => .error (.body ("WebSocket: unknown opcode " ++ hexByte opcodeByte))
    | some opcode =>
        if opcode.isControl && (!fin || 125 < lenByte) then
          .error (.body "WebSocket: illegal control frame (fragmented or oversized)")
        else
          .ok (fin, opcode, lenByte)

/-- The part of `readFrame` that follows the header: the payload length, the cap on it, the
masking key and the payload. -/
def readBody (maxPayloadLen : ℕ) (fin : Bool) (opcode : Opcode) (lenByte : ℕ) :
    Attempt ByteStream Frame := do
  let payloadLen ← readPayloadLen lenByte
  if maxPayloadLen < payloadLen then
    Attempt.fail (.body ("WebSocket: payload too large (" ++ toString payloadLen ++ " bytes, max "
      ++ toString maxPayloadLen ++ ")"))
  else do
    let key ← readExact "WebSocket: read mask key" 4
    let payload ← readExact "WebSocket: read payload" payloadLen
    return { fin, opcode, payload := (MaskKey.ofBytes key).apply payload }

/-- `read_frame`.  For a payload of more than `isize::MAX` bytes within the cap the code panics when
it makes room for it, and this goes on reading; `Watched.readFrame` has the panic. -/
def readFrame (maxPayloadLen : ℕ) : Attempt ByteStream Frame := do
  let header ← readExact "WebSocket: read header" 2
  match parseHeader (header.getD 0 0) (header.getD 1 0) with
  | .error e => Attempt.fail e
  | .ok (fin, opcode, lenByte) => readBody maxPayloadLen fin opcode lenByte

theorem reads_readPayloadLen (lenByte : ℕ) : Reads (readPayloadLen lenByte) := by
  unfold readPayloadLen
  split
  · exact reads_pure _
  · split <;> exact (reads_readExact _ _).bind fun _ => reads_pure _

theorem reads_readBody (maxPayloadLen : ℕ) (fin : Bool) (opcode : Opcode) (lenByte : ℕ) :
    Reads (readBody maxPayloadLen fin opcode lenByte) := by
  refine (reads_readPayloadLen _).bind fun n => ?_
  split
  · exact reads_fail _
  · exact (reads_readExact _ _).bind fun _ => (reads_readExact _ _).bind fun _ => reads_pure _

/-- Reading a frame consumes input and touches nothing else. -/
theorem readFrame_consumed (maxPayloadLen : ℕ) : Reads (readFrame maxPayloadLen) := by
  refine (reads_readExact _ _).bind fun header => ?_
  split
  · exact reads_fail _
  · exact reads_readBody _ _ _ _

/-- A frame that was read took at least its header from the input. -/
theorem readFrame_length_lt {maxPayloadLen : ℕ} {f : Frame} {s s' : ByteStream}
    (h : (readFrame maxPayloadLen).run s = (.ok f, s')) : s'.input.length < s.input.length := by
  obtain ⟨header, s₁, h₁, h₂⟩ := Attempt.bind_eq_ok.1 h
  obtain ⟨hin, hlen, -⟩ := readExact_ok h₁
  have hrest : s'.input.length ≤ s₁.input.length := by
    split at h₂
    · cases h₂
    · exact ((reads_readBody _ _ _ _).of_run h₂).length_le
  rw [hin, List.length_append, hlen]
  omega

/-- A number that was read, and the bytes it was read from. -/
theorem readNumber_ok {what : String} {w n : ℕ} {s s' : ByteStream}
    (h : (readExact what w >>= fun b => (pure (BigEndian.ofBytes b) : Attempt ByteStream ℕ)).run s
      = (.ok n, s')) :
    ∃ ext, s.input = ext ++ s'.input ∧ ext.length = w ∧ n = BigEndian.ofBytes ext := by
  obtain ⟨ext, s₁, h₁, h₂⟩ := Attempt.bind_eq_ok.1 h
  cases h₂
  obtain ⟨hin, hlen, -⟩ := readExact_ok h₁
  exact ⟨ext, hin, hlen, rfl⟩

theorem readPayloadLen_lt {lenByte n : ℕ} {s s' : ByteStream}
    (h : (readPayloadLen lenByte).run s = (.ok n, s')) : n < 2 ^ 64 := by
  have hofBytes : ∀ {what : String} {w : ℕ}, w ≤ 8 →
      (do let b ← readExact what w; return BigEndian.ofBytes b : Attempt ByteStream ℕ).run s
        = (.ok n, s') → n < 2 ^ 64 := by
    intro what w hw h
    obtain ⟨b, -, hlen, rfl⟩ := readNumber_ok h
    calc BigEndian.ofBytes b < 256 ^ w := BigEndian.ofBytes_lt hlen
      _ ≤ 256 ^ 8 := Nat.pow_le_pow_right (by omega) hw
  unfold readPayloadLen at h
  split at h
  · cases h
    omega
  · split at h
    · exact hofBytes (by omega) h
    · exact hofBytes (by omega) h

/-- The payload of a frame that was read is within the cap and has the length its header says. -/
theorem readFrame_payload {maxPayloadLen : ℕ} {f : Frame} {s s' : ByteStream}
    (h : (readFrame maxPayloadLen).run s = (.ok f, s')) :
    f.payload.length ≤ maxPayloadLen ∧ f.payload.length < 2 ^ 64 := by
  obtain ⟨header, s₁, -, h⟩ := Attempt.bind_eq_ok.1 h
  split at h
  case h_1 => cases h
  case h_2 =>
      obtain ⟨n, s₂, hn, h⟩ := Attempt.bind_eq_ok.1 h
      split at h
      case isTrue => cases h
      case isFalse hcap =>
          obtain ⟨key, s₃, -, h⟩ := Attempt.bind_eq_ok.1 h
          obtain ⟨payload, s₄, hp, h⟩ := Attempt.bind_eq_ok.1 h
          cases h
          have hlen : payload.length = n := (readExact_ok hp).2.1
          have := readPayloadLen_lt hn
          simp only [MaskKey.length_apply]
          omega

/-! ### Writing -/

/-- The first byte of a header: FIN, no reserved bit, the opcode. -/
def firstByte (opcode : Opcode) (fin : Bool) : UInt8 :=
  if fin then 0x80 ||| opcode.toU8 else opcode.toU8

/-- The seven-bit length: the length itself, or the mark of a 16-bit or 64-bit one. -/
def lenCode (len : ℕ) : ℕ := if len ≤ 125 then len else if len ≤ 0xFFFF then 126 else 127

/-- The extended length. -/
def extLen (len : ℕ) : List UInt8 :=
  if len ≤ 125 then [] else if len ≤ 0xFFFF then BigEndian.toBytes 2 len
  else BigEndian.toBytes 8 len

/-- The second byte of a header and the extended length, with the mask bit given. -/
def lenField (maskBit : UInt8) (len : ℕ) : List UInt8 :=
  (maskBit ||| UInt8.ofNat (lenCode len)) :: extLen len

/-- `write_frame`: a frame of the server, never masked. -/
def writeFrame (opcode : Opcode) (payload : List UInt8) (fin : Bool) : Attempt ByteStream Unit := do
  let header := firstByte opcode fin :: lenField 0x00 payload.length
  writeAll "WebSocket: write header" header
  writeAll "WebSocket: write payload" payload
  flush "WebSocket: flush"

/-- `write_frame_masked`: a frame of the client. -/
def writeFrameMasked (opcode : Opcode) (payload : List UInt8) (fin : Bool) (maskKey : MaskKey) :
    Attempt ByteStream Unit := do
  let header := firstByte opcode fin :: (lenField 0x80 payload.length ++ maskKey.toBytes)
  writeAll "WebSocket: write masked header" header
  writeAll "WebSocket: write masked payload" (maskKey.apply payload)
  flush "WebSocket: flush masked"

/-- The bytes `writeFrame` puts on the stream. -/
def frameBytes (f : Frame) : List UInt8 :=
  firstByte f.opcode f.fin :: (lenField 0x00 f.payload.length ++ f.payload)

/-- The bytes `writeFrameMasked` puts on the stream. -/
def maskedFrameBytes (key : MaskKey) (f : Frame) : List UInt8 :=
  firstByte f.opcode f.fin ::
    (lenField 0x80 f.payload.length ++ key.toBytes ++ key.apply f.payload)

/-- Writing a frame puts its bytes on the stream as far as there is room, and succeeds exactly
when that does not break the stream. -/
theorem run_writeFrame (f : Frame) (s : ByteStream) :
    ∃ e, (writeFrame f.opcode f.payload f.fin).run s
      = (if (s.push (frameBytes f)).Broken then .error e else .ok (), s.push (frameBytes f)) := by
  have h := run_writeTwo "WebSocket: write header" "WebSocket: write payload" "WebSocket: flush"
    (firstByte f.opcode f.fin :: lenField 0x00 f.payload.length) f.payload s
  exact h

/-- The same for a frame of the client. -/
theorem run_writeFrameMasked (key : MaskKey) (f : Frame) (s : ByteStream) :
    ∃ e, (writeFrameMasked f.opcode f.payload f.fin key).run s
      = (if (s.push (maskedFrameBytes key f)).Broken then .error e else .ok (),
          s.push (maskedFrameBytes key f)) := by
  have h := run_writeTwo "WebSocket: write masked header" "WebSocket: write masked payload"
    "WebSocket: flush masked"
    (firstByte f.opcode f.fin :: (lenField 0x80 f.payload.length ++ key.toBytes))
    (key.apply f.payload) s
  exact h

/-! ### What is written is read back -/

/-- The frames a peer may send: a control frame is not fragmented and is short (RFC 6455 §5.5). -/
def Frame.Legal (f : Frame) : Prop :=
  f.opcode.isControl = true → f.fin = true ∧ f.payload.length ≤ 125

instance (f : Frame) : Decidable f.Legal := inferInstanceAs (Decidable (_ → _))

theorem lenCode_lt (len : ℕ) : lenCode len < 128 := by
  unfold lenCode
  split
  · omega
  · split <;> omega

theorem lt_lenCode_iff (len : ℕ) : 125 < lenCode len ↔ 125 < len := by
  unfold lenCode
  split
  · omega
  · split <;> omega

/-- The seven-bit length and the mask bit are read back from the second byte. -/
theorem secondByte_bits : ∀ n < 128, ((0x80 ||| UInt8.ofNat n) &&& 0x80 != 0) = true ∧
    ((0x80 ||| UInt8.ofNat n) &&& 0x7F).toNat = n := by decide

theorem parseHeader_masked (opcode : Opcode) (fin : Bool) {n : ℕ} (hn : n < 128) :
    parseHeader (firstByte opcode fin) (0x80 ||| UInt8.ofNat n)
      = if opcode.isControl && (!fin || 125 < n) then
          .error (.body "WebSocket: illegal control frame (fragmented or oversized)")
        else .ok (fin, opcode, n) := by
  obtain ⟨hmask, hlen⟩ := secondByte_bits n hn
  have hrsv : firstByte opcode fin &&& 0x70 = 0 := by cases opcode <;> cases fin <;> rfl
  have hfin : (firstByte opcode fin &&& 0x80 != 0) = fin := by cases opcode <;> cases fin <;> rfl
  have hop : Opcode.fromU8 (firstByte opcode fin &&& 0x0F) = some opcode := by
    cases opcode <;> cases fin <;> rfl
  -- each field of the header is read back on its own, and then the checks are those of the code
  simp only [parseHeader, hrsv, hfin, hop, hmask, hlen]
  simp

theorem readPayloadLen_extLen {len : ℕ} (hlen : len < 2 ^ 64) {s : ByteStream} {rest : List UInt8}
    (hin : s.input = extLen len ++ rest) :
    (readPayloadLen (lenCode len)).run s = (.ok len, { s with input := rest }) := by
  unfold readPayloadLen lenCode
  unfold extLen at hin
  split at hin
  case isTrue h₁ =>
      have hs : { s with input := rest } = s := by rw [← List.nil_append rest, ← hin]
      rw [if_pos h₁, if_pos h₁, hs]
      rfl
  case isFalse h₁ =>
      split at hin
      case isTrue h₂ =>
          rw [if_neg h₁, if_pos h₂, if_neg (by omega), if_pos rfl,
            Attempt.bind_ok (readExact_append hin (by simp)), BigEndian.ofBytes_toBytes (by omega)]
          rfl
      case isFalse h₂ =>
          rw [if_neg h₁, if_neg h₂, if_neg (by omega), if_neg (by omega),
            Attempt.bind_ok (readExact_append hin (by simp)), BigEndian.ofBytes_toBytes (by omega)]
          rfl

section Masked

variable {f : Frame} {key : MaskKey} {rest : List UInt8} {s : ByteStream} {maxPayloadLen : ℕ}

/-- The header of a masked frame is read and checked. -/
theorem readFrame_header (hin : s.input = maskedFrameBytes key f ++ rest) :
    (readFrame maxPayloadLen).run s
      = (if f.opcode.isControl && (!f.fin || 125 < lenCode f.payload.length) then
          Attempt.fail (.body "WebSocket: illegal control frame (fragmented or oversized)")
        else readBody maxPayloadLen f.fin f.opcode (lenCode f.payload.length)).run
          { s with input := extLen f.payload.length ++ (key.toBytes ++
              (key.apply f.payload ++ rest)) } := by
  have hsplit : s.input = [firstByte f.opcode f.fin, 0x80 ||| UInt8.ofNat
      (lenCode f.payload.length)] ++ (extLen f.payload.length ++ (key.toBytes ++
        (key.apply f.payload ++ rest))) := by
    simp [hin, maskedFrameBytes, lenField]
  rw [readFrame, Attempt.bind_ok (readExact_append (n := 2) hsplit rfl)]
  simp only [List.getD_cons_zero, List.getD_cons_succ]
  rw [parseHeader_masked _ _ (lenCode_lt _)]
  by_cases hctl : (f.opcode.isControl && (!f.fin || 125 < lenCode f.payload.length)) = true
  · rw [if_pos hctl, if_pos hctl]
  · rw [if_neg hctl, if_neg hctl]

/-- A legal frame within the cap is read back, and exactly its bytes are consumed. -/
theorem readFrame_masked (hin : s.input = maskedFrameBytes key f ++ rest) (hlegal : f.Legal)
    (hcap : f.payload.length ≤ maxPayloadLen) (hlen : f.payload.length < 2 ^ 64) :
    (readFrame maxPayloadLen).run s = (.ok f, { s with input := rest }) := by
  have hctl : ¬ (f.opcode.isControl && (!f.fin || 125 < lenCode f.payload.length)) = true := by
    intro h
    simp only [Bool.and_eq_true, Bool.or_eq_true, Bool.not_eq_true', decide_eq_true_eq,
      lt_lenCode_iff] at h
    obtain ⟨hfin, hshort⟩ := hlegal h.1
    rcases h.2 with h₂ | h₂
    · rw [hfin] at h₂
      cases h₂
    · omega
  -- length, key and payload in the order in which they stand on the stream
  rw [readFrame_header hin, if_neg hctl, readBody,
    Attempt.bind_ok (readPayloadLen_extLen hlen rfl), if_neg (by omega),
    Attempt.bind_ok (readExact_append rfl key.length_toBytes),
    Attempt.bind_ok (readExact_append rfl (key.length_apply _))]
  simp only [MaskKey.ofBytes_toBytes, MaskKey.apply_apply]
  rfl

/-- A frame that is not legal, or whose payload exceeds the cap, is refused. -/
theorem readFrame_masked_error (hin : s.input = maskedFrameBytes key f ++ rest)
    (hbad : ¬ (f.Legal ∧ f.payload.length ≤ maxPayloadLen)) (hlen : f.payload.length < 2 ^ 64) :
    ∃ e s', (readFrame maxPayloadLen).run s = (.error e, s') := by
  rw [readFrame_header hin]
  by_cases hctl : (f.opcode.isControl && (!f.fin || 125 < lenCode f.payload.length)) = true
  · rw [if_pos hctl]
    exact ⟨_, _, rfl⟩
  · have hlegal : f.Legal := by
      intro hc
      simpa [hc, lt_lenCode_iff] using hctl
    have hcap : maxPayloadLen < f.payload.length := by
      by_contra h
      exact hbad ⟨hlegal, by omega⟩
    rw [if_neg hctl, readBody, Attempt.bind_ok (readPayloadLen_extLen hlen rfl), if_pos hcap]
    exact ⟨_, _, rfl⟩

end Masked

/-- At the end of the input no frame is read. -/
theorem readFrame_nil {maxPayloadLen : ℕ} {s : ByteStream} (hin : s.input = []) :
    (readFrame maxPayloadLen).run s
      = (.error (.body ("WebSocket: read header: " ++ s.readErr)), s) := by
  have h : (readExact "WebSocket: read header" 2).run s
      = (.error (.body ("WebSocket: read header: " ++ s.readErr)), s) := by
    cases s
    simp_all [run_readExact]
  exact Attempt.bind_error h

end OxiHttp
