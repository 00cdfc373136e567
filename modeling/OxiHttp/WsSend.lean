/-
**What `send` puts on the wire.**

`send` writes one frame for a message, of whatever length.  The reader of this very codec refuses
control frames of more than 125 bytes, and so will the peer.  This module reads the bytes that were
written with a decoder of its own and says when they are one legal frame that carries the message.

Main definitions:

* `OxiHttp.Frame.message` — the message that a whole frame carries;
* `OxiHttp.SendsLegally` — one legal frame of the message is written, or nothing.

Main results:

* `OxiHttp.message_frame` — the frame of a message carries it;
* `OxiHttp.minimalLength_frameBytes` — its length is in the fewest bytes.
-/

import OxiHttp.WsCanonical
import OxiHttp.WsClosing

set_option relaxedAutoImplicit false
set_option autoImplicit false

namespace OxiHttp

/-- The message that a whole frame carries. -/
def Frame.message (f : Frame) : Option Message :=
  match f.opcode with
  | .text | .binary => (makeDataMessage f.opcode f.payload).toOption
  | .ping => some (.ping f.payload)
  | .pong => some (.pong f.payload)
  | .close => some (.close (parseCloseFrame f.payload))
  | .continuation => none

/-- `send` writes exactly one frame, unmasked and whole, legal and with its length in the fewest
bytes, which carries the message; or it fails and has written nothing. -/
def SendsLegally (ws : WebSocket) (msg : Message) : Prop :=
  (∃ bs f, ((send msg).run ws).2.stream.output = ws.stream.output ++ bs ∧
    nextFrame bs = some (f, []) ∧ f.fin = true ∧ f.Legal ∧ MinimalLength bs ∧
    f.message = some msg) ∨
  (∃ e, ((send msg).run ws).1 = .error e) ∧
    ((send msg).run ws).2.stream.output = ws.stream.output

/-! ### The frame of a message -/

/-- The frame of a message carries it: a Close gives its code and its reason back. -/
theorem message_frame (msg : Message) : msg.frame.message = some msg := by
  cases msg with
  | text s => simp [Message.frame, Frame.message, makeDataMessage, Except.toOption]
  | binary b => rfl
  | ping p => rfl
  | pong p => rfl
  | close cf =>
      cases cf with
      | none => rfl
      | some cf =>
          obtain ⟨code, reason⟩ := cf
          have hcode :
              UInt16.ofNat (BigEndian.ofBytes (BigEndian.toBytes 2 code.toNat)) = code := by
            rw [BigEndian.ofBytes_toBytes code.toNat_lt, UInt16.ofNat_toNat]
          have htake : (BigEndian.toBytes 2 code.toNat ++ Utf8.bytes reason).take 2
              = BigEndian.toBytes 2 code.toNat := List.take_left' (BigEndian.length_toBytes 2 _)
          have hdrop : (BigEndian.toBytes 2 code.toNat ++ Utf8.bytes reason).drop 2
              = Utf8.bytes reason := List.drop_left' (BigEndian.length_toBytes 2 _)
          have hlen : ¬ (BigEndian.toBytes 2 code.toNat ++ Utf8.bytes reason).length < 2 := by
            rw [List.length_append, BigEndian.length_toBytes]
            omega
          simp only [Message.frame, Frame.message, parseCloseFrame, hlen, if_false, htake, hdrop,
            hcode, Utf8.fromUtf8Lossy_bytes]

theorem fin_frame (msg : Message) : msg.frame.fin = true := by
  rcases msg with _ | _ | _ | _ | _ | _ <;> rfl

theorem isControl_frame (msg : Message) : msg.frame.opcode.isControl = !msg.isData := by
  rcases msg with _ | _ | _ | _ | _ | _ <;> rfl

theorem unmasked_code : ∀ n < 128, ((0x00 ||| UInt8.ofNat n) &&& 0x7F).toNat = n := by decide

theorem minimalLength_frameBytes {f : Frame} (h : f.payload.length < 2 ^ 64) :
    MinimalLength (frameBytes f) := by
  obtain ⟨hext, hlen⟩ := extLen_spec h
  have hcode := lenCode_lt f.payload.length
  exact (minimalLength_iff hcode (unmasked_code _ hcode) hext).2 (by rw [hlen])

/-! ### What is written -/

theorem frameBytes_ne_nil (f : Frame) : frameBytes f ≠ [] := serverFrames.encode_ne_nil f

/-- What a push puts on a stream: nothing when it is broken, everything when it fits, and else a
first part of it. -/
theorem push_output (s : ByteStream) (bs : List UInt8) :
    ∃ front back, bs = front ++ back ∧ (s.push bs).output = s.output ++ front ∧
      (back = [] ↔ s.Fits bs.length) ∧ (front = [] → bs ≠ [] → s.Broken) := by
  cases hroom : s.room with
  | none =>
      refine ⟨bs, [], (List.append_nil _).symm, by rw [s.push_of_room hroom], ?_, fun h hne => ?_⟩
      · simp [ByteStream.Fits, hroom]
      · exact absurd h hne
  | some r =>
      refine ⟨bs.take r, bs.drop r, (List.take_append_drop _ _).symm, ?_, ?_, fun h hne => ?_⟩
      · simp [ByteStream.push, hroom]
      · simp [ByteStream.Fits, hroom, List.drop_eq_nil_iff]
      · rw [List.take_eq_nil_iff] at h
        rw [ByteStream.Broken, hroom, h.resolve_right hne]

/-- **One legal frame or nothing is written exactly when** the stream takes no byte at all, or it
takes the whole frame and the payload of a control frame is no longer than 125 bytes. -/
theorem send_legal_iff (ws : WebSocket) (msg : Message) (hlen : msg.frame.payload.length < 2 ^ 64) :
    SendsLegally ws msg ↔
      ws.stream.Broken ∨ ws.stream.Fits (frameBytes msg.frame).length ∧
        (msg.isData = false → msg.frame.payload.length ≤ 125) := by
  obtain ⟨e, he⟩ := run_send_eq msg ws
  obtain ⟨front, back, hsplit, hout, hfits, hbroken⟩ := push_output ws.stream (frameBytes msg.frame)
  have hlegal : msg.frame.Legal ↔ (msg.isData = false → msg.frame.payload.length ≤ 125) := by
    rw [Frame.Legal, isControl_frame, fin_frame, Bool.not_eq_true']
    simp
  have hwritten : ((send msg).run ws).2.stream.output = ws.stream.output ++ front := by
    rw [he]
    exact hout
  rw [SendsLegally, hwritten, ← hlegal]
  constructor
  · rintro (⟨bs, f, hbs, hframe, -, hf, -, -⟩ | ⟨-, hnone⟩)
    · obtain rfl := List.append_cancel_left hbs
      -- a first part of the frame is no frame, so all of it was written
      have hback : back = [] := by
        by_contra hback
        have hnone := serverFrames.decode_of_truncated (a := msg.frame) hlen hsplit.symm hback
        change nextFrame front = none at hnone
        rw [hframe] at hnone
        cases hnone
      have hread := nextFrame_frameBytes msg.frame [] hlen
      rw [List.append_nil, hsplit, hback, List.append_nil, hframe] at hread
      cases hread
      exact .inr ⟨hfits.1 hback, hf⟩
    · refine .inl (hbroken ?_ (frameBytes_ne_nil _))
      simpa using hnone
  · rintro (hb | ⟨hfit, hf⟩)
    · have hpush := ws.stream.push_of_broken hb (frameBytes msg.frame)
      refine .inr ⟨⟨e, ?_⟩, ?_⟩
      · rw [he, hpush, if_pos hb]
      · rw [← hout, hpush]
    · have hback := hfits.2 hfit
      rw [hback, List.append_nil] at hsplit
      rw [← hsplit]
      refine .inl ⟨frameBytes msg.frame, msg.frame, rfl, ?_, fin_frame msg, hf,
        minimalLength_frameBytes hlen, message_frame msg⟩
      rw [← List.append_nil (frameBytes msg.frame)]
      exact nextFrame_frameBytes msg.frame [] hlen

/-- A Close on a stream that does not break. -/
theorem send_legal_close :
    SendsLegally { stream := { input := [] } } (.close (some ⟨1000, "bye"⟩)) :=
  (send_legal_iff _ _ (by decide)).2 (.inr (by decide))

/-- A Ping of 126 bytes. -/
def longPing : Message := .ping (List.replicate 126 0)

/-- It is written. -/
theorem not_send_legal_longPing : ¬ SendsLegally { stream := { input := [] } } longPing := by
  have hout : ((send longPing).run { stream := { input := [] } }).2.stream.output
      = frameBytes longPing.frame := by
    rw [run_send]
    rfl
  have hlen : longPing.frame.payload.length = 126 := List.length_replicate
  rw [SendsLegally, hout]
  rintro (⟨bs, f, hbs, hframe, -, hlegal, -, -⟩ | ⟨-, hnone⟩)
  · have hread := nextFrame_frameBytes longPing.frame [] (by rw [hlen]; decide)
    rw [List.append_nil, hbs, List.nil_append, hframe] at hread
    cases hread
    exact absurd (hlegal rfl).2 (by rw [hlen]; decide)
  · exact frameBytes_ne_nil longPing.frame hnone

end OxiHttp
