/-
**Frames one after the other.**

A client puts its frames on the stream with `write_frame_masked`, the server takes them off with
`read_frame`.  The length of a frame is in its header, so nothing stands between two frames and the
reader must stop exactly where the next one begins.

Main definitions:

* `OxiHttp.writeFramesMasked`, `OxiHttp.readFrames` — repeated calls of the two functions.

Main results:

* `OxiHttp.run_writeFramesMasked` — what the writer puts on a stream that does not break;
* `OxiHttp.run_readFrames` — what the reader takes off a stream that begins with these bytes;
* `OxiHttp.frames_roundTrip` — the two together.
-/

import OxiHttp.WsFrame

set_option relaxedAutoImplicit false
set_option autoImplicit false

namespace OxiHttp

/-- One call of `write_frame_masked` for every frame, each with its key. -/
def writeFramesMasked : List (MaskKey × Frame) → Attempt ByteStream Unit
  | [] => pure ()
  | (key, f) :: sent => do
      writeFrameMasked f.opcode f.payload f.fin key
      writeFramesMasked sent

/-- A number of calls of `read_frame`. -/
def readFrames (maxPayloadLen : ℕ) : ℕ → Attempt ByteStream (List Frame)
  | 0 => pure []
  | n + 1 => do
      let f ← readFrame maxPayloadLen
      let fs ← readFrames maxPayloadLen n
      return f :: fs

/-- A stream that does not break takes everything that is written to it. -/
theorem ByteStream.push_of_room {s : ByteStream} (h : s.room = none) (bs : List UInt8) :
    s.push bs = { s with output := s.output ++ bs } := by
  rw [push, h]

/-- The bytes of the frames, in order. -/
theorem run_writeFramesMasked (sent : List (MaskKey × Frame)) {s : ByteStream}
    (hroom : s.room = none) :
    (writeFramesMasked sent).run s
      = (.ok (), { s with
          output := s.output ++ sent.flatMap fun p => maskedFrameBytes p.1 p.2 }) := by
  induction sent generalizing s with
  | nil => simp [writeFramesMasked]
  | cons p sent ih =>
      obtain ⟨key, f⟩ := p
      obtain ⟨e, he⟩ := run_writeFrameMasked key f s
      have hopen : ¬ (s.push (maskedFrameBytes key f)).Broken := by
        rw [s.push_of_room hroom, ByteStream.Broken, hroom]
        simp
      rw [if_neg hopen, s.push_of_room hroom] at he
      have hrest := ih (s := { s with output := s.output ++ maskedFrameBytes key f }) hroom
      rw [writeFramesMasked, Attempt.bind_ok he, hrest, List.flatMap_cons, List.append_assoc]

/-- Legal frames within the cap are read back in order, and exactly their bytes are consumed. -/
theorem run_readFrames {maxPayloadLen : ℕ} {sent : List (MaskKey × Frame)}
    (hsent : ∀ p ∈ sent, p.2.Legal ∧ p.2.payload.length ≤ maxPayloadLen)
    (hlen : ∀ p ∈ sent, p.2.payload.length < 2 ^ 64) {s : ByteStream} {rest : List UInt8}
    (hin : s.input = (sent.flatMap fun p => maskedFrameBytes p.1 p.2) ++ rest) :
    (readFrames maxPayloadLen sent.length).run s
      = (.ok (sent.map Prod.snd), { s with input := rest }) := by
  induction sent generalizing s with
  | nil =>
      have hs : { s with input := rest } = s := by
        rw [List.flatMap_nil, List.nil_append] at hin
        rw [← hin]
      rw [hs]
      rfl
  | cons p sent ih =>
      obtain ⟨key, f⟩ := p
      obtain ⟨hlegal, hcap⟩ := hsent (key, f) List.mem_cons_self
      rw [List.flatMap_cons, List.append_assoc] at hin
      have hread := readFrame_masked hin hlegal hcap (hlen (key, f) List.mem_cons_self)
      have hrest := ih (fun q hq => hsent q (List.mem_cons_of_mem _ hq))
        (fun q hq => hlen q (List.mem_cons_of_mem _ hq))
        (s := { s with input := (sent.flatMap fun p => maskedFrameBytes p.1 p.2) ++ rest }) rfl
      rw [List.length_cons, readFrames, Attempt.bind_ok hread, Attempt.bind_ok hrest]
      rfl

/-- What `write_frame_masked` writes for some frames is read back by as many calls of `read_frame`,
whatever follows, and what follows is left unread. -/
theorem frames_roundTrip (maxPayloadLen : UInt64) {sent : List (MaskKey × Frame)}
    (hsent : ∀ p ∈ sent, p.2.Legal ∧ p.2.payload.length ≤ maxPayloadLen.toNat)
    (client : ByteStream) (hroom : client.room = none) (hout : client.output = [])
    (server : ByteStream) (rest : List UInt8)
    (hin : server.input = ((writeFramesMasked sent).run client).2.output ++ rest) :
    ((writeFramesMasked sent).run client).1 = .ok () ∧
      (readFrames maxPayloadLen.toNat sent.length).run server
        = (.ok (sent.map Prod.snd), { server with input := rest }) := by
  rw [run_writeFramesMasked sent hroom] at hin ⊢
  rw [hout, List.nil_append] at hin
  refine ⟨rfl, run_readFrames hsent (fun p hp => ?_) hin⟩
  exact lt_of_le_of_lt (hsent p hp).2 maxPayloadLen.toNat_lt

/-- A text, a fragment and a Ping. -/
def threeFrames : List (MaskKey × Frame) :=
  [(⟨1, 2, 3, 4⟩, ⟨true, .text, [0x68, 0x69]⟩), (⟨0, 0, 0, 0⟩, ⟨false, .binary, []⟩),
    (⟨9, 8, 7, 6⟩, ⟨true, .ping, [0x70]⟩)]

theorem frames_roundTrip_threeFrames :
    (readFrames 16 3).run { input := ((writeFramesMasked threeFrames).run { input := [] }).2.output
        ++ [0x2A] }
      = (.ok (threeFrames.map Prod.snd), { input := [0x2A] }) := by
  have hsent : ∀ p ∈ threeFrames, p.2.Legal ∧ p.2.payload.length ≤ (16 : UInt64).toNat := by decide
  exact (frames_roundTrip 16 hsent { input := [] } rfl rfl _ [0x2A] rfl).2

end OxiHttp
