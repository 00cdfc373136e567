/-
**What a protocol error leaves behind.**

After an error that the peer caused a socket should be done for: later calls of `recv` return
`Ok(None)` and read nothing, and the bytes of the message in progress are gone.  The exits of `recv`
differ in this.  A frame that cannot be read closes the socket and leaves the buffer alone; a
message over the budget closes it and clears the buffer; a frame out of turn and a text that is not
UTF-8 do not close it at all.  This module says for every state and every input which of them it is.

Main definitions:

* `OxiHttp.Ended` — what a protocol error should leave behind;
* `OxiHttp.Collected`, `OxiHttp.Collects` — the frames `recv` takes in before the one it returns
  at, and the socket these leave;
* `OxiHttp.LastRound` — the socket at the head of the last round of a call;
* `OxiHttp.EndsConnection` — the errors that end the connection.

Main results:

* `OxiHttp.ended_iff` — a socket is done for when it is closed and its buffer is empty;
* `OxiHttp.lastRound_exists` — every call has a last round;
* `OxiHttp.recv_error_ended_iff` — which errors end the connection.
-/

import OxiHttp.WsReassembly
import OxiHttp.WsClosing

set_option relaxedAutoImplicit false
set_option autoImplicit false

namespace OxiHttp

/-! ### The end of a connection -/

/-- No byte of a message is left in the buffer, and whatever is done with the socket, `recv` returns
`Ok(None)` without reading. -/
def Ended (ws : WebSocket) : Prop :=
  ws.fragBuf = [] ∧
    ∀ ops : List Op, recvCall (runOps ops ws) = (⟨[], .ok none⟩, runOps ops ws)

theorem recvCall_of_closed {ws : WebSocket} (h : ws.closed = true) :
    recvCall ws = (⟨[], .ok none⟩, ws) := by rw [recvCall, if_pos h]

/-- An operation does not open a closed socket again. -/
theorem Op.run_closed (op : Op) {ws : WebSocket} (h : ws.closed = true) :
    (op.run ws).closed = true := by
  cases op with
  | recv => simp [Op.run, OxiHttp.recv, recvCall_of_closed h, h]
  | send msg =>
      rw [Op.run, run_send]
      cases msg <;> simp [WebSocket.flag, h]
  | setMaxMessageSize maxBytes => exact h

theorem runOps_closed (ops : List Op) {ws : WebSocket} (h : ws.closed = true) :
    (runOps ops ws).closed = true := by
  induction ops generalizing ws with
  | nil => exact h
  | cons op ops ih => exact ih (op.run_closed h)

/-- The loop does not return `Ok(None)`. -/
theorem recvLoop_ne_none (ws : WebSocket) : (recvLoop ws).1.result ≠ .ok none := by
  refine recvLoop_rule (I := fun _ _ => True) (Q := fun _ r _ => r ≠ .ok none) ?_ ?_ [] ws trivial
  · intro _ _ _ _ _ _ h
    cases h
  · intro _ _ _ _ _ _ r _ _
    match r with
    | .ok none => trivial
    | .ok (some _) => exact fun h => by cases h
    | .error _ => exact fun h => by cases h

/-- A socket is done for when it is closed and its buffer is empty. -/
theorem ended_iff {ws : WebSocket} : Ended ws ↔ ws.closed = true ∧ ws.fragBuf = [] := by
  constructor
  · rintro ⟨hbuf, hops⟩
    refine ⟨?_, hbuf⟩
    by_contra hopen
    have hcall : (recvCall ws).1.result = .ok none := by rw [← runOps_nil ws, hops []]
    rw [recvCall, if_neg hopen] at hcall
    exact recvLoop_ne_none ws hcall
  · rintro ⟨hclosed, hbuf⟩
    exact ⟨hbuf, fun ops => recvCall_of_closed (runOps_closed ops hclosed)⟩

/-! ### The rounds of the loop -/

/-- A data frame that the buffer says is in turn. -/
def TakesPart (ws : WebSocket) (f : Frame) : Prop :=
  f.opcode = .continuation ∨ f.opcode.isStart = true ∧ ws.fragBuf = []

/-- A frame that `recv` takes in without returning: a piece of a message, not the last, in turn and
within the budget. -/
def Collected (ws : WebSocket) (f : Frame) : Prop :=
  f.fin = false ∧ TakesPart ws f ∧ ¬ ws.Over f.payload.length

/-- The socket after such a frame. -/
def WebSocket.collect (ws : WebSocket) (f : Frame) : WebSocket :=
  { ws with
    fragBuf := ws.fragBuf ++ f.payload
    fragOpcode := if f.opcode.isStart then some f.opcode else ws.fragOpcode }

/-- The socket after some frames that `recv` takes in without returning. -/
inductive Collects : WebSocket → WebSocket → Prop where
  | refl (ws : WebSocket) : Collects ws ws
  | step {ws head : WebSocket} {f : Frame} {s : ByteStream} :
      (readFrame ws.frameCap).run ws.stream = (.ok f, s) → Collected ws f →
        Collects (WebSocket.collect { ws with stream := s } f) head → Collects ws head

/-- The socket at the head of the last round of a call: the next item on the stream is not a frame
that is taken in. -/
def LastRound (ws head : WebSocket) : Prop :=
  Collects ws head ∧
    ∀ f s, (readFrame head.frameCap).run head.stream = (.ok f, s) → ¬ Collected head f

section Rounds

variable {ws head : WebSocket} {f : Frame}

theorem run_handleFrame_collected (h : Collected ws f) :
    (handleFrame f).run ws = (.ok none, ws.collect f) := by
  obtain ⟨hfin, hpart | ⟨hs, hbuf⟩, hover⟩ := h
  · rw [run_handleFrame_continuation hpart, run_recvContinuation, if_neg hover, hfin,
      if_neg (by simp), WebSocket.collect, hpart]
    rfl
  · rw [run_handleFrame_start hs hbuf, if_neg (by simp [hfin]), run_recvFirst, if_neg hover,
      WebSocket.collect, if_pos hs]

/-- A piece in turn that is over the budget closes the socket and clears its buffer. -/
theorem run_handleFrame_over (hpart : TakesPart ws f) (hover : ws.Over f.payload.length) :
    (handleFrame f).run ws = (.error ws.sizeError, ws.abandon) := by
  rcases hpart with hc | ⟨hs, hbuf⟩
  · rw [run_handleFrame_continuation hc, run_recvContinuation, if_pos hover]
  · rw [run_handleFrame_start hs hbuf, run_recvWhole, run_recvFirst, if_pos hover, if_pos hover,
      ite_self]

/-- Every other data frame ends the call, and leaves the socket as open as it was. -/
theorem handleFrame_other {r : Except OxiHttpError (Option Message)} {ws' : WebSocket}
    (hdata : f.opcode.isControl = false) (hcol : ¬ Collected ws f)
    (hover : ¬ (TakesPart ws f ∧ ws.Over f.payload.length))
    (hrun : (handleFrame f).run ws = (r, ws')) : r ≠ .ok none ∧ ws'.closed = ws.closed := by
  by_cases hpart : TakesPart ws f
  · have hfits : ¬ ws.Over f.payload.length := fun h => hover ⟨hpart, h⟩
    have hfin : f.fin = true := by
      by_contra hfin
      exact hcol ⟨by simpa using hfin, hpart, hfits⟩
    rcases hpart with hc | ⟨hs, hbuf⟩
    · rw [run_handleFrame_continuation hc, run_recvContinuation, if_neg hfits, if_pos hfin,
        run_recvLast] at hrun
      dsimp only at hrun
      cases hop : ws.fragOpcode with
      | none =>
          rw [hop] at hrun
          cases hrun
          exact ⟨by simp, rfl⟩
      | some opcode =>
          rw [hop] at hrun
          cases hrun
          exact ⟨by cases makeDataMessage opcode (ws.fragBuf ++ f.payload) <;> simp [Except.map],
            rfl⟩
    · rw [run_handleFrame_start hs hbuf, if_pos hfin, run_recvWhole, if_neg hfits] at hrun
      cases hrun
      exact ⟨by cases makeDataMessage f.opcode f.payload <;> simp [Except.map], rfl⟩
  · have hs : f.opcode.isStart = true := by
      by_contra hs
      exact hpart (.inl (Opcode.eq_continuation (by simpa using hs) hdata))
    rw [run_handleFrame_unexpected hs fun hbuf => hpart (.inr ⟨hs, hbuf⟩)] at hrun
    cases hrun
    exact ⟨by simp, rfl⟩

/-- Only such frames let the loop go on. -/
theorem collected_of_run {ws' : WebSocket} (h : (handleFrame f).run ws = (.ok none, ws')) :
    Collected ws f := by
  by_contra hcol
  cases hdata : f.opcode.isControl with
  | true =>
      rcases (handleFrame_control hdata h).2.2 with ⟨e, he⟩ | ⟨m, hm, -⟩
      · cases he
      · cases hm
  | false =>
      by_cases hover : TakesPart ws f ∧ ws.Over f.payload.length
      · rw [run_handleFrame_over hover.1 hover.2] at h
        cases h
      · exact (handleFrame_other hdata hcol hover h).1 rfl

theorem Collects.closed (h : Collects ws head) : head.closed = ws.closed := by
  induction h with
  | refl => rfl
  | step _ _ _ ih => exact ih

/-- The call ends as it would have begun at the head of its last round. -/
theorem Collects.recvLoop (h : Collects ws head) :
    (recvLoop ws).1.result = (recvLoop head).1.result ∧ (recvLoop ws).2 = (recvLoop head).2 := by
  induction h with
  | refl => exact ⟨rfl, rfl⟩
  | @step ws head f s hread hf _ ih =>
      have hrun := run_handleFrame_collected (show Collected { ws with stream := s } f from hf)
      rw [recvLoop_of_read_ok hread, hrun]
      exact ih

/-- Every call has a last round. -/
theorem lastRound_exists (ws : WebSocket) : ∃ head, LastRound ws head := by
  -- induction on the input: every frame that is taken in shortens it
  induction hn : ws.stream.input.length using Nat.strong_induction_on generalizing ws with
  | _ n ih =>
      by_cases hnext : ∃ f s, (readFrame ws.frameCap).run ws.stream = (.ok f, s) ∧ Collected ws f
      · obtain ⟨f, s, hread, hf⟩ := hnext
        have hlt : s.input.length < n := hn ▸ readFrame_length_lt hread
        obtain ⟨head, hcol, hlast⟩ := ih _ hlt (WebSocket.collect { ws with stream := s } f) rfl
        exact ⟨head, .step hread hf hcol, hlast⟩
      · exact ⟨ws, .refl ws, fun f s hread hf => hnext ⟨f, s, hread, hf⟩⟩

end Rounds

/-! ### The errors -/

/-- The errors that end the connection: the next frame cannot be read while the buffer is empty, or
it is a piece in turn that is over the budget. -/
def EndsConnection (head : WebSocket) : Prop :=
  match (readFrame head.frameCap).run head.stream with
  | (.error _, _) => head.fragBuf = []
  | (.ok f, _) => TakesPart head f ∧ head.Over f.payload.length

/-- The next item on the stream is not a control frame: on one, only the answer can fail. -/
def NotControl (head : WebSocket) : Prop :=
  ∀ f s, (readFrame head.frameCap).run head.stream = (.ok f, s) → f.opcode.isControl = false

/-- A call that fails at what the peer sent ends the connection exactly when the frame it fails at
cannot be read and nothing was buffered before it, or is in turn and over the budget. -/
theorem recv_error_ended_iff {ws head : WebSocket} {e : OxiHttpError}
    (h : (recv.run ws).1 = .error e) (hhead : LastRound ws head) (hpeer : NotControl head) :
    Ended (recv.run ws).2 ↔ EndsConnection head := by
  have hopen : ws.closed = false := by
    by_contra hclosed
    have hcall : (recvCall ws).1.result = .error e := h
    rw [recvCall_of_closed (by simpa using hclosed)] at hcall
    cases hcall
  obtain ⟨hcol, hlast⟩ := hhead
  obtain ⟨hresult, hsocket⟩ := hcol.recvLoop
  have hheadOpen : head.closed = false := hcol.closed.trans hopen
  simp only [recv, recvCall, hopen, Bool.false_eq_true, if_false] at h ⊢
  rw [hresult] at h
  rw [hsocket, ended_iff, EndsConnection]
  rcases hread : (readFrame head.frameCap).run head.stream with ⟨r, s⟩
  cases r with
  | error e' =>
      rw [recvLoop_of_read_error hread]
      simp
  | ok f =>
      have hdata := hpeer f s hread
      rcases hrun : (handleFrame f).run { head with stream := s } with ⟨r, ws'⟩
      rw [recvLoop_of_read_ok hread, hrun] at h ⊢
      cases r with
      | ok o =>
          cases o with
          | none => exact absurd (collected_of_run hrun) (hlast f s hread)
          | some m => cases h
      | error e' =>
          by_cases hover : TakesPart head f ∧ head.Over f.payload.length
          · have hpart : TakesPart { head with stream := s } f := hover.1
            rw [run_handleFrame_over hpart hover.2] at hrun
            cases hrun
            simp [hover, WebSocket.abandon]
          · have hcol : ¬ Collected { head with stream := s } f := hlast f s hread
            have hkept := (handleFrame_other hdata hcol hover hrun).2
            simp [hkept, hheadOpen, hover]

/-- A text of two bytes. -/
def shortText : Frame := ⟨true, .text, [0x68, 0x69]⟩

/-- It arrives at a socket that takes one byte. -/
def oneByteSocket : WebSocket :=
  .setMaxMessageSize 1 (.new { input := maskedFrameBytes ⟨1, 2, 3, 4⟩ shortText })

theorem recv_error_ended_iff_oneByteSocket : Ended (recv.run oneByteSocket).2 := by
  have hread : (readFrame oneByteSocket.frameCap).run oneByteSocket.stream
      = (.ok shortText, { input := [] }) := by decide
  have hrun : (handleFrame shortText).run { oneByteSocket with stream := { input := [] } } =
      (.error oneByteSocket.sizeError,
        { oneByteSocket.abandon with stream := { input := [] } }) := by
    decide
  have hcall : (recvCall oneByteSocket).1.result = .error oneByteSocket.sizeError := by
    rw [recvCall, if_neg (by decide), recvLoop_of_read_ok hread, hrun]
  have hhead : LastRound oneByteSocket oneByteSocket := by
    refine ⟨.refl _, ?_⟩
    intro f s h hcol
    rw [hread] at h
    cases h
    exact absurd hcol.1 (by decide)
  refine (recv_error_ended_iff hcall hhead ?_).2 ?_
  · intro f s h
    rw [hread] at h
    cases h
    rfl
  · rw [EndsConnection, hread]
    exact ⟨.inr ⟨rfl, rfl⟩, by decide⟩

/-- A text that is not UTF-8. -/
def badText : Frame := ⟨true, .text, [0xFF]⟩

/-- It arrives before a Ping. -/
def badTextSocket : WebSocket :=
  .new { input := sentBytes [(⟨1, 2, 3, 4⟩, badText), (⟨1, 2, 3, 4⟩, ⟨true, .ping, []⟩)] }

/-- The Ping is still there to be read after the text was refused. -/
theorem not_ended_badTextSocket :
    (∃ e, (recv.run badTextSocket).1 = .error e) ∧ ¬ Ended (recv.run badTextSocket).2 ∧
      ((readFrame 125).run (recv.run badTextSocket).2.stream).1 = .ok ⟨true, .ping, []⟩ := by
  let s : ByteStream := { input := sentBytes [(⟨1, 2, 3, 4⟩, ⟨true, .ping, []⟩)] }
  have hread : (readFrame badTextSocket.frameCap).run badTextSocket.stream
      = (.ok badText, s) := by decide
  have hrun : (handleFrame badText).run { badTextSocket with stream := s }
      = (.error (.body ("WebSocket: invalid UTF-8: " ++ Utf8.errorText [0xFF])),
        { badTextSocket with stream := s }) := by decide
  have hcall : recvCall badTextSocket
      = (⟨[badText], .error (.body ("WebSocket: invalid UTF-8: " ++ Utf8.errorText [0xFF]))⟩,
        { badTextSocket with stream := s }) := by
    rw [recvCall, if_neg (by decide), recvLoop_of_read_ok hread, hrun]
  have hrecv : recv.run badTextSocket = ((recvCall badTextSocket).1.result,
      (recvCall badTextSocket).2) := rfl
  rw [hrecv, hcall, ended_iff]
  exact ⟨⟨_, rfl⟩, by decide, by decide⟩

end OxiHttp
