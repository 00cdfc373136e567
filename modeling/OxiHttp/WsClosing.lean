/-
**The closing discipline of a WebSocket.**

RFC 6455 §5.5.1 has an endpoint send one Close frame and no data frame after it.  The code has two
flags for this, `closed` and `close_sent`, set by three operations; `recv` consults both of them
and `send` and `close` neither.  This module follows the frames on the wire through every
interleaving of the operations: the discipline is kept as long as the caller does not ask for a
data or Close frame once a Close frame is on the wire.

Main definitions:

* `OxiHttp.Disciplined` — at most one Close frame, and after it neither Text nor Binary;
* `OxiHttp.Op`, `OxiHttp.Session` — the operations on a socket, and a series of them that `close`
  may end;
* `OxiHttp.Op.Permitted`, `OxiHttp.Session.Permitted` — the caller does not write past a Close;
* `OxiHttp.Orderly` — the invariant of a session.

Main results:

* `OxiHttp.Orderly.push` — what writing a frame takes;
* `OxiHttp.orderly_recv`, `OxiHttp.orderly_send`, `OxiHttp.orderly_close` — each operation keeps the
  invariant.
-/

import OxiHttp.Positions
import OxiHttp.WsSocket
import OxiHttp.WsWire

set_option relaxedAutoImplicit false
set_option autoImplicit false

namespace OxiHttp

/-! ### The discipline -/

/-- A Close frame is among these. -/
def HasClose (fs : List Frame) : Prop := ∃ f ∈ fs, f.opcode = .close

instance (fs : List Frame) : Decidable (HasClose fs) :=
  inferInstanceAs (Decidable (∃ f ∈ fs, f.opcode = .close))

/-- At most one Close frame, and no Text or Binary frame after a Close frame. -/
def Disciplined (fs : List Frame) : Prop :=
  (fs.filter fun f => f.opcode = .close).length ≤ 1 ∧
    ∀ a c b, fs = a ++ c :: b → c.opcode = .close → ∀ f ∈ b, f.opcode.isStart = false

theorem disciplined_nil : Disciplined [] := ⟨by simp, fun a c b h => by simp at h⟩

/-- A frame that may follow a Close frame may always come next. -/
theorem disciplined_concat {fs : List Frame} {f : Frame} (h : Disciplined fs)
    (hf : HasClose fs → f.opcode ≠ .close ∧ f.opcode.isStart = false) :
    Disciplined (fs ++ [f]) := by
  obtain ⟨hcount, hafter⟩ := h
  constructor
  · by_cases hc : f.opcode = .close
    · have hno : fs.filter (fun f => f.opcode = .close) = [] := by
        rw [List.filter_eq_nil_iff]
        intro g hg hgc
        exact (hf ⟨g, hg, by simpa using hgc⟩).1 hc
      simp [hno, hc]
    · simpa [hc] using hcount
  · intro a c b heq hc g hg
    rcases Positions.concat_eq_iff.1 heq with ⟨-, -, rfl⟩ | ⟨b', rfl, rfl⟩
    · cases hg
    · rcases List.mem_append.1 hg with hg | hg
      · exact hafter a c b' rfl hc g hg
      · rw [List.mem_singleton.1 hg]
        exact (hf ⟨c, by simp, hc⟩).2

/-! ### The operations -/

/-- The frame `send` writes for a message. -/
def Message.frame : Message → Frame
  | .text s => ⟨true, .text, Utf8.bytes s⟩
  | .binary b => ⟨true, .binary, b⟩
  | .ping p => ⟨true, .ping, p⟩
  | .pong p => ⟨true, .pong, p⟩
  | .close none => ⟨true, .close, []⟩
  | .close (some cf) => ⟨true, .close, BigEndian.toBytes 2 cf.code.toNat ++ Utf8.bytes cf.reason⟩

/-- The frame `close` writes. -/
def closingFrame (code : UInt16) (reason : String) : Frame :=
  (Message.close (some { code, reason })).frame

/-- The socket after the flags `send` sets for a message. -/
def WebSocket.flag (ws : WebSocket) : Message → WebSocket
  | .close _ => { ws with closeSent := true, closed := true }
  | _ => ws

/-- `send` sets its flags and writes the frame of the message, and succeeds exactly when that does
not break the stream. -/
theorem run_send_eq (msg : Message) (ws : WebSocket) :
    ∃ e, (send msg).run ws
      = (if (ws.stream.push (frameBytes msg.frame)).Broken then .error e else .ok (),
          { ws.flag msg with stream := ws.stream.push (frameBytes msg.frame) }) := by
  cases msg with
  | text s => exact run_onStream_writeFrame ws (Utf8.bytes s) .text
  | binary b => exact run_onStream_writeFrame ws b .binary
  | ping p => exact run_onStream_writeFrame ws p .ping
  | pong p => exact run_onStream_writeFrame ws p .pong
  | close cf => cases cf <;> exact run_onStream_writeFrame (ws.flag (.close none)) _ .close

theorem run_send (msg : Message) (ws : WebSocket) :
    ((send msg).run ws).2
      = { ws.flag msg with stream := ws.stream.push (frameBytes msg.frame) } := by
  obtain ⟨e, he⟩ := run_send_eq msg ws
  rw [he]

/-- A call on a socket. -/
inductive Op where
  | recv
  | send (msg : Message)
  | setMaxMessageSize (maxBytes : ℕ)
deriving DecidableEq, Repr

/-- The socket after a call, whatever it returned. -/
def Op.run (op : Op) (ws : WebSocket) : WebSocket :=
  match op with
  | .recv => (OxiHttp.recv.run ws).2
  | .send msg => ((OxiHttp.send msg).run ws).2
  | .setMaxMessageSize maxBytes => ws.setMaxMessageSize maxBytes

/-- The socket after a series of calls. -/
def runOps (ops : List Op) (ws : WebSocket) : WebSocket := ops.foldl (fun ws op => op.run ws) ws

@[simp] theorem runOps_nil (ws : WebSocket) : runOps [] ws = ws := rfl

@[simp] theorem runOps_cons (op : Op) (ops : List Op) (ws : WebSocket) :
    runOps (op :: ops) ws = runOps ops (op.run ws) := rfl

/-- A series of calls, which a call of `close` may end: `close` takes the socket by value. -/
structure Session where
  ops : List Op
  closing : Option (UInt16 × String) := none
deriving DecidableEq, Repr

/-- The socket a session leaves behind. -/
def Session.run (session : Session) (ws : WebSocket) : WebSocket :=
  match session.closing with
  | none => runOps session.ops ws
  | some (code, reason) => ((close code reason).run (runOps session.ops ws)).2

/-- The frame is Ping or Pong, or no Close frame is on the wire yet, or the transport breaks
before the frame is through. -/
def MayWrite (f : Frame) (ws : WebSocket) : Prop :=
  f.opcode = .close ∨ f.opcode.isStart = true → HasClose (wireFrames ws.stream.output) →
    ¬ ws.stream.Fits (frameBytes f).length

instance (f : Frame) (ws : WebSocket) : Decidable (MayWrite f ws) :=
  inferInstanceAs (Decidable (_ → _ → _))

/-- The call does not write past a Close frame. -/
def Op.Permitted (op : Op) (ws : WebSocket) : Prop :=
  match op with
  | .send msg => MayWrite msg.frame ws
  | _ => True

instance (op : Op) (ws : WebSocket) : Decidable (op.Permitted ws) := by
  unfold Op.Permitted
  cases op <;> infer_instance

/-- No call of the session writes past a Close frame. -/
def Session.Permitted (session : Session) (ws : WebSocket) : Prop :=
  (∀ a op b, session.ops = a ++ op :: b → op.Permitted (runOps a ws)) ∧
    ∀ code reason, session.closing = some (code, reason) →
      MayWrite (closingFrame code reason) (runOps session.ops ws)

/-- Every frame the caller asks for has a length that fits in 64 bits. -/
def Session.Sized (session : Session) : Prop :=
  (∀ msg, Op.send msg ∈ session.ops → msg.frame.payload.length < 2 ^ 64) ∧
    ∀ code reason, session.closing = some (code, reason) →
      (closingFrame code reason).payload.length < 2 ^ 64

/-! ### The invariant -/

/-- The frames on the wire are disciplined, and if a Close frame is among them then one of the
flags says so or the stream is broken. -/
def Orderly (ws : WebSocket) : Prop :=
  ∃ fs, Wrote ws.stream fs ∧ Disciplined fs ∧
    (HasClose fs → ws.closed = true ∨ ws.closeSent = true ∨ ws.stream.Broken)

/-- What writes nothing and clears no flag keeps the invariant. -/
theorem Orderly.keep {ws ws' : WebSocket} (h : Orderly ws)
    (hout : ws'.stream.output = ws.stream.output) (hroom : ws'.stream.room = ws.stream.room)
    (hc : ws.closed = true → ws'.closed = true)
    (hs : ws.closeSent = true → ws'.closeSent = true) : Orderly ws' := by
  obtain ⟨fs, hw, hd, hflag⟩ := h
  refine ⟨fs, hw.of_eq hout hroom, hd, fun hclose => ?_⟩
  rcases hflag hclose with h | h | h
  · exact .inl (hc h)
  · exact .inr (.inl (hs h))
  · exact .inr (.inr (by simpa [ByteStream.Broken, hroom] using h))

/-- Writing a frame keeps the invariant, when the frame may be written and a Close frame is
flagged. -/
theorem Orderly.push {ws ws' : WebSocket} {f : Frame} (h : Orderly ws)
    (hlen : f.payload.length < 2 ^ 64) (hmay : MayWrite f ws)
    (hstream : ws'.stream = ws.stream.push (frameBytes f))
    (hc : ws.closed = true → ws'.closed = true)
    (hs : ws.closeSent = true → ws'.closeSent = true)
    (hflagged : f.opcode = .close →
      ws'.closed = true ∨ ws'.closeSent = true ∨ ws'.stream.Broken) : Orderly ws' := by
  obtain ⟨fs, hw, hd, hflag⟩ := h
  have hkept : HasClose fs → ws'.closed = true ∨ ws'.closeSent = true ∨ ws'.stream.Broken := by
    intro hclose
    rcases hflag hclose with h | h | h
    · exact .inl (hc h)
    · exact .inr (.inl (hs h))
    · rw [hstream, ByteStream.push_of_broken h]
      exact .inr (.inr h)
  by_cases hblocked : (f.opcode = .close ∨ f.opcode.isStart = true) ∧ HasClose fs
  · -- the frame does not get through, and what is written of it breaks the stream
    obtain ⟨hbroken, hw'⟩ := wrote_push_of_not_fits hw hlen
      (hmay hblocked.1 (by rw [hw.wireFrames]; exact hblocked.2))
    rw [← hstream] at hbroken hw'
    exact ⟨fs, hw', hd, fun _ => .inr (.inr hbroken)⟩
  · rcases wrote_push hw hlen with hw' | ⟨hbroken, hw'⟩
    · rw [← hstream] at hw'
      refine ⟨fs ++ [f], hw', disciplined_concat hd fun hclose => ?_, fun hclose => ?_⟩
      · by_contra hcon
        refine hblocked ⟨?_, hclose⟩
        -- Ping and Pong may always come next
        by_contra hor
        rw [not_or] at hor
        exact hcon ⟨hor.1, by simpa using hor.2⟩
      · obtain ⟨g, hg, hgc⟩ := hclose
        rcases List.mem_append.1 hg with hg | hg
        · exact hkept ⟨g, hg, hgc⟩
        · rw [List.mem_singleton.1 hg] at hgc
          exact hflagged hgc
    · rw [← hstream] at hbroken hw'
      exact ⟨fs, hw', hd, fun _ => .inr (.inr hbroken)⟩

/-- One frame from the peer, on a socket that is not closed. -/
theorem Orderly.handleFrame {ws ws' : WebSocket} {f : Frame}
    {r : Except OxiHttpError (Option Message)} (h : Orderly ws) (hopen : ws.closed = false)
    (hlen : f.payload.length < 2 ^ 64) (hrun : (handleFrame f).run ws = (r, ws')) :
    Orderly ws' ∧ (r = .ok none → ws'.closed = false) := by
  cases hctl : f.opcode.isControl with
  | false =>
      obtain ⟨hstream, hsent, hclosed⟩ := handleFrame_data hctl hrun
      refine ⟨h.keep (by rw [hstream]) (by rw [hstream]) ?_ (by rw [hsent]; exact id), ?_⟩
      · rw [hopen]
        exact fun hc => by cases hc
      · rintro rfl
        rcases hclosed with hc | ⟨-, e, he⟩
        · rw [hc, hopen]
        · cases he
  | true =>
      obtain ⟨-, -, hr⟩ := handleFrame_control hctl hrun
      -- a control frame always ends the call, so the loop does not go on with a closed socket
      refine ⟨?_, by rintro rfl; rcases hr with ⟨e, he⟩ | ⟨m, he, -⟩ <;> cases he⟩
      cases ho : f.opcode with
      | ping =>
          obtain ⟨e, he⟩ := run_recvPing ws f.payload
          rw [run_handleFrame_ping ho, he] at hrun
          cases hrun
          -- the Pong may follow a Close frame
          exact h.push (f := ⟨true, .pong, f.payload⟩) hlen
            (by simp [MayWrite, Opcode.isStart]) rfl id id (by simp)
      | pong =>
          rw [run_handleFrame_pong ho] at hrun
          cases hrun
          exact h
      | close =>
          rw [run_handleFrame_close ho] at hrun
          cases hs : ws.closeSent with
          | true =>
              rw [run_recvClose_of_closeSent ws f.payload hs] at hrun
              cases hrun
              exact h.keep rfl rfl (fun _ => rfl) id
          | false =>
              -- neither flag is set: a Close frame on the wire means that the stream is broken
              obtain ⟨e, he⟩ := run_recvClose ws f.payload hs
              have hmay : MayWrite ⟨true, .close, f.payload⟩ ws := by
                intro _ hclose hfit
                obtain ⟨fs, hw, -, hflag⟩ := h
                rw [hw.wireFrames] at hclose
                rcases hflag hclose with hc | hc | hc
                · rw [hopen] at hc
                  cases hc
                · rw [hs] at hc
                  cases hc
                · have := hfit 0 hc
                  simp [frameBytes] at this
              rw [he] at hrun
              split at hrun
              case isTrue hb =>
                  cases hrun
                  exact h.push (f := ⟨true, .close, f.payload⟩) hlen hmay rfl id id
                    fun _ => .inr (.inr hb)
              case isFalse =>
                  cases hrun
                  exact h.push (f := ⟨true, .close, f.payload⟩) hlen hmay rfl (fun _ => rfl) id
                    fun _ => .inl rfl
      | _ => simp [ho, Opcode.isControl] at hctl

/-- Reading does not change what was written. -/
theorem Orderly.consumed {ws ws' : WebSocket} (h : Orderly ws)
    (hs : Consumed ws.stream ws'.stream) (hc : ws.closed = true → ws'.closed = true)
    (hsent : ws'.closeSent = ws.closeSent) : Orderly ws' := by
  obtain ⟨c, -, hs⟩ := hs
  exact h.keep (by rw [hs]) (by rw [hs]) hc (by rw [hsent]; exact id)

theorem orderly_recvCall {ws : WebSocket} (h : Orderly ws) : Orderly (recvCall ws).2 := by
  refine recvCall_rule (I := fun ws => Orderly ws ∧ ws.closed = false) (fun _ => h)
    (fun hc => ⟨h, hc⟩) ?_ ?_
  · rintro ws e s ⟨hI, -⟩ hr
    exact hI.consumed ((readFrame_consumed _).of_run hr) (fun _ => rfl) rfl
  · rintro ws f s ⟨hI, hopen⟩ hr r ws' hrun
    have hI' : Orderly { ws with stream := s } :=
      hI.consumed ((readFrame_consumed _).of_run hr) id rfl
    obtain ⟨hJ, hclosed⟩ := hI'.handleFrame hopen (readFrame_payload hr).2 hrun
    match r with
    | .ok none => exact ⟨hJ, hclosed rfl⟩
    | .ok (some _) => exact hJ
    | .error _ => exact hJ

theorem orderly_recv {ws : WebSocket} (h : Orderly ws) : Orderly (recv.run ws).2 :=
  orderly_recvCall h

theorem orderly_send {ws : WebSocket} {msg : Message} (h : Orderly ws)
    (hlen : msg.frame.payload.length < 2 ^ 64) (hmay : MayWrite msg.frame ws) :
    Orderly ((send msg).run ws).2 := by
  rw [run_send]
  refine h.push hlen hmay rfl ?_ ?_ ?_
  · cases msg <;> first | exact id | exact fun _ => rfl
  · cases msg <;> first | exact id | exact fun _ => rfl
  · cases msg with
    | close cf => exact fun _ => .inl rfl
    | _ => intro hc; cases hc

/-- The loop of `close` keeps what every call of `recv` keeps. -/
theorem drain_rule {I : WebSocket → Prop} (hcall : ∀ ws, I ws → I (recvCall ws).2)
    {ws : WebSocket} (h : I ws) : I (drain ws) := by
  induction hn : ws.stream.input.length using Nat.strong_induction_on generalizing ws with
  | _ n ih =>
      -- induction on the input: a call that delivers a message has read a frame
      rw [drain]
      split
      case h_1 => exact hcall ws h
      case h_2 m hm hne =>
          rw [← hn] at ih
          exact ih _ (recvCall_input_lt hne) (hcall ws h) rfl
      case h_3 => exact hcall ws h

theorem orderly_close {ws : WebSocket} {code : UInt16} {reason : String} (h : Orderly ws)
    (hlen : (closingFrame code reason).payload.length < 2 ^ 64)
    (hmay : MayWrite (closingFrame code reason) ws) : Orderly ((close code reason).run ws).2 := by
  obtain ⟨e, he⟩ := run_onStream_writeFrame { ws with closeSent := true }
    (BigEndian.toBytes 2 code.toNat ++ Utf8.bytes reason) .close
  have hpushed : Orderly (WebSocket.pushFrame { ws with closeSent := true } .close
      (BigEndian.toBytes 2 code.toNat ++ Utf8.bytes reason)) :=
    h.push hlen hmay rfl id (fun _ => rfl) fun _ => .inr (.inl rfl)
  rw [close, Attempt.run_modify_bind]
  split at he
  case isTrue =>
      rw [Attempt.bind_error he]
      exact hpushed
  case isFalse =>
      rw [Attempt.bind_ok he]
      exact drain_rule (fun _ => orderly_recvCall) hpushed

/-! ### Sessions -/

theorem orderly_runOps {ops : List Op} {ws : WebSocket} (h : Orderly ws)
    (hsized : ∀ msg, Op.send msg ∈ ops → msg.frame.payload.length < 2 ^ 64)
    (hperm : ∀ a op b, ops = a ++ op :: b → op.Permitted (runOps a ws)) :
    Orderly (runOps ops ws) := by
  induction ops generalizing ws with
  | nil => exact h
  | cons op ops ih =>
      have hstep : Orderly (op.run ws) := by
        cases op with
        | recv => exact orderly_recv h
        | send msg =>
            exact orderly_send h (hsized msg List.mem_cons_self) (hperm [] (.send msg) ops rfl)
        | setMaxMessageSize maxBytes => exact h.keep rfl rfl id id
      refine ih hstep (fun msg hm => hsized msg (List.mem_cons_of_mem _ hm)) ?_
      rintro a op' b rfl
      exact hperm (op :: a) op' b rfl

/-- In every session that does not write past a Close frame, the frames on the wire are
disciplined. -/
theorem session_disciplined {stream : ByteStream} (hout : stream.output = []) {session : Session}
    (hsized : session.Sized) (hperm : session.Permitted (.new stream)) :
    Disciplined (wireFrames (session.run (.new stream)).stream.output) := by
  have hnew : Orderly (.new stream) :=
    ⟨[], wrote_nil hout, disciplined_nil, fun ⟨f, hf, _⟩ => by cases hf⟩
  have hops : Orderly (runOps session.ops (.new stream)) :=
    orderly_runOps hnew hsized.1 hperm.1
  have hend : Orderly (session.run (.new stream)) := by
    unfold Session.run
    split
    case h_1 => exact hops
    case h_2 code reason hc =>
        exact orderly_close hops (hsized.2 code reason hc) (hperm.2 code reason hc)
  obtain ⟨fs, hw, hd, -⟩ := hend
  rwa [hw.wireFrames]

/-- A text, a Close and a Pong, with a Ping before them. -/
def orderlySession : Session :=
  { ops := [.send (.ping []), .send (.text "hi"), .send (.close none), .send (.pong [])] }

theorem session_disciplined_orderlySession :
    Disciplined (wireFrames (orderlySession.run (.new { input := [] })).stream.output) := by
  refine session_disciplined rfl ⟨?_, fun _ _ h => by cases h⟩
    ⟨Positions.forall_split_iff.2 (by decide), fun _ _ h => by cases h⟩
  intro msg hmsg
  simp only [orderlySession, List.mem_cons, Op.send.injEq, List.not_mem_nil, or_false] at hmsg
  rcases hmsg with rfl | rfl | rfl | rfl <;> decide

/-- A Close, a text after it and a second Close. -/
def lateSession : Session :=
  { ops := [.send (.close none), .send (.text "hi"), .send (.close none)] }

/-- All three frames are written. -/
theorem not_disciplined_lateSession :
    ¬ Disciplined (wireFrames (lateSession.run (.new { input := [] })).stream.output) := by
  have hwire : wireFrames (lateSession.run (.new { input := [] })).stream.output
      = [⟨true, .close, []⟩, ⟨true, .text, [0x68, 0x69]⟩, ⟨true, .close, []⟩] := by decide
  rw [hwire]
  intro h
  have := h.2 [] _ _ rfl rfl ⟨true, .text, [0x68, 0x69]⟩ (by simp)
  cases this

end OxiHttp
