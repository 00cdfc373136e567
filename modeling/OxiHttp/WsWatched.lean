/-
**A WebSocket whose memory is watched.**

`recv`, `send` and `close` are written here once more, with what they do to memory: every payload
buffer they allocate, the size of the reassembly buffer after every statement, and the messages
they return.  They may be dropped wherever they wait, and a `Vec` that would outgrow `isize::MAX`
panics.

Main definitions:

* `OxiHttp.MemoryEvent` — what is seen;
* `OxiHttp.Watched.recv`, `OxiHttp.Watched.send`, `OxiHttp.Watched.close` — the operations;
* `OxiHttp.Use`, `OxiHttp.Usage`, `OxiHttp.memoryEvents` — a series of calls, and what is seen
  during them.

Main results:

* `OxiHttp.Watched.refines_recv`, `OxiHttp.Watched.refines_send`, `OxiHttp.Watched.refines_close`
  — watched, the operations do what they do;
* `OxiHttp.Session.refines_run` — and so does a series of them.
-/

import OxiHttp.Observed
import OxiHttp.WsClosing

set_option relaxedAutoImplicit false
set_option autoImplicit false

namespace OxiHttp

/-- `isize::MAX`, which no `Vec` of bytes is longer than. -/
def isizeMax : ℕ := 2 ^ 63 - 1

/-- What is seen of the memory of a socket. -/
inductive MemoryEvent where
  /-- A payload buffer of this size is allocated. -/
  | payload (bytes : ℕ)
  /-- The reassembly buffer has this size. -/
  | buffer (bytes : ℕ)
  /-- A call of `recv` returns a message. -/
  | delivered (msg : Message)
deriving DecidableEq

/-! ### The operations, watched -/

/-- A computation on a socket whose memory is watched. -/
abbrev Watched (α : Type) := Observed WebSocket MemoryEvent α

/-- The size of the reassembly buffer. -/
def WebSocket.bufferSize (ws : WebSocket) : MemoryEvent := .buffer ws.fragBuf.length

namespace Watched

variable {α β : Type}

/-- A statement on the socket. -/
def statement (x : Attempt WebSocket α) : Watched α := .step WebSocket.bufferSize x

/-- Waiting for the stream.  Dropped there, the call leaves the stream as `left`: what it had read
so far is gone, and what it had written so far is out. -/
def waiting (left : ByteStream) (x : Attempt ByteStream α) : Watched α :=
  .await WebSocket.bufferSize (fun ws => { ws with stream := left }) (onStream x)

/-- `vec![0u8; n]` for a payload. -/
def allocate (n : ℕ) : Watched Unit :=
  if isizeMax < n then .panicking else .emit (.payload n)

/-- `frag_buf.extend_from_slice`. -/
def extendFragBuf (payload : List UInt8) : Watched Unit := do
  let ws ← .get
  if isizeMax < ws.fragBuf.length + payload.length then .panicking
  else statement (.modify fun ws => { ws with fragBuf := ws.fragBuf ++ payload })

/-- `read_frame`. -/
def readFrame (left : ByteStream) (maxPayloadLen : ℕ) : Watched Frame := do
  let header ← waiting left (readExact "WebSocket: read header" 2)
  match parseHeader (header.getD 0 0) (header.getD 1 0) with
  | .error e => .fail e
  | .ok (fin, opcode, lenByte) => do
    let payloadLen ← waiting left (readPayloadLen lenByte)
    if maxPayloadLen < payloadLen then
      .fail (.body ("WebSocket: payload too large (" ++ toString payloadLen ++ " bytes, max "
        ++ toString maxPayloadLen ++ ")"))
    else do
      let key ← waiting left (readExact "WebSocket: read mask key" 4)
      -- the buffer is there before the first byte of the payload is
      allocate payloadLen
      let payload ← waiting left (readExact "WebSocket: read payload" payloadLen)
      return { fin, opcode, payload := (MaskKey.ofBytes key).apply payload }

/-- The arm of `recv` for the first fragment of a message. -/
def recvFirst (opcode : Opcode) (payload : List UInt8) : Watched (Option Message) := do
  statement (checkSizeLimit payload.length)
  statement (.modify fun ws => { ws with fragOpcode := some opcode })
  extendFragBuf payload
  return none

/-- The arm of `recv` for a continuation frame. -/
def recvContinuation (payload : List UInt8) (fin : Bool) : Watched (Option Message) := do
  statement (checkSizeLimit payload.length)
  extendFragBuf payload
  if fin then statement recvLast else return none

/-- The arm of `recv` for a Ping frame. -/
def recvPing (left : ByteStream) (payload : List UInt8) : Watched (Option Message) := do
  waiting left (writeFrame .pong payload true)
  return some (.ping payload)

/-- The echo of a Close frame. -/
def echoClose (left : ByteStream) (payload : List UInt8) : Watched Unit := do
  let ws ← .get
  if ws.closeSent then pure () else waiting left (writeFrame .close payload true)

/-- The arm of `recv` for a Close frame. -/
def recvClose (left : ByteStream) (payload : List UInt8) : Watched (Option Message) := do
  echoClose left payload
  statement (.modify fun ws => { ws with closed := true })
  return some (.close (parseCloseFrame payload))

/-- The `match` in the loop of `recv`. -/
def handleFrame (left : ByteStream) (frame : Frame) : Watched (Option Message) := do
  let ws ← .get
  match frame.opcode, frame.fin, ws.fragBuf.isEmpty with
  | .ping, _, _ => recvPing left frame.payload
  | .pong, _, _ => return some (.pong frame.payload)
  | .close, _, _ => recvClose left frame.payload
  | .text, true, true => statement (recvWhole .text frame.payload)
  | .binary, true, true => statement (recvWhole .binary frame.payload)
  | .text, false, true => recvFirst .text frame.payload
  | .binary, false, true => recvFirst .binary frame.payload
  | .continuation, fin, _ => recvContinuation frame.payload fin
  | _, _, _ => .fail (.body "WebSocket: unexpected frame sequence")

/-- The body of the loop of `recv`. -/
def turn (left : ByteStream) : Watched (Option Message) := do
  let ws ← .get
  let frame ← .onError (fun ws => { ws with closed := true }) (readFrame left ws.frameCap)
  handleFrame left frame

/-- The loop of `recv`, for at most so many turns. -/
def recvLoop (left : ByteStream) : ℕ → Watched (Option Message)
  | 0 => .dropping
  | turns + 1 => do
      match ← turn left with
      | some msg => do
          .emit (.delivered msg)
          return some msg
      | none => recvLoop left turns

/-- `recv`.  Every turn of the loop takes a header from the input, so it comes to an end. -/
def recv (left : ByteStream) : Watched (Option Message) := do
  let ws ← .get
  if ws.closed then return none
  else recvLoop left (ws.stream.input.length + 1)

/-- `send`. -/
def send (left : ByteStream) (msg : Message) : Watched Unit := do
  statement (.modify fun ws => ws.flag msg)
  waiting left (writeFrame msg.frame.opcode msg.frame.payload true)

/-- The loop of `close` that waits for the echo of the peer. -/
def drain (left : ByteStream) : ℕ → Watched Unit
  | 0 => .dropping
  | turns + 1 => do
      match ← .caught (recv left) with
      | .ok (some (.close _)) => return ()
      | .ok (some _) => drain left turns
      | _ => return ()

/-- `close`. -/
def close (left : ByteStream) (code : UInt16) (reason : String) : Watched Unit := do
  let payload := BigEndian.toBytes 2 code.toNat ++ Utf8.bytes reason
  statement (.modify fun ws => { ws with closeSent := true })
  waiting left (writeFrame .close payload true)
  let ws ← .get
  drain left (ws.stream.input.length + 1)

/-! ### They are the operations -/

section Refinement

open Observed (Refines refines_step refines_await refines_pure refines_fail refines_panicking
  refines_get)

variable (left : ByteStream)

theorem onStream_bind (x : Attempt ByteStream α) (f : α → Attempt ByteStream β) :
    onStream (x >>= f) = (onStream x >>= fun a => onStream (f a) : Attempt WebSocket β) := by
  refine congrArg Attempt.mk (funext fun ws => ?_)
  rcases h : x.run ws.stream with ⟨r, s⟩
  cases r with
  | ok a => simp [onStream, Attempt.bind_ok h, h]
  | error e => simp [onStream, Attempt.bind_error h, h]

theorem refines_waiting (x : Attempt ByteStream α) : Refines (waiting left x) (onStream x) :=
  refines_await _ _ _

/-- Allocating is nothing the plain operation does. -/
theorem Refines.allocate_bind {f : Unit → Watched α} {y : Attempt WebSocket α} (n : ℕ)
    (h : Refines (f ()) y) : Refines (allocate n >>= f) y := by
  unfold allocate
  split
  · exact fun _ _ => trivial
  · exact fun w hw => h _ hw

theorem refines_readFrame (maxPayloadLen : ℕ) :
    Refines (readFrame left maxPayloadLen) (onStream (OxiHttp.readFrame maxPayloadLen)) := by
  rw [OxiHttp.readFrame, onStream_bind]
  refine (refines_waiting left _).bind fun header => ?_
  cases parseHeader (header.getD 0 0) (header.getD 1 0) with
  | error e => exact refines_fail e
  | ok parsed =>
      obtain ⟨fin, opcode, lenByte⟩ := parsed
      dsimp only
      rw [readBody, onStream_bind]
      refine (refines_waiting left _).bind fun payloadLen => ?_
      split
      · exact refines_fail _
      · rw [onStream_bind]
        refine (refines_waiting left _).bind fun key => Refines.allocate_bind _ ?_
        rw [onStream_bind]
        exact (refines_waiting left _).bind fun payload => refines_pure _

theorem refines_extendFragBuf (payload : List UInt8) : Refines (extendFragBuf payload)
    (.modify fun ws => { ws with fragBuf := ws.fragBuf ++ payload }) := by
  intro w hw
  change Observed.AgreesAt (if isizeMax < w.state.fragBuf.length + payload.length then _ else _) _ w
  split
  · exact refines_panicking _ w hw
  · exact refines_step _ _ w hw

theorem refines_handleFrame (frame : Frame) :
    Refines (handleFrame left frame) (OxiHttp.handleFrame frame) := by
  have hfirst : ∀ opcode, Refines (recvFirst opcode frame.payload)
      (OxiHttp.recvFirst opcode frame.payload) := fun opcode =>
    (refines_step _ _).bind fun _ => (refines_step _ _).bind fun _ =>
      (refines_extendFragBuf _).bind fun _ => refines_pure _
  have hcontinuation : ∀ fin, Refines (recvContinuation frame.payload fin)
      (OxiHttp.recvContinuation frame.payload fin) := by
    intro fin
    refine (refines_step _ _).bind fun _ => (refines_extendFragBuf _).bind fun _ => ?_
    cases fin
    · exact refines_pure _
    · exact refines_step _ _
  have hping : Refines (recvPing left frame.payload) (OxiHttp.recvPing frame.payload) :=
    (refines_waiting left _).bind fun _ => refines_pure _
  have hecho : Refines (echoClose left frame.payload) (OxiHttp.echoClose frame.payload) := by
    refine Refines.bind refines_get fun ws => ?_
    split
    · exact refines_pure _
    · exact refines_waiting left _
  have hclose : Refines (recvClose left frame.payload) (OxiHttp.recvClose frame.payload) :=
    hecho.bind fun _ => (refines_step _ _).bind fun _ => refines_pure _
  refine Refines.bind refines_get fun ws => ?_
  cases frame.opcode <;> cases frame.fin <;> cases ws.fragBuf.isEmpty <;>
    first
      | exact hping
      | exact hclose
      | exact hcontinuation _
      | exact hfirst _
      | exact refines_step _ _
      | exact refines_pure _
      | exact refines_fail _

/-- One turn of the loop of `recv`, unwatched. -/
def recvTurn : Attempt WebSocket (Option Message) := do
  let ws ← .get
  let frame ← .onError (fun ws => { ws with closed := true })
    (onStream (OxiHttp.readFrame ws.frameCap))
  OxiHttp.handleFrame frame

theorem refines_turn : Refines (turn left) recvTurn :=
  Refines.bind refines_get fun ws =>
    ((refines_readFrame left ws.frameCap).onError _).bind fun frame =>
      refines_handleFrame left frame

/-- The loop is a turn, and then the loop again unless the turn delivers a message. -/
theorem run_recvLoop (ws : WebSocket) :
    ((OxiHttp.recvLoop ws).1.result, (OxiHttp.recvLoop ws).2) = match recvTurn.run ws with
      | (.ok none, ws') => ((OxiHttp.recvLoop ws').1.result, (OxiHttp.recvLoop ws').2)
      | r => r := by
  rcases hr : (OxiHttp.readFrame ws.frameCap).run ws.stream with ⟨r, s⟩
  cases r with
  | error e =>
      have hturn : recvTurn.run ws = (.error e, { ws with stream := s, closed := true }) := by
        rw [recvTurn, Attempt.run_get_bind]
        exact Attempt.bind_error (by simp only [Attempt.onError, onStream, hr])
      rw [recvLoop_of_read_error hr, hturn]
  | ok frame =>
      have hturn : recvTurn.run ws = (OxiHttp.handleFrame frame).run { ws with stream := s } := by
        rw [recvTurn, Attempt.run_get_bind]
        exact Attempt.bind_ok (by simp only [Attempt.onError, onStream, hr])
      rw [recvLoop_of_read_ok hr, hturn]
      rcases (OxiHttp.handleFrame frame).run { ws with stream := s } with ⟨_ | _ | _, ws'⟩ <;> rfl

/-- A turn that lets the loop go on has taken a frame from the input. -/
theorem recvTurn_input_lt {ws ws' : WebSocket} (h : recvTurn.run ws = (.ok none, ws')) :
    ws'.stream.input.length < ws.stream.input.length := by
  rw [recvTurn, Attempt.run_get_bind] at h
  obtain ⟨frame, ws₁, hread, hframe⟩ := Attempt.bind_eq_ok.1 h
  rcases hr : (OxiHttp.readFrame ws.frameCap).run ws.stream with ⟨r, s⟩
  cases r with
  | error e => simp [Attempt.onError, onStream, hr] at hread
  | ok f =>
      simp only [Attempt.onError, onStream, hr, Prod.mk.injEq, Except.ok.injEq] at hread
      obtain ⟨rfl, rfl⟩ := hread
      have hkept := handleFrame_input f { ws with stream := s }
      rw [hframe] at hkept
      rw [hkept]
      exact readFrame_length_lt hr

/-- With a turn for every byte the loop runs to its end. -/
theorem agreesAt_recvLoop : ∀ (turns : ℕ) (w : Watch WebSocket MemoryEvent), w.patience = none →
    w.state.stream.input.length < turns → (recvLoop left turns).AgreesAt
      ⟨fun ws => ((OxiHttp.recvLoop ws).1.result, (OxiHttp.recvLoop ws).2)⟩ w := by
  intro turns
  induction turns with
  | zero => exact fun w _ h => absurd h (Nat.not_lt_zero _)
  | succ turns ih =>
      intro w hw hturns
      have hloop : (⟨fun ws => ((OxiHttp.recvLoop ws).1.result, (OxiHttp.recvLoop ws).2)⟩ :
          Attempt WebSocket (Option Message)) = (do
            match ← recvTurn with
            | some msg => pure (some msg)
            | none => ⟨fun ws => ((OxiHttp.recvLoop ws).1.result, (OxiHttp.recvLoop ws).2)⟩) := by
        refine congrArg Attempt.mk (funext fun ws => ?_)
        rw [run_recvLoop]
        rcases recvTurn.run ws with ⟨_ | _ | _, ws'⟩ <;> rfl
      rw [hloop, recvLoop]
      refine (refines_turn left w hw).bind fun msg w' hrun hw' => ?_
      cases msg with
      | some msg => exact ⟨rfl, hw'⟩
      | none =>
          have hlt := recvTurn_input_lt ((refines_turn left w hw).ok hrun).1
          exact ih w' hw' (by omega)

theorem refines_recv : Refines (recv left) OxiHttp.recv := by
  intro w hw
  change Observed.AgreesAt (if w.state.closed then _ else _) _ w
  split
  case isTrue hc =>
      refine ⟨?_, hw⟩
      simp only [OxiHttp.recv, recvCall, if_pos hc]
  case isFalse hc =>
      have h := agreesAt_recvLoop left (w.state.stream.input.length + 1) w hw (Nat.lt_succ_self _)
      have hrun : OxiHttp.recv.run w.state = ((OxiHttp.recvLoop w.state).1.result,
          (OxiHttp.recvLoop w.state).2) := by
        simp only [OxiHttp.recv, recvCall, if_neg hc]
      rw [Observed.AgreesAt] at h ⊢
      rwa [hrun]

theorem refines_send (msg : Message) : Refines (send left msg) (OxiHttp.send msg) := by
  have hsend : OxiHttp.send msg = (do
      Attempt.modify fun ws => ws.flag msg
      onStream (writeFrame msg.frame.opcode msg.frame.payload true)) := by
    cases msg with
    | close cf => cases cf <;> rfl
    | _ => rfl
  rw [hsend]
  exact (refines_step _ _).bind fun _ => refines_waiting left _

theorem drain_eq (ws : WebSocket) :
    OxiHttp.drain ws = match OxiHttp.recv.run ws with
      | (.ok (some (.close _)), ws') => ws'
      | (.ok (some _), ws') => OxiHttp.drain ws'
      | (_, ws') => ws' := by
  rw [OxiHttp.drain]
  split <;> rename_i h <;> simp_all [OxiHttp.recv]

/-- With a turn for every byte the loop of `close` runs to its end. -/
theorem agreesAt_drain : ∀ (turns : ℕ) (w : Watch WebSocket MemoryEvent), w.patience = none →
    w.state.stream.input.length < turns →
    (drain left turns).AgreesAt (.modify OxiHttp.drain) w := by
  intro turns
  induction turns with
  | zero => exact fun w _ h => absurd h (Nat.not_lt_zero _)
  | succ turns ih =>
      intro w hw hturns
      have h := refines_recv left w hw
      rcases hrun : (recv left).run w with ⟨r, w'⟩
      rw [Observed.AgreesAt, hrun] at h
      rw [Observed.AgreesAt, drain, Observed.run_bind, Observed.run_caught, hrun]
      rw [Attempt.run_modify, drain_eq]
      cases r with
      | panicked => trivial
      | dropped => exact h
      | error e =>
          rw [h.1]
          exact ⟨rfl, h.2⟩
      | ok msg =>
          rw [h.1]
          cases msg with
          | none => exact ⟨rfl, h.2⟩
          | some m =>
              have hlt : w'.state.stream.input.length < w.state.stream.input.length := by
                have hcall := congrArg Prod.fst h.1
                have hleft := congrArg Prod.snd h.1
                have := @recvCall_input_lt w.state m hcall
                rwa [show (recvCall w.state).2 = w'.state from hleft] at this
              cases m with
              | close cf => exact ⟨rfl, h.2⟩
              | _ => exact ih w' h.2 (by omega)

theorem refines_close (code : UInt16) (reason : String) :
    Refines (close left code reason) (OxiHttp.close code reason) := by
  refine (refines_step _ _).bind fun _ => (refines_waiting left _).bind fun _ => ?_
  intro w hw
  exact agreesAt_drain left _ w hw (Nat.lt_succ_self _)

end Refinement

end Watched

/-! ### A series of calls -/

/-- How a call is dropped: after so many waits, or never when `none`, and the stream it leaves. -/
structure Drop where
  waits : Option ℕ := none
  left : ByteStream := { input := [] }

/-- A call on a socket, which the caller may drop. -/
structure Use where
  op : Op
  drop : Drop := {}

/-- A series of calls, which a call of `close` may end. -/
structure Usage where
  uses : List Use
  closing : Option (UInt16 × String) := none
  closingDrop : Drop := {}

/-- One call. -/
def Use.run (use : Use) : Watched Unit :=
  match use.op with
  | .recv => .call use.drop.waits (Watched.recv use.drop.left)
  | .send msg => .call use.drop.waits (Watched.send use.drop.left msg)
  | .setMaxMessageSize maxBytes =>
      Watched.statement (.modify fun ws => ws.setMaxMessageSize maxBytes)

/-- The calls one after the other, up to the first panic. -/
def runUses : List Use → Watched Unit
  | [] => return ()
  | use :: uses => do
      use.run
      runUses uses

theorem runUses_append (a b : List Use) :
    runUses (a ++ b) = (do
      runUses a
      runUses b) := by
  induction a with
  | nil => rfl
  | cons use a ih =>
      rw [List.cons_append, runUses, ih, runUses, Observed.bind_assoc]

/-- The call of `close` at the end, if any. -/
def Usage.finish (usage : Usage) : Watched Unit :=
  match usage.closing with
  | none => return ()
  | some (code, reason) =>
      .call usage.closingDrop.waits (Watched.close usage.closingDrop.left code reason)

/-- The whole series. -/
def Usage.run (usage : Usage) : Watched Unit := do
  runUses usage.uses
  usage.finish

/-- What is seen of the memory of a fresh socket during a series of calls. -/
def memoryEvents (usage : Usage) (stream : ByteStream) : List MemoryEvent :=
  (usage.run.run { state := .new stream, seen := [(WebSocket.new stream).bufferSize] }).2.seen

theorem refines_runUses (ops : List Op) :
    Observed.Refines (runUses (ops.map fun op => { op })) ⟨fun ws => (.ok (), runOps ops ws)⟩ := by
  induction ops with
  | nil => exact Observed.refines_pure ()
  | cons op ops ih =>
      have hop : Observed.Refines (Use.run { op }) ⟨fun ws => (.ok (), op.run ws)⟩ := by
        cases op with
        | recv => exact (Watched.refines_recv _).call
        | send msg => exact (Watched.refines_send _ msg).call
        | setMaxMessageSize maxBytes => exact Observed.refines_step _ _
      exact hop.bind fun _ => ih

/-- A series of calls none of which is dropped leaves the socket as the session does, unless it
panics. -/
theorem Session.refines_run (session : Session) : Observed.Refines
    (Usage.run { uses := session.ops.map fun op => { op }, closing := session.closing })
    ⟨fun ws => (.ok (), session.run ws)⟩ := by
  obtain ⟨ops, closing⟩ := session
  cases closing with
  | none => exact (refines_runUses ops).bind fun _ => Observed.refines_pure ()
  | some closing =>
      exact (refines_runUses ops).bind fun _ => (Watched.refines_close _ closing.1 closing.2).call

end OxiHttp
