/-
**WebSocket message handling.**

The `WebSocket` of `ws.rs`: a byte stream together with the reassembly buffer, the opcode of the
message in progress, the two closing flags and the message-size budget.  `recv` reads frames until
one of them completes a message or fails; `send` and `close` write frames.

The loop of `recv` is a recursion on the bytes that are left: every frame takes at least its
header from the input.  Beside the result it records the frames it read, which the code does not
keep and the statements about runs speak of.

Main definitions:

* `OxiHttp.Message`, `OxiHttp.CloseFrame`, `OxiHttp.WebSocket` — the data;
* `OxiHttp.handleFrame` — what the loop body of `recv` does with one frame;
* `OxiHttp.recvCall`, `OxiHttp.recv` — one call of `recv`, with and without its frames;
* `OxiHttp.send`, `OxiHttp.close` — the two writing operations.

Main results:

* `OxiHttp.run_recvPing`, `OxiHttp.run_recvClose`, `OxiHttp.run_recvWhole`,
  `OxiHttp.run_recvFirst`, `OxiHttp.run_recvContinuation` — what each arm does to the socket;
* `OxiHttp.recvLoop_rule` — the loop rule: an invariant of the loop body holds of every call.
-/

import OxiHttp.Utf8
import OxiHttp.WsFrame

set_option relaxedAutoImplicit false
set_option autoImplicit false

namespace OxiHttp

/-- `MIN_FRAME_PAYLOAD_CAP`. -/
def minFramePayloadCap : ℕ := 125

/-- `DEFAULT_MAX_MESSAGE_SIZE`, 16 MiB. -/
def defaultMaxMessageSize : ℕ := 16 * 1024 * 1024

/-- `usize::MAX`. -/
def usizeMax : ℕ := 2 ^ 64 - 1

/-- The payload of a Close frame. -/
structure CloseFrame where
  code : UInt16
  reason : String
deriving DecidableEq, Repr

/-- A complete WebSocket message. -/
inductive Message where
  | text (s : String)
  | binary (b : List UInt8)
  | ping (payload : List UInt8)
  | pong (payload : List UInt8)
  | close (frame : Option CloseFrame)
deriving DecidableEq, Repr

/-- A Text or Binary message. -/
def Message.isData : Message → Bool
  | .text _ | .binary _ => true
  | _ => false

/-- A WebSocket connection. -/
structure WebSocket where
  stream : ByteStream
  /-- Accumulated payload bytes for a fragmented message in progress. -/
  fragBuf : List UInt8 := []
  /-- Opcode of the first fragment. -/
  fragOpcode : Option Opcode := none
  closed : Bool := false
  closeSent : Bool := false
  maxMessageSize : ℕ := defaultMaxMessageSize
deriving DecidableEq, Repr

namespace WebSocket

/-- `WebSocket::new`. -/
def new (stream : ByteStream) : WebSocket := { stream }

/-- `set_max_message_size`. -/
def setMaxMessageSize (maxBytes : ℕ) (ws : WebSocket) : WebSocket :=
  { ws with maxMessageSize := maxBytes }

/-- The cap on the payload of one frame. -/
def frameCap (ws : WebSocket) : ℕ := max ws.maxMessageSize minFramePayloadCap

end WebSocket

/-- An operation on the stream of a socket. -/
def onStream {α : Type} (x : Attempt ByteStream α) : Attempt WebSocket α :=
  ⟨fun ws => ((x.run ws.stream).1, { ws with stream := (x.run ws.stream).2 })⟩

/-- Turning a result into a computation, as `?` does. -/
def Attempt.ofExcept {σ α : Type} : Except OxiHttpError α → Attempt σ α
  | .ok a => pure a
  | .error e => .fail e

/-- `make_data_message`. -/
def makeDataMessage (opcode : Opcode) (data : List UInt8) : Except OxiHttpError Message :=
  match opcode with
  | .text =>
      match Utf8.fromUtf8 data with
      | some s => .ok (.text s)
      | none => .error (.body ("WebSocket: invalid UTF-8: " ++ Utf8.errorText data))
  | .binary => .ok (.binary data)
  | _ => .error (.body "WebSocket: unexpected opcode in make_data_message")

/-- `parse_close_frame`. -/
def parseCloseFrame (payload : List UInt8) : Option CloseFrame :=
  if payload.length < 2 then none
  else some {
    code := UInt16.ofNat (BigEndian.ofBytes (payload.take 2))
    reason := Utf8.fromUtf8Lossy (payload.drop 2) }

/-- `check_size_limit`. -/
def checkSizeLimit (incoming : ℕ) : Attempt WebSocket Unit := ⟨fun ws =>
  if ws.maxMessageSize < min (ws.fragBuf.length + incoming) usizeMax then
    (.error (.body ("WebSocket: message exceeds maximum of " ++ toString ws.maxMessageSize ++
      " bytes")), { ws with closed := true, fragBuf := [], fragOpcode := none })
  else (.ok (), ws)⟩

/-! ### Receiving -/

/-- The arm of `recv` for an unfragmented data frame. -/
def recvWhole (opcode : Opcode) (payload : List UInt8) : Attempt WebSocket (Option Message) := do
  checkSizeLimit payload.length
  some <$> .ofExcept (makeDataMessage opcode payload)

/-- The arm of `recv` for the first fragment of a message. -/
def recvFirst (opcode : Opcode) (payload : List UInt8) : Attempt WebSocket (Option Message) := do
  checkSizeLimit payload.length
  .modify fun ws => { ws with fragOpcode := some opcode, fragBuf := ws.fragBuf ++ payload }
  return none

/-- The end of a fragmented message: `frag_opcode.take()` and `mem::take(&mut frag_buf)`. -/
def recvLast : Attempt WebSocket (Option Message) := do
  let ws ← .get
  .modify fun ws => { ws with fragOpcode := none }
  match ws.fragOpcode with
  -- the payload stays in the buffer
  | none => .fail (.body "WebSocket: continuation frame without start frame")
  | some opcode => do
      .modify fun ws => { ws with fragBuf := [] }
      some <$> .ofExcept (makeDataMessage opcode ws.fragBuf)

/-- The arm of `recv` for a continuation frame. -/
def recvContinuation (payload : List UInt8) (fin : Bool) : Attempt WebSocket (Option Message) := do
  checkSizeLimit payload.length
  .modify fun ws => { ws with fragBuf := ws.fragBuf ++ payload }
  if fin then recvLast else return none

/-- The arm of `recv` for a Ping frame: an automatic Pong. -/
def recvPing (payload : List UInt8) : Attempt WebSocket (Option Message) := do
  onStream (writeFrame .pong payload true)
  return some (.ping payload)

/-- The echo of a Close frame, unless a Close was sent before. -/
def echoClose (payload : List UInt8) : Attempt WebSocket Unit := do
  let ws ← .get
  if ws.closeSent then pure () else onStream (writeFrame .close payload true)

/-- The arm of `recv` for a Close frame. -/
def recvClose (payload : List UInt8) : Attempt WebSocket (Option Message) := do
  echoClose payload
  .modify fun ws => { ws with closed := true }
  return some (.close (parseCloseFrame payload))

/-- The `match` in the loop of `recv`.  `none` lets the loop go on; `some m` returns `m`. -/
def handleFrame (frame : Frame) : Attempt WebSocket (Option Message) := do
  let ws ← .get
  match frame.opcode, frame.fin, ws.fragBuf.isEmpty with
  | .ping, _, _ => recvPing frame.payload
  | .pong, _, _ => return some (.pong frame.payload)
  | .close, _, _ => recvClose frame.payload
  -- a message is in progress when the buffer is not empty; the opcode is not looked at
  | .text, true, true => recvWhole .text frame.payload
  | .binary, true, true => recvWhole .binary frame.payload
  | .text, false, true => recvFirst .text frame.payload
  | .binary, false, true => recvFirst .binary frame.payload
  | .continuation, fin, _ => recvContinuation frame.payload fin
  | _, _, _ => .fail (.body "WebSocket: unexpected frame sequence")

/-- A call of `recv`: the frames it read, in order, and its result. -/
structure Call where
  frames : List Frame
  result : Except OxiHttpError (Option Message)
deriving DecidableEq

/-! ### What each arm does to the socket -/

namespace WebSocket

/-- The socket after writing a frame, or the part of it there is room for. -/
def pushFrame (ws : WebSocket) (opcode : Opcode) (payload : List UInt8) : WebSocket :=
  { ws with stream := ws.stream.push (frameBytes { fin := true, opcode, payload }) }

/-- `incoming` more bytes would exceed the budget of a message. -/
def Over (ws : WebSocket) (incoming : ℕ) : Prop :=
  ws.maxMessageSize < min (ws.fragBuf.length + incoming) usizeMax

instance (ws : WebSocket) (incoming : ℕ) : Decidable (ws.Over incoming) :=
  inferInstanceAs (Decidable (_ < _))

/-- The socket after its budget was exceeded. -/
def abandon (ws : WebSocket) : WebSocket :=
  { ws with closed := true, fragBuf := [], fragOpcode := none }

/-- The error of `check_size_limit`. -/
def sizeError (ws : WebSocket) : OxiHttpError :=
  .body ("WebSocket: message exceeds maximum of " ++ toString ws.maxMessageSize ++ " bytes")

end WebSocket

section Arms

variable (ws : WebSocket) (payload : List UInt8)

theorem run_onStream_writeFrame (opcode : Opcode) :
    ∃ e, (onStream (writeFrame opcode payload true)).run ws
      = (if (ws.pushFrame opcode payload).stream.Broken then .error e else .ok (),
          ws.pushFrame opcode payload) := by
  obtain ⟨e, he⟩ := run_writeFrame { fin := true, opcode, payload } ws.stream
  exact ⟨e, by simp only [onStream, he]; rfl⟩

theorem run_checkSizeLimit (incoming : ℕ) :
    (checkSizeLimit incoming).run ws
      = if ws.Over incoming then (.error ws.sizeError, ws.abandon) else (.ok (), ws) := rfl

theorem run_ofExcept (r : Except OxiHttpError Message) :
    (some <$> Attempt.ofExcept r : Attempt WebSocket (Option Message)).run ws
      = (r.map some, ws) := by cases r <;> rfl

theorem run_recvPing :
    ∃ e, (recvPing payload).run ws
      = (if (ws.pushFrame .pong payload).stream.Broken then .error e
          else .ok (some (.ping payload)), ws.pushFrame .pong payload) := by
  obtain ⟨e, he⟩ := run_onStream_writeFrame ws payload .pong
  refine ⟨e, ?_⟩
  by_cases hb : (ws.pushFrame .pong payload).stream.Broken
  · rw [if_pos hb] at he ⊢
    exact Attempt.bind_error he
  · rw [if_neg hb] at he ⊢
    exact Attempt.bind_ok he

theorem run_recvClose_of_closeSent (h : ws.closeSent = true) :
    (recvClose payload).run ws
      = (.ok (some (.close (parseCloseFrame payload))), { ws with closed := true }) := by
  have hecho : (echoClose payload).run ws = (.ok (), ws) := by simp [echoClose, h]
  rw [recvClose, Attempt.bind_ok hecho]
  rfl

theorem run_recvClose (h : ws.closeSent = false) :
    ∃ e, (recvClose payload).run ws
      = if (ws.pushFrame .close payload).stream.Broken then
          (.error e, ws.pushFrame .close payload)
        else (.ok (some (.close (parseCloseFrame payload))),
          { ws.pushFrame .close payload with closed := true }) := by
  obtain ⟨e, he⟩ := run_onStream_writeFrame ws payload .close
  have hecho : (echoClose payload).run ws
      = (onStream (writeFrame .close payload true)).run ws := by simp [echoClose, h]
  rw [← hecho] at he
  refine ⟨e, ?_⟩
  by_cases hb : (ws.pushFrame .close payload).stream.Broken
  · rw [if_pos hb] at he ⊢
    exact Attempt.bind_error he
  · rw [if_neg hb] at he ⊢
    rw [recvClose, Attempt.bind_ok he]
    rfl

theorem run_recvWhole (opcode : Opcode) :
    (recvWhole opcode payload).run ws
      = if ws.Over payload.length then (.error ws.sizeError, ws.abandon)
        else ((makeDataMessage opcode payload).map some, ws) := by
  have h := run_checkSizeLimit ws payload.length
  split at h
  case isTrue hover => rw [if_pos hover]; exact Attempt.bind_error h
  case isFalse hover =>
      rw [if_neg hover, recvWhole, Attempt.bind_ok h, run_ofExcept]

theorem run_recvFirst (opcode : Opcode) :
    (recvFirst opcode payload).run ws
      = if ws.Over payload.length then (.error ws.sizeError, ws.abandon)
        else (.ok none,
          { ws with fragOpcode := some opcode, fragBuf := ws.fragBuf ++ payload }) := by
  have h := run_checkSizeLimit ws payload.length
  split at h
  case isTrue hover => rw [if_pos hover]; exact Attempt.bind_error h
  case isFalse hover =>
      rw [if_neg hover, recvFirst, Attempt.bind_ok h]
      rfl

theorem run_recvLast :
    recvLast.run ws
      = match ws.fragOpcode with
        | none => (.error (.body "WebSocket: continuation frame without start frame"),
            { ws with fragOpcode := none })
        | some opcode => ((makeDataMessage opcode ws.fragBuf).map some,
            { ws with fragOpcode := none, fragBuf := [] }) := by
  rw [recvLast, Attempt.run_get_bind, Attempt.run_modify_bind]
  cases ws.fragOpcode with
  | none => rfl
  | some opcode => rw [Attempt.run_modify_bind, run_ofExcept]

theorem run_recvContinuation (fin : Bool) :
    (recvContinuation payload fin).run ws
      = if ws.Over payload.length then (.error ws.sizeError, ws.abandon)
        else if fin then recvLast.run { ws with fragBuf := ws.fragBuf ++ payload }
        else (.ok none, { ws with fragBuf := ws.fragBuf ++ payload }) := by
  have h := run_checkSizeLimit ws payload.length
  split at h
  case isTrue hover => rw [if_pos hover]; exact Attempt.bind_error h
  case isFalse hover =>
      rw [if_neg hover, recvContinuation, Attempt.bind_ok h, Attempt.run_modify_bind]
      cases fin <;> rfl

end Arms

/-! ### What each frame leads to -/

section Dispatch

variable {f : Frame} {ws : WebSocket}

theorem run_handleFrame_start (hs : f.opcode.isStart = true)
    (hbuf : ws.fragBuf = []) :
    (handleFrame f).run ws = if f.fin then (recvWhole f.opcode f.payload).run ws
      else (recvFirst f.opcode f.payload).run ws := by
  rw [handleFrame, Attempt.run_get_bind, hbuf]
  cases ho : f.opcode <;> simp only [ho, Opcode.isStart, Bool.false_eq_true] at hs <;>
    cases f.fin <;> rfl

theorem run_handleFrame_unexpected (hs : f.opcode.isStart = true)
    (hbuf : ws.fragBuf ≠ []) :
    (handleFrame f).run ws = (.error (.body "WebSocket: unexpected frame sequence"), ws) := by
  have hempty : ws.fragBuf.isEmpty = false := by simpa using hbuf
  rw [handleFrame, Attempt.run_get_bind, hempty]
  cases ho : f.opcode <;> simp only [ho, Opcode.isStart, Bool.false_eq_true] at hs <;>
    cases f.fin <;> rfl

theorem run_handleFrame_continuation (hc : f.opcode = .continuation) :
    (handleFrame f).run ws = (recvContinuation f.payload f.fin).run ws := by
  rw [handleFrame, Attempt.run_get_bind, hc]

theorem run_handleFrame_ping (hp : f.opcode = .ping) :
    (handleFrame f).run ws = (recvPing f.payload).run ws := by
  rw [handleFrame, Attempt.run_get_bind, hp]

theorem run_handleFrame_pong (hp : f.opcode = .pong) :
    (handleFrame f).run ws = (.ok (some (.pong f.payload)), ws) := by
  rw [handleFrame, Attempt.run_get_bind, hp]
  cases f.fin <;> cases ws.fragBuf.isEmpty <;> rfl

theorem run_handleFrame_close (hc : f.opcode = .close) :
    (handleFrame f).run ws = (recvClose f.payload).run ws := by
  rw [handleFrame, Attempt.run_get_bind, hc]

/-- A control frame does not touch the message in progress, and what it delivers is not data. -/
theorem handleFrame_control {r : Except OxiHttpError (Option Message)} {ws' : WebSocket}
    (hc : f.opcode.isControl = true) (hrun : (handleFrame f).run ws = (r, ws')) :
    ws'.fragBuf = ws.fragBuf ∧ ws'.fragOpcode = ws.fragOpcode ∧
      ((∃ e, r = .error e) ∨ ∃ m, r = .ok (some m) ∧ m.isData = false) := by
  cases ho : f.opcode with
  | ping =>
      obtain ⟨e, he⟩ := run_recvPing ws f.payload
      rw [run_handleFrame_ping ho, he] at hrun
      cases hrun
      refine ⟨rfl, rfl, ?_⟩
      split
      · exact .inl ⟨e, rfl⟩
      · exact .inr ⟨_, rfl, rfl⟩
  | pong =>
      rw [run_handleFrame_pong ho] at hrun
      cases hrun
      exact ⟨rfl, rfl, .inr ⟨_, rfl, rfl⟩⟩
  | close =>
      rw [run_handleFrame_close ho] at hrun
      cases hs : ws.closeSent with
      | true =>
          rw [run_recvClose_of_closeSent ws f.payload hs] at hrun
          cases hrun
          exact ⟨rfl, rfl, .inr ⟨_, rfl, rfl⟩⟩
      | false =>
          obtain ⟨e, he⟩ := run_recvClose ws f.payload hs
          rw [he] at hrun
          split at hrun
          · cases hrun
            exact ⟨rfl, rfl, .inl ⟨e, rfl⟩⟩
          · cases hrun
            exact ⟨rfl, rfl, .inr ⟨_, rfl, rfl⟩⟩
  | _ => simp [ho, Opcode.isControl] at hc

/-- A data frame touches the reassembly alone; where it fails the socket may also be closed. -/
theorem handleFrame_data {r : Except OxiHttpError (Option Message)} {ws' : WebSocket}
    (hc : f.opcode.isControl = false) (hrun : (handleFrame f).run ws = (r, ws')) :
    ws'.stream = ws.stream ∧ ws'.closeSent = ws.closeSent ∧
      (ws'.closed = ws.closed ∨ ws'.closed = true ∧ ∃ e, r = .error e) := by
  by_cases hs : f.opcode.isStart = true
  · by_cases hbuf : ws.fragBuf = []
    · rw [run_handleFrame_start hs hbuf, run_recvWhole, run_recvFirst] at hrun
      -- whole message or first fragment, each over the budget or within it
      split at hrun <;> split at hrun <;> cases hrun
      · exact ⟨rfl, rfl, .inr ⟨rfl, _, rfl⟩⟩
      · exact ⟨rfl, rfl, .inl rfl⟩
      · exact ⟨rfl, rfl, .inr ⟨rfl, _, rfl⟩⟩
      · exact ⟨rfl, rfl, .inl rfl⟩
    · rw [run_handleFrame_unexpected hs hbuf] at hrun
      cases hrun
      exact ⟨rfl, rfl, .inl rfl⟩
  · have hcont : f.opcode = .continuation := Opcode.eq_continuation (by simpa using hs) hc
    rw [run_handleFrame_continuation hcont, run_recvContinuation, run_recvLast] at hrun
    split at hrun
    · cases hrun
      exact ⟨rfl, rfl, .inr ⟨rfl, _, rfl⟩⟩
    · split at hrun
      · dsimp only at hrun
        -- without an opcode the end of a message fails, but leaves the socket open
        cases ho : ws.fragOpcode <;> rw [ho] at hrun <;> cases hrun <;> exact ⟨rfl, rfl, .inl rfl⟩
      · cases hrun
        exact ⟨rfl, rfl, .inl rfl⟩

/-- Handling a frame does not read from the stream. -/
theorem handleFrame_input (f : Frame) (ws : WebSocket) :
    ((handleFrame f).run ws).2.stream.input = ws.stream.input := by
  cases hc : f.opcode.isControl with
  | false =>
      rcases h : (handleFrame f).run ws with ⟨r, ws'⟩
      rw [(handleFrame_data hc h).1]
  | true =>
      cases ho : f.opcode with
      | ping =>
          obtain ⟨e, he⟩ := run_recvPing ws f.payload
          simp [run_handleFrame_ping ho, he, WebSocket.pushFrame]
      | pong => rw [run_handleFrame_pong ho]
      | close =>
          rw [run_handleFrame_close ho]
          cases hs : ws.closeSent with
          | true => rw [run_recvClose_of_closeSent ws f.payload hs]
          | false =>
              obtain ⟨e, he⟩ := run_recvClose ws f.payload hs
              rw [he]
              split <;> simp [WebSocket.pushFrame]
      | _ => simp [ho, Opcode.isControl] at hc

end Dispatch

/-- The loop of `recv`. -/
def recvLoop (ws : WebSocket) : Call × WebSocket :=
  match _h : (readFrame ws.frameCap).run ws.stream with
  | (.error e, s) => (⟨[], .error e⟩, { ws with stream := s, closed := true })
  | (.ok frame, s) =>
    match _h' : (handleFrame frame).run { ws with stream := s } with
    | (.error e, ws') => (⟨[frame], .error e⟩, ws')
    | (.ok (some m), ws') => (⟨[frame], .ok (some m)⟩, ws')
    | (.ok none, ws') =>
        let (call, ws'') := recvLoop ws'
        (⟨frame :: call.frames, call.result⟩, ws'')
termination_by ws.stream.input.length
decreasing_by
  have hkept := handleFrame_input frame { ws with stream := s }
  have hlt := readFrame_length_lt _h
  rw [_h'] at hkept
  rw [hkept]
  exact hlt

/-- `recv`, with the frames it reads. -/
def recvCall (ws : WebSocket) : Call × WebSocket :=
  if ws.closed then (⟨[], .ok none⟩, ws) else recvLoop ws

/-- `recv`. -/
def recv : Attempt WebSocket (Option Message) :=
  ⟨fun ws => ((recvCall ws).1.result, (recvCall ws).2)⟩

/-! ### Reasoning about the loop -/

theorem recvLoop_of_read_error {ws : WebSocket} {e : OxiHttpError} {s : ByteStream}
    (h : (readFrame ws.frameCap).run ws.stream = (.error e, s)) :
    recvLoop ws = (⟨[], .error e⟩, { ws with stream := s, closed := true }) := by
  rw [recvLoop]
  split
  case h_1 e' s' h' =>
      rw [h] at h'
      cases h'
      rfl
  case h_2 h' =>
      rw [h] at h'
      cases h'

theorem recvLoop_of_read_ok {ws : WebSocket} {frame : Frame} {s : ByteStream}
    (h : (readFrame ws.frameCap).run ws.stream = (.ok frame, s)) :
    recvLoop ws =
      match (handleFrame frame).run { ws with stream := s } with
      | (.error e, ws') => (⟨[frame], .error e⟩, ws')
      | (.ok (some m), ws') => (⟨[frame], .ok (some m)⟩, ws')
      | (.ok none, ws') =>
          (⟨frame :: (recvLoop ws').1.frames, (recvLoop ws').1.result⟩, (recvLoop ws').2) := by
  rw [recvLoop]
  split
  case h_1 h' =>
      rw [h] at h'
      cases h'
  case h_2 frame' s' h' =>
      rw [h] at h'
      cases h'
      split <;> rename_i h'' <;> rw [h'']

/-- The loop rule.  `I` relates the frames read so far to the socket at the head of the loop, and
`Q` the frames read in all, the result and the socket when the call returns. -/
theorem recvLoop_rule {I : List Frame → WebSocket → Prop}
    {Q : List Frame → Except OxiHttpError (Option Message) → WebSocket → Prop}
    (hread : ∀ read ws e s, I read ws → (readFrame ws.frameCap).run ws.stream = (.error e, s) →
      Q read (.error e) { ws with stream := s, closed := true })
    (hstep : ∀ read ws f s, I read ws → (readFrame ws.frameCap).run ws.stream = (.ok f, s) →
      ∀ r ws', (handleFrame f).run { ws with stream := s } = (r, ws') →
        match r with
        | .ok none => I (read ++ [f]) ws'
        | r => Q (read ++ [f]) r ws') :
    ∀ (read : List Frame) (ws : WebSocket), I read ws →
      Q (read ++ (recvLoop ws).1.frames) (recvLoop ws).1.result (recvLoop ws).2 := by
  intro read ws hI
  -- induction on the bytes that are left: every frame takes its header from them
  induction hn : ws.stream.input.length using Nat.strong_induction_on generalizing read ws with
  | _ n ih =>
      rcases hr : (readFrame ws.frameCap).run ws.stream with ⟨r, s⟩
      cases r with
      | error e =>
          rw [recvLoop_of_read_error hr]
          simpa using hread read ws e s hI hr
      | ok f =>
          rcases hh : (handleFrame f).run { ws with stream := s } with ⟨r', ws'⟩
          have hpost := hstep read ws f s hI hr r' ws' hh
          rw [recvLoop_of_read_ok hr, hh]
          match r', hpost with
          | .error e, hpost => exact hpost
          | .ok (some m), hpost => exact hpost
          | .ok none, hpost =>
              have hlt : ws'.stream.input.length < n := by
                have hkept : ws'.stream.input = s.input := by
                  simpa [hh] using handleFrame_input f { ws with stream := s }
                rw [hkept, ← hn]
                exact readFrame_length_lt hr
              have := ih _ hlt (read ++ [f]) ws' hpost rfl
              simpa [List.append_assoc] using this

/-! ### Sending and closing -/

/-- `send`. -/
def send (msg : Message) : Attempt WebSocket Unit :=
  match msg with
  | .text s => onStream (writeFrame .text (Utf8.bytes s) true)
  | .binary b => onStream (writeFrame .binary b true)
  | .ping p => onStream (writeFrame .ping p true)
  | .pong p => onStream (writeFrame .pong p true)
  | .close cf => do
      let payload := match cf with
        | some cf => BigEndian.toBytes 2 cf.code.toNat ++ Utf8.bytes cf.reason
        | none => []
      .modify fun ws => { ws with closeSent := true, closed := true }
      onStream (writeFrame .close payload true)

/-- The rule for a call, from the rule for its loop. -/
theorem recvCall_rule {I : WebSocket → Prop} {J : WebSocket → Prop} {ws : WebSocket}
    (hclosed : ws.closed = true → J ws) (hopen : ws.closed = false → I ws)
    (hread : ∀ ws e s, I ws → (readFrame ws.frameCap).run ws.stream = (.error e, s) →
      J { ws with stream := s, closed := true })
    (hstep : ∀ ws f s, I ws → (readFrame ws.frameCap).run ws.stream = (.ok f, s) →
      ∀ r ws', (handleFrame f).run { ws with stream := s } = (r, ws') →
        match r with
        | .ok none => I ws'
        | _ => J ws') : J (recvCall ws).2 := by
  unfold recvCall
  split
  case isTrue hc => exact hclosed hc
  case isFalse hc =>
      refine recvLoop_rule (I := fun _ => I) (Q := fun _ _ => J)
        (fun _ ws e s h => hread ws e s h) ?_ [] ws (hopen (by simpa using hc))
      intro _ ws f s h hr r ws' hrun
      have := hstep ws f s h hr r ws' hrun
      match r with
      | .ok none => exact this
      | .ok (some _) => exact this
      | .error _ => exact this

/-- A call that delivers a message has read at least one frame. -/
theorem recvCall_input_lt {ws : WebSocket} {m : Message}
    (h : (recvCall ws).1.result = .ok (some m)) :
    (recvCall ws).2.stream.input.length < ws.stream.input.length := by
  unfold recvCall at h ⊢
  split at h
  case isTrue => cases h
  case isFalse hc =>
      -- measured by the input: at the head of the loop no longer than at the start of the call
      rw [if_neg hc]
      have hpost := recvLoop_rule
        (I := fun _ ws' => ws'.stream.input.length ≤ ws.stream.input.length)
        (Q := fun _ r ws' => r = .ok (some m) →
          ws'.stream.input.length < ws.stream.input.length)
        (by intro _ _ _ _ _ _ hr; cases hr)
        (by
          intro _ ws₁ f s hI hr r ws' hh
          have hlt := readFrame_length_lt hr
          have hkept : ws'.stream.input = s.input := by
            simpa [hh] using handleFrame_input f { ws₁ with stream := s }
          match r with
          | .ok none => rw [hkept]; omega
          | .ok (some _) => intro _; rw [hkept]; omega
          | .error _ => intro hr'; cases hr')
        [] ws le_rfl
      exact hpost h

/-- The loop of `close` that waits for the echo of the peer. -/
def drain (ws : WebSocket) : WebSocket :=
  match _h : (recvCall ws).1.result with
  | .ok (some (.close _)) => (recvCall ws).2
  | .ok (some _) => drain (recvCall ws).2
  | _ => (recvCall ws).2
termination_by ws.stream.input.length
decreasing_by exact recvCall_input_lt _h

/-- `close`, with the socket it leaves behind. -/
def close (code : UInt16) (reason : String) : Attempt WebSocket Unit := do
  let payload := BigEndian.toBytes 2 code.toNat ++ Utf8.bytes reason
  .modify fun ws => { ws with closeSent := true }
  onStream (writeFrame .close payload true)
  .modify drain

end OxiHttp
