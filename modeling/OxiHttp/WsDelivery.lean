/-
**Delivery of what a conforming peer sends.**

`Start frame, continuations, FIN on the last` leaves a peer free to cut its messages where it likes,
also into empty pieces, and to put Pings and Pongs before every piece.  This module describes such
a peer and shows that the calls of `recv` give back what it said: every message at its last
fragment, every control frame at its place, and one Pong for each Ping.

Main definitions:

* `OxiHttp.Control`, `OxiHttp.Fragment`, `OxiHttp.Fragmented`, `OxiHttp.Talk` — what a conforming
  peer sends;
* `OxiHttp.Talk.frames`, `OxiHttp.Talk.delivery`, `OxiHttp.Talk.replies` — its frames, the messages
  they stand for, and the answers to its Pings;
* `OxiHttp.Delivers` — as many calls of `recv` as there are messages return these messages.

Main results:

* `OxiHttp.delivers_controls`, `OxiHttp.delivers_continuations`, `OxiHttp.delivers_message`,
  `OxiHttp.delivers_talk` — the calls that the pieces of the talk lead to;
* `OxiHttp.recvs_delivery` — the whole talk, on a fresh socket.
-/

import OxiHttp.WsReassembly

set_option relaxedAutoImplicit false
set_option autoImplicit false

namespace OxiHttp

/-! ### A conforming peer -/

/-- A Ping or a Pong, of legal size. -/
structure Control where
  isPing : Bool
  payload : List UInt8
  short : payload.length ≤ 125

namespace Control

/-- The frame that carries it. -/
def frame (c : Control) : Frame :=
  { fin := true, opcode := if c.isPing then .ping else .pong, payload := c.payload }

/-- The message `recv` returns for it. -/
def message (c : Control) : Message := if c.isPing then .ping c.payload else .pong c.payload

/-- The frames that answer it: a Pong for a Ping. -/
def replies (c : Control) : List Frame :=
  if c.isPing then [{ fin := true, opcode := .pong, payload := c.payload }] else []

theorem frame_legal (c : Control) : c.frame.Legal := fun _ => ⟨rfl, c.short⟩

end Control

/-- A piece of a message, and the control frames the peer sends before it. -/
structure Fragment where
  controls : List Control
  payload : List UInt8

/-- A Text or Binary message, cut into pieces. -/
structure Fragmented where
  message : Message
  opcode : Opcode
  fragments : List Fragment
  nonempty : fragments ≠ []
  carries : message.Carries opcode (fragments.flatMap Fragment.payload)

/-- The control frames sent with some pieces. -/
def controlsOf (frs : List Fragment) : List Control := frs.flatMap Fragment.controls

/-- The content of some pieces. -/
def contentOf (frs : List Fragment) : List UInt8 := frs.flatMap Fragment.payload

/-- The frames of some pieces: the first carries the opcode, the others are continuations, and FIN
is set on the last. -/
def fragmentFrames (opcode : Opcode) : List Fragment → List Frame
  | [] => []
  | fr :: frs =>
      fr.controls.map Control.frame ++ { fin := frs.isEmpty, opcode, payload := fr.payload } ::
        fragmentFrames .continuation frs

/-- What a conforming peer sends: messages, and control frames after the last of them. -/
structure Talk where
  messages : List Fragmented
  trailing : List Control

namespace Talk

/-- The frames, in the order in which they are sent. -/
def frames (talk : Talk) : List Frame :=
  talk.messages.flatMap (fun m => fragmentFrames m.opcode m.fragments)
    ++ talk.trailing.map Control.frame

/-- What `recv` has to return, call by call. -/
def delivery (talk : Talk) : List Message :=
  talk.messages.flatMap (fun m => (controlsOf m.fragments).map Control.message ++ [m.message])
    ++ talk.trailing.map Control.message

/-- The frames that answer the Pings. -/
def replies (talk : Talk) : List Frame :=
  talk.messages.flatMap (fun m => (controlsOf m.fragments).flatMap Control.replies)
    ++ talk.trailing.flatMap Control.replies

end Talk

/-! ### Series of calls -/

/-- As many calls of `recv` as there are messages return these messages, in order. -/
def Delivers (ws : WebSocket) (msgs : List Message) (ws' : WebSocket) : Prop :=
  (recvs msgs.length ws).1.map Call.result = msgs.map (fun m => .ok (some m)) ∧
    (recvs msgs.length ws).2 = ws'

theorem delivers_nil (ws : WebSocket) : Delivers ws [] ws := ⟨rfl, rfl⟩

theorem delivers_cons {ws ws₁ ws' : WebSocket} {m : Message} {msgs : List Message}
    (hcall : ∃ frames, recvCall ws = (⟨frames, .ok (some m)⟩, ws₁))
    (h : Delivers ws₁ msgs ws') : Delivers ws (m :: msgs) ws' := by
  obtain ⟨frames, hcall⟩ := hcall
  obtain ⟨hres, hws⟩ := h
  simp only [Delivers, List.length_cons, recvs, hcall, List.map_cons, hres]
  exact ⟨trivial, hws⟩

theorem Delivers.append {ws ws₁ ws' : WebSocket} {msgs msgs' : List Message}
    (h : Delivers ws msgs ws₁) (h' : Delivers ws₁ msgs' ws') :
    Delivers ws (msgs ++ msgs') ws' := by
  induction msgs generalizing ws with
  | nil =>
      obtain ⟨-, rfl⟩ := h
      exact h'
  | cons m msgs ih =>
      rcases hcall : recvCall ws with ⟨⟨frames, result⟩, ws₂⟩
      simp only [Delivers, List.length_cons, recvs, hcall, List.map_cons, List.cons.injEq] at h
      obtain ⟨⟨rfl, hres⟩, hws⟩ := h
      exact delivers_cons ⟨frames, hcall⟩ (ih ⟨hres, hws⟩)

section Turn

variable {ws ws₁ ws' : WebSocket} {f : Frame} {s : ByteStream}

/-- A frame that is a message by itself, or ends one. -/
theorem delivers_one {m : Message} (hopen : ws.closed = false)
    (hread : (readFrame ws.frameCap).run ws.stream = (.ok f, s))
    (hrun : (handleFrame f).run { ws with stream := s } = (.ok (some m), ws')) :
    Delivers ws [m] ws' := by
  have hcall : recvCall ws = (⟨[f], .ok (some m)⟩, ws') := by
    rw [recvCall, if_neg (by simp [hopen]), recvLoop_of_read_ok hread, hrun]
  exact delivers_cons ⟨_, hcall⟩ (delivers_nil ws')

/-- A frame after which the loop goes on: the next call starts after it. -/
theorem Delivers.skip {msgs : List Message} (hopen : ws.closed = false)
    (hread : (readFrame ws.frameCap).run ws.stream = (.ok f, s))
    (hrun : (handleFrame f).run { ws with stream := s } = (.ok none, ws₁))
    (hopen₁ : ws₁.closed = false) (hne : msgs ≠ []) (h : Delivers ws₁ msgs ws') :
    Delivers ws msgs ws' := by
  cases msgs with
  | nil => exact absurd rfl hne
  | cons m msgs =>
      have hcall : recvCall ws = (⟨f :: (recvCall ws₁).1.frames, (recvCall ws₁).1.result⟩,
          (recvCall ws₁).2) := by
        rw [recvCall, if_neg (by simp [hopen]), recvLoop_of_read_ok hread, hrun, recvCall,
          if_neg (by simp [hopen₁])]
      -- the first result and the socket after it are those of the socket after the frame
      simp only [Delivers, List.length_cons, recvs, List.map_cons, hcall] at h ⊢
      exact h

end Turn

/-! ### The socket between the frames -/

/-- The socket after reading down to `input` and writing some frames. -/
def WebSocket.after (ws : WebSocket) (input : List UInt8) (written : List Frame) : WebSocket :=
  { ws with stream := { ws.stream with
      input, output := ws.stream.output ++ written.flatMap frameBytes } }

section After

variable (ws : WebSocket) (input : List UInt8) (written : List Frame)

@[simp] theorem WebSocket.after_after (input' : List UInt8) (written' : List Frame) :
    (ws.after input written).after input' written' = ws.after input' (written ++ written') := by
  simp [WebSocket.after]

theorem WebSocket.after_nil :
    ws.after input [] = { ws with stream := { ws.stream with input } } := by
  simp [WebSocket.after]

@[simp] theorem WebSocket.after_closed : (ws.after input written).closed = ws.closed := rfl

@[simp] theorem WebSocket.after_room :
    (ws.after input written).stream.room = ws.stream.room := rfl

@[simp] theorem WebSocket.after_input : (ws.after input written).stream.input = input := rfl

@[simp] theorem WebSocket.after_maxMessageSize :
    (ws.after input written).maxMessageSize = ws.maxMessageSize := rfl

end After

theorem Matches.after {a : Assembly} {ws : WebSocket} (h : Matches a ws) (input : List UInt8)
    (written : List Frame) : Matches a (ws.after input written) := h.setStream _

theorem sentBytes_append (sent sent' : List (MaskKey × Frame)) :
    sentBytes (sent ++ sent') = sentBytes sent ++ sentBytes sent' := by simp [sentBytes]

theorem sentBytes_cons (key : MaskKey) (f : Frame) (sent : List (MaskKey × Frame)) :
    sentBytes ((key, f) :: sent) = maskedFrameBytes key f ++ sentBytes sent := rfl

/-! ### Control frames -/

section Controls

variable {ws : WebSocket} {rest : List UInt8}

/-- One control frame is one message, and a Ping is answered. -/
theorem delivers_control (hopen : ws.closed = false) (hroom : ws.stream.room = none)
    {key : MaskKey} {c : Control}
    (hin : ws.stream.input = maskedFrameBytes key c.frame ++ rest) :
    Delivers ws [c.message] (ws.after rest c.replies) := by
  have hcap : c.frame.payload.length ≤ ws.frameCap := le_trans c.short (le_max_right _ _)
  have hread := readFrame_masked hin c.frame_legal hcap (lt_of_le_of_lt c.short (by decide))
  refine delivers_one hopen hread ?_
  obtain ⟨isPing, payload, short⟩ := c
  cases isPing with
  | true =>
      obtain ⟨e, he⟩ := run_recvPing { ws with stream := { ws.stream with input := rest } } payload
      rw [if_neg (by simp [WebSocket.pushFrame, ByteStream.Broken, ByteStream.push, hroom])] at he
      rw [run_handleFrame_ping rfl]
      refine he.trans ?_
      simp [WebSocket.pushFrame, WebSocket.after, ByteStream.push, hroom, Control.message,
        Control.replies]
  | false =>
      rw [run_handleFrame_pong rfl]
      simp [WebSocket.after, Control.message, Control.replies, Control.frame]

/-- Control frames one after the other. -/
theorem delivers_controls (hopen : ws.closed = false) (hroom : ws.stream.room = none)
    {cs : List Control} {sent : List (MaskKey × Frame)}
    (hsent : sent.map Prod.snd = cs.map Control.frame)
    (hin : ws.stream.input = sentBytes sent ++ rest) :
    Delivers ws (cs.map Control.message) (ws.after rest (cs.flatMap Control.replies)) := by
  induction cs generalizing ws sent with
  | nil =>
      rw [List.map_nil, List.map_eq_nil_iff] at hsent
      subst hsent
      have hws : ws.after rest [] = ws := by
        rw [show rest = ws.stream.input from hin.symm]
        simp [WebSocket.after]
      simpa [hws] using delivers_nil ws
  | cons c cs ih =>
      rw [List.map_cons, List.map_eq_cons_iff] at hsent
      obtain ⟨⟨key, f⟩, sent, rfl, rfl, hsent⟩ := hsent
      rw [sentBytes_cons, List.append_assoc] at hin
      have hone := delivers_control hopen hroom hin
      have hmore := @ih (ws.after (sentBytes sent ++ rest) c.replies) hopen hroom _ hsent rfl
      rw [WebSocket.after_after] at hmore
      exact hone.append hmore

end Controls

/-! ### Fragments -/

/-- Data that a message carries is made into that message. -/
theorem makeDataMessage_of_carries {m : Message} {opcode : Opcode} {data : List UInt8}
    (h : m.Carries opcode data) : makeDataMessage opcode data = .ok m := by
  cases m with
  | text s =>
      obtain ⟨rfl, rfl⟩ := h
      simp [makeDataMessage]
  | binary b =>
      obtain ⟨rfl, rfl⟩ := h
      rfl
  | _ => exact h.elim

/-- The opcode of a message that carries data starts a message. -/
theorem Message.Carries.isStart {m : Message} {opcode : Opcode} {data : List UInt8}
    (h : m.Carries opcode data) : opcode.isStart = true := by
  cases m with
  | text s => rw [h.1]; rfl
  | binary b => rw [h.1]; rfl
  | _ => exact h.elim

theorem WebSocket.not_over {ws : WebSocket} {n : ℕ}
    (h : ws.fragBuf.length + n ≤ ws.maxMessageSize) : ¬ ws.Over n := by
  unfold WebSocket.Over
  omega

/-- The socket with no message in progress. -/
def WebSocket.idle (ws : WebSocket) : WebSocket := { ws with fragBuf := [], fragOpcode := none }

theorem WebSocket.idle_eq {ws : WebSocket} (h : Matches .idle ws) : ws.idle = ws := by
  rw [idle, ← h.1, ← h.2]

section Fragments

variable {ws : WebSocket} {rest : List UInt8}

/-- The frames of some pieces: control frames, a data frame, and the frames of the other pieces. -/
theorem sent_fragmentFrames {opcode : Opcode} {fr : Fragment} {frs : List Fragment}
    {sent : List (MaskKey × Frame)}
    (hsent : sent.map Prod.snd = fragmentFrames opcode (fr :: frs)) :
    ∃ before key after, sent = before ++ (key, ⟨frs.isEmpty, opcode, fr.payload⟩) :: after ∧
      before.map Prod.snd = fr.controls.map Control.frame ∧
      after.map Prod.snd = fragmentFrames .continuation frs := by
  rw [fragmentFrames, List.map_eq_append_iff] at hsent
  obtain ⟨before, tail, rfl, hbefore, htail⟩ := hsent
  rw [List.map_eq_cons_iff] at htail
  obtain ⟨⟨key, f⟩, after, rfl, hf, hafter⟩ := htail
  obtain rfl : f = ⟨frs.isEmpty, opcode, fr.payload⟩ := hf
  exact ⟨before, key, after, rfl, hbefore, hafter⟩

theorem data_frame_legal {f : Frame} (h : f.opcode.isControl = false) : f.Legal := by
  intro hc
  rw [h] at hc
  cases hc

/-- A continuation within the budget that is not the last. -/
theorem run_handleFrame_next {opcode : Opcode} {data payload : List UInt8}
    (hws : Matches (.collecting opcode data) ws)
    (hlen : (data ++ payload).length ≤ ws.maxMessageSize) :
    (handleFrame ⟨false, .continuation, payload⟩).run ws
      = (.ok none, { ws with fragBuf := data ++ payload }) := by
  obtain ⟨rfl, -⟩ := hws
  rw [List.length_append] at hlen
  rw [run_handleFrame_continuation rfl, run_recvContinuation, if_neg (WebSocket.not_over hlen),
    if_neg (by simp)]

/-- A continuation within the budget that ends the message. -/
theorem run_handleFrame_last {m : Message} {opcode : Opcode} {data payload : List UInt8}
    (hws : Matches (.collecting opcode data) ws) (hm : m.Carries opcode (data ++ payload))
    (hlen : (data ++ payload).length ≤ ws.maxMessageSize) :
    (handleFrame ⟨true, .continuation, payload⟩).run ws = (.ok (some m), ws.idle) := by
  obtain ⟨rfl, hop⟩ := hws
  rw [List.length_append] at hlen
  rw [run_handleFrame_continuation rfl, run_recvContinuation, if_neg (WebSocket.not_over hlen),
    if_pos rfl, run_recvLast]
  simp only [hop, makeDataMessage_of_carries hm]
  rfl

/-- The first of several pieces, within the budget. -/
theorem run_handleFrame_first {opcode : Opcode} {payload : List UInt8}
    (hs : opcode.isStart = true) (hws : Matches .idle ws)
    (hlen : payload.length ≤ ws.maxMessageSize) :
    (handleFrame ⟨false, opcode, payload⟩).run ws
      = (.ok none, { ws with fragOpcode := some opcode, fragBuf := payload }) := by
  have hover : ¬ ws.Over payload.length := WebSocket.not_over (by simpa [hws.1] using hlen)
  rw [run_handleFrame_start hs hws.1, if_neg (by simp), run_recvFirst, if_neg hover, hws.1,
    List.nil_append]

/-- A message in one piece, within the budget. -/
theorem run_handleFrame_whole {m : Message} {opcode : Opcode} {payload : List UInt8}
    (hm : m.Carries opcode payload) (hws : Matches .idle ws)
    (hlen : payload.length ≤ ws.maxMessageSize) :
    (handleFrame ⟨true, opcode, payload⟩).run ws = (.ok (some m), ws) := by
  have hover : ¬ ws.Over payload.length := WebSocket.not_over (by simpa [hws.1] using hlen)
  rw [run_handleFrame_start hm.isStart hws.1, if_pos rfl, run_recvWhole, if_neg hover,
    makeDataMessage_of_carries hm]
  rfl

/-- A data frame within the budget is read. -/
theorem readFrame_data (hmax : ws.maxMessageSize < 2 ^ 64) {key : MaskKey} {fin : Bool}
    {opcode : Opcode} (hop : opcode.isControl = false) {payload : List UInt8}
    (hlen : payload.length ≤ ws.maxMessageSize)
    (hin : ws.stream.input = maskedFrameBytes key ⟨fin, opcode, payload⟩ ++ rest) :
    (readFrame ws.frameCap).run ws.stream
      = (.ok ⟨fin, opcode, payload⟩, { ws.stream with input := rest }) :=
  readFrame_masked hin (data_frame_legal hop) (le_trans hlen (le_max_left _ _))
    (lt_of_le_of_lt hlen hmax)

section Continuations

variable {m : Message} {opcode : Opcode} {data payload : List UInt8} {key : MaskKey}

/-- The last continuation delivers the message. -/
theorem delivers_last (hmax : ws.maxMessageSize < 2 ^ 64) (hopen : ws.closed = false)
    (hws : Matches (.collecting opcode data) ws) (hm : m.Carries opcode (data ++ payload))
    (hlen : (data ++ payload).length ≤ ws.maxMessageSize)
    (hin : ws.stream.input = maskedFrameBytes key ⟨true, .continuation, payload⟩ ++ rest) :
    Delivers ws [m] (ws.after rest []).idle := by
  have hread := readFrame_data hmax rfl (le_trans (by simp) hlen) hin
  refine delivers_one hopen hread ?_
  rw [← WebSocket.after_nil]
  exact run_handleFrame_last (hws.after rest []) hm hlen

/-- After another continuation the message is still in progress. -/
theorem Delivers.next (hmax : ws.maxMessageSize < 2 ^ 64) (hopen : ws.closed = false)
    (hws : Matches (.collecting opcode data) ws)
    (hlen : (data ++ payload).length ≤ ws.maxMessageSize)
    (hin : ws.stream.input = maskedFrameBytes key ⟨false, .continuation, payload⟩ ++ rest)
    {msgs : List Message} {ws' : WebSocket} (hne : msgs ≠ [])
    (h : Delivers { ws.after rest [] with fragBuf := data ++ payload } msgs ws') :
    Delivers ws msgs ws' := by
  have hread := readFrame_data hmax rfl (le_trans (by simp) hlen) hin
  refine Delivers.skip hopen hread ?_ ?_ hne h
  · rw [← WebSocket.after_nil]
    exact run_handleFrame_next (hws.after rest []) hlen
  · exact hopen

end Continuations

/-- The continuations of a message in progress. -/
theorem delivers_continuations (hmax : ws.maxMessageSize < 2 ^ 64) (hopen : ws.closed = false)
    (hroom : ws.stream.room = none) {frs : List Fragment} (hne : frs ≠ []) {m : Message}
    {opcode : Opcode} {data : List UInt8} (hws : Matches (.collecting opcode data) ws)
    (hm : m.Carries opcode (data ++ contentOf frs))
    (hlen : (data ++ contentOf frs).length ≤ ws.maxMessageSize)
    {sent : List (MaskKey × Frame)} (hsent : sent.map Prod.snd = fragmentFrames .continuation frs)
    (hin : ws.stream.input = sentBytes sent ++ rest) :
    Delivers ws ((controlsOf frs).map Control.message ++ [m])
      (ws.after rest ((controlsOf frs).flatMap Control.replies)).idle := by
  induction frs generalizing ws data sent with
  | nil => exact absurd rfl hne
  | cons fr frs ih =>
      obtain ⟨before, key, after, rfl, hbefore, hafter⟩ := sent_fragmentFrames hsent
      rw [sentBytes_append, sentBytes_cons, List.append_assoc, List.append_assoc] at hin
      have hcontrols := delivers_controls hopen hroom hbefore hin
      have hcontent : contentOf (fr :: frs) = fr.payload ++ contentOf frs := rfl
      rw [hcontent, ← List.append_assoc] at hm hlen
      -- the socket when the data frame of the first piece is the next one
      generalize hws₁ : ws.after (maskedFrameBytes key ⟨frs.isEmpty, .continuation, fr.payload⟩ ++
        (sentBytes after ++ rest)) (fr.controls.flatMap Control.replies) = ws₁ at hcontrols
      have hmatch : Matches (.collecting opcode data) ws₁ := hws₁ ▸ hws.after _ _
      have hin₁ : ws₁.stream.input = maskedFrameBytes key ⟨frs.isEmpty, .continuation, fr.payload⟩
        ++ (sentBytes after ++ rest) := hws₁ ▸ rfl
      have hmax₁ : ws₁.maxMessageSize = ws.maxMessageSize := hws₁ ▸ rfl
      have hopen₁ : ws₁.closed = false := hws₁ ▸ hopen
      have hroom₁ : ws₁.stream.room = none := hws₁ ▸ hroom
      rw [← hmax₁] at hmax hlen
      suffices h : Delivers ws₁ ((controlsOf frs).map Control.message ++ [m])
          (ws₁.after rest ((controlsOf frs).flatMap Control.replies)).idle by
        have hall := hcontrols.append h
        rw [← hws₁, WebSocket.after_after] at hall
        simpa [controlsOf] using hall
      cases frs with
      | nil =>
          obtain rfl : after = [] := by simpa [fragmentFrames] using hafter
          rw [contentOf, List.flatMap_nil, List.append_nil] at hm hlen
          exact delivers_last hmax hopen₁ hmatch hm hlen hin₁
      | cons fr' frs =>
          have hfirst : (data ++ fr.payload).length ≤ ws₁.maxMessageSize := by
            rw [List.length_append] at hlen
            omega
          let ws₂ := { ws₁.after (sentBytes after ++ rest) [] with fragBuf := data ++ fr.payload }
          have hmax₂ : ws₂.maxMessageSize < 2 ^ 64 := hmax
          have hmore := ih hmax₂ hopen₁ hroom₁ (by simp) ⟨rfl, hmatch.2⟩ hm hlen hafter rfl
          refine Delivers.next hmax hopen₁ hmatch hfirst hin₁ (by simp) ?_
          simpa [WebSocket.after, WebSocket.idle, ws₂] using hmore

/-- A message in all its pieces, on a socket with no message in progress. -/
theorem delivers_message (hmax : ws.maxMessageSize < 2 ^ 64) (hopen : ws.closed = false)
    (hroom : ws.stream.room = none) (hws : Matches .idle ws) (msg : Fragmented)
    (hlen : (contentOf msg.fragments).length ≤ ws.maxMessageSize)
    {sent : List (MaskKey × Frame)}
    (hsent : sent.map Prod.snd = fragmentFrames msg.opcode msg.fragments)
    (hin : ws.stream.input = sentBytes sent ++ rest) :
    Delivers ws ((controlsOf msg.fragments).map Control.message ++ [msg.message])
      (ws.after rest ((controlsOf msg.fragments).flatMap Control.replies)) := by
  obtain ⟨m, opcode, frs, hne, hm⟩ := msg
  cases frs with
  | nil => exact absurd rfl hne
  | cons fr frs =>
      obtain ⟨before, key, after, rfl, hbefore, hafter⟩ := sent_fragmentFrames hsent
      rw [sentBytes_append, sentBytes_cons, List.append_assoc, List.append_assoc] at hin
      have hcontrols := delivers_controls hopen hroom hbefore hin
      generalize hws₁ : ws.after (maskedFrameBytes key ⟨frs.isEmpty, opcode, fr.payload⟩ ++
        (sentBytes after ++ rest)) (fr.controls.flatMap Control.replies) = ws₁ at hcontrols
      have hmatch : Matches .idle ws₁ := hws₁ ▸ hws.after _ _
      have hin₁ : ws₁.stream.input = maskedFrameBytes key ⟨frs.isEmpty, opcode, fr.payload⟩
        ++ (sentBytes after ++ rest) := hws₁ ▸ rfl
      have hmax₁ : ws₁.maxMessageSize = ws.maxMessageSize := hws₁ ▸ rfl
      have hopen₁ : ws₁.closed = false := hws₁ ▸ hopen
      have hroom₁ : ws₁.stream.room = none := hws₁ ▸ hroom
      rw [← hmax₁] at hmax hlen
      suffices h : Delivers ws₁ ((controlsOf frs).map Control.message ++ [m])
          (ws₁.after rest ((controlsOf frs).flatMap Control.replies)) by
        have hall := hcontrols.append h
        rw [← hws₁, WebSocket.after_after] at hall
        simpa [controlsOf] using hall
      have hstart := hm.isStart
      have hfirst : fr.payload.length ≤ ws₁.maxMessageSize := le_trans (by simp [contentOf]) hlen
      have hread := readFrame_data hmax (Opcode.isStart_not_control hstart) hfirst hin₁
      cases frs with
      | nil =>
          obtain rfl : after = [] := by simpa [fragmentFrames] using hafter
          rw [List.flatMap_cons, List.flatMap_nil, List.append_nil] at hm
          refine delivers_one hopen₁ hread ?_
          rw [← WebSocket.after_nil]
          exact run_handleFrame_whole hm (hmatch.after _ _) hfirst
      | cons fr' frs =>
          have hrun := run_handleFrame_first hstart (hmatch.setStream
            { ws₁.stream with input := sentBytes after ++ rest }) hfirst
          let ws₂ := { ws₁ with
            stream := { ws₁.stream with input := sentBytes after ++ rest }
            fragOpcode := some opcode
            fragBuf := fr.payload }
          have hmax₂ : ws₂.maxMessageSize < 2 ^ 64 := hmax
          have hmore := delivers_continuations hmax₂ hopen₁ hroom₁ (List.cons_ne_nil fr' frs)
            ⟨rfl, rfl⟩ hm hlen hafter rfl
          rw [← WebSocket.idle_eq (hmatch.after rest _)]
          exact Delivers.skip hopen₁ hread hrun hopen₁ (by simp) hmore

/-- Messages one after the other. -/
theorem delivers_messages (hmax : ws.maxMessageSize < 2 ^ 64) (hopen : ws.closed = false)
    (hroom : ws.stream.room = none) (hws : Matches .idle ws) {msgs : List Fragmented}
    (hlen : ∀ m ∈ msgs, (contentOf m.fragments).length ≤ ws.maxMessageSize)
    {sent : List (MaskKey × Frame)}
    (hsent : sent.map Prod.snd = msgs.flatMap fun m => fragmentFrames m.opcode m.fragments)
    (hin : ws.stream.input = sentBytes sent ++ rest) :
    Delivers ws
      (msgs.flatMap fun m => (controlsOf m.fragments).map Control.message ++ [m.message])
      (ws.after rest (msgs.flatMap fun m => (controlsOf m.fragments).flatMap Control.replies)) := by
  induction msgs generalizing ws sent with
  | nil =>
      have hsent : sent.map Prod.snd = List.map Control.frame [] := by simpa using hsent
      simpa using delivers_controls hopen hroom hsent hin
  | cons m msgs ih =>
      rw [List.flatMap_cons, List.map_eq_append_iff] at hsent
      obtain ⟨sent₁, sent₂, rfl, hsent₁, hsent₂⟩ := hsent
      rw [sentBytes_append, List.append_assoc] at hin
      have hone := delivers_message hmax hopen hroom hws m (hlen m List.mem_cons_self) hsent₁ hin
      have hmore := @ih (ws.after (sentBytes sent₂ ++ rest)
          ((controlsOf m.fragments).flatMap Control.replies)) hmax hopen hroom (hws.after _ _)
        (fun m' hm' => hlen m' (List.mem_cons_of_mem _ hm')) _ hsent₂ rfl
      rw [WebSocket.after_after] at hmore
      exact hone.append hmore

/-- All that a conforming peer says. -/
theorem delivers_talk (hmax : ws.maxMessageSize < 2 ^ 64) (hopen : ws.closed = false)
    (hroom : ws.stream.room = none) (hws : Matches .idle ws) (talk : Talk)
    (hlen : ∀ m ∈ talk.messages, (contentOf m.fragments).length ≤ ws.maxMessageSize)
    {sent : List (MaskKey × Frame)} (hsent : sent.map Prod.snd = talk.frames)
    (hin : ws.stream.input = sentBytes sent ++ rest) :
    Delivers ws talk.delivery (ws.after rest talk.replies) := by
  rw [Talk.frames, List.map_eq_append_iff] at hsent
  obtain ⟨sent₁, sent₂, rfl, hsent₁, hsent₂⟩ := hsent
  rw [sentBytes_append, List.append_assoc] at hin
  have hmessages := delivers_messages hmax hopen hroom hws hlen hsent₁ hin
  have hopen' : (ws.after (sentBytes sent₂ ++ rest) (talk.messages.flatMap fun m =>
      (controlsOf m.fragments).flatMap Control.replies)).closed = false := hopen
  have hall := hmessages.append (delivers_controls hopen' hroom hsent₂ rfl)
  rw [WebSocket.after_after] at hall
  exact hall

end Fragments

/-- On a fresh socket successive calls of `recv` return what a conforming peer said, message for
message and control frame for control frame.  One Pong is written for each Ping, and what the peer
sent after that is left unread. -/
theorem recvs_delivery (maxMessageSize : UInt64) (talk : Talk)
    (hlen : ∀ m ∈ talk.messages,
      (contentOf m.fragments).length ≤ maxMessageSize.toNat)
    {sent : List (MaskKey × Frame)} (hsent : sent.map Prod.snd = talk.frames)
    {stream : ByteStream} (hroom : stream.room = none) {rest : List UInt8}
    (hin : stream.input = sentBytes sent ++ rest) :
    let run := recvs talk.delivery.length
      (WebSocket.setMaxMessageSize maxMessageSize.toNat (.new stream))
    run.1.map Call.result = talk.delivery.map (fun m => .ok (some m)) ∧
      run.2.stream = { stream with
        input := rest, output := stream.output ++ talk.replies.flatMap frameBytes } := by
  let ws := WebSocket.setMaxMessageSize maxMessageSize.toNat (.new stream)
  have hmax : ws.maxMessageSize < 2 ^ 64 := maxMessageSize.toNat_lt
  obtain ⟨hresults, hws⟩ := delivers_talk hmax rfl hroom ⟨rfl, rfl⟩ talk hlen hsent hin
  exact ⟨hresults, congrArg WebSocket.stream hws⟩

/-- A text in two pieces with a Ping between them, an empty binary message, and a Pong. -/
def shortTalk : Talk where
  messages := [
    { message := .text "hey", opcode := .text
      fragments := [⟨[], [0x68, 0x65]⟩, ⟨[⟨true, [0x70], by decide⟩], [0x79]⟩]
      nonempty := by simp
      carries := ⟨rfl, by decide⟩ },
    { message := .binary [], opcode := .binary
      fragments := [⟨[], []⟩, ⟨[], []⟩]
      nonempty := by simp
      carries := ⟨rfl, rfl⟩ }]
  trailing := [⟨false, [], by decide⟩]

/-- The bytes of that talk, all frames under one key, and one byte more. -/
def shortTalkBytes : List UInt8 :=
  sentBytes (shortTalk.frames.map fun f => (⟨1, 2, 3, 4⟩, f)) ++ [0x2A]

theorem recvs_delivery_shortTalk :
    (recvs 4 (WebSocket.setMaxMessageSize 3 (.new { input := shortTalkBytes }))).1.map Call.result
      = [.ok (some (.ping [0x70])), .ok (some (.text "hey")), .ok (some (.binary [])),
        .ok (some (.pong []))] :=
  (recvs_delivery 3 shortTalk (by decide) (by decide) rfl rfl).1

end OxiHttp
