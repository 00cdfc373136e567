/-
**The memory a WebSocket takes.**

`set_max_message_size` is to bound the memory of a connection.  It is enforced in two places with
two thresholds: `read_frame` refuses a frame whose payload is longer than the budget or 125 bytes,
whichever is more, before it allocates the payload, and `check_size_limit` holds a data frame
against the budget itself before the reassembly buffer takes it.

Main definitions:

* `OxiHttp.MemoryEvent.Within` — the bounds on what is seen;
* `OxiHttp.Bounded` — the invariant.

Main results:

* `OxiHttp.Watched.bounded_readFrame`, `OxiHttp.Watched.bounded_checkSizeLimit` — what the two
  checks give;
* `OxiHttp.Watched.bounded_recv`, `OxiHttp.Watched.bounded_send`, `OxiHttp.Watched.bounded_close` —
  each operation keeps the invariant, however it ends.
-/

import OxiHttp.WsWatched

set_option relaxedAutoImplicit false
set_option autoImplicit false

namespace OxiHttp

/-- The size of a Text or Binary message. -/
def Message.dataSize : Message → ℕ
  | .text s => (Utf8.bytes s).length
  | .binary b => b.length
  | _ => 0

/-- The bounds of a socket whose budget is `maxMessageSize`. -/
def MemoryEvent.Within (maxMessageSize : ℕ) : MemoryEvent → Prop
  | .payload bytes => bytes ≤ max maxMessageSize 125
  | .buffer bytes => bytes ≤ maxMessageSize
  | .delivered msg => msg.dataSize ≤ maxMessageSize

instance (maxMessageSize : ℕ) (event : MemoryEvent) : Decidable (event.Within maxMessageSize) := by
  unfold MemoryEvent.Within
  cases event <;> infer_instance

/-! ### The invariant -/

/-- The budget is one that `L` allows, the reassembly buffer holds at most `M` bytes, and
everything seen so far is within the bounds of the budget `M`. -/
structure Bounded (L : ℕ → Prop) (M : ℕ) (w : Watch WebSocket MemoryEvent) : Prop where
  allowed : L w.state.maxMessageSize
  buffer : w.state.fragBuf.length ≤ M
  events : ∀ event ∈ w.seen, event.Within M

namespace Watched

open Observed (Triple triple_pure triple_fail triple_panicking triple_dropping triple_emit
  triple_get_bind triple_of_and triple_step triple_await)

variable {α : Type} {L : ℕ → Prop} {M : ℕ}

/-- One more event that is within the bounds. -/
theorem bounded_emit {w : Watch WebSocket MemoryEvent} {event : MemoryEvent}
    (h : Bounded L M w) (hevent : event.Within M) :
    Bounded L M { w with seen := w.seen ++ [event] } := by
  refine ⟨h.allowed, h.buffer, fun e he => ?_⟩
  rcases List.mem_append.1 he with he | he
  · exact h.events e he
  · rw [List.mem_singleton.1 he]
    exact hevent

/-- Another state, with the size of its buffer seen. -/
theorem bounded_look {w : Watch WebSocket MemoryEvent} (ws : WebSocket) (h : Bounded L M w)
    (hallowed : L ws.maxMessageSize) (hbuffer : ws.fragBuf.length ≤ M) :
    Bounded L M { w with state := ws, seen := w.seen ++ [ws.bufferSize] } :=
  bounded_emit (w := { w with state := ws }) ⟨hallowed, hbuffer, h.events⟩ hbuffer

/-- A statement that keeps the buffer within the bound. -/
theorem bounded_statement {x : Attempt WebSocket α} {P : WebSocket → Prop}
    {Q : α → WebSocket → Prop}
    (h : ∀ ws r ws', L ws.maxMessageSize → ws.fragBuf.length ≤ M → P ws →
      x.run ws = (r, ws') → L ws'.maxMessageSize ∧ ws'.fragBuf.length ≤ M ∧
        ∀ a, r = .ok a → Q a ws') :
    Triple (fun w => Bounded L M w ∧ P w.state) (statement x)
      (fun a w => Bounded L M w ∧ Q a w.state) (Bounded L M) := by
  refine triple_step fun w hw r ws' hrun => ?_
  obtain ⟨hallowed, hbuffer, hQ⟩ := h w.state r ws' hw.1.allowed hw.1.buffer hw.2 hrun
  have hB := bounded_look ws' hw.1 hallowed hbuffer
  cases r with
  | ok a => exact ⟨hB, hQ a rfl⟩
  | error e => exact hB

/-- Changing a field that memory does not depend on. -/
theorem bounded_modify {g : WebSocket → WebSocket}
    (hg : ∀ ws, (g ws).maxMessageSize = ws.maxMessageSize ∧ (g ws).fragBuf = ws.fragBuf) :
    Triple (Bounded L M) (statement (.modify g)) (fun _ => Bounded L M)
      (Bounded L M) := by
  refine triple_step fun w hw r ws' hrun => ?_
  cases hrun
  obtain ⟨hmax, hbuf⟩ := hg w.state
  exact bounded_look _ hw (by rw [hmax]; exact hw.allowed) (by rw [hbuf]; exact hw.buffer)

/-- Waiting for the stream does not touch the buffer, dropped or not. -/
theorem bounded_waiting (left : ByteStream) (x : Attempt ByteStream α) :
    Triple (Bounded L M) (waiting left x)
      (fun a w => Bounded L M w ∧ ∃ s s', x.run s = (.ok a, s')) (Bounded L M) := by
  refine triple_await (fun w p h => ⟨h.allowed, h.buffer, h.events⟩)
    (fun w h => bounded_look _ h h.allowed h.buffer) (triple_step fun w h r ws' hrun => ?_)
  rcases hx : x.run w.state.stream with ⟨r', s⟩
  have hstream : (onStream x).run w.state = (r', { w.state with stream := s }) := by
    simp only [onStream, hx]
  rw [hstream] at hrun
  cases hrun
  have hB := bounded_look { w.state with stream := s } h h.allowed h.buffer
  cases r with
  | ok a => exact ⟨hB, w.state.stream, s, hx⟩
  | error e => exact hB

/-- A payload buffer no longer than the cap of a frame may be allocated. -/
theorem bounded_allocate {n : ℕ} (h : n ≤ max M 125) :
    Triple (Bounded L M) (allocate n) (fun _ w => Bounded L M w ∧ n ≤ isizeMax)
      (Bounded L M) := by
  unfold allocate
  split
  · exact triple_panicking fun w hw => hw
  · exact triple_emit fun w hw => ⟨bounded_emit hw h, by omega⟩

/-- The length of the payload that `read_frame` reads is checked before it is allocated. -/
theorem bounded_readFrame (left : ByteStream) {maxPayloadLen : ℕ}
    (hcap : maxPayloadLen ≤ max M 125) :
    Triple (Bounded L M) (readFrame left maxPayloadLen)
      (fun frame w => Bounded L M w ∧ frame.payload.length ≤ isizeMax) (Bounded L M) := by
  refine (bounded_waiting left _).bind fun header => ?_
  cases parseHeader (header.getD 0 0) (header.getD 1 0) with
  | error e => exact triple_fail fun w hw => hw.1
  | ok parsed =>
      obtain ⟨fin, opcode, lenByte⟩ := parsed
      refine triple_of_and fun _ => (bounded_waiting left _).bind fun payloadLen => ?_
      split
      case isTrue => exact triple_fail fun w hw => hw.1
      case isFalse hle =>
          refine triple_of_and fun _ => (bounded_waiting left _).bind fun key => ?_
          refine triple_of_and fun _ => (bounded_allocate (by omega)).bind fun _ => ?_
          refine triple_of_and fun hlen => (bounded_waiting left _).bind fun payload => ?_
          refine triple_of_and fun ⟨s, s', hread⟩ => triple_pure fun w hw => ⟨hw, ?_⟩
          rw [MaskKey.length_apply, (readExact_ok hread).2.1]
          exact hlen

/-- A message made from data has its size. -/
theorem makeDataMessage_dataSize {opcode : Opcode} {data : List UInt8} {r : Option Message}
    (h : (makeDataMessage opcode data).map some = .ok r) : ∀ m ∈ r, m.dataSize = data.length := by
  intro m hm
  cases hmade : makeDataMessage opcode data with
  | error e =>
      rw [hmade] at h
      cases h
  | ok m' =>
      rw [hmade] at h
      cases h
      cases hm
      cases opcode with
      | text =>
          simp only [makeDataMessage] at hmade
          split at hmade
          case h_1 s hs =>
              cases hmade
              rw [Message.dataSize, Utf8.bytes_of_fromUtf8 hs]
          case h_2 => cases hmade
      | binary =>
          cases hmade
          rfl
      | _ => cases hmade

/-- What a handler leaves, and what it delivers. -/
def Delivers (M : ℕ) (r : Option Message) (w : Watch WebSocket MemoryEvent) : Prop :=
  Bounded (· = M) M w ∧ ∀ m ∈ r, m.dataSize ≤ M

section Arms

variable {payload : List UInt8}

/-- Within the budget, as far as the code computes it. -/
def Fits (M n : ℕ) (ws : WebSocket) : Prop := min (ws.fragBuf.length + n) usizeMax ≤ M

theorem bounded_checkSizeLimit (n : ℕ) :
    Triple (Bounded (· = M) M) (statement (checkSizeLimit n))
      (fun _ w => Bounded (· = M) M w ∧ Fits M n w.state) (Bounded (· = M) M) := by
  refine (bounded_statement (P := fun _ => True) (Q := fun _ => Fits M n) ?_).mono
    (fun w hw => ⟨hw, trivial⟩) (fun _ _ h => h)
  intro ws r ws' hallowed hbuffer _ hrun
  rw [run_checkSizeLimit] at hrun
  split at hrun
  case isTrue =>
      cases hrun
      exact ⟨hallowed, Nat.zero_le _, fun a h => by cases h⟩
  case isFalse hover =>
      cases hrun
      refine ⟨hallowed, hbuffer, fun a _ => ?_⟩
      rw [WebSocket.Over, hallowed] at hover
      exact Nat.not_lt.1 hover

/-- What fits is appended; a `Vec` too long for the check to see is too long for the machine. -/
theorem bounded_extendFragBuf :
    Triple (fun w => Bounded (· = M) M w ∧ Fits M payload.length w.state) (extendFragBuf payload)
      (fun _ => Bounded (· = M) M) (Bounded (· = M) M) := by
  refine triple_get_bind fun ws => ?_
  split
  case isTrue => exact triple_panicking fun w hw => hw.1.1
  case isFalse hlong =>
      refine (bounded_statement (P := fun ws' => Fits M payload.length ws ∧ ws' = ws)
        (Q := fun _ _ => True) ?_).mono ?_ (fun _ _ h => h.1)
      · rintro ws₁ r ws' hallowed - ⟨hfits, rfl⟩ hrun
        cases hrun
        refine ⟨hallowed, ?_, fun _ _ => trivial⟩
        simp only [Fits, usizeMax, isizeMax] at hfits hlong
        simp only [List.length_append]
        omega
      · rintro w ⟨⟨hw, hfits⟩, rfl⟩
        exact ⟨hw, hfits, rfl⟩

theorem bounded_recvWhole (opcode : Opcode) (hlen : payload.length ≤ isizeMax) :
    Triple (Bounded (· = M) M) (statement (recvWhole opcode payload)) (Delivers M)
      (Bounded (· = M) M) := by
  refine (bounded_statement (P := fun _ => True)
    (Q := fun (r : Option Message) _ => ∀ m ∈ r, m.dataSize ≤ M) ?_).mono
    (fun w hw => ⟨hw, trivial⟩) (fun _ _ h => h)
  intro ws r ws' hallowed hbuffer _ hrun
  rw [run_recvWhole] at hrun
  split at hrun
  case isTrue =>
      cases hrun
      exact ⟨hallowed, Nat.zero_le _, fun a h => by cases h⟩
  case isFalse hover =>
      cases hrun
      refine ⟨hallowed, hbuffer, fun a ha m hm => ?_⟩
      rw [WebSocket.Over, hallowed] at hover
      rw [makeDataMessage_dataSize ha m hm]
      simp only [usizeMax, isizeMax] at hover hlen
      omega

theorem bounded_recvLast :
    Triple (Bounded (· = M) M) (statement recvLast) (Delivers M) (Bounded (· = M) M) := by
  refine (bounded_statement (P := fun _ => True)
    (Q := fun (r : Option Message) _ => ∀ m ∈ r, m.dataSize ≤ M) ?_).mono
    (fun w hw => ⟨hw, trivial⟩) (fun _ _ h => h)
  intro ws r ws' hallowed hbuffer _ hrun
  rw [run_recvLast] at hrun
  cases ho : ws.fragOpcode with
  | none =>
      rw [ho] at hrun
      cases hrun
      exact ⟨hallowed, hbuffer, fun a h => by cases h⟩
  | some opcode =>
      rw [ho] at hrun
      cases hrun
      refine ⟨hallowed, Nat.zero_le _, fun a ha m hm => ?_⟩
      rw [makeDataMessage_dataSize ha m hm]
      exact hbuffer

theorem bounded_recvFirst (opcode : Opcode) :
    Triple (Bounded (· = M) M) (recvFirst opcode payload) (Delivers M) (Bounded (· = M) M) := by
  have hopcode : Triple (fun w => Bounded (· = M) M w ∧ Fits M payload.length w.state)
      (statement (.modify fun ws => { ws with fragOpcode := some opcode }))
      (fun _ w => Bounded (· = M) M w ∧ Fits M payload.length w.state) (Bounded (· = M) M) := by
    refine bounded_statement fun ws r ws' hallowed hbuffer hfits hrun => ?_
    cases hrun
    exact ⟨hallowed, hbuffer, fun _ _ => hfits⟩
  refine (bounded_checkSizeLimit _).bind fun _ => hopcode.bind fun _ =>
    bounded_extendFragBuf.bind fun _ => triple_pure fun w hw => ⟨hw, ?_⟩
  exact fun m hm => by cases hm

theorem bounded_recvContinuation (fin : Bool) :
    Triple (Bounded (· = M) M) (recvContinuation payload fin) (Delivers M)
      (Bounded (· = M) M) := by
  refine (bounded_checkSizeLimit _).bind fun _ => bounded_extendFragBuf.bind fun _ => ?_
  cases fin with
  | true => exact bounded_recvLast
  | false => exact triple_pure fun w hw => ⟨hw, fun m hm => by cases hm⟩

/-- A control frame delivers no data. -/
theorem delivers_control {m : Message} (hm : m.isData = false)
    {w : Watch WebSocket MemoryEvent} (hw : Bounded (· = M) M w) : Delivers M (some m) w := by
  refine ⟨hw, fun m' hm' => ?_⟩
  cases hm'
  cases m <;> first | exact Nat.zero_le _ | cases hm

theorem bounded_recvPing (left : ByteStream) :
    Triple (Bounded (· = M) M) (recvPing left payload) (Delivers M) (Bounded (· = M) M) :=
  (bounded_waiting left _).bind fun _ => triple_pure fun _ hw => delivers_control rfl hw.1

theorem bounded_recvClose (left : ByteStream) :
    Triple (Bounded (· = M) M) (recvClose left payload) (Delivers M) (Bounded (· = M) M) := by
  have hecho : Triple (Bounded (· = M) M) (echoClose left payload)
      (fun _ => Bounded (· = M) M) (Bounded (· = M) M) := by
    refine triple_get_bind fun ws => ?_
    split
    · exact triple_pure fun w hw => hw.1
    · exact (bounded_waiting left _).mono (fun w hw => hw.1) fun _ _ h => h.1
  have hclosed := bounded_modify (L := (· = M)) (M := M)
    (g := fun ws => { ws with closed := true }) fun _ => ⟨rfl, rfl⟩
  exact hecho.bind fun _ => hclosed.bind fun _ => triple_pure fun _ hw => delivers_control rfl hw

end Arms

/-! ### Runs -/

/-- Whatever a frame is, and whatever stands in the buffer when it comes. -/
theorem bounded_handleFrame (left : ByteStream) {frame : Frame}
    (hlen : frame.payload.length ≤ isizeMax) :
    Triple (Bounded (· = M) M) (handleFrame left frame) (Delivers M) (Bounded (· = M) M) := by
  refine triple_get_bind fun ws => Triple.mono (P := Bounded (· = M) M) (Q := Delivers M) ?_
    (fun w hw => hw.1) fun _ _ h => h
  split
  · exact bounded_recvPing left
  · exact triple_pure fun _ hw => delivers_control rfl hw
  · exact bounded_recvClose left
  · exact bounded_recvWhole .text hlen
  · exact bounded_recvWhole .binary hlen
  · exact bounded_recvFirst .text
  · exact bounded_recvFirst .binary
  · exact bounded_recvContinuation _
  · exact triple_fail fun _ hw => hw

theorem bounded_turn (left : ByteStream) :
    Triple (Bounded (· = M) M) (turn left) (Delivers M) (Bounded (· = M) M) := by
  intro w hw
  have hcap : w.state.frameCap ≤ max M 125 := by
    rw [WebSocket.frameCap, hw.allowed]
    exact le_rfl
  have hread := (bounded_readFrame (L := (· = M)) left hcap).onError
    (fun ws => { ws with closed := true }) fun w hw => ⟨hw.allowed, hw.buffer, hw.events⟩
  exact hread.bind (fun frame => triple_of_and fun hlen => bounded_handleFrame left hlen) w hw

theorem bounded_recvLoop (left : ByteStream) (turns : ℕ) :
    Triple (Bounded (· = M) M) (recvLoop left turns) (fun _ => Bounded (· = M) M)
      (Bounded (· = M) M) := by
  induction turns with
  | zero => exact triple_dropping fun w hw => hw
  | succ turns ih =>
      refine (bounded_turn left).bind fun msg => ?_
      cases msg with
      | none => exact ih.mono (fun w hw => hw.1) fun _ _ h => h
      | some msg =>
          refine Triple.bind (Q := fun _ => Bounded (· = M) M)
            (triple_emit fun w hw => bounded_emit hw.1 (hw.2 msg rfl)) fun _ => ?_
          exact triple_pure fun w hw => hw

/-- A call of `recv`, however it ends. -/
theorem bounded_recv (left : ByteStream) :
    Triple (Bounded (· = M) M) (recv left) (fun _ => Bounded (· = M) M) (Bounded (· = M) M) := by
  refine triple_get_bind fun ws => ?_
  split
  · exact triple_pure fun w hw => hw.1
  · exact (bounded_recvLoop left _).mono (fun w hw => hw.1) fun _ _ h => h

/-- A call of `send`, whatever the budget is. -/
theorem bounded_send (left : ByteStream) (msg : Message) :
    Triple (Bounded L M) (send left msg) (fun _ => Bounded L M) (Bounded L M) := by
  have hflag := bounded_modify (L := L) (M := M) (g := fun ws => ws.flag msg) fun ws => by
    cases msg <;> exact ⟨rfl, rfl⟩
  exact hflag.bind fun _ => (bounded_waiting left _).mono (fun _ h => h) fun _ _ h => h.1

theorem bounded_drain (left : ByteStream) (turns : ℕ) :
    Triple (Bounded (· = M) M) (drain left turns) (fun _ => Bounded (· = M) M)
      (Bounded (· = M) M) := by
  induction turns with
  | zero => exact triple_dropping fun w hw => hw
  | succ turns ih =>
      refine (bounded_recv left).caught.bind fun r => ?_
      match r with
      | .error _ => exact triple_pure fun w hw => hw
      | .ok none => exact triple_pure fun w hw => hw
      | .ok (some (.close _)) => exact triple_pure fun w hw => hw
      | .ok (some (.text _)) => exact ih
      | .ok (some (.binary _)) => exact ih
      | .ok (some (.ping _)) => exact ih
      | .ok (some (.pong _)) => exact ih

theorem bounded_close (left : ByteStream) (code : UInt16) (reason : String) :
    Triple (Bounded (· = M) M) (close left code reason) (fun _ => Bounded (· = M) M)
      (Bounded (· = M) M) := by
  have hsent := bounded_modify (L := (· = M)) (M := M)
    (g := fun ws => { ws with closeSent := true }) fun _ => ⟨rfl, rfl⟩
  refine hsent.bind fun _ => (bounded_waiting left _).bind fun _ => triple_get_bind fun ws => ?_
  exact (bounded_drain left _).mono (fun w hw => hw.1.1) fun _ _ h => h

end Watched

section Runs

open Observed (Triple triple_pure triple_step)

/-- Before the budget is set the buffer is empty, and no call but `recv` fills it. -/
theorem bounded_runUses {L : ℕ → Prop} {M : ℕ} (uses : List Use)
    (hrecv : L = (· = M) ∨ ∀ use ∈ uses, use.op ≠ .recv)
    (hset : ∀ use ∈ uses, ∀ n, use.op = .setMaxMessageSize n → L n) :
    Triple (Bounded L M) (runUses uses) (fun _ => Bounded L M) (Bounded L M) := by
  have hpatience : ∀ (w : Watch WebSocket MemoryEvent) (p : Option ℕ), Bounded L M w →
      Bounded L M { w with patience := p } := fun w p h => ⟨h.allowed, h.buffer, h.events⟩
  induction uses with
  | nil => exact triple_pure fun w hw => hw
  | cons use uses ih =>
      have huse : Triple (Bounded L M) use.run (fun _ => Bounded L M) (Bounded L M) := by
        unfold Use.run
        split
        case h_1 hop =>
            rcases hrecv with rfl | hrecv
            · exact (Watched.bounded_recv _).call hpatience hpatience
            · exact absurd hop (hrecv use List.mem_cons_self)
        case h_2 msg hop => exact (Watched.bounded_send _ msg).call hpatience hpatience
        case h_3 n hop =>
            refine triple_step fun w hw r ws' hrun => ?_
            cases hrun
            exact Watched.bounded_look _ hw (hset use List.mem_cons_self n hop) hw.buffer
      refine huse.bind fun _ => ih ?_ fun use' h => hset use' (List.mem_cons_of_mem _ h)
      exact hrecv.imp id fun h use' h' => h use' (List.mem_cons_of_mem _ h')

/-- In every run on a fresh socket whose budget is set before the first call of `recv` and stays,
whatever the peer sends and wherever calls are dropped, the reassembly buffer never holds more
than the budget, no message larger than the budget is delivered, and no payload buffer larger
than the budget or 125 bytes, whichever is more, is allocated. -/
theorem memory_bounded (stream : ByteStream) (before after : List Use) {M : ℕ}
    (closing : Option (UInt16 × String)) (closingDrop : Drop)
    (hbefore : ∀ use ∈ before, use.op ≠ .recv)
    (hafter : ∀ use ∈ after, ∀ n, use.op = .setMaxMessageSize n → n = M) :
    ∀ event ∈ memoryEvents
      { uses := before ++ { op := .setMaxMessageSize M } :: after, closing, closingDrop } stream,
      event.Within M := by
  have hweaken : ∀ w, Bounded (· = M) M w → Bounded (fun _ => True) M w :=
    fun w h => ⟨trivial, h.buffer, h.events⟩
  have hpatience : ∀ (w : Watch WebSocket MemoryEvent) (p : Option ℕ), Bounded (· = M) M w →
      Bounded (· = M) M { w with patience := p } := fun w p h => ⟨h.allowed, h.buffer, h.events⟩
  -- the calls before the budget is set, the call that sets it, and those after it
  have hfirst : Triple (Bounded (fun _ => True) M) (runUses before)
      (fun _ => Bounded (fun _ => True) M) (Bounded (fun _ => True) M) :=
    bounded_runUses before (.inr hbefore) fun _ _ _ _ => trivial
  have hset : Triple (Bounded (fun _ => True) M) (Use.run { op := .setMaxMessageSize M })
      (fun _ => Bounded (· = M) M) (Bounded (fun _ => True) M) := by
    refine triple_step fun w hw r ws' hrun => ?_
    cases hrun
    have hlook := Watched.bounded_look (w.state.setMaxMessageSize M) hw trivial hw.buffer
    exact ⟨rfl, hlook.buffer, hlook.events⟩
  have hlast : Triple (Bounded (· = M) M) (runUses after) (fun _ => Bounded (· = M) M)
      (Bounded (· = M) M) := bounded_runUses after (.inl rfl) hafter
  have hfinish : ∀ usage : Usage, Triple (Bounded (· = M) M) usage.finish
      (fun _ => Bounded (· = M) M) (Bounded (· = M) M) := by
    intro usage
    unfold Usage.finish
    split
    · exact triple_pure fun w hw => hw
    · exact (Watched.bounded_close _ _ _).call hpatience hpatience
  have hrun := hfirst.bind fun _ => hset.bind fun _ => ((hlast.bind fun _ => hfinish
    { uses := before ++ { op := .setMaxMessageSize M } :: after, closing, closingDrop }).weaken
      hweaken).mono (fun _ h => h) fun _ => hweaken
  simp only [memoryEvents, Usage.run, runUses_append, runUses, Observed.bind_assoc]
  refine (hrun.final ⟨trivial, Nat.zero_le _, fun event hevent => ?_⟩).events
  rw [List.mem_singleton.1 hevent]
  exact Nat.zero_le _

/-- A budget of four bytes, and a peer that starts a message of three and goes on with two more
before it sends a Ping. -/
def fourByteUsage : Usage :=
  { uses := [{ op := .send (.text "hello") }, { op := .setMaxMessageSize 4 }, { op := .recv },
      { op := .recv, drop := { waits := some 1 } }, { op := .recv }],
    closing := some (1000, "") }

/-- The bytes of that peer, unmasked by a key of zeros. -/
def fourByteStream : ByteStream :=
  { input := [0x02, 0x83, 0, 0, 0, 0, 1, 2, 3, 0x80, 0x82, 0, 0, 0, 0, 4, 5,
      0x89, 0x80, 0, 0, 0, 0] }

theorem memory_bounded_fourByteUsage :
    ((memoryEvents fourByteUsage fourByteStream).all fun event => event.Within 4) = true := by
  rw [List.all_eq_true]
  intro event hevent
  exact decide_eq_true (memory_bounded fourByteStream [{ op := .send (.text "hello") }]
    [{ op := .recv }, { op := .recv, drop := { waits := some 1 } }, { op := .recv }]
    (some (1000, "")) {} (by simp) (by simp) event hevent)

end Runs

end OxiHttp
