/-
**Conversations over a WebSocket.**

The documentation shows how a socket is used: a loop around `recv` that sends something for every
message, until `recv` has no more or `send` fails.  While it does so `recv` answers Pings and Closes
on the same stream.

A handler of this kind is a transducer, whatever it is: the messages it gets are those that the peer
has sent, as if nothing was ever sent to the peer, and the frames that the peer can read carry for
each of them what the socket replies by itself, and then what the handler answers.

Main definitions:

* `OxiHttp.Attempt.Respects` — a computation cannot tell states apart that are related;
* `OxiHttp.WebSocket.Alike` — sockets that differ in what was written only;
* `OxiHttp.converse` — the loop of a handler;
* `OxiHttp.answers` — what the peer is to hear.

Main results:

* `OxiHttp.recvCall_alike` — what was written has no influence on what is received;
* `OxiHttp.Speaks.recvCall` — what a call of `recv` writes;
* `OxiHttp.converse_transduces` — a handler is a transducer.
-/

import OxiHttp.WsDelivery
import OxiHttp.WsSend

set_option relaxedAutoImplicit false
set_option autoImplicit false

namespace OxiHttp

/-! ### What a computation cannot tell apart -/

namespace Attempt

variable {σ α β : Type} {R : σ → σ → Prop}

/-- From states that are related it has the same result, and leads to states that are related. -/
def Respects (R : σ → σ → Prop) (x : Attempt σ α) : Prop :=
  ∀ ⦃s t⦄, R s t → (x.run s).1 = (x.run t).1 ∧ R (x.run s).2 (x.run t).2

theorem respects_pure (a : α) : Respects R (pure a : Attempt σ α) := fun _ _ h => ⟨rfl, h⟩

theorem respects_fail (e : OxiHttpError) : Respects R (fail e : Attempt σ α) :=
  fun _ _ h => ⟨rfl, h⟩

theorem respects_modify {g : σ → σ} (hg : ∀ {s t}, R s t → R (g s) (g t)) :
    Respects R (modify g) := fun _ _ h => ⟨rfl, hg h⟩

theorem Respects.bind {x : Attempt σ α} {f : α → Attempt σ β} (hx : Respects R x)
    (hf : ∀ a, Respects R (f a)) : Respects R (x >>= f) := by
  intro s t h
  obtain ⟨hresult, hstate⟩ := hx h
  rcases hs : x.run s with ⟨r, s'⟩
  rcases ht : x.run t with ⟨r', t'⟩
  rw [hs, ht] at hresult hstate
  obtain rfl : r = r' := hresult
  cases r with
  | ok a =>
      rw [bind_ok hs, bind_ok ht]
      exact hf a hstate
  | error e =>
      rw [bind_error hs, bind_error ht]
      exact ⟨rfl, hstate⟩

/-- The state may be read for what related states have in common. -/
theorem respects_get_bind {f : σ → Attempt σ β} (hsame : ∀ {s t}, R s t → f s = f t)
    (hf : ∀ s, Respects R (f s)) : Respects R (get >>= f) := by
  intro s t h
  rw [run_get_bind, run_get_bind, ← hsame h]
  exact hf s h

end Attempt

open Attempt (Respects respects_pure respects_fail respects_modify respects_get_bind)

/-! ### What was written -/

namespace ByteStream

/-- Streams that differ in what was written only. -/
def Alike (s t : ByteStream) : Prop := ∃ output, t = { s with output }

theorem respects_readExact (what : String) (n : ℕ) : Respects Alike (readExact what n) := by
  rintro s _ ⟨output, rfl⟩
  rw [run_readExact, run_readExact]
  dsimp only
  split_ifs
  · exact ⟨rfl, output, rfl⟩
  · exact ⟨rfl, output, rfl⟩

theorem Alike.push {s t : ByteStream} (h : s.Alike t) (bs : List UInt8) :
    (s.push bs).Alike (t.push bs) := by
  obtain ⟨output, rfl⟩ := h
  unfold ByteStream.push
  dsimp only
  cases s.room with
  | none => exact ⟨_, rfl⟩
  | some r => exact ⟨_, rfl⟩

theorem respects_writeAll (what : String) (bs : List UInt8) :
    Respects Alike (writeAll what bs) := by
  intro s t h
  refine ⟨?_, h.push bs⟩
  obtain ⟨output, rfl⟩ := h
  rfl

theorem respects_flush (what : String) : Respects Alike (flush what) := by
  rintro s _ ⟨output, rfl⟩
  have hbroken : ({ s with output } : ByteStream).Broken ↔ s.Broken := Iff.rfl
  rw [run_flush, run_flush]
  by_cases h : s.Broken
  · rw [if_pos h, if_pos (hbroken.2 h)]
    exact ⟨rfl, output, rfl⟩
  · rw [if_neg h, if_neg (mt hbroken.1 h)]
    exact ⟨rfl, output, rfl⟩

theorem respects_writeFrame (opcode : Opcode) (payload : List UInt8) (fin : Bool) :
    Respects Alike (writeFrame opcode payload fin) :=
  (respects_writeAll _ _).bind fun _ => (respects_writeAll _ _).bind fun _ => respects_flush _

theorem respects_readPayloadLen (lenByte : ℕ) : Respects Alike (readPayloadLen lenByte) := by
  unfold readPayloadLen
  split
  · exact respects_pure _
  · split <;> exact (respects_readExact _ _).bind fun _ => respects_pure _

theorem respects_readBody (maxPayloadLen : ℕ) (fin : Bool) (opcode : Opcode) (lenByte : ℕ) :
    Respects Alike (readBody maxPayloadLen fin opcode lenByte) := by
  refine (respects_readPayloadLen _).bind fun n => ?_
  split
  · exact respects_fail _
  · exact (respects_readExact _ _).bind fun _ =>
      (respects_readExact _ _).bind fun _ => respects_pure _

theorem respects_readFrame (maxPayloadLen : ℕ) : Respects Alike (readFrame maxPayloadLen) := by
  refine (respects_readExact _ _).bind fun header => ?_
  split
  · exact respects_fail _
  · exact respects_readBody _ _ _ _

end ByteStream

namespace WebSocket

/-- Sockets that differ in what was written only. -/
def Alike (ws ws' : WebSocket) : Prop :=
  ∃ output, ws' = { ws with stream := { ws.stream with output } }

theorem Alike.refl (ws : WebSocket) : ws.Alike ws := ⟨ws.stream.output, rfl⟩

theorem Alike.trans {ws₁ ws₂ ws₃ : WebSocket} (h : ws₁.Alike ws₂) (h' : ws₂.Alike ws₃) :
    ws₁.Alike ws₃ := by
  obtain ⟨_, rfl⟩ := h
  obtain ⟨output, rfl⟩ := h'
  exact ⟨output, rfl⟩

theorem Alike.stream {ws ws' : WebSocket} (h : ws.Alike ws') : ws.stream.Alike ws'.stream := by
  obtain ⟨output, rfl⟩ := h
  exact ⟨output, rfl⟩

theorem Alike.setStream {ws ws' : WebSocket} (h : ws.Alike ws') {s s' : ByteStream}
    (hs : s.Alike s') : ({ ws with stream := s } : WebSocket).Alike { ws' with stream := s' } := by
  obtain ⟨-, rfl⟩ := h
  obtain ⟨output, rfl⟩ := hs
  exact ⟨output, rfl⟩

theorem respects_onStream {α : Type} {x : Attempt ByteStream α}
    (hx : Respects ByteStream.Alike x) : Respects Alike (onStream x) := by
  intro ws ws' h
  obtain ⟨hresult, hstream⟩ := hx h.stream
  exact ⟨hresult, h.setStream hstream⟩

theorem respects_makeDataMessage (opcode : Opcode) (data : List UInt8) :
    Respects Alike (some <$> Attempt.ofExcept (makeDataMessage opcode data) :
      Attempt WebSocket (Option Message)) := by
  intro ws ws' h
  rw [run_ofExcept, run_ofExcept]
  exact ⟨rfl, h⟩

theorem respects_checkSizeLimit (incoming : ℕ) : Respects Alike (checkSizeLimit incoming) := by
  rintro ws _ ⟨output, rfl⟩
  have hover : ({ ws with stream := { ws.stream with output } } : WebSocket).Over incoming ↔
      ws.Over incoming := Iff.rfl
  rw [run_checkSizeLimit, run_checkSizeLimit]
  by_cases h : ws.Over incoming
  · rw [if_pos h, if_pos (hover.2 h)]
    exact ⟨rfl, output, rfl⟩
  · rw [if_neg h, if_neg (mt hover.1 h)]
    exact ⟨rfl, output, rfl⟩

theorem respects_recvWhole (opcode : Opcode) (payload : List UInt8) :
    Respects Alike (recvWhole opcode payload) :=
  (respects_checkSizeLimit _).bind fun _ => respects_makeDataMessage _ _

theorem respects_recvFirst (opcode : Opcode) (payload : List UInt8) :
    Respects Alike (recvFirst opcode payload) := by
  refine (respects_checkSizeLimit _).bind fun _ => (respects_modify ?_).bind fun _ =>
    respects_pure _
  rintro ws _ ⟨output, rfl⟩
  exact ⟨output, rfl⟩

theorem respects_recvLast : Respects Alike recvLast := by
  refine respects_get_bind ?_ fun ws => (respects_modify ?_).bind fun _ => ?_
  · rintro ws _ ⟨output, rfl⟩
    rfl
  · rintro ws _ ⟨output, rfl⟩
    exact ⟨output, rfl⟩
  · split
    · exact respects_fail _
    · refine (respects_modify ?_).bind fun _ => respects_makeDataMessage _ _
      rintro ws _ ⟨output, rfl⟩
      exact ⟨output, rfl⟩

theorem respects_recvContinuation (payload : List UInt8) (fin : Bool) :
    Respects Alike (recvContinuation payload fin) := by
  refine (respects_checkSizeLimit _).bind fun _ => (respects_modify ?_).bind fun _ => ?_
  · rintro ws _ ⟨output, rfl⟩
    exact ⟨output, rfl⟩
  · split
    · exact respects_recvLast
    · exact respects_pure _

theorem respects_recvPing (payload : List UInt8) : Respects Alike (recvPing payload) :=
  (respects_onStream (ByteStream.respects_writeFrame _ _ _)).bind fun _ => respects_pure _

theorem respects_recvClose (payload : List UInt8) : Respects Alike (recvClose payload) := by
  have hecho : Respects Alike (echoClose payload) := by
    refine respects_get_bind ?_ fun ws => ?_
    · rintro ws _ ⟨output, rfl⟩
      rfl
    · split
      · exact respects_pure _
      · exact respects_onStream (ByteStream.respects_writeFrame _ _ _)
  refine hecho.bind fun _ => (respects_modify ?_).bind fun _ => respects_pure _
  rintro ws _ ⟨output, rfl⟩
  exact ⟨output, rfl⟩

theorem respects_handleFrame (f : Frame) : Respects Alike (handleFrame f) := by
  refine respects_get_bind ?_ fun ws => ?_
  · rintro ws _ ⟨output, rfl⟩
    rfl
  · split
    · exact respects_recvPing _
    · exact respects_pure _
    · exact respects_recvClose _
    · exact respects_recvWhole _ _
    · exact respects_recvWhole _ _
    · exact respects_recvFirst _ _
    · exact respects_recvFirst _ _
    · exact respects_recvContinuation _ _
    · exact respects_fail _

end WebSocket

/-- **What was written has no influence on what is received.** -/
theorem recvLoop_alike {ws ws' : WebSocket} (h : ws.Alike ws') :
    (recvLoop ws).1 = (recvLoop ws').1 ∧ (recvLoop ws).2.Alike (recvLoop ws').2 := by
  -- induction on the bytes that are left
  induction hn : ws.stream.input.length using Nat.strong_induction_on generalizing ws ws' with
  | _ n ih =>
      have hcap : ws'.frameCap = ws.frameCap := by
        obtain ⟨output, rfl⟩ := h
        rfl
      obtain ⟨hresult, hstream⟩ := ByteStream.respects_readFrame ws.frameCap h.stream
      rcases hr : (readFrame ws.frameCap).run ws.stream with ⟨r, s⟩
      rcases hr' : (readFrame ws.frameCap).run ws'.stream with ⟨r', s'⟩
      rw [hr, hr'] at hresult hstream
      obtain rfl : r = r' := hresult
      rw [← hcap] at hr'
      cases r with
      | error e =>
          rw [recvLoop_of_read_error hr, recvLoop_of_read_error hr']
          change s.Alike s' at hstream
          obtain ⟨_, rfl⟩ := h
          obtain ⟨output, rfl⟩ := hstream
          exact ⟨rfl, output, rfl⟩
      | ok f =>
          obtain ⟨hsame, hnext⟩ := WebSocket.respects_handleFrame f (h.setStream hstream)
          rw [recvLoop_of_read_ok hr, recvLoop_of_read_ok hr']
          rcases hrun : (handleFrame f).run { ws with stream := s } with ⟨r, ws₁⟩
          rcases hrun' : (handleFrame f).run { ws' with stream := s' } with ⟨r', ws₁'⟩
          rw [hrun, hrun'] at hsame hnext
          obtain rfl : r = r' := hsame
          match r with
          | .error e => exact ⟨rfl, hnext⟩
          | .ok (some m) => exact ⟨rfl, hnext⟩
          | .ok none =>
              have hlt : ws₁.stream.input.length < n := by
                have hkept : ws₁.stream.input = s.input := by
                  simpa [hrun] using handleFrame_input f { ws with stream := s }
                rw [hkept, ← hn]
                exact readFrame_length_lt hr
              obtain ⟨hcall, hend⟩ := ih _ hlt hnext rfl
              dsimp only
              rw [hcall]
              exact ⟨rfl, hend⟩

theorem recvCall_alike {ws ws' : WebSocket} (h : ws.Alike ws') :
    (recvCall ws).1 = (recvCall ws').1 ∧ (recvCall ws).2.Alike (recvCall ws').2 := by
  have hclosed : ws'.closed = ws.closed := by
    obtain ⟨output, rfl⟩ := h
    rfl
  rw [recvCall, recvCall, hclosed]
  split_ifs
  · exact ⟨rfl, h⟩
  · exact recvLoop_alike h

/-! ### What is written -/

/-- What a socket replies to a message by itself. -/
def Message.autoReplies : Message → List Message
  | .ping payload => [.pong payload]
  | .close cf => [.close cf]
  | _ => []

/-- What a socket replies by itself in a call of `recv`. -/
def repliesTo : Except OxiHttpError (Option Message) → List Message
  | .ok (some m) => m.autoReplies
  | _ => []

@[simp] theorem repliesTo_error (e : OxiHttpError) : repliesTo (.error e) = [] := rfl

@[simp] theorem repliesTo_none : repliesTo (.ok none) = [] := rfl

/-- A Close. -/
def Message.isClose : Message → Bool
  | .close _ => true
  | _ => false

theorem Message.not_isClose_of_isData {m : Message} (h : m.isData = true) :
    m.isClose = false ∧ m.autoReplies = [] := by
  cases m with
  | text s => exact ⟨rfl, rfl⟩
  | binary b => exact ⟨rfl, rfl⟩
  | _ => cases h

/-- The frames on a stream that does not break carry these messages. -/
def Speaks (s : ByteStream) (msgs : List Message) : Prop :=
  s.room = none ∧ ∃ fs, Wrote s fs ∧ fs.map Frame.message = msgs.map some

namespace Speaks

variable {s : ByteStream} {msgs : List Message}

/-- One more frame carries one more message. -/
theorem push (h : Speaks s msgs) {f : Frame} (hlen : f.payload.length < 2 ^ 64) {m : Message}
    (hf : f.message = some m) : Speaks (s.push (frameBytes f)) (msgs ++ [m]) := by
  obtain ⟨hroom, fs, hwrote, hcarries⟩ := h
  have hroom' : (s.push (frameBytes f)).room = none := by
    rw [s.push_of_room hroom]
    exact hroom
  rcases wrote_push hwrote hlen with hmore | ⟨hbroken, -⟩
  · refine ⟨hroom', fs ++ [f], hmore, ?_⟩
    rw [List.map_append, List.map_append, hcarries, List.map_singleton, hf]
    rfl
  · rw [ByteStream.Broken, hroom'] at hbroken
    cases hbroken

theorem consumed (h : Speaks s msgs) {s' : ByteStream} (hs : Consumed s s') : Speaks s' msgs := by
  obtain ⟨hroom, fs, hwrote, hcarries⟩ := h
  obtain ⟨_, -, hs⟩ := hs
  exact ⟨by rw [hs]; exact hroom, fs, hwrote.of_eq (by rw [hs]) (by rw [hs]), hcarries⟩

theorem not_broken (h : Speaks s msgs) : ¬ s.Broken := by
  rw [ByteStream.Broken, h.1]
  intro hnone
  cases hnone

end Speaks

theorem makeDataMessage_isData {opcode : Opcode} {data : List UInt8} {m : Message}
    (h : (makeDataMessage opcode data).map some = .ok (some m)) : m.isData = true := by
  unfold makeDataMessage at h
  cases opcode with
  | text =>
      dsimp only at h
      split at h
      · cases h
        rfl
      · cases h
  | binary =>
      cases h
      rfl
  | _ => cases h

/-- A data frame delivers data. -/
theorem handleFrame_isData {f : Frame} {ws ws' : WebSocket} {m : Message}
    (hc : f.opcode.isControl = false) (hrun : (handleFrame f).run ws = (.ok (some m), ws')) :
    m.isData = true := by
  by_cases hs : f.opcode.isStart = true
  · by_cases hbuf : ws.fragBuf = []
    · rw [run_handleFrame_start hs hbuf, run_recvWhole, run_recvFirst] at hrun
      split at hrun <;> split at hrun
      · cases hrun
      · exact makeDataMessage_isData (Prod.mk.inj hrun).1
      · cases hrun
      · cases hrun
    · rw [run_handleFrame_unexpected hs hbuf] at hrun
      cases hrun
  · have hcont : f.opcode = .continuation := Opcode.eq_continuation (by simpa using hs) hc
    rw [run_handleFrame_continuation hcont, run_recvContinuation, run_recvLast] at hrun
    split at hrun
    · cases hrun
    · split at hrun
      · dsimp only at hrun
        cases ho : ws.fragOpcode with
        | none =>
            rw [ho] at hrun
            cases hrun
        | some opcode =>
            rw [ho] at hrun
            exact makeDataMessage_isData (Prod.mk.inj hrun).1
      · cases hrun

/-- What handling a frame writes, on a socket that has sent no Close: after one has come the socket
is closed. -/
structure Replied (msgs : List Message) (r : Except OxiHttpError (Option Message))
    (ws : WebSocket) : Prop where
  speaks : Speaks ws.stream (msgs ++ repliesTo r)
  closeSent : ws.closeSent = false
  closed : ∀ m, r = .ok (some m) → m.isClose = true → ws.closed = true

theorem Speaks.handleFrame {f : Frame} {ws ws' : WebSocket} {msgs : List Message}
    (h : Speaks ws.stream msgs) (hsent : ws.closeSent = false)
    (hlen : f.payload.length < 2 ^ 64) {r : Except OxiHttpError (Option Message)}
    (hrun : (handleFrame f).run ws = (r, ws')) : Replied msgs r ws' := by
  cases hc : f.opcode.isControl with
  | false =>
      obtain ⟨hstream, hsent', -⟩ := handleFrame_data hc hrun
      have hreplies : repliesTo r = [] ∧
          ∀ m, r = .ok (some m) → m.isClose = true → ws'.closed = true := by
        match r with
        | .error e => exact ⟨rfl, fun m hm => by cases hm⟩
        | .ok none => exact ⟨rfl, fun m hm => by cases hm⟩
        | .ok (some m) =>
            obtain ⟨hclose, hnone⟩ := Message.not_isClose_of_isData (handleFrame_isData hc hrun)
            refine ⟨hnone, ?_⟩
            rintro _ ⟨⟩ hm
            rw [hclose] at hm
            cases hm
      refine ⟨?_, hsent'.trans hsent, hreplies.2⟩
      rw [hreplies.1, List.append_nil, hstream]
      exact h
  | true =>
      cases ho : f.opcode with
      | ping =>
          obtain ⟨e, he⟩ := run_recvPing ws f.payload
          have hpong : Speaks (ws.pushFrame .pong f.payload).stream (msgs ++ [.pong f.payload]) :=
            h.push (f := ⟨true, .pong, f.payload⟩) hlen rfl
          rw [run_handleFrame_ping ho, he, if_neg hpong.not_broken] at hrun
          cases hrun
          refine ⟨hpong, hsent, ?_⟩
          rintro _ ⟨⟩ ⟨⟩
      | pong =>
          rw [run_handleFrame_pong ho] at hrun
          cases hrun
          refine ⟨?_, hsent, ?_⟩
          · have hnothing : repliesTo (.ok (some (.pong f.payload))) = [] := rfl
            rw [hnothing, List.append_nil]
            exact h
          · rintro _ ⟨⟩ ⟨⟩
      | close =>
          obtain ⟨e, he⟩ := run_recvClose ws f.payload hsent
          have hecho : Speaks (ws.pushFrame .close f.payload).stream
              (msgs ++ [.close (parseCloseFrame f.payload)]) :=
            h.push (f := ⟨true, .close, f.payload⟩) hlen rfl
          rw [run_handleFrame_close ho, he, if_neg hecho.not_broken] at hrun
          cases hrun
          exact ⟨hecho, hsent, fun _ _ _ => rfl⟩
      | _ => simp [ho, Opcode.isControl] at hc

/-- **What a call of `recv` writes.** -/
theorem Speaks.recvCall {ws : WebSocket} {msgs : List Message} (h : Speaks ws.stream msgs)
    (hsent : ws.closed = true ∨ ws.closeSent = false) :
    Speaks (recvCall ws).2.stream (msgs ++ repliesTo (recvCall ws).1.result) ∧
      ((recvCall ws).1.result = .ok none ∨
        (recvCall ws).2.closeSent = false ∧
          ∀ m, (recvCall ws).1.result = .ok (some m) → m.isClose = true →
            (recvCall ws).2.closed = true) := by
  rw [OxiHttp.recvCall]
  split_ifs with hclosed
  · refine ⟨?_, .inl rfl⟩
    rw [repliesTo_none, List.append_nil]
    exact h
  · have hloop := recvLoop_rule
      (I := fun _ ws => Speaks ws.stream msgs ∧ ws.closeSent = false)
      (Q := fun _ r ws => Replied msgs r ws)
      (by
        rintro _ ws e s ⟨hI, hsent⟩ hr
        refine ⟨?_, hsent, fun m hm => by cases hm⟩
        rw [repliesTo_error, List.append_nil]
        exact hI.consumed ((readFrame_consumed _).of_run hr))
      (by
        rintro _ ws f s ⟨hI, hsent⟩ hr r ws' hrun
        have hread : Speaks ({ ws with stream := s } : WebSocket).stream msgs :=
          hI.consumed ((readFrame_consumed _).of_run hr)
        have hJ := hread.handleFrame hsent (readFrame_payload hr).2 hrun
        rcases r with e | _ | m
        · exact hJ
        -- the loop goes on
        · have hspeaks := hJ.speaks
          rw [repliesTo_none, List.append_nil] at hspeaks
          exact ⟨hspeaks, hJ.closeSent⟩
        · exact hJ)
      [] ws ⟨h, hsent.resolve_left hclosed⟩
    exact ⟨hloop.speaks, .inr ⟨hloop.closeSent, hloop.closed⟩⟩

/-! ### The loop of a handler -/

/-- Messages are sent one after the other. -/
def sendAll : List Message → Attempt WebSocket Unit
  | [] => pure ()
  | m :: ms => do
      send m
      sendAll ms

theorem flag_of_not_isClose (ws : WebSocket) {m : Message} (h : m.isClose = false) :
    ws.flag m = ws := by
  cases m with
  | close cf => cases h
  | _ => rfl

theorem closed_flag {ws : WebSocket} (h : ws.closed = true) (m : Message) :
    (ws.flag m).closed = true := by
  cases m with
  | close cf => rfl
  | _ => exact h

theorem run_sendAll_cons {ws : WebSocket} (hroom : ws.stream.room = none) (m : Message)
    (ms : List Message) :
    (sendAll (m :: ms)).run ws =
      (sendAll ms).run { ws.flag m with stream := ws.stream.push (frameBytes m.frame) } := by
  obtain ⟨e, he⟩ := run_send_eq m ws
  have hunbroken : ¬ (ws.stream.push (frameBytes m.frame)).Broken := by
    rw [ws.stream.push_of_room hroom, ByteStream.Broken, hroom]
    intro hnone
    cases hnone
  rw [if_neg hunbroken] at he
  exact Attempt.bind_ok he

theorem sendAll_input (ms : List Message) (ws : WebSocket) :
    ((sendAll ms).run ws).2.stream.input = ws.stream.input := by
  induction ms generalizing ws with
  | nil => rfl
  | cons m ms ih =>
      obtain ⟨e, he⟩ := run_send_eq m ws
      by_cases hbroken : (ws.stream.push (frameBytes m.frame)).Broken
      · rw [if_pos hbroken] at he
        rw [sendAll, Attempt.bind_error he]
        exact ByteStream.push_input _ _
      · rw [if_neg hbroken] at he
        rw [sendAll, Attempt.bind_ok he, ih]
        exact ByteStream.push_input _ _

/-- Messages that are sent are carried by frames. -/
theorem Speaks.sendAll {ws : WebSocket} {msgs : List Message} (h : Speaks ws.stream msgs)
    {ms : List Message} (hlen : ∀ m ∈ ms, m.frame.payload.length < 2 ^ 64) :
    Speaks ((sendAll ms).run ws).2.stream (msgs ++ ms) := by
  induction ms generalizing ws msgs with
  | nil =>
      rw [List.append_nil]
      exact h
  | cons m ms ih =>
      obtain ⟨hm, hms⟩ := List.forall_mem_cons.1 hlen
      rw [run_sendAll_cons h.1, List.append_cons]
      exact ih (h.push hm (message_frame m)) hms

theorem closed_sendAll {ws : WebSocket} (hroom : ws.stream.room = none)
    (h : ws.closed = true) (ms : List Message) : ((sendAll ms).run ws).2.closed = true := by
  induction ms generalizing ws with
  | nil => exact h
  | cons m ms ih =>
      rw [run_sendAll_cons hroom]
      refine ih ?_ (closed_flag h m)
      rw [ws.stream.push_of_room hroom]
      exact hroom

/-- Sending succeeds, and but for a Close it does no more than write. -/
theorem run_sendAll {ws : WebSocket} (hroom : ws.stream.room = none) (ms : List Message) :
    ((sendAll ms).run ws).1 = .ok () ∧
      ((∀ m ∈ ms, m.isClose = false) → ws.Alike ((sendAll ms).run ws).2) := by
  induction ms generalizing ws with
  | nil => exact ⟨rfl, fun _ => .refl ws⟩
  | cons m ms ih =>
      rw [run_sendAll_cons hroom]
      have hroom' : (ws.stream.push (frameBytes m.frame)).room = none := by
        rw [ws.stream.push_of_room hroom]
        exact hroom
      obtain ⟨hok, halike⟩ := @ih { ws.flag m with
        stream := ws.stream.push (frameBytes m.frame) } hroom'
      refine ⟨hok, fun hclose => ?_⟩
      obtain ⟨hm, hms⟩ := List.forall_mem_cons.1 hclose
      have hwritten : ws.Alike { ws.flag m with
          stream := ws.stream.push (frameBytes m.frame) } := by
        rw [flag_of_not_isClose ws hm, ws.stream.push_of_room hroom]
        exact ⟨_, rfl⟩
      exact hwritten.trans (halike hms)

section Handler

variable {σ : Type} (handler : σ → Message → σ × List Message)

/-- `while let Ok(Some(msg)) = socket.recv().await`, with what the handler sends for every message:
the messages it gets, and the socket that is left. -/
def converse (st : σ) (ws : WebSocket) : List Message × WebSocket :=
  match _h : (recvCall ws).1.result with
  | .ok (some m) =>
      match _h' : (sendAll (handler st m).2).run (recvCall ws).2 with
      | (.error _, ws') => ([m], ws')
      | (.ok (), ws') =>
          let (msgs, ws'') := converse (handler st m).1 ws'
          (m :: msgs, ws'')
  | _ => ([], (recvCall ws).2)
termination_by ws.stream.input.length
decreasing_by
  have hkept := sendAll_input (handler st m).2 (recvCall ws).2
  rw [_h'] at hkept
  rw [hkept]
  exact recvCall_input_lt _h

/-- What the peer is to hear for the messages. -/
def answers : σ → List Message → List Message
  | _, [] => []
  | st, m :: ms => m.autoReplies ++ (handler st m).2 ++ answers (handler st m).1 ms

variable {handler} {st : σ} {ws : WebSocket}

theorem converse_end (h : ∀ m, (recvCall ws).1.result ≠ .ok (some m)) :
    converse handler st ws = ([], (recvCall ws).2) := by
  rw [converse]
  split
  case h_1 m hm => exact absurd hm (h m)
  case h_2 => rfl

/-- A peer that has ended its side has no more to say. -/
theorem converse_nothing (h : ws.stream.input = []) : (converse handler st ws).1 = [] := by
  rw [converse_end]
  intro m hm
  rw [recvCall] at hm
  split_ifs at hm
  · cases hm
  · rw [recvLoop_of_read_error (readFrame_nil h)] at hm
    cases hm

theorem converse_some {m : Message} (h : (recvCall ws).1.result = .ok (some m))
    (hroom : (recvCall ws).2.stream.room = none) :
    converse handler st ws =
      (m :: (converse handler (handler st m).1
          ((sendAll (handler st m).2).run (recvCall ws).2).2).1,
        (converse handler (handler st m).1
          ((sendAll (handler st m).2).run (recvCall ws).2).2).2) := by
  have hok := (run_sendAll hroom (handler st m).2).1
  rw [converse]
  split
  case h_1 m' hm =>
      obtain rfl : m' = m := by
        rw [h] at hm
        cases hm
        rfl
      split
      case h_1 hsend =>
          rw [hsend] at hok
          cases hok
      case h_2 hsend => rw [hsend]
  case h_2 hne => exact absurd h (hne m)

/-- **What the peer hears** is what it is to hear for the messages that the handler gets. -/
theorem Speaks.converse
    (hclose : ∀ st m, m.isClose = false → ∀ a ∈ (handler st m).2, a.isClose = false)
    {msgs : List Message} (h : Speaks ws.stream msgs)
    (hsent : ws.closed = true ∨ ws.closeSent = false)
    (hlen : ∀ a ∈ answers handler st (converse handler st ws).1,
      a.frame.payload.length < 2 ^ 64) :
    Speaks (converse handler st ws).2.stream
      (msgs ++ answers handler st (converse handler st ws).1) := by
  induction hn : ws.stream.input.length using Nat.strong_induction_on generalizing ws st msgs with
  | _ n ih =>
      obtain ⟨hcall, hflags⟩ := h.recvCall hsent
      match hr : (OxiHttp.recvCall ws).1.result with
      | .error e =>
          rw [hr] at hcall
          rw [converse_end fun m hm => by rw [hr] at hm; cases hm]
          exact hcall
      | .ok none =>
          rw [hr] at hcall
          rw [converse_end fun m hm => by rw [hr] at hm; cases hm]
          exact hcall
      | .ok (some m) =>
          rw [hr] at hcall hflags
          obtain ⟨hsent', hclosed⟩ := hflags.resolve_left fun hnone => by cases hnone
          rw [converse_some hr hcall.1] at hlen ⊢
          dsimp only at hlen ⊢
          rw [answers] at hlen ⊢
          obtain ⟨hnow, hlater⟩ := List.forall_mem_append.1 hlen
          have hwritten := hcall.sendAll (List.forall_mem_append.1 hnow).2
          -- a Close is answered on a socket that is closed
          have hflags' : ((OxiHttp.sendAll (handler st m).2).run
              (OxiHttp.recvCall ws).2).2.closed = true ∨
              ((OxiHttp.sendAll (handler st m).2).run
                (OxiHttp.recvCall ws).2).2.closeSent = false := by
            cases hm : m.isClose with
            | true => exact .inl (closed_sendAll hcall.1 (hclosed m rfl hm) _)
            | false =>
                obtain ⟨output, halike⟩ := (run_sendAll hcall.1 _).2 (hclose st m hm)
                rw [halike]
                exact .inr hsent'
          have hlt : ((OxiHttp.sendAll (handler st m).2).run
              (OxiHttp.recvCall ws).2).2.stream.input.length < n := by
            rw [sendAll_input, ← hn]
            exact recvCall_input_lt hr
          have hnext := ih _ hlt hwritten hflags' hlater rfl
          rw [List.append_assoc, List.append_assoc] at hnext
          rw [List.append_assoc]
          exact hnext

/-- A call that delivers a message on a socket that does not break and has sent no Close. -/
theorem recvCall_some (hroom : ws.stream.room = none) (hsent : ws.closeSent = false)
    {m : Message} (h : (recvCall ws).1.result = .ok (some m)) :
    (recvCall ws).2.stream.room = none ∧ (recvCall ws).2.closeSent = false := by
  obtain ⟨hsame, output, halike⟩ := recvCall_alike
    (show ws.Alike { ws with stream := { ws.stream with output := [] } } from ⟨[], rfl⟩)
  have hfresh : Speaks ({ ws with stream := { ws.stream with output := [] } } : WebSocket).stream
      [] := ⟨hroom, [], wrote_nil rfl, rfl⟩
  obtain ⟨hspeaks, hflags⟩ := hfresh.recvCall (.inr hsent)
  rw [← hsame, h, halike] at hflags
  rw [halike] at hspeaks
  exact ⟨hspeaks.1, (hflags.resolve_left fun hnone => by cases hnone).1⟩

/-- **What the handler gets** is what calls of `recv` alone would give. -/
theorem Delivers.converse
    (hclose : ∀ st m, m.isClose = false → ∀ a ∈ (handler st m).2, a.isClose = false)
    {ws₀ ws' : WebSocket} {msgs : List Message} (h : Delivers ws₀ msgs ws')
    (hmsgs : ∀ m ∈ msgs, m.isClose = false) (halike : ws₀.Alike ws)
    (hroom : ws.stream.room = none) (hsent : ws.closeSent = false) :
    ∃ st' ws'', ws'.Alike ws'' ∧ converse handler st ws =
      (msgs ++ (converse handler st' ws'').1, (converse handler st' ws'').2) := by
  induction msgs generalizing ws₀ ws st with
  | nil =>
      obtain ⟨-, rfl⟩ := h
      exact ⟨st, ws, halike, rfl⟩
  | cons m msgs ih =>
      obtain ⟨hm, hmsgs⟩ := List.forall_mem_cons.1 hmsgs
      rcases hcall : recvCall ws₀ with ⟨⟨frames, result⟩, ws₁⟩
      simp only [Delivers, List.length_cons, recvs, hcall, List.map_cons, List.cons.injEq] at h
      obtain ⟨⟨rfl, hresults⟩, hws⟩ := h
      obtain ⟨hsame, hnext⟩ := recvCall_alike halike
      rw [hcall] at hsame hnext
      have hr : (recvCall ws).1.result = .ok (some m) := by rw [← hsame]
      obtain ⟨hroom₁, hsent₁⟩ := recvCall_some hroom hsent hr
      have hwritten := (run_sendAll hroom₁ (handler st m).2).2 (hclose st m hm)
      have hkept : ((sendAll (handler st m).2).run (recvCall ws).2).2.stream.room = none ∧
          ((sendAll (handler st m).2).run (recvCall ws).2).2.closeSent = false := by
        obtain ⟨output, hwritten⟩ := hwritten
        rw [hwritten]
        exact ⟨hroom₁, hsent₁⟩
      obtain ⟨st', ws'', hend, heq⟩ := ih ⟨hresults, hws⟩ hmsgs (hnext.trans hwritten) hkept.1
        hkept.2
      refine ⟨st', ws'', hend, ?_⟩
      rw [converse_some hr hroom₁, heq]
      rfl

/-- A conforming peer that has said all it says does not close. -/
theorem Talk.not_isClose (talk : Talk) : ∀ m ∈ talk.delivery, m.isClose = false := by
  have hcontrol : ∀ c : Control, c.message.isClose = false := by
    rintro ⟨isPing, payload, short⟩
    cases isPing <;> rfl
  have hcontrols : ∀ cs : List Control, ∀ m ∈ cs.map Control.message, m.isClose = false := by
    intro cs m hm
    obtain ⟨c, -, rfl⟩ := List.mem_map.1 hm
    exact hcontrol c
  intro m hm
  rcases List.mem_append.1 hm with hm | hm
  · obtain ⟨msg, -, hm⟩ := List.mem_flatMap.1 hm
    rcases List.mem_append.1 hm with hm | hm
    · exact hcontrols _ m hm
    · rw [List.mem_singleton.1 hm]
      exact (Message.not_isClose_of_isData msg.carries.isData).1
  · exact hcontrols _ m hm

variable (handler)

/-- **A handler is a transducer.**  Whatever it does, as long as it answers with a Close to a Close
only, the frames that the peer can read carry, for the messages that the handler gets, the replies
of the socket and its own answers; and what it gets from a conforming peer is what that has said. -/
theorem converse_transduces
    (hclose : ∀ st m, m.isClose = false → ∀ a ∈ (handler st m).2, a.isClose = false) (st : σ)
    (maxMessageSize : UInt64) {stream : ByteStream} (hroom : stream.room = none)
    (hout : stream.output = []) :
    let run := converse handler st
      (WebSocket.setMaxMessageSize maxMessageSize.toNat (.new stream))
    ((∀ a ∈ answers handler st run.1, a.frame.payload.length < 2 ^ 64) →
      (wireFrames run.2.stream.output).map Frame.message =
        (answers handler st run.1).map some) ∧
    ∀ (talk : Talk) (sent : List (MaskKey × Frame)),
      (∀ m ∈ talk.messages, (contentOf m.fragments).length ≤ maxMessageSize.toNat) →
      sent.map Prod.snd = talk.frames → stream.input = sentBytes sent → run.1 = talk.delivery := by
  let ws := WebSocket.setMaxMessageSize maxMessageSize.toNat (.new stream)
  refine ⟨fun hlen => ?_, fun talk sent hsize hsent hin => ?_⟩
  · have hfresh : Speaks ws.stream [] := ⟨hroom, [], wrote_nil hout, rfl⟩
    obtain ⟨-, fs, hwrote, hcarries⟩ := hfresh.converse hclose (.inr rfl) hlen
    rw [hwrote.wireFrames]
    exact hcarries
  · have hmax : ws.maxMessageSize < 2 ^ 64 := maxMessageSize.toNat_lt
    have hinput : ws.stream.input = sentBytes sent ++ [] := hin.trans (List.append_nil _).symm
    have htalk := delivers_talk hmax rfl hroom ⟨rfl, rfl⟩ talk hsize hsent hinput
    obtain ⟨st', ws'', hend, heq⟩ : ∃ st' ws'', (ws.after [] talk.replies).Alike ws'' ∧
        converse handler st ws =
          (talk.delivery ++ (converse handler st' ws'').1, (converse handler st' ws'').2) :=
      htalk.converse hclose talk.not_isClose (.refl ws) hroom rfl
    have hended : ws''.stream.input = [] := by
      obtain ⟨output, rfl⟩ := hend
      rfl
    change (converse handler st ws).1 = talk.delivery
    rw [heq, converse_nothing hended, List.append_nil]

end Handler

/-- The handler of the documentation. -/
def echo (_ : Unit) (m : Message) : Unit × List Message := ((), [m])

/-- The stream of a peer that says a short talk and ends its side. -/
def shortTalkStream : ByteStream where
  input := sentBytes (shortTalk.frames.map fun f => (⟨1, 2, 3, 4⟩, f))

/-- The Ping of the talk is answered twice, by the socket and by the echo. -/
theorem converse_transduces_echo :
    (wireFrames (converse echo ()
      (WebSocket.setMaxMessageSize 3 (.new shortTalkStream))).2.stream.output).map Frame.message =
      [some (.pong [0x70]), some (.ping [0x70]), some (.text "hey"), some (.binary []),
        some (.pong [])] := by
  obtain ⟨hwire, hgets⟩ := converse_transduces echo
    (fun _ _ hm _ ha => by rw [List.mem_singleton.1 ha]; exact hm) () 3
    (show shortTalkStream.room = none from rfl) (show shortTalkStream.output = [] from rfl)
  rw [hgets shortTalk _ (by decide) rfl rfl] at hwire
  exact hwire (by decide)

end OxiHttp
