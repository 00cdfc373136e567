/-
**Reassembly of fragmented WebSocket messages.**

RFC 6455 §5.4 splits a message into a start frame and continuation frames, the last of which has
FIN set; control frames may stand between them, other data frames may not.  The receiver of that
protocol is the two-state machine `OxiHttp.Assembly` below.  The code keeps its state in two
fields, a buffer and an opcode, and takes the buffer alone for the sign of a message in progress.
The two agree as long as no empty fragment is followed by the wrong frame and no continuation
without FIN arrives out of turn, and this module shows what the agreement gives for whole runs.

Main definitions:

* `OxiHttp.Assembly`, `OxiHttp.assembly` — the receiver of the protocol, and its state after a
  sequence of frames;
* `OxiHttp.Violates` — a data frame out of turn;
* `OxiHttp.IsFragmentation` — the frames of one message;
* `OxiHttp.recvs` — a series of calls of `recv`;
* `OxiHttp.ReassemblySound` — what is delivered is the content of one message, and a frame out of
  turn fails the call and ends the delivery of messages;
* `OxiHttp.Benign` — the frames on which the buffer is a faithful sign.

Main results:

* `OxiHttp.handleFrame_matches` — one frame keeps the agreement;
* `OxiHttp.reassemblySound_of_benign` — on benign frames every run is sound;
* `OxiHttp.recvs_read_initial` — what a run reads is an initial part of what the peer sent.
-/

import OxiHttp.Positions
import OxiHttp.WsSocket
import Mathlib.Data.List.Induction

set_option relaxedAutoImplicit false
set_option autoImplicit false

namespace OxiHttp

/-! ### The protocol -/

/-- The receiver of RFC 6455 §5.4: no message in progress, or one that started with the given
opcode and whose fragments so far have the given content. -/
inductive Assembly where
  | idle
  | collecting (opcode : Opcode) (data : List UInt8)
deriving DecidableEq, Repr

/-- The receiver after one more frame.  A frame out of turn is ignored. -/
def Assembly.next (a : Assembly) (f : Frame) : Assembly :=
  match a with
  | .idle => if f.opcode.isStart && !f.fin then .collecting f.opcode f.payload else .idle
  | .collecting opcode data =>
      if f.opcode = .continuation then
        if f.fin then .idle else .collecting opcode (data ++ f.payload)
      else .collecting opcode data

/-- The receiver after a sequence of frames. -/
def assembly (read : List Frame) : Assembly := read.foldl Assembly.next .idle

@[simp] theorem assembly_nil : assembly [] = .idle := rfl

@[simp] theorem assembly_concat (read : List Frame) (f : Frame) :
    assembly (read ++ [f]) = (assembly read).next f := by simp [assembly]

/-- A data frame out of turn: a start frame while a message is in progress, or a continuation
while none is. -/
def Violates (a : Assembly) (f : Frame) : Prop :=
  match a with
  | .idle => f.opcode = .continuation
  | .collecting _ _ => f.opcode.isStart = true

instance (a : Assembly) (f : Frame) : Decidable (Violates a f) := by
  unfold Violates
  cases a <;> infer_instance

/-- Some frame of the sequence was out of turn when it came. -/
def Violated (read : List Frame) : Prop := ∃ a f b, read = a ++ f :: b ∧ Violates (assembly a) f

/-- The data frames of a sequence. -/
def dataFrames (read : List Frame) : List Frame := read.filter fun f => !f.opcode.isControl

/-- The frames of a message in progress: a start frame and continuations, none with FIN. -/
def IsPartial (opcode : Opcode) (data : List UInt8) (frames : List Frame) : Prop :=
  ∃ start conts, frames = start :: conts ∧ start.opcode = opcode ∧ opcode.isStart = true ∧
    (∀ f ∈ conts, f.opcode = .continuation) ∧ (∀ f ∈ frames, f.fin = false) ∧
    frames.flatMap Frame.payload = data

/-- The frames of a complete message: a start frame (Text or Binary) and the continuations that
follow it, FIN on the last of them only, with the content of the message as their payloads. -/
def IsFragmentation (opcode : Opcode) (data : List UInt8) (frames : List Frame) : Prop :=
  ∃ start conts, frames = start :: conts ∧ start.opcode = opcode ∧ opcode.isStart = true ∧
    (∀ f ∈ conts, f.opcode = .continuation) ∧
    (∃ init last, frames = init ++ [last] ∧ (∀ f ∈ init, f.fin = false) ∧ last.fin = true) ∧
    frames.flatMap Frame.payload = data

/-- The message is a data message with this opcode and content. -/
def Message.Carries (m : Message) (opcode : Opcode) (data : List UInt8) : Prop :=
  match m with
  | .text s => opcode = .text ∧ Utf8.bytes s = data
  | .binary b => opcode = .binary ∧ b = data
  | _ => False

theorem Message.Carries.isData {m : Message} {opcode : Opcode} {data : List UInt8}
    (h : m.Carries opcode data) : m.isData = true := by
  cases m <;> first | rfl | exact h.elim

/-! ### Frames of the message in progress -/

/-- Control frames do not move the receiver. -/
theorem Assembly.next_control (a : Assembly) {f : Frame} (h : f.opcode.isControl = true) :
    a.next f = a := by
  have hs := Opcode.isControl_not_start h
  have hc := Opcode.isControl_ne_continuation h
  cases a <;> simp [Assembly.next, hs, hc]

/-- Control frames are never out of turn. -/
theorem not_violates_control (a : Assembly) {f : Frame} (h : f.opcode.isControl = true) :
    ¬ Violates a f := by
  cases a with
  | idle => exact Opcode.isControl_ne_continuation h
  | collecting opcode data => simp [Violates, Opcode.isControl_not_start h]

theorem dataFrames_concat_control {read : List Frame} {f : Frame}
    (h : f.opcode.isControl = true) : dataFrames (read ++ [f]) = dataFrames read := by
  simp [dataFrames, h]

theorem dataFrames_concat_data {read : List Frame} {f : Frame}
    (h : f.opcode.isControl = false) : dataFrames (read ++ [f]) = dataFrames read ++ [f] := by
  simp [dataFrames, h]

theorem IsPartial.append {opcode : Opcode} {data : List UInt8} {frames : List Frame}
    (h : IsPartial opcode data frames) {f : Frame} (hc : f.opcode = .continuation)
    (hfin : f.fin = false) : IsPartial opcode (data ++ f.payload) (frames ++ [f]) := by
  obtain ⟨start, conts, rfl, hop, hstart, hconts, hnofin, hdata⟩ := h
  refine ⟨start, conts ++ [f], rfl, hop, hstart, ?_, ?_, by simp [← hdata]⟩
  · intro g hg
    rcases List.mem_append.1 hg with hg | hg
    · exact hconts g hg
    · rw [List.mem_singleton.1 hg, hc]
  · intro g hg
    rcases List.mem_append.1 hg with hg | hg
    · exact hnofin g hg
    · rw [List.mem_singleton.1 hg, hfin]

theorem IsPartial.complete {opcode : Opcode} {data : List UInt8} {frames : List Frame}
    (h : IsPartial opcode data frames) {f : Frame} (hc : f.opcode = .continuation)
    (hfin : f.fin = true) : IsFragmentation opcode (data ++ f.payload) (frames ++ [f]) := by
  obtain ⟨start, conts, rfl, hop, hstart, hconts, hnofin, hdata⟩ := h
  refine ⟨start, conts ++ [f], rfl, hop, hstart, ?_, ⟨start :: conts, f, rfl, hnofin, hfin⟩,
    by simp [← hdata]⟩
  intro g hg
  rcases List.mem_append.1 hg with hg | hg
  · exact hconts g hg
  · rw [List.mem_singleton.1 hg, hc]

theorem isFragmentation_single {f : Frame} (hstart : f.opcode.isStart = true)
    (hfin : f.fin = true) : IsFragmentation f.opcode f.payload [f] :=
  ⟨f, [], rfl, rfl, hstart, by simp, ⟨[], f, rfl, by simp, hfin⟩, by simp⟩

/-- While a message is in progress and nothing was out of turn, the last data frames are the
fragments of that message. -/
theorem isPartial_of_collecting : ∀ {read : List Frame}, ¬ Violated read →
    ∀ {opcode data}, assembly read = .collecting opcode data →
      ∃ earlier frames, dataFrames read = earlier ++ frames ∧ IsPartial opcode data frames := by
  intro read
  -- induction on the frames read, the last one split off as `recv` reads them
  induction read using List.reverseRecOn with
  | nil =>
      intro _ opcode data h
      cases h
  | append_singleton read f ih =>
      intro hv opcode data h
      have hv' : ¬ Violated read := by
        rintro ⟨a, g, b, rfl, hg⟩
        exact hv ⟨a, g, b ++ [f], by simp, hg⟩
      have hf : ¬ Violates (assembly read) f := fun hf => hv ⟨read, f, [], rfl, hf⟩
      rw [assembly_concat] at h
      by_cases hctl : f.opcode.isControl = true
      · rw [Assembly.next_control _ hctl] at h
        obtain ⟨earlier, frames, hd, hp⟩ := ih hv' h
        exact ⟨earlier, frames, by rw [dataFrames_concat_control hctl, hd], hp⟩
      · rw [Bool.not_eq_true] at hctl
        cases ha : assembly read with
        | idle =>
            rw [ha] at h
            simp only [Assembly.next] at h
            split at h
            case isTrue hs =>
                rw [Bool.and_eq_true, Bool.not_eq_true'] at hs
                cases h
                refine ⟨dataFrames read, [f], dataFrames_concat_data hctl, f, [], rfl, rfl, hs.1,
                  by simp, ?_, by simp⟩
                intro g hg
                rw [List.mem_singleton.1 hg, hs.2]
            case isFalse => cases h
        | collecting opcode' data' =>
            obtain ⟨earlier, frames, hd, hp⟩ := ih hv' ha
            rw [ha] at h hf
            -- a start frame would have been out of turn
            have hs : f.opcode.isStart = false := by simpa [Violates] using hf
            have hcont : f.opcode = .continuation := Opcode.eq_continuation hs hctl
            simp only [Assembly.next, if_pos hcont] at h
            split at h
            case isTrue => cases h
            case isFalse hfin =>
                cases h
                refine ⟨earlier, frames ++ [f], ?_, hp.append hcont (by simpa using hfin)⟩
                rw [dataFrames_concat_data hctl, hd, List.append_assoc]

/-- The frame ends a message with this opcode and content. -/
def Completes (a : Assembly) (f : Frame) (opcode : Opcode) (data : List UInt8) : Prop :=
  f.fin = true ∧ match a with
  | .idle => f.opcode.isStart = true ∧ f.opcode = opcode ∧ f.payload = data
  | .collecting opcode' data' =>
      f.opcode = .continuation ∧ opcode' = opcode ∧ data' ++ f.payload = data

/-- A frame that ends a message is the last one of its fragmentation. -/
theorem isFragmentation_of_completes {read : List Frame} {f : Frame} {opcode : Opcode}
    {data : List UInt8} (hv : ¬ Violated read) (h : Completes (assembly read) f opcode data) :
    ∃ earlier frames, dataFrames (read ++ [f]) = earlier ++ frames ∧
      IsFragmentation opcode data frames := by
  obtain ⟨hfin, h⟩ := h
  cases ha : assembly read with
  | idle =>
      rw [ha] at h
      obtain ⟨hstart, rfl, rfl⟩ := h
      exact ⟨_, [f], dataFrames_concat_data (Opcode.isStart_not_control hstart),
        isFragmentation_single hstart hfin⟩
  | collecting opcode' data' =>
      rw [ha] at h
      obtain ⟨hcont, rfl, rfl⟩ := h
      obtain ⟨earlier, frames, hd, hp⟩ := isPartial_of_collecting hv ha
      refine ⟨earlier, frames ++ [f], ?_, hp.complete hcont hfin⟩
      rw [dataFrames_concat_data (by rw [hcont]; rfl), hd, List.append_assoc]

/-! ### One frame -/

/-- The two fields of the code agree with the receiver of the protocol. -/
def Matches (a : Assembly) (ws : WebSocket) : Prop :=
  match a with
  | .idle => ws.fragBuf = [] ∧ ws.fragOpcode = none
  | .collecting opcode data => ws.fragBuf = data ∧ ws.fragOpcode = some opcode

/-- A frame on which the emptiness of the buffer tells what the code takes it to tell: not a
continuation without FIN while no message is in progress, and not a start frame while the message
in progress has no content yet. -/
def Tells (a : Assembly) (f : Frame) : Prop :=
  match a with
  | .idle => ¬ (f.opcode = .continuation ∧ f.fin = false)
  | .collecting _ data => ¬ (f.opcode.isStart = true ∧ data = [])

instance (a : Assembly) (f : Frame) : Decidable (Tells a f) := by
  unfold Tells
  cases a <;> infer_instance

/-- What `handleFrame` may do with a frame that comes in the state `a` of the protocol. -/
def Sound (a : Assembly) (f : Frame) (r : Except OxiHttpError (Option Message))
    (ws : WebSocket) : Prop :=
  match r with
  | .error _ => Violates a f ∨ ws.closed = true ∨ Matches (a.next f) ws
  | .ok none => ¬ Violates a f ∧ Matches (a.next f) ws
  | .ok (some m) => ¬ Violates a f ∧ (ws.closed = true ∨ Matches (a.next f) ws) ∧
      ∀ opcode data, m.Carries opcode data → Completes a f opcode data

/-- A message made from data carries that data under that opcode. -/
theorem makeDataMessage_carries {opcode opcode' : Opcode} {data data' : List UInt8} {m : Message}
    (h : makeDataMessage opcode data = .ok m) (hm : m.Carries opcode' data') :
    opcode = opcode' ∧ data = data' := by
  cases opcode with
  | text =>
      simp only [makeDataMessage] at h
      split at h
      case h_1 s hs =>
          cases h
          obtain ⟨rfl, rfl⟩ := hm
          exact ⟨rfl, (Utf8.bytes_of_fromUtf8 hs).symm⟩
      case h_2 => cases h
  | binary =>
      cases h
      obtain ⟨rfl, rfl⟩ := hm
      exact ⟨rfl, rfl⟩
  | _ => cases h

section OneFrame

variable {a : Assembly} {ws : WebSocket}

/-- Making the message a frame completes, on a socket that agrees with the state after it. -/
theorem sound_makeDataMessage {f : Frame} {opcode : Opcode} {data : List UInt8} {ws' : WebSocket}
    (hv : ¬ Violates a f) (hc : Completes a f opcode data) (hm : Matches (a.next f) ws') :
    Sound a f ((makeDataMessage opcode data).map some) ws' := by
  cases h : makeDataMessage opcode data with
  | error e => exact .inr (.inr hm)
  | ok m =>
      refine ⟨hv, .inr hm, ?_⟩
      intro opcode' data' hcar
      obtain ⟨rfl, rfl⟩ := makeDataMessage_carries h hcar
      exact hc

theorem Matches.of_control {f : Frame} {ws' : WebSocket} (h : Matches a ws)
    (hc : f.opcode.isControl = true) (hbuf : ws'.fragBuf = ws.fragBuf)
    (hop : ws'.fragOpcode = ws.fragOpcode) : Matches (a.next f) ws' := by
  rw [Assembly.next_control a hc]
  cases a <;> simpa [Matches, hbuf, hop] using h

/-- A control frame neither violates the protocol nor delivers data. -/
theorem sound_control {f : Frame} (h : Matches a ws) (hc : f.opcode.isControl = true) :
    ∀ r ws', (handleFrame f).run ws = (r, ws') → Sound a f r ws' := by
  intro r ws' hrun
  obtain ⟨hbuf, hop, hr⟩ := handleFrame_control hc hrun
  have hv := not_violates_control a hc
  rcases hr with ⟨e, rfl⟩ | ⟨m, rfl, hm⟩
  · exact .inr (.inr (h.of_control hc hbuf hop))
  · refine ⟨hv, .inr (h.of_control hc hbuf hop), fun opcode data hcar => ?_⟩
    rw [hcar.isData] at hm
    cases hm

/-- A start frame while no message is in progress. -/
theorem sound_start_idle {f : Frame} (h : Matches .idle ws) (hs : f.opcode.isStart = true) :
    Sound .idle f ((handleFrame f).run ws).1 ((handleFrame f).run ws).2 := by
  have hv : ¬ Violates .idle f := Opcode.isStart_ne_continuation hs
  rw [run_handleFrame_start hs h.1]
  cases hfin : f.fin with
  | true =>
      rw [if_pos rfl, run_recvWhole]
      split
      · exact .inr (.inl rfl)
      · exact sound_makeDataMessage hv ⟨hfin, hs, rfl, rfl⟩
          (by simpa [Assembly.next, hfin] using h)
  | false =>
      rw [if_neg (by simp), run_recvFirst]
      split
      · exact .inr (.inl rfl)
      · exact ⟨hv, by simp [Assembly.next, hs, hfin, Matches, h.1]⟩

/-- A continuation while no message is in progress. -/
theorem sound_continuation_idle {f : Frame} (h : Matches .idle ws)
    (hc : f.opcode = .continuation) (ht : Tells .idle f) :
    Sound .idle f ((handleFrame f).run ws).1 ((handleFrame f).run ws).2 := by
  have hfin : f.fin = true := by
    by_contra hfin
    exact ht ⟨hc, by simpa using hfin⟩
  -- no opcode was kept, so the arm fails, in the size check or at the end of the message
  rw [run_handleFrame_continuation hc, run_recvContinuation, if_pos hfin, run_recvLast]
  split
  · exact .inl hc
  · simp only [h.2]
    exact .inl hc

/-- A start frame while a message is in progress. -/
theorem sound_start_collecting {f : Frame} {opcode : Opcode} {data : List UInt8}
    (h : Matches (.collecting opcode data) ws) (hs : f.opcode.isStart = true)
    (ht : Tells (.collecting opcode data) f) :
    Sound (.collecting opcode data) f ((handleFrame f).run ws).1 ((handleFrame f).run ws).2 := by
  have hbuf : ws.fragBuf ≠ [] := by
    rw [h.1]
    -- the buffer has content, so it is the code that refuses the frame
    exact fun hnil => ht ⟨hs, hnil⟩
  rw [run_handleFrame_unexpected hs hbuf]
  exact .inl hs

/-- A continuation while a message is in progress. -/
theorem sound_continuation_collecting {f : Frame} {opcode : Opcode} {data : List UInt8}
    (h : Matches (.collecting opcode data) ws) (hc : f.opcode = .continuation) :
    Sound (.collecting opcode data) f ((handleFrame f).run ws).1 ((handleFrame f).run ws).2 := by
  obtain ⟨hbuf, hop⟩ := h
  have hv : ¬ Violates (.collecting opcode data) f := by simp [Violates, hc, Opcode.isStart]
  rw [run_handleFrame_continuation hc, run_recvContinuation]
  split
  · exact .inr (.inl rfl)
  · cases hfin : f.fin with
    | true =>
        rw [if_pos rfl, run_recvLast]
        simp only [hop, hbuf]
        exact sound_makeDataMessage hv ⟨hfin, hc, rfl, rfl⟩
          (by simp [Assembly.next, hc, hfin, Matches])
    | false =>
        rw [if_neg (by simp)]
        exact ⟨hv, by simp [Assembly.next, hc, hfin, Matches, hbuf, hop]⟩

/-- One frame keeps the agreement, refuses what is out of turn and delivers only complete
messages. -/
theorem handleFrame_matches {f : Frame} (h : Matches a ws) (ht : Tells a f) :
    Sound a f ((handleFrame f).run ws).1 ((handleFrame f).run ws).2 := by
  by_cases hctl : f.opcode.isControl = true
  · exact sound_control h hctl _ _ rfl
  · by_cases hs : f.opcode.isStart = true
    · cases a with
      | idle => exact sound_start_idle h hs
      | collecting opcode data => exact sound_start_collecting h hs ht
    · have hc : f.opcode = .continuation :=
        Opcode.eq_continuation (by simpa using hs) (by simpa using hctl)
      cases a with
      | idle => exact sound_continuation_idle h hc ht
      | collecting opcode data => exact sound_continuation_collecting h hc

end OneFrame

/-! ### Sequences of frames -/

instance (read : List Frame) : Decidable (Violated read) :=
  decidable_of_iff
    (¬ ∀ (k : ℕ) (h : k < read.length), ¬ Violates (assembly (read.take k)) read[k]) (by
      rw [← Positions.forall_split_iff (P := fun a f => ¬ Violates (assembly a) f)]
      simp [Violated])

/-- The frames on which the buffer is a faithful sign: every frame tells, and after a frame out of
turn there are control frames only. -/
def Benign (read : List Frame) : Prop :=
  ∀ a f b, read = a ++ f :: b →
    Tells (assembly a) f ∧ (Violated a → f.opcode.isControl = true)

instance (read : List Frame) : Decidable (Benign read) :=
  decidable_of_iff _ (Positions.forall_split_iff
    (P := fun a f => Tells (assembly a) f ∧ (Violated a → f.opcode.isControl = true))).symm

theorem Violated.mono {read read' : List Frame} (h : Violated read) (hp : read <+: read') :
    Violated read' := by
  obtain ⟨a, f, b, rfl, hf⟩ := h
  obtain ⟨t, rfl⟩ := hp
  exact ⟨a, f, b ++ t, by simp, hf⟩

theorem violated_concat {read : List Frame} {f : Frame} :
    Violated (read ++ [f]) ↔ Violated read ∨ Violates (assembly read) f := by
  constructor
  · rintro ⟨a, g, b, h, hg⟩
    rcases Positions.concat_eq_iff.1 h with ⟨rfl, rfl, -⟩ | ⟨b', -, h'⟩
    · exact .inr hg
    · exact .inl ⟨a, g, b', h', hg⟩
  · rintro (h | h)
    · exact h.mono (List.prefix_append _ _)
    · exact ⟨read, f, [], rfl, h⟩

theorem Benign.mono {read read' : List Frame} (h : Benign read') (hp : read <+: read') :
    Benign read := by
  rintro a f b rfl
  obtain ⟨t, rfl⟩ := hp
  exact h a f (b ++ t) (by simp)

/-! ### One call -/

/-- What a call of `recv` owes the peer, given the frames read before it. -/
structure CallSound (read : List Frame) (call : Call) : Prop where
  /-- A data message is the content of the last data frames, which are one fragmentation. -/
  whole : ∀ m opcode data, call.result = .ok (some m) → m.Carries opcode data →
    ∃ earlier frames, dataFrames (read ++ call.frames) = earlier ++ frames ∧
      IsFragmentation opcode data frames
  /-- A frame out of turn fails the call that reads it. -/
  refused : ∀ a f b, call.frames = a ++ f :: b → Violates (assembly (read ++ a)) f →
    ∃ e, call.result = .error e
  /-- After a frame out of turn no data message is delivered. -/
  silent : Violated read → ∀ m, call.result = .ok (some m) → m.isData = false

/-- What the loop of `recv` establishes on benign frames, `base` being those read before. -/
def CallOutcome (base read : List Frame) (r : Except OxiHttpError (Option Message))
    (ws : WebSocket) : Prop :=
  (Violated base → ∀ m, r = .ok (some m) → m.isData = false) ∧
    (¬ Violated base → Violated read ∧ (∃ e, r = .error e) ∨
      ¬ Violated read ∧ (ws.closed = true ∨ Matches (assembly read) ws) ∧
        ∀ m opcode data, r = .ok (some m) → m.Carries opcode data →
          ∃ earlier frames, dataFrames read = earlier ++ frames ∧
            IsFragmentation opcode data frames)

/-- The invariant at the head of the loop. -/
def AtHead (base read : List Frame) (ws : WebSocket) : Prop :=
  base <+: read ∧
    (Benign read → ¬ Violated base → ¬ Violated read ∧ Matches (assembly read) ws)

theorem Matches.setStream {a : Assembly} {ws : WebSocket} (h : Matches a ws) (s : ByteStream) :
    Matches a { ws with stream := s } := by
  cases a <;> exact h

/-- One turn of the loop. -/
theorem atHead_step {base read : List Frame} {ws : WebSocket} {f : Frame} {s : ByteStream}
    (hI : AtHead base read ws) :
    ∀ r ws', (handleFrame f).run { ws with stream := s } = (r, ws') →
      match r with
      | .ok none => AtHead base (read ++ [f]) ws'
      | r => Benign (read ++ [f]) → CallOutcome base (read ++ [f]) r ws' := by
  intro r ws' hrun
  obtain ⟨hbase, hI⟩ := hI
  have hfacts : Benign (read ++ [f]) → ¬ Violated base → ¬ Violated read ∧
      Sound (assembly read) f r ws' := by
    intro hben hv
    obtain ⟨hv', hm⟩ := hI (hben.mono (List.prefix_append _ _)) hv
    have := handleFrame_matches (hm.setStream s) (hben read f [] rfl).1
    rw [hrun] at this
    exact ⟨hv', this⟩
  -- after an earlier frame out of turn only control frames are left
  have hctl : Benign (read ++ [f]) → Violated base → ∀ m, r = .ok (some m) →
      m.isData = false := by
    intro hben hv m hm
    obtain ⟨-, -, hr⟩ := handleFrame_control ((hben read f [] rfl).2 (hv.mono hbase)) hrun
    rcases hr with ⟨e, he⟩ | ⟨m', hm', hdata⟩
    · rw [he] at hm
      cases hm
    · rw [hm'] at hm
      cases hm
      exact hdata
  match r with
  | .ok none =>
      refine ⟨hbase.trans (List.prefix_append _ _), fun hben hv => ?_⟩
      obtain ⟨hv', hf, hm⟩ := hfacts hben hv
      rw [violated_concat, assembly_concat]
      exact ⟨by simp [hv', hf], hm⟩
  | .ok (some m) =>
      intro hben
      refine ⟨hctl hben, fun hv => .inr ?_⟩
      obtain ⟨hv', hf, hm, hc⟩ := hfacts hben hv
      have hv'' : ¬ Violated (read ++ [f]) := by simp [violated_concat, hv', hf]
      refine ⟨hv'', by rwa [assembly_concat], fun m' opcode data hr hcar => ?_⟩
      cases hr
      exact isFragmentation_of_completes hv' (hc _ _ hcar)
  | .error e =>
      intro hben
      refine ⟨hctl hben, fun hv => ?_⟩
      obtain ⟨hv', hs⟩ := hfacts hben hv
      -- an error without a frame out of turn leaves the agreement as it was, or closes the socket
      by_cases hf : Violates (assembly read) f
      · exact .inl ⟨violated_concat.2 (.inr hf), e, rfl⟩
      · refine .inr ⟨by simp [violated_concat, hv', hf], ?_, fun _ _ _ hr => by cases hr⟩
        rw [assembly_concat]
        exact hs.resolve_left hf

/-- A call that reads benign frames ends as it should. -/
theorem recvCall_outcome {base : List Frame} {ws : WebSocket}
    (hI : ¬ Violated base → ws.closed = true ∨ Matches (assembly base) ws)
    (hben : Benign (base ++ (recvCall ws).1.frames)) :
    CallOutcome base (base ++ (recvCall ws).1.frames) (recvCall ws).1.result (recvCall ws).2 := by
  unfold recvCall at hben ⊢
  split at hben
  case isTrue hc =>
      rw [if_pos hc, List.append_nil]
      exact ⟨fun _ _ h => (by cases h), fun hv => .inr ⟨hv, .inl hc, fun _ _ _ h => (by cases h)⟩⟩
  case isFalse hc =>
      rw [if_neg hc]
      have hhead : AtHead base base ws :=
        ⟨List.prefix_refl _, fun _ hv => ⟨hv, (hI hv).resolve_left hc⟩⟩
      refine recvLoop_rule (I := AtHead base)
        (Q := fun read r ws' => Benign read → CallOutcome base read r ws') ?_ ?_ base ws hhead hben
      · intro read ws e s hI' _ hben'
        exact ⟨fun _ _ h => (by cases h), fun hv => .inr ⟨(hI'.2 hben' hv).1, .inl rfl,
          fun _ _ _ h => (by cases h)⟩⟩
      · intro read ws f s hI' _
        exact atHead_step hI'

theorem callSound_of_outcome {base : List Frame} {call : Call} {ws : WebSocket}
    (hben : Benign (base ++ call.frames))
    (h : CallOutcome base (base ++ call.frames) call.result ws) : CallSound base call := by
  obtain ⟨hbase, h⟩ := h
  refine ⟨fun m opcode data hm hcar => ?_, fun a f b hf hv => ?_, hbase⟩
  · by_cases hv : Violated base
    · have := hbase hv m hm
      rw [hcar.isData] at this
      cases this
    · rcases h hv with ⟨-, e, he⟩ | ⟨-, -, h⟩
      · rw [he] at hm
        cases hm
      · exact h m opcode data hm hcar
  · have hread : Violated (base ++ call.frames) :=
      ⟨base ++ a, f, b, by rw [hf, List.append_assoc], hv⟩
    by_cases hvb : Violated base
    · have hctl := (hben (base ++ a) f b (by rw [hf, List.append_assoc])).2
        (hvb.mono (List.prefix_append _ _))
      exact absurd hv (not_violates_control _ hctl)
    · rcases h hvb with ⟨-, he⟩ | ⟨hn, -⟩
      · exact he
      · exact absurd hread hn

/-! ### Whole runs -/

/-- A series of `n` calls of `recv`. -/
def recvs : ℕ → WebSocket → List Call × WebSocket
  | 0, ws => ([], ws)
  | n + 1, ws => ((recvCall ws).1 :: (recvs n (recvCall ws).2).1, (recvs n (recvCall ws).2).2)

/-- The frames a series of calls read. -/
def framesRead (log : List Call) : List Frame := log.flatMap Call.frames

@[simp] theorem framesRead_nil : framesRead [] = [] := rfl

@[simp] theorem framesRead_concat (log : List Call) (call : Call) :
    framesRead (log ++ [call]) = framesRead log ++ call.frames := by simp [framesRead]

/-- Every call of the series does what it owes the peer. -/
def ReassemblySound (log : List Call) : Prop :=
  ∀ before call after, log = before ++ call :: after → CallSound (framesRead before) call

theorem reassemblySound_concat {log : List Call} {call : Call} (h : ReassemblySound log)
    (hcall : CallSound (framesRead log) call) : ReassemblySound (log ++ [call]) := by
  intro before c after heq
  rcases Positions.concat_eq_iff.1 heq with ⟨rfl, rfl, -⟩ | ⟨after', -, heq'⟩
  · exact hcall
  · exact h before c after' heq'

/-- The rule for a series of calls: what one call keeps holds at the end. -/
theorem recvs_rule {I : List Call → WebSocket → Prop}
    (hcall : ∀ log ws, I log ws → I (log ++ [(recvCall ws).1]) (recvCall ws).2) :
    ∀ n log ws, I log ws → I (log ++ (recvs n ws).1) (recvs n ws).2 := by
  intro n
  induction n with
  | zero =>
      intro log ws h
      simpa [recvs] using h
  | succ n ih =>
      intro log ws h
      simpa [recvs] using ih _ _ (hcall log ws h)

/-- On benign frames every run is sound. -/
theorem reassemblySound_of_benign {ws : WebSocket} (hfresh : Matches .idle ws) (n : ℕ)
    (hben : Benign (framesRead (recvs n ws).1)) : ReassemblySound (recvs n ws).1 := by
  have hrun := recvs_rule
    (I := fun log ws => Benign (framesRead log) → ReassemblySound log ∧
      (¬ Violated (framesRead log) → ws.closed = true ∨ Matches (assembly (framesRead log)) ws))
    (by
      intro log ws hI hben
      rw [framesRead_concat] at hben
      obtain ⟨hs, hm⟩ := hI (hben.mono (List.prefix_append _ _))
      have hout := recvCall_outcome hm hben
      refine ⟨reassemblySound_concat hs (callSound_of_outcome hben hout), fun hv => ?_⟩
      rw [framesRead_concat] at hv ⊢
      have hvb : ¬ Violated (framesRead log) := fun h => hv (h.mono (List.prefix_append _ _))
      rcases hout.2 hvb with ⟨h, -⟩ | ⟨-, h, -⟩
      · exact absurd h hv
      · exact h)
    n [] ws (fun _ => ⟨fun before call after h => by simp at h, fun _ => .inr hfresh⟩)
  exact (hrun hben).1

/-! ### What the peer sent -/

/-- The bytes a peer puts on the stream when it sends these frames, each under its own key. -/
def sentBytes (sent : List (MaskKey × Frame)) : List UInt8 :=
  sent.flatMap fun p => maskedFrameBytes p.1 p.2

/-- A frame that is read from what the peer sent is the first one it sent. -/
theorem readFrame_sentBytes {sent : List (MaskKey × Frame)} {s s' : ByteStream} {f : Frame}
    {maxPayloadLen : ℕ} (hlen : ∀ p ∈ sent, p.2.payload.length < 2 ^ 64)
    (hin : s.input = sentBytes sent) (h : (readFrame maxPayloadLen).run s = (.ok f, s')) :
    ∃ key rest, sent = (key, f) :: rest ∧ s'.input = sentBytes rest := by
  cases sent with
  | nil =>
      rw [readFrame_nil hin] at h
      cases h
  | cons p rest =>
      obtain ⟨key, g⟩ := p
      have hin' : s.input = maskedFrameBytes key g ++ sentBytes rest := hin
      have hg := hlen (key, g) (by simp)
      by_cases hok : g.Legal ∧ g.payload.length ≤ maxPayloadLen
      · rw [readFrame_masked hin' hok.1 hok.2 hg] at h
        cases h
        exact ⟨key, rest, rfl, rfl⟩
      · obtain ⟨e, s₁, he⟩ := readFrame_masked_error hin' hok hg
        rw [he] at h
        cases h

/-- The frames read so far are the first frames sent, and the others are still to be read. -/
def InStep (sent : List (MaskKey × Frame)) (read : List Frame) (ws : WebSocket) : Prop :=
  ∃ done rest, sent = done ++ rest ∧ done.map Prod.snd = read ∧ ws.stream.input = sentBytes rest

theorem InStep.initial {sent : List (MaskKey × Frame)} {read : List Frame} {ws : WebSocket}
    (h : InStep sent read ws) : read <+: sent.map Prod.snd := by
  obtain ⟨done, rest, rfl, rfl, -⟩ := h
  exact ⟨rest.map Prod.snd, by simp⟩

theorem InStep.step {sent : List (MaskKey × Frame)} {read : List Frame} {ws ws' : WebSocket}
    {f : Frame} {s : ByteStream} {r : Except OxiHttpError (Option Message)}
    (hlen : ∀ p ∈ sent, p.2.payload.length < 2 ^ 64) (h : InStep sent read ws)
    (hread : (readFrame ws.frameCap).run ws.stream = (.ok f, s))
    (hrun : (handleFrame f).run { ws with stream := s } = (r, ws')) :
    InStep sent (read ++ [f]) ws' := by
  obtain ⟨done, rest, rfl, rfl, hin⟩ := h
  obtain ⟨key, rest, rfl, hs⟩ := readFrame_sentBytes
    (fun p hp => hlen p (List.mem_append_right _ hp)) hin hread
  refine ⟨done ++ [(key, f)], rest, by simp, by simp, ?_⟩
  have := handleFrame_input f { ws with stream := s }
  rw [hrun] at this
  rw [this, hs]

/-- What a run reads is an initial part of what the peer sent. -/
theorem recvs_read_initial {sent : List (MaskKey × Frame)} {ws : WebSocket}
    (hlen : ∀ p ∈ sent, p.2.payload.length < 2 ^ 64) (hin : ws.stream.input = sentBytes sent)
    (n : ℕ) : framesRead (recvs n ws).1 <+: sent.map Prod.snd := by
  have hrun := recvs_rule
    (I := fun log ws => framesRead log <+: sent.map Prod.snd ∧
      (ws.closed = true ∨ InStep sent (framesRead log) ws))
    (by
      rintro log ws ⟨hp, hI⟩
      rw [framesRead_concat]
      unfold recvCall
      by_cases hc : ws.closed = true
      · rw [if_pos hc, List.append_nil]
        exact ⟨hp, .inl hc⟩
      · rw [if_neg hc]
        -- a frame that is cut off or refused closes the socket, which then reads nothing more
        refine recvLoop_rule (I := InStep sent)
          (Q := fun read _ ws' => read <+: sent.map Prod.snd ∧
            (ws'.closed = true ∨ InStep sent read ws'))
          (fun read ws e s h _ => ⟨h.initial, .inl rfl⟩) ?_ _ ws (hI.resolve_left hc)
        intro read ws f s h hread r ws' hrun
        have h' := h.step hlen hread hrun
        match r with
        | .ok none => exact h'
        | .ok (some _) => exact ⟨h'.initial, .inr h'⟩
        | .error _ => exact ⟨h'.initial, .inr h'⟩)
    n [] ws ⟨by simp, .inr ⟨[], sent, rfl, rfl, hin⟩⟩
  exact hrun.1

/-- What the repeated calls of `recv` on a fresh socket read is what the peer sent, in order, and
as long as it is benign every data message delivered is the content of one fragmentation, and a
data frame out of turn fails its call and ends the delivery of data. -/
theorem recvs_reassemble {sent : List (MaskKey × Frame)} {stream : ByteStream}
    (hlen : ∀ p ∈ sent, p.2.payload.length < 2 ^ 64) (hin : stream.input = sentBytes sent)
    (maxMessageSize n : ℕ) :
    let log := (recvs n (WebSocket.setMaxMessageSize maxMessageSize (.new stream))).1
    framesRead log <+: sent.map Prod.snd ∧ (Benign (framesRead log) → ReassemblySound log) :=
  ⟨recvs_read_initial hlen hin n, reassemblySound_of_benign ⟨rfl, rfl⟩ n⟩

/-- A text in two fragments with a Ping between them. -/
def twoFragments : List (MaskKey × Frame) :=
  [(⟨1, 2, 3, 4⟩, ⟨false, .text, [0x68, 0x65]⟩), (⟨5, 6, 7, 8⟩, ⟨true, .ping, []⟩),
    (⟨9, 10, 11, 12⟩, ⟨true, .continuation, [0x79]⟩)]

theorem recvs_reassemble_twoFragments :
    ReassemblySound (recvs 2 (WebSocket.setMaxMessageSize 3
      (.new { input := sentBytes twoFragments }))).1 := by
  have h := @recvs_reassemble twoFragments { input := sentBytes twoFragments } (by decide) rfl 3 2
  have hben : Benign (twoFragments.map Prod.snd) := by decide
  exact h.2 (hben.mono h.1)

/-- An empty first fragment of a text, and then another text before the first one has ended. -/
def emptyThenStart : List (MaskKey × Frame) :=
  [(⟨1, 2, 3, 4⟩, ⟨false, .text, []⟩), (⟨5, 6, 7, 8⟩, ⟨true, .text, [0x68, 0x69]⟩)]

theorem recvCall_emptyThenStart :
    (recvCall (.new { input := sentBytes emptyThenStart })).1
      = ⟨emptyThenStart.map Prod.snd, .ok (some (.text "hi"))⟩ := by
  let ws : WebSocket := .new { input := sentBytes emptyThenStart }
  let s₁ : ByteStream := { input := sentBytes (emptyThenStart.drop 1) }
  have h₁ : (readFrame ws.frameCap).run ws.stream = (.ok ⟨false, .text, []⟩, s₁) := by decide
  have g₁ : (handleFrame ⟨false, .text, []⟩).run { ws with stream := s₁ }
      = (.ok none, { stream := s₁, fragOpcode := some .text }) := by decide
  let ws₁ : WebSocket := { stream := s₁, fragOpcode := some .text }
  have h₂ : (readFrame ws₁.frameCap).run ws₁.stream
      = (.ok ⟨true, .text, [0x68, 0x69]⟩, { input := [] }) := by decide
  have g₂ : (handleFrame ⟨true, .text, [0x68, 0x69]⟩).run { ws₁ with stream := { input := [] } }
      = (.ok (some (.text "hi")), { ws₁ with stream := { input := [] } }) := by decide
  rw [recvCall, if_neg (by decide), recvLoop_of_read_ok h₁, g₁]
  dsimp only
  rw [recvLoop_of_read_ok h₂, g₂]
  rfl

/-- The second text is out of turn, and it is delivered. -/
theorem not_reassemblySound_emptyThenStart :
    ¬ ReassemblySound (recvs 1 (.new { input := sentBytes emptyThenStart })).1 := by
  intro h
  obtain ⟨-, hrefused, -⟩ := h [] _ [] rfl
  rw [recvCall_emptyThenStart] at hrefused
  obtain ⟨e, he⟩ := hrefused [⟨false, .text, []⟩] ⟨true, .text, [0x68, 0x69]⟩ [] rfl (by decide)
  cases he

end OxiHttp
