/-
**Sending server-sent events.**

A handler puts events into a channel, and the body of the response is what comes out of it, encoded.
With a heartbeat a task stands between the two: it takes what comes first, an event or the tick of a
timer, and hands on its encoding or a comment through a channel of its own.  The handler, the task,
the timer, the connection that polls the body and the client that goes away take their steps in any
order.

Main definitions:

* `OxiHttp.SseResponse`, with `channel`, `withHeartbeat` and `intoResponse`;
* `OxiHttp.SseStream.step`, `OxiHttp.SseStream.run` — the steps of the parties;
* `OxiHttp.SseEvent.Legible`, `OxiHttp.ReadsAll` — events that come back, and a reader that has read
  them;
* `OxiHttp.Carry` — frames that carry events, with heartbeats between them;
* `OxiHttp.SseStream.Delivery` — what the client has got of the events.

Main results:

* `OxiHttp.SseStream.run_delivers` — what has been handed to the connection, in any run;
* `OxiHttp.read_frames` — what a reader makes of it;
* `OxiHttp.SseStream.Draining.exists_finished` — a stream whose sender is dropped comes to its end;
* `OxiHttp.SseResponse.delivered` — the reader has the events in their order, without a gap.
-/

import OxiHttp.Mpsc
import OxiHttp.SseRoundTrip
import OxiHttp.StaticFile

set_option relaxedAutoImplicit false
set_option autoImplicit false

namespace OxiHttp

open EventStream

/-! ### The parties -/

/-- The task that merges events and heartbeats, and the channel behind it. -/
structure SseMerge where
  chunks : Mpsc.Channel (List UInt8) := { capacity := 32 }
  /-- What the task waits to send. -/
  held : Option (List UInt8) := none
  /-- The task has left its loop. -/
  ended : Bool := false
deriving DecidableEq

/-- The body of a response that sends events. -/
structure SseStream where
  events : Mpsc.Channel SseEvent
  merge : Option SseMerge
deriving DecidableEq

/-- `SseResponse`; the interval is in nanoseconds. -/
structure SseResponse where
  rx : Mpsc.Channel SseEvent
  heartbeat : Option ℕ

/-- `http::Response<Body>`; without a stream the body is empty. -/
structure StreamResponse where
  status : ℕ
  headers : HeaderMap
  body : Option SseStream

namespace SseResponse

/-- `SseResponse::channel`, without the sender; a channel without room is a panic. -/
def channel (buffer : ℕ) : Option SseResponse :=
  if buffer = 0 then none else some { rx := { capacity := buffer }, heartbeat := none }

/-- `with_heartbeat`. -/
def withHeartbeat (r : SseResponse) (interval : ℕ) : SseResponse :=
  { r with heartbeat := some interval }

/-- The header fields of the response. -/
def fields : List (Str × Str) :=
  [("content-type".toList, "text/event-stream".toList), ("cache-control".toList, "no-cache".toList),
    ("connection".toList, "keep-alive".toList), ("x-accel-buffering".toList, "no".toList)]

/-- The stream of the body. -/
def stream (r : SseResponse) : SseStream where
  events := r.rx
  merge := r.heartbeat.map fun _ => {}

/-- `into_response`. -/
def intoResponse (r : SseResponse) : StreamResponse :=
  match fieldValues fields with
  | .ok values => { status := 200, headers := ⟨values⟩, body := some r.stream }
  | .error _ => { status := 200, headers := {}, body := none }

end SseResponse

/-- What the timer sends: a comment. -/
def heartbeatText : Str := ":\n\n".toList

/-- What may happen to a stream. -/
inductive SseAction where
  /-- `SseSender::send`, when it gets its turn, or `try_send`. -/
  | send (e : SseEvent)
  /-- The sender is dropped. -/
  | close
  /-- The task takes the next event, or sees that there is none. -/
  | next
  /-- The task sees that the timer has ticked. -/
  | tick
  /-- The task goes on with what it holds. -/
  | forward
  /-- The connection polls the body. -/
  | poll
  /-- The client is gone, and the body is dropped. -/
  | disconnect
deriving DecidableEq

/-- What comes of it. -/
inductive SseOutput where
  | accepted (e : SseEvent)
  /-- There is no room: `send` goes on waiting, and `try_send` gives an error. -/
  | full
  | refused
  | frame (chunk : List UInt8)
  | finished
  | idle
deriving DecidableEq

/-- The events that were taken from the handler. -/
def acceptedEvents (log : List SseOutput) : List SseEvent :=
  log.filterMap fun
    | .accepted e => some e
    | _ => none

/-- The frames that were handed to the connection. -/
def frames (log : List SseOutput) : List (List UInt8) :=
  log.filterMap fun
    | .frame chunk => some chunk
    | _ => none

namespace SseStream

variable (s : SseStream)

/-- A call of `send` or `try_send`; there is none when the sender is dropped. -/
def send (e : SseEvent) : SseOutput × SseStream :=
  if s.events.sender then
    match s.events.send e with
    | (.sent, events) => (.accepted e, { s with events })
    | (.full, _) => (.full, s)
    | (.closed, _) => (.refused, s)
  else (.idle, s)

/-- The task leaves its loop, and drops its ends of the two channels. -/
def leave (m : SseMerge) : SseStream where
  events := s.events.dropReceiver
  merge := some { chunks := m.chunks.dropSender, held := none, ended := true }

/-- The branch of `event_stream.next()`. -/
def next : SseStream :=
  match s.merge with
  | some { chunks, held := none, ended := false } =>
      match s.events.recv with
      | (.item e, events) =>
          { events, merge := some { chunks, held := some e.encode, ended := false } }
      | (.closed, _) => s.leave { chunks }
      | (.pending, _) => s
  | _ => s

/-- The branch of `hb_stream.next()`. -/
def tick : SseStream :=
  match s.merge with
  | some { chunks, held := none, ended := false } =>
      { s with merge := some { chunks, held := some (Utf8.encode heartbeatText), ended := false } }
  | _ => s

/-- `merged_tx.send`, which the task waits for. -/
def forward : SseStream :=
  match s.merge with
  | some { chunks, held := some chunk, ended := false } =>
      match chunks.send chunk with
      | (.sent, chunks) => { s with merge := some { chunks } }
      | (.full, _) => s
      | (.closed, _) => s.leave { chunks }
  | _ => s

/-- The body is there. -/
def connected : Bool :=
  match s.merge with
  | some m => m.chunks.receiver
  | none => s.events.receiver

/-- `poll_next` of the body. -/
def poll : SseOutput × SseStream :=
  if s.connected = false then (.idle, s)
  else
    match s.merge with
    | some m =>
        match m.chunks.recv with
        | (.item chunk, chunks) => (.frame chunk, { s with merge := some { m with chunks } })
        | (.closed, _) => (.finished, s)
        | (.pending, _) => (.idle, s)
    | none =>
        match s.events.recv with
        | (.item e, events) => (.frame e.encode, { s with events })
        | (.closed, _) => (.finished, s)
        | (.pending, _) => (.idle, s)

/-- The body is dropped. -/
def disconnect : SseStream :=
  match s.merge with
  | some m => { s with merge := some { m with chunks := m.chunks.dropReceiver } }
  | none => { s with events := s.events.dropReceiver }

/-- One step of one party. -/
def step : SseAction → SseOutput × SseStream
  | .send e => s.send e
  | .close => (.idle, { s with events := s.events.dropSender })
  | .next => (.idle, s.next)
  | .tick => (.idle, s.tick)
  | .forward => (.idle, s.forward)
  | .poll => s.poll
  | .disconnect => (.idle, s.disconnect)

/-- The steps of a run: what comes of them, and the stream after them. -/
def run (s : SseStream) : List SseAction → List SseOutput × SseStream
  | [] => ([], s)
  | a :: actions => ((s.step a).1 :: ((s.step a).2.run actions).1, ((s.step a).2.run actions).2)

end SseStream

/-! ### What is handed over -/

/-- What the connection is handed: the encoding of an event, or a comment. -/
inductive SseChunk where
  | event (e : SseEvent)
  | heartbeat
deriving DecidableEq

namespace SseChunk

def text : SseChunk → Str
  | event e => e.text
  | heartbeat => heartbeatText

def bytes (chunk : SseChunk) : List UInt8 := Utf8.encode chunk.text

/-- The events among chunks. -/
def events (chunks : List SseChunk) : List SseEvent :=
  chunks.filterMap fun
    | event e => some e
    | heartbeat => none

theorem events_append (chunks chunks' : List SseChunk) :
    events (chunks ++ chunks') = events chunks ++ events chunks' := List.filterMap_append

end SseChunk

open SseChunk in
/-- Chunks that carry these events: their encodings in this order, with comments between them. -/
def Carry (chunks : List (List UInt8)) (es : List SseEvent) : Prop :=
  ∃ cs : List SseChunk, chunks = cs.map bytes ∧ events cs = es

theorem Carry.nil : Carry [] [] := ⟨[], rfl, rfl⟩

theorem Carry.event {chunks : List (List UInt8)} {es : List SseEvent} (h : Carry chunks es)
    (e : SseEvent) : Carry (chunks ++ [e.encode]) (es ++ [e]) := by
  obtain ⟨cs, rfl, rfl⟩ := h
  exact ⟨cs ++ [.event e], by rw [List.map_append]; rfl, by rw [SseChunk.events_append]; rfl⟩

theorem Carry.heartbeat {chunks : List (List UInt8)} {es : List SseEvent} (h : Carry chunks es) :
    Carry (chunks ++ [Utf8.encode heartbeatText]) es := by
  obtain ⟨cs, rfl, rfl⟩ := h
  refine ⟨cs ++ [.heartbeat], by rw [List.map_append]; rfl, ?_⟩
  rw [SseChunk.events_append]
  exact List.append_nil _

/-- The first of some chunks carry the first of the events, and each of the others one at most. -/
theorem Carry.left {chunks chunks' : List (List UInt8)} {es : List SseEvent}
    (h : Carry (chunks ++ chunks') es) :
    ∃ es', Carry chunks es' ∧ es' <+: es ∧ es.length ≤ es'.length + chunks'.length := by
  obtain ⟨cs, hcs, rfl⟩ := h
  obtain ⟨cs₁, cs₂, rfl, rfl, rfl⟩ := List.append_eq_map_iff.1 hcs
  refine ⟨_, ⟨cs₁, rfl, rfl⟩, ?_, ?_⟩
  · rw [SseChunk.events_append]
    exact List.prefix_append _ _
  · have hle : (SseChunk.events cs₂).length ≤ cs₂.length := List.length_filterMap_le _ _
    rw [SseChunk.events_append, List.length_append, List.length_map]
    omega

/-- The channel of a task is not overfull, and its sender is dropped only at the end. -/
structure SseMerge.Sound (m : SseMerge) : Prop where
  capacity : m.chunks.capacity = 32
  bounded : m.chunks.Bounded
  sender : m.chunks.sender = false ↔ m.ended = true

namespace SseStream

/-- What has left the first channel and not yet been handed over. -/
def inFlight (s : SseStream) : List (List UInt8) :=
  match s.merge with
  | some m => m.chunks.queue ++ m.held.toList
  | none => []

/-- The task is there, and has left its loop. -/
def hasEnded (s : SseStream) : Bool := s.merge.any SseMerge.ended

/-- Nothing is left, and nothing will come. -/
structure Finished (s : SseStream) : Prop where
  inFlight : s.inFlight = []
  queue : s.events.queue = []
  sender : s.events.sender = false
  ended : ∀ m ∈ s.merge, m.ended = true

/-- What has become of the events that were accepted: as long as the body is there each of them is
on its way or was handed over, and those that were handed over are the first ones. -/
structure Delivery (buffer : ℕ) (log : List SseOutput) (s : SseStream) : Prop where
  connected : s.connected = true →
    ∃ es, Carry (frames log ++ s.inFlight) es ∧ es ++ s.events.queue = acceptedEvents log
  handed : ∃ es, Carry (frames log) es ∧ es <+: acceptedEvents log
  ended : s.connected = true → s.hasEnded = true →
    s.events.queue = [] ∧ s.events.sender = false ∧ ∀ m ∈ s.merge, m.held = none
  finished : .finished ∈ log → Carry (frames log) (acceptedEvents log) ∧ s.Finished
  /-- Neither channel is overfull. -/
  bounded : s.events.capacity = buffer ∧ s.events.Bounded ∧
    ∀ m ∈ s.merge, m.Sound

theorem run_cons (s : SseStream) (a : SseAction) (actions : List SseAction) :
    s.run (a :: actions) =
      ((s.step a).1 :: ((s.step a).2.run actions).1, ((s.step a).2.run actions).2) := rfl

/-- The rule for a run: what a step keeps is kept by all of them. -/
theorem run_rule {I : List SseOutput → SseStream → Prop}
    (hstep : ∀ log s a, I log s → I (log ++ [(s.step a).1]) (s.step a).2) {log : List SseOutput}
    {s : SseStream} (h : I log s) (actions : List SseAction) :
    I (log ++ (s.run actions).1) (s.run actions).2 := by
  induction actions generalizing log s with
  | nil => simpa [run] using h
  | cons a actions ih =>
      have := ih (hstep log s a h)
      rwa [List.append_assoc] at this

end SseStream

theorem acceptedEvents_concat (log : List SseOutput) (o : SseOutput) :
    acceptedEvents (log ++ [o]) = acceptedEvents log ++ acceptedEvents [o] :=
  List.filterMap_append

theorem frames_concat (log : List SseOutput) (o : SseOutput) :
    frames (log ++ [o]) = frames log ++ frames [o] := List.filterMap_append

/-- An output that is neither an event that is accepted nor a frame, nor the end. -/
structure SseOutput.Quiet (o : SseOutput) : Prop where
  accepted : acceptedEvents [o] = []
  frame : frames [o] = []
  finished : o ≠ .finished

theorem SseOutput.Quiet.idle : SseOutput.Quiet .idle := ⟨rfl, rfl, nofun⟩

theorem SseOutput.Quiet.full : SseOutput.Quiet .full := ⟨rfl, rfl, nofun⟩

theorem SseOutput.Quiet.refused : SseOutput.Quiet .refused := ⟨rfl, rfl, nofun⟩

namespace SseStream.Delivery

variable {buffer : ℕ} {log : List SseOutput} {s s' : SseStream} {o : SseOutput}

/-- A step whose output is quiet, by what it does to the stream. -/
theorem quiet (h : Delivery buffer log s) (ho : o.Quiet)
    (hconnected : s'.connected = true → s.connected = true ∧ ∀ es,
      Carry (frames log ++ s.inFlight) es → es ++ s.events.queue = acceptedEvents log →
        ∃ es', Carry (frames log ++ s'.inFlight) es' ∧ es' ++ s'.events.queue = acceptedEvents log)
    (hended : s'.connected = true → s'.hasEnded = true →
      s'.events.queue = [] ∧ s'.events.sender = false ∧ ∀ m ∈ s'.merge, m.held = none)
    (hfinished : s.Finished → s'.Finished)
    (hbounded : s'.events.capacity = buffer ∧ s'.events.Bounded ∧
      ∀ m ∈ s'.merge, m.Sound) :
    Delivery buffer (log ++ [o]) s' := by
  have haccepted : acceptedEvents (log ++ [o]) = acceptedEvents log := by
    rw [acceptedEvents_concat, ho.accepted, List.append_nil]
  have hframes : frames (log ++ [o]) = frames log := by
    rw [frames_concat, ho.frame, List.append_nil]
  constructor
  · intro hs'
    obtain ⟨hs, hcarry⟩ := hconnected hs'
    obtain ⟨es, hes, heq⟩ := h.connected hs
    rw [haccepted, hframes]
    exact hcarry es hes heq
  · rw [haccepted, hframes]
    exact h.handed
  · exact hended
  · intro hmem
    rw [haccepted, hframes]
    have hlog : .finished ∈ log := by
      rcases List.mem_append.1 hmem with hmem | hmem
      · exact hmem
      · exact absurd (List.mem_singleton.1 hmem).symm ho.finished
    exact ⟨(h.finished hlog).1, hfinished (h.finished hlog).2⟩
  · exact hbounded

/-- Nothing happens. -/
theorem stay (h : Delivery buffer log s) (ho : o.Quiet) : Delivery buffer (log ++ [o]) s :=
  h.quiet ho (fun hs => ⟨hs, fun es hes heq => ⟨es, hes, heq⟩⟩) h.ended id h.bounded

theorem send (h : Delivery buffer log s) (e : SseEvent) :
    Delivery buffer (log ++ [(s.send e).1]) (s.send e).2 := by
  unfold SseStream.send
  split_ifs with hsender
  · rcases hsend : s.events.send e with ⟨r, events⟩
    rcases Mpsc.Channel.send_cases hsend with ⟨rfl, hreceiver, -, rfl⟩ | ⟨rfl, -⟩ | ⟨rfl, -⟩
    · have haccepted : acceptedEvents (log ++ [.accepted e]) = acceptedEvents log ++ [e] :=
        acceptedEvents_concat log (.accepted e)
      have hframes : frames (log ++ [.accepted e]) = frames log :=
        (frames_concat log (.accepted e)).trans (List.append_nil _)
      constructor
      · intro hs
        obtain ⟨es, hes, heq⟩ := h.connected hs
        rw [haccepted, hframes]
        exact ⟨es, hes, by rw [← heq, List.append_assoc]⟩
      · obtain ⟨es, hes, hle⟩ := h.handed
        rw [haccepted, hframes]
        exact ⟨es, hes, hle.trans (List.prefix_append _ _)⟩
      · -- the task ends only when the sender is dropped
        intro hs hended
        exact absurd hsender (by rw [(h.ended hs hended).2.1]; decide)
      · intro hmem
        have hlog : .finished ∈ log := by simpa using hmem
        exact absurd hsender (by rw [(h.finished hlog).2.sender]; decide)
      · exact ⟨h.bounded.1, h.bounded.2.1.send hsend, h.bounded.2.2⟩
    · exact h.stay .full
    · exact h.stay .refused
  · exact h.stay .idle

theorem close (h : Delivery buffer log s) :
    Delivery buffer (log ++ [.idle]) { s with events := s.events.dropSender } := by
  refine h.quiet .idle (fun hs => ⟨hs, fun es hes heq => ⟨es, hes, heq⟩⟩) ?_ ?_ h.bounded
  · intro hs hended
    exact ⟨(h.ended hs hended).1, rfl, (h.ended hs hended).2.2⟩
  · exact fun hfin => ⟨hfin.inFlight, hfin.queue, rfl, hfin.ended⟩

theorem next (h : Delivery buffer log s) : Delivery buffer (log ++ [.idle]) s.next := by
  unfold SseStream.next
  split
  · rename_i chunks hmerge
    have hchunks := h.bounded.2.2 _ hmerge
    have hconn : s.connected = chunks.receiver := by rw [SseStream.connected, hmerge]
    have hflight : s.inFlight = chunks.queue := by
      rw [inFlight, hmerge]
      exact List.append_nil _
    have hfin : ¬ s.Finished := fun hfin => by
      cases hfin.ended _ hmerge
    rcases hrecv : s.events.recv with ⟨r, events⟩
    rcases Mpsc.Channel.recv_cases hrecv with ⟨e, queue, rfl, hqueue, rfl⟩ | ⟨rfl, hqueue, hsender, -⟩
      | ⟨rfl, -⟩
    · refine h.quiet .idle (fun hs => ⟨hconn.trans hs, fun es hes heq => ⟨es ++ [e], ?_, ?_⟩⟩)
        (fun _ hended => by cases hended) (fun hfin' => absurd hfin' hfin) ⟨h.bounded.1, ?_, ?_⟩
      · have := hes.event e
        rwa [hflight, List.append_assoc] at this
      · rw [← heq, hqueue, List.append_assoc]
        rfl
      · exact h.bounded.2.1.recv hrecv
      · rintro _ ⟨⟩
        exact ⟨hchunks.capacity, hchunks.bounded, hchunks.sender⟩
    · refine h.quiet .idle (fun hs => ⟨hconn.trans hs, fun es hes heq => ⟨es, ?_, ?_⟩⟩)
        (fun _ _ => ⟨rfl, hsender, ?_⟩) (fun hfin' => absurd hfin' hfin)
        ⟨h.bounded.1, Mpsc.Channel.Bounded.dropReceiver _, ?_⟩
      · rw [hflight] at hes
        simpa [inFlight, leave, Mpsc.Channel.dropSender] using hes
      · rw [← heq, hqueue]
        rfl
      · rintro _ ⟨⟩
        rfl
      · rintro _ ⟨⟩
        exact ⟨hchunks.capacity, hchunks.bounded, iff_of_true rfl rfl⟩
    · exact h.stay .idle
  · exact h.stay .idle

theorem tick (h : Delivery buffer log s) : Delivery buffer (log ++ [.idle]) s.tick := by
  unfold SseStream.tick
  split
  · rename_i chunks hmerge
    have hflight : s.inFlight = chunks.queue := by
      rw [inFlight, hmerge]
      exact List.append_nil _
    refine h.quiet .idle (fun hs => ⟨?_, fun es hes heq => ⟨es, ?_, heq⟩⟩)
      (fun _ hended => by cases hended) (fun hfin => by cases hfin.ended _ hmerge)
      ⟨h.bounded.1, h.bounded.2.1, ?_⟩
    · rw [SseStream.connected, hmerge]
      exact hs
    · have := hes.heartbeat
      rwa [hflight, List.append_assoc] at this
    · rintro _ ⟨⟩
      have hchunks := h.bounded.2.2 _ hmerge
      exact ⟨hchunks.capacity, hchunks.bounded, hchunks.sender⟩
  · exact h.stay .idle

theorem forward (h : Delivery buffer log s) : Delivery buffer (log ++ [.idle]) s.forward := by
  unfold SseStream.forward
  split
  · rename_i chunks chunk hmerge
    have hchunks := h.bounded.2.2 _ hmerge
    have hflight : s.inFlight = chunks.queue ++ [chunk] := by
      rw [inFlight, hmerge]
      rfl
    have hfin : ¬ s.Finished := fun hfin => by
      cases hfin.ended _ hmerge
    rcases hsend : chunks.send chunk with ⟨r, chunks'⟩
    rcases Mpsc.Channel.send_cases hsend with ⟨rfl, hreceiver, -, rfl⟩ | ⟨rfl, -⟩ | ⟨rfl, hreceiver, -⟩
    · refine h.quiet .idle (fun hs => ⟨?_, fun es hes heq => ⟨es, ?_, heq⟩⟩)
        (fun _ hended => by cases hended) (fun hfin' => absurd hfin' hfin)
        ⟨h.bounded.1, h.bounded.2.1, ?_⟩
      · rw [SseStream.connected, hmerge]
        exact hreceiver
      · rw [hflight] at hes
        simpa [inFlight] using hes
      · rintro _ ⟨⟩
        exact ⟨hchunks.capacity, hchunks.bounded.send hsend, hchunks.sender⟩
    · exact h.stay .idle
    · -- the body is gone, and with it what was on its way
      have hgone : (s.leave { chunks }).connected = false := hreceiver
      refine h.quiet .idle (fun hs => ?_) (fun hs => ?_) (fun hfin' => absurd hfin' hfin)
        ⟨h.bounded.1, Mpsc.Channel.Bounded.dropReceiver _, ?_⟩
      · exact absurd (hs.symm.trans hgone) (by decide)
      · exact absurd (hs.symm.trans hgone) (by decide)
      · rintro _ ⟨⟩
        exact ⟨hchunks.capacity, hchunks.bounded, iff_of_true rfl rfl⟩
  · exact h.stay .idle

/-- A frame is handed over. -/
theorem frame (h : Delivery buffer log s) {chunk : List UInt8} {es : List SseEvent}
    (hes : Carry (frames log ++ [chunk] ++ s'.inFlight) es)
    (heq : es ++ s'.events.queue = acceptedEvents log) (hended : s'.hasEnded = true →
      s'.events.queue = [] ∧ s'.events.sender = false ∧ ∀ m ∈ s'.merge, m.held = none)
    (hfin : ¬ s.Finished) (hbounded : s'.events.capacity = buffer ∧ s'.events.Bounded ∧
      ∀ m ∈ s'.merge, m.Sound) : Delivery buffer (log ++ [.frame chunk]) s' := by
  have haccepted : acceptedEvents (log ++ [.frame chunk]) = acceptedEvents log :=
    (acceptedEvents_concat log (.frame chunk)).trans (List.append_nil _)
  have hframes : frames (log ++ [.frame chunk]) = frames log ++ [chunk] :=
    frames_concat log (.frame chunk)
  constructor
  · intro _
    rw [haccepted, hframes]
    exact ⟨es, hes, heq⟩
  · obtain ⟨es₁, hes₁, hle, -⟩ := hes.left
    rw [haccepted, hframes, ← heq]
    exact ⟨es₁, hes₁, hle.trans (List.prefix_append _ _)⟩
  · exact fun _ => hended
  · intro hmem
    have hlog : .finished ∈ log := by simpa using hmem
    exact absurd (h.finished hlog).2 hfin
  · exact hbounded

/-- The body ends. -/
theorem finish (h : Delivery buffer log s) (hs : s.connected = true) (hfin : s.Finished) :
    Delivery buffer (log ++ [.finished]) s := by
  have haccepted : acceptedEvents (log ++ [.finished]) = acceptedEvents log :=
    (acceptedEvents_concat log .finished).trans (List.append_nil _)
  have hframes : frames (log ++ [.finished]) = frames log :=
    (frames_concat log .finished).trans (List.append_nil _)
  obtain ⟨es, hes, heq⟩ := h.connected hs
  rw [hfin.inFlight, List.append_nil] at hes
  rw [hfin.queue, List.append_nil] at heq
  subst heq
  constructor
  · intro _
    rw [haccepted, hframes, hfin.inFlight, hfin.queue, List.append_nil]
    exact ⟨_, hes, List.append_nil _⟩
  · rw [haccepted, hframes]
    exact h.handed
  · exact h.ended
  · intro _
    rw [haccepted, hframes]
    exact ⟨hes, hfin⟩
  · exact h.bounded

theorem poll (h : Delivery buffer log s) : Delivery buffer (log ++ [s.poll.1]) s.poll.2 := by
  unfold SseStream.poll
  split_ifs with hgone
  · exact h.stay .idle
  have hs : s.connected = true := by simpa using hgone
  obtain ⟨es, hes, heq⟩ := h.connected hs
  split
  · rename_i m hmerge
    have hchunks := h.bounded.2.2 _ hmerge
    have hflight : s.inFlight = m.chunks.queue ++ m.held.toList := by rw [inFlight, hmerge]
    rw [hflight] at hes
    rcases hrecv : m.chunks.recv with ⟨r, chunks⟩
    rcases Mpsc.Channel.recv_cases hrecv with ⟨chunk, queue, rfl, hqueue, rfl⟩ |
      ⟨rfl, hqueue, hsender, -⟩ | ⟨rfl, -⟩
    · refine h.frame ?_ heq ?_ ?_ ⟨h.bounded.1, h.bounded.2.1, ?_⟩
      · rw [hqueue] at hes
        simpa [inFlight] using hes
      · intro hended
        have hended' : s.hasEnded = true := by
          rw [hasEnded, hmerge]
          exact hended
        obtain ⟨hq, hsend, hheld⟩ := h.ended hs hended'
        refine ⟨hq, hsend, ?_⟩
        rintro _ ⟨⟩
        exact hheld m hmerge
      · intro hfin
        have := hfin.inFlight
        rw [hflight, hqueue] at this
        cases this
      · rintro _ ⟨⟩
        exact ⟨hchunks.capacity, hchunks.bounded.recv hrecv, hchunks.sender⟩
    · have hended := hchunks.sender.1 hsender
      have hended' : s.hasEnded = true := by
        rw [hasEnded, hmerge]
        exact hended
      obtain ⟨hq, hsend, hheld⟩ := h.ended hs hended'
      refine h.finish hs ⟨?_, hq, hsend, ?_⟩
      · rw [hflight, hqueue, hheld m hmerge]
        rfl
      · intro m' hm'
        cases hmerge.symm.trans hm'
        exact hended
    · exact h.stay .idle
  · rename_i hmerge
    have hflight : s.inFlight = [] := by rw [inFlight, hmerge]
    rw [hflight, List.append_nil] at hes
    have hnone : ∀ m ∈ s.merge, m.ended = true := by
      intro m hm
      rw [hmerge] at hm
      cases hm
    rcases hrecv : s.events.recv with ⟨r, events⟩
    rcases Mpsc.Channel.recv_cases hrecv with ⟨e, queue, rfl, hqueue, rfl⟩ |
      ⟨rfl, hqueue, hsender, -⟩ | ⟨rfl, -⟩
    · refine @frame buffer log s _ h _ (es ++ [e]) ?_ ?_ ?_ ?_
        ⟨h.bounded.1, h.bounded.2.1.recv hrecv, h.bounded.2.2⟩
      · have hmerge' : ({ s with events := { s.events with queue } } : SseStream).inFlight = [] := by
          rw [inFlight, hmerge]
        rw [hmerge', List.append_nil]
        exact hes.event e
      · rw [← heq, hqueue, List.append_assoc]
        rfl
      · intro hended
        rw [hasEnded, hmerge] at hended
        cases hended
      · intro hfin
        have := hfin.queue
        rw [hqueue] at this
        cases this
    · exact h.finish hs ⟨hflight, hqueue, hsender, hnone⟩
    · exact h.stay .idle

theorem disconnect (h : Delivery buffer log s) :
    Delivery buffer (log ++ [.idle]) s.disconnect := by
  unfold SseStream.disconnect
  split
  · rename_i m hmerge
    have hchunks := h.bounded.2.2 _ hmerge
    refine h.quiet .idle nofun nofun (fun hfin => ?_) ⟨h.bounded.1, h.bounded.2.1, ?_⟩
    · have hflight := hfin.inFlight
      rw [inFlight, hmerge] at hflight
      refine ⟨(List.append_eq_nil_iff.1 hflight).2, hfin.queue, hfin.sender, ?_⟩
      rintro _ ⟨⟩
      exact hfin.ended m hmerge
    · rintro _ ⟨⟩
      exact ⟨hchunks.capacity, Mpsc.Channel.Bounded.dropReceiver _, hchunks.sender⟩
  · rename_i hmerge
    have hgone : ({ s with events := s.events.dropReceiver } : SseStream).connected = false := by
      rw [SseStream.connected, hmerge]
      rfl
    refine h.quiet .idle (fun hs => ?_) (fun hs => ?_) (fun hfin => ?_)
      ⟨h.bounded.1, Mpsc.Channel.Bounded.dropReceiver _, h.bounded.2.2⟩
    · exact absurd (hs.symm.trans hgone) (by decide)
    · exact absurd (hs.symm.trans hgone) (by decide)
    · exact ⟨hfin.inFlight, rfl, hfin.sender, hfin.ended⟩

/-- Every step keeps what has been delivered. -/
theorem step (h : Delivery buffer log s) (a : SseAction) :
    Delivery buffer (log ++ [(s.step a).1]) (s.step a).2 := by
  cases a with
  | send e => exact h.send e
  | close => exact h.close
  | next => exact h.next
  | tick => exact h.tick
  | forward => exact h.forward
  | poll => exact h.poll
  | disconnect => exact h.disconnect

end SseStream.Delivery

namespace SseStream

/-- A stream that nothing has happened to. -/
theorem delivery_initial {buffer : ℕ} {r : SseResponse} (h : r.rx = { capacity := buffer }) :
    Delivery buffer [] r.stream := by
  have hsound : ∀ m ∈ r.stream.merge, m = {} := by
    intro m hm
    obtain ⟨interval, -, rfl⟩ := Option.map_eq_some_iff.1 hm
    rfl
  have hqueue : r.stream.events.queue = [] := congrArg Mpsc.Channel.queue h
  constructor
  · refine fun _ => ⟨[], ?_, hqueue⟩
    have hflight : r.stream.inFlight = [] := by
      rw [inFlight]
      cases hmerge : r.stream.merge with
      | none => rfl
      | some m => rw [hsound m hmerge]; rfl
    rw [hflight]
    exact Carry.nil
  · exact ⟨[], Carry.nil, ⟨_, rfl⟩⟩
  · intro _ hended
    rw [hasEnded] at hended
    obtain ⟨m, hm, hm'⟩ := (Option.any_eq_true _ _).1 hended
    rw [hsound m hm] at hm'
    cases hm'
  · rintro ⟨⟩
  · refine ⟨congrArg Mpsc.Channel.capacity h, ?_, ?_⟩
    · rw [Mpsc.Channel.Bounded, hqueue]
      exact Nat.zero_le _
    · intro m hm
      rw [hsound m hm]
      exact ⟨rfl, Nat.zero_le _, by decide⟩

/-- **What has become of the events of a handler, in any run.** -/
theorem run_delivers {buffer : ℕ} {r : SseResponse} (h : r.rx = { capacity := buffer })
    (actions : List SseAction) :
    Delivery buffer (r.stream.run actions).1 (r.stream.run actions).2 :=
  run_rule (I := Delivery buffer) (fun _ _ a h => h.step a) (delivery_initial h) actions

end SseStream

/-! ### The end of the body -/

namespace SseStream

/-- The body is polled, and the task goes on. -/
def drainRound : List SseAction := [.poll, .forward, .next]

/-- How much there is still to do. -/
def left (s : SseStream) : ℕ :=
  match s.merge with
  | some m => 3 * s.events.queue.length + 2 * m.held.toList.length + m.chunks.queue.length +
      if m.ended then 0 else 1
  | none => s.events.queue.length

/-- The sender is dropped, and the body is there. -/
structure Draining (s : SseStream) : Prop where
  connected : s.connected = true
  sender : s.events.sender = false
  ended : s.hasEnded = true → s.events.queue = [] ∧ ∀ m ∈ s.merge, m.held = none
  sound : ∀ m ∈ s.merge, m.Sound

theorem Delivery.draining {buffer : ℕ} {log : List SseOutput} {s : SseStream}
    (h : Delivery buffer log s) (hs : s.connected = true) (hsender : s.events.sender = false) :
    s.Draining where
  connected := hs
  sender := hsender
  ended hended := ⟨(h.ended hs hended).1, (h.ended hs hended).2.2⟩
  sound := h.bounded.2.2

/-- A round of a task that goes on, when there is room for what it holds. -/
theorem run_drainRound {capacity : ℕ} {queue : List SseEvent} {receiver : Bool}
    {chunks : List (List UInt8)} {held : Option (List UInt8)} (hroom : chunks.tail.length < 32) :
    (SseStream.run ⟨⟨capacity, queue, false, receiver⟩, some ⟨⟨32, chunks, true, true⟩, held, false⟩⟩
        drainRound).2 =
      match queue with
      | e :: queue => ⟨⟨capacity, queue, false, receiver⟩,
          some ⟨⟨32, chunks.tail ++ held.toList, true, true⟩, some e.encode, false⟩⟩
      | [] => ⟨⟨capacity, [], false, false⟩,
          some ⟨⟨32, chunks.tail ++ held.toList, false, true⟩, none, true⟩⟩ := by
  have hpoll : (SseStream.poll ⟨⟨capacity, queue, false, receiver⟩,
      some ⟨⟨32, chunks, true, true⟩, held, false⟩⟩).2 =
        ⟨⟨capacity, queue, false, receiver⟩, some ⟨⟨32, chunks.tail, true, true⟩, held, false⟩⟩ := by
    cases chunks <;> rfl
  have hforward : (SseStream.forward ⟨⟨capacity, queue, false, receiver⟩,
      some ⟨⟨32, chunks.tail, true, true⟩, held, false⟩⟩) = ⟨⟨capacity, queue, false, receiver⟩,
        some ⟨⟨32, chunks.tail ++ held.toList, true, true⟩, none, false⟩⟩ := by
    cases held with
    | none => rw [Option.toList_none, List.append_nil]; rfl
    | some chunk =>
        rw [forward]
        dsimp only
        rw [Mpsc.Channel.send, if_neg nofun, if_pos hroom]
        rfl
  rw [drainRound]
  simp only [run, step, hpoll, hforward]
  cases queue <;> rfl

/-- A round comes to the end, or nearer to it. -/
theorem Draining.round {s : SseStream} (h : s.Draining) :
    .finished ∈ (s.run drainRound).1 ∨
      (s.run drainRound).2.Draining ∧ (s.run drainRound).2.left < s.left := by
  obtain ⟨⟨capacity, queue, sender, receiver⟩, merge⟩ := s
  obtain rfl : sender = false := h.sender
  cases merge with
  | none =>
      obtain rfl : receiver = true := h.connected
      cases queue with
      | nil => exact .inl List.mem_cons_self
      | cons e queue => exact .inr ⟨⟨rfl, rfl, nofun, nofun⟩, Nat.lt_succ_self _⟩
  | some m =>
      obtain ⟨⟨capacity', queue', sender', receiver'⟩, held, ended⟩ := m
      obtain rfl : receiver' = true := h.connected
      obtain ⟨rfl, hbounded, hsender⟩ := h.sound _ rfl
      have hroom : queue'.tail.length < 32 := by
        have hle : queue'.length ≤ 32 := hbounded
        rw [List.length_tail]
        omega
      cases ended with
      | true =>
          obtain rfl : queue = [] := (h.ended rfl).1
          obtain rfl : held = none := (h.ended rfl).2 _ rfl
          obtain rfl : sender' = false := hsender.2 rfl
          cases queue' with
          | nil => exact .inl List.mem_cons_self
          | cons chunk queue' =>
              refine .inr ⟨⟨rfl, rfl, fun _ => ⟨rfl, ?_⟩, ?_⟩, Nat.lt_succ_self _⟩
              · rintro _ ⟨⟩
                rfl
              · rintro _ ⟨⟩
                exact ⟨rfl, Nat.le_of_succ_le hbounded, iff_of_true rfl rfl⟩
      | false =>
          obtain rfl : sender' = true := by
            cases sender' with
            | false => cases hsender.1 rfl
            | true => rfl
          have hlength : (queue'.tail ++ held.toList).length ≤ 32 := by
            rw [List.length_append]
            cases held <;> simp only [Option.toList_none, Option.toList_some, List.length_nil,
              List.length_singleton] <;> omega
          have hle : queue'.tail.length ≤ queue'.length := by
            rw [List.length_tail]
            exact Nat.sub_le _ _
          rw [run_drainRound hroom]
          refine .inr ?_
          cases queue with
          | cons e queue =>
              refine ⟨⟨rfl, rfl, nofun, ?_⟩, ?_⟩
              · rintro _ ⟨⟩
                exact ⟨rfl, hlength, iff_of_false nofun nofun⟩
              · cases held <;> simp [left] <;> omega
          | nil =>
              refine ⟨⟨rfl, rfl, fun _ => ⟨rfl, ?_⟩, ?_⟩, ?_⟩
              · rintro _ ⟨⟩
                rfl
              · rintro _ ⟨⟩
                exact ⟨rfl, hlength, iff_of_true rfl rfl⟩
              · cases held with
                | none =>
                    simp only [left, Option.toList_none, List.append_nil, List.length_nil, if_true,
                      Bool.false_eq_true, if_false]
                    omega
                | some chunk =>
                    simp only [left, Option.toList_none, Option.toList_some, List.length_append,
                      List.length_nil, List.length_singleton, if_true, Bool.false_eq_true, if_false]
                    omega

theorem run_append (s : SseStream) (actions actions' : List SseAction) :
    s.run (actions ++ actions') = ((s.run actions).1 ++ ((s.run actions).2.run actions').1,
      ((s.run actions).2.run actions').2) := by
  induction actions generalizing s with
  | nil => rfl
  | cons a actions ih => rw [List.cons_append, run_cons, run_cons, ih]; rfl

/-- A stream whose sender is dropped comes to its end, when its body is polled. -/
theorem Draining.exists_finished {s : SseStream} (h : s.Draining) :
    ∃ n, .finished ∈ (s.run (List.replicate n drainRound).flatten).1 := by
  induction hn : s.left using Nat.strong_induction_on generalizing s with
  | _ n ih =>
      rcases h.round with hfin | ⟨hnext, hlt⟩
      · exact ⟨1, by simpa using hfin⟩
      · obtain ⟨k, hk⟩ := ih _ (hn ▸ hlt) hnext rfl
        refine ⟨k + 1, ?_⟩
        rw [List.replicate_succ, List.flatten_cons, run_append]
        exact List.mem_append_right _ hk

end SseStream

/-! ### What a reader makes of it -/

/-- An event that comes back: its texts make no fields of their own, and its data no more and no
less than one for each of its lines. -/
structure SseEvent.Legible (e : SseEvent) : Prop where
  id_nul : ∀ id ∈ e.id, '\x00' ∉ id
  event_ne : ∀ event ∈ e.event, event ≠ []
  id_field : ∀ id ∈ e.id, OneField id
  event_field : ∀ event ∈ e.event, OneField event
  data_returns : LoneFree e.data
  data_end : e.data.getLast? ≠ some '\n'

/-- What a reader makes of events, one after the other. -/
inductive ReadsAll : List SseEvent → State → State → List Event → Prop where
  | nil (s : State) : ReadsAll [] s s []
  | cons {e : SseEvent} {es : List SseEvent} {s s' s'' : State} {ev : Event} {evs : List Event} :
      e.Reads s s' ev → ReadsAll es s' s'' evs → ReadsAll (e :: es) s s'' (ev :: evs)

/-- The reader is between two events. -/
def Idle (s : State) : Prop := s.data = [] ∧ s.type = []

/-- The encoding of an event ends in a line feed. -/
theorem SseEvent.text_eq_append (e : SseEvent) : ∃ t, e.text = t ++ ['\n'] := ⟨_, rfl⟩

/-- A comment between two events leaves the reader as it is. -/
theorem feed_heartbeat {s : State} (hs : Idle s) : s.feed heartbeatText = (s, []) := by
  have hlines : lines heartbeatText = [[':'], []] := by decide
  have hdispatch : s.dispatch = (s, []) := by
    obtain ⟨data, type, lastEventId, retry⟩ := s
    obtain ⟨rfl, rfl⟩ : data = [] ∧ type = [] := hs
    rfl
  have hcomment : s.line [':'] = (s, []) := by rw [State.line, if_neg (by decide), if_pos (by decide)]
  have hempty : s.line [] = (s, []) := by rw [State.line, if_pos rfl, hdispatch]
  rw [State.feed, hlines]
  simp only [State.run, hcomment, hempty, List.append_nil]

/-- A reader that is fed chunks has read the events that they carry. -/
theorem feed_chunks (chunks : List SseChunk) {s : State} (hs : Idle s)
    (hlegible : ∀ e ∈ SseChunk.events chunks, e.Legible) :
    ∃ s' evs, s.feed (chunks.flatMap SseChunk.text) = (s', evs) ∧ Idle s' ∧
      ReadsAll (SseChunk.events chunks) s s' evs := by
  induction chunks generalizing s with
  | nil => exact ⟨s, [], rfl, hs, .nil s⟩
  | cons chunk chunks ih =>
      rw [List.flatMap_cons]
      cases chunk with
      | event e =>
          obtain ⟨he, hrest⟩ := List.forall_mem_cons.1 (show ∀ e' ∈ e :: SseChunk.events chunks,
            e'.Legible from hlegible)
          obtain ⟨s', ev, hread, hreads⟩ := SseEvent.reads_of_oneField (s := s) he.id_nul he.event_ne
            he.id_field he.event_field he.data_returns he.data_end hs.1 hs.2
          rw [SseEvent.encode, State.read_encode] at hread
          obtain ⟨s'', evs, hfeed, hidle, hall⟩ := ih hreads.idle hrest
          obtain ⟨t, ht⟩ := e.text_eq_append
          refine ⟨s'', ev :: evs, ?_, hidle, .cons hreads hall⟩
          rw [SseChunk.text, ht, List.append_assoc, List.singleton_append, State.feed_append_lf, ← ht,
            hread, hfeed]
          rfl
      | heartbeat =>
          obtain ⟨s', evs, hfeed, hidle, hall⟩ := ih hs hlegible
          refine ⟨s', evs, ?_, hidle, hall⟩
          have htext : heartbeatText = [':', '\n'] ++ ['\n'] := by decide
          rw [SseChunk.text, htext, List.append_assoc, List.singleton_append, State.feed_append_lf,
            ← htext, feed_heartbeat hs, hfeed]
          rfl

/-- The same of the bytes that the client is sent. -/
theorem read_frames {chunks : List (List UInt8)} {es : List SseEvent} (h : Carry chunks es)
    {s : State} (hs : Idle s) (hlegible : ∀ e ∈ es, e.Legible) :
    ∃ s' evs, s.read chunks.flatten = (s', evs) ∧ ReadsAll es s s' evs := by
  obtain ⟨cs, rfl, rfl⟩ := h
  have hbytes : (cs.map SseChunk.bytes).flatten = Utf8.encode (cs.flatMap SseChunk.text) := by
    induction cs with
    | nil => rfl
    | cons c cs ih =>
        rw [List.map_cons, List.flatten_cons, List.flatMap_cons, Utf8.encode_append,
          ih fun e he => hlegible e (by
            rw [SseChunk.events, List.filterMap_cons]
            split
            · exact he
            · exact List.mem_cons_of_mem _ he)]
        rfl
  obtain ⟨s', evs, hfeed, -, hall⟩ := feed_chunks cs hs hlegible
  exact ⟨s', evs, by rw [hbytes, State.read_encode, hfeed], hall⟩

/-! ### The response -/

/-- What has been handed over: the first of the events, and all but those that are on their way. -/
theorem SseStream.Delivery.exists_handed {buffer : ℕ} {log : List SseOutput} {s : SseStream}
    (h : s.Delivery buffer log) :
    ∃ es, Carry (frames log) es ∧ es <+: acceptedEvents log ∧
      (s.connected = true → (acceptedEvents log).length ≤ es.length + (buffer + 33)) ∧
      (.finished ∈ log → es = acceptedEvents log) := by
  by_cases hfin : .finished ∈ log
  · refine ⟨_, (h.finished hfin).1, List.prefix_rfl, fun _ => ?_, fun _ => rfl⟩
    exact Nat.le_add_right _ _
  by_cases hs : s.connected = true
  · obtain ⟨es, hes, heq⟩ := h.connected hs
    obtain ⟨es', hes', hle, hlength⟩ := hes.left
    refine ⟨es', hes', ?_, fun _ => ?_, fun hfin' => absurd hfin' hfin⟩
    · rw [← heq]
      exact hle.trans (List.prefix_append _ _)
    · have hqueue : s.events.queue.length ≤ buffer := h.bounded.1 ▸ h.bounded.2.1
      have hflight : s.inFlight.length ≤ 33 := by
        rw [SseStream.inFlight]
        cases hmerge : s.merge with
        | none => exact Nat.zero_le _
        | some m =>
            have hm := h.bounded.2.2 m hmerge
            have hchunks : m.chunks.queue.length ≤ 32 := hm.capacity ▸ hm.bounded
            have hheld : m.held.toList.length ≤ 1 := by cases m.held <;> simp
            rw [List.length_append]
            omega
      rw [← heq, List.length_append]
      omega
  · obtain ⟨es, hes, hle⟩ := h.handed
    exact ⟨es, hes, hle, fun hs' => absurd hs' hs, fun hfin' => absurd hfin' hfin⟩

/-- What the client has got after a run: a reader dispatches the first of the events that were
accepted, each as it was sent and in their order.  Only what the channels hold is missing while the
body is there, and nothing when it has ended; and it ends when the sender is dropped. -/
structure Received (buffer : ℕ) (reader : State) (log : List SseOutput) (s : SseStream) :
    Prop where
  reads : ∃ n reader' evs, reader.read (frames log).flatten = (reader', evs) ∧
    ReadsAll ((acceptedEvents log).take n) reader reader' evs ∧
    (s.connected = true → (acceptedEvents log).length ≤ n + (buffer + 33)) ∧
    (.finished ∈ log → (acceptedEvents log).length ≤ n)
  ends : s.connected = true → s.events.sender = false →
    ∃ n, .finished ∈ (s.run (List.replicate n SseStream.drainRound).flatten).1

theorem SseStream.Delivery.received {buffer : ℕ} {log : List SseOutput} {s : SseStream}
    (h : s.Delivery buffer log) (hlegible : ∀ e ∈ acceptedEvents log, e.Legible) {reader : State}
    (hreader : Idle reader) : Received buffer reader log s where
  reads := by
    obtain ⟨es, hes, hle, hpending, hfin⟩ := h.exists_handed
    obtain ⟨reader', evs, hread, hall⟩ :=
      read_frames hes hreader fun e he => hlegible e (hle.subset he)
    refine ⟨es.length, reader', evs, hread, ?_, hpending, fun h => (hfin h ▸ le_rfl)⟩
    rwa [← List.prefix_iff_eq_take.1 hle]
  ends hs hsender := (h.draining hs hsender).exists_finished

namespace SseResponse

theorem intoResponse_eq (r : SseResponse) :
    r.intoResponse =
      { status := 200, headers := ⟨encodeFields fields⟩, body := some r.stream } := by
  have hvisible : ∀ p ∈ fields, HeaderValue.IsVisible p.2 :=
    List.forall_mem_cons.2 ⟨by decide, List.forall_mem_cons.2 ⟨by decide,
      List.forall_mem_cons.2 ⟨by decide, List.forall_mem_singleton.2 (by decide)⟩⟩⟩
  rw [intoResponse, fieldValues_eq_ok_iff.2
    ⟨fun p hp => isFieldText_of_isVisible (hvisible p hp), rfl⟩]

/-- With a heartbeat or without, the channel is the one that was made. -/
theorem rx_of_channel {buffer : ℕ} {r₀ r : SseResponse} (h : channel buffer = some r₀)
    (hr : r = r₀ ∨ ∃ interval, r = r₀.withHeartbeat interval) : r.rx = { capacity := buffer } := by
  unfold channel at h
  split_ifs at h
  cases h
  rcases hr with rfl | ⟨interval, rfl⟩ <;> rfl

/-- **The client has the events in their order**, whatever steps the parties take: none is lost,
none comes twice, and the heartbeats do not show. -/
theorem delivered {buffer : ℕ} {r₀ r : SseResponse} (h : channel buffer = some r₀)
    (hr : r = r₀ ∨ ∃ interval, r = r₀.withHeartbeat interval) {s : SseStream}
    (hbody : r.intoResponse.body = some s) (actions : List SseAction)
    (hlegible : ∀ e ∈ acceptedEvents (s.run actions).1, e.Legible) {reader : State}
    (hreader : Idle reader) :
    Received buffer reader (s.run actions).1 (s.run actions).2 := by
  rw [intoResponse_eq] at hbody
  cases hbody
  exact (SseStream.run_delivers (rx_of_channel h hr) actions).received hlegible hreader

/-- A stream with room for two events, and a heartbeat. -/
def beating : SseResponse := { rx := { capacity := 2 }, heartbeat := some 15000000000 }

/-- An event is sent between two ticks of the timer, and the sender is dropped. -/
def greetingRun : List SseOutput × SseStream :=
  beating.stream.run [.send (.ofData "hello".toList), .tick, .forward, .next, .close, .forward,
    .poll, .next, .poll, .poll]

theorem delivered_greetingRun :
    Received 2 ⟨[], [], [], none⟩ greetingRun.1 greetingRun.2 ∧ .finished ∈ greetingRun.1 := by
  refine ⟨delivered (r := beating) (show channel 2 = some ⟨{ capacity := 2 }, none⟩ from rfl)
    (.inr ⟨15000000000, rfl⟩) (congrArg StreamResponse.body (intoResponse_eq beating)) _ ?_
    ⟨rfl, rfl⟩, by decide⟩
  have haccepted : acceptedEvents greetingRun.1 = [.ofData "hello".toList] := by decide
  rw [greetingRun] at haccepted
  rw [haccepted]
  refine List.forall_mem_singleton.2 ⟨nofun, nofun, nofun, nofun, loneFree_iff.2 (by decide), ?_⟩
  decide

end SseResponse

end OxiHttp
