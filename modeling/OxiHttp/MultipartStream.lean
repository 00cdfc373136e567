/-
**Multipart bodies that are streamed.**

A builder that takes a streamed part becomes a `StreamingMultipart`, whose body is a stream itself:
a queue of chunks that are ready and of streams that are polled in turn.  What a stream does is
given here by the results of its polls, after the last of which it is exhausted.

Main definitions:

* `OxiHttp.SourcePoll`, `OxiHttp.StreamPoll` — the results of polling a part and the body;
* `OxiHttp.StreamingMultipart`, with the operations of the source;
* `OxiHttp.pollNext`, `OxiHttp.polls` — polling the body once, and a number of times;
* `OxiHttp.StreamAnnounces` — what a receiver of the content type expects of all these polls.

Main results:

* `OxiHttp.pollNext_bytes` — a poll that does not fail takes its bytes from the queue;
* `OxiHttp.polls_received` — and so do any number of polls;
* `OxiHttp.StreamingMultipart.announces_iff` — the announced boundary is that of the body exactly
  when no buffered part contains it.
-/

import OxiHttp.Error
import OxiHttp.Multipart

set_option relaxedAutoImplicit false
set_option autoImplicit false

namespace OxiHttp

/-! ### Streams -/

/-- What a poll of a part's stream gives, before it is exhausted. -/
inductive SourcePoll where
  | pending
  | chunk (data : List UInt8)
  | failed (e : OxiHttpError)
deriving DecidableEq, Repr

/-- What a poll of the body gives. -/
inductive StreamPoll where
  | pending
  | chunk (data : List UInt8)
  | failed (e : OxiHttpError)
  | finished
deriving DecidableEq, Repr

/-- `PendingChunk`: an item that is still to be emitted. -/
inductive PendingChunk where
  | ready (data : List UInt8)
  | nested (stream : List SourcePoll)
deriving DecidableEq, Repr

/-- The first poll of a part's stream that is no empty chunk, which the loop of the body skips. -/
def pollSource : List SourcePoll → StreamPoll × List SourcePoll
  | [] => (.finished, [])
  | .pending :: stream => (.pending, stream)
  | .failed e :: stream => (.failed e, stream)
  | .chunk data :: stream => if data.isEmpty then pollSource stream else (.chunk data, stream)

/-- `MultipartStream::poll_next`.  A stream that has failed is not put back. -/
def pollNext : List PendingChunk → StreamPoll × List PendingChunk
  | [] => (.finished, [])
  | .ready data :: queue => if data.isEmpty then pollNext queue else (.chunk data, queue)
  | .nested stream :: queue =>
      match pollSource stream with
      | (.finished, _) => pollNext queue
      | (.failed e, _) => (.failed e, queue)
      | (.pending, stream) => (.pending, .nested stream :: queue)
      | (.chunk data, stream) => (.chunk data, .nested stream :: queue)

/-- The results of `n` polls, and the queue after them. -/
def polls : ℕ → List PendingChunk → List StreamPoll × List PendingChunk
  | 0, queue => ([], queue)
  | n + 1, queue =>
      ((pollNext queue).1 :: (polls n (pollNext queue).2).1, (polls n (pollNext queue).2).2)

/-! ### The streaming builder -/

/-- `PartOrStream`. -/
inductive PartOrStream where
  | buffered (part : Part)
  | streamed (headers : List (Str × Str)) (stream : List SourcePoll)
deriving DecidableEq

/-- `StreamingMultipart`. -/
structure StreamingMultipart where
  boundary : Str
  parts : List PartOrStream
  generated : ∃ nanos counter, boundary = generateBoundary nanos counter

/-- `MultipartBuilder::add_stream_part`. -/
def MultipartBuilder.addStreamPart (builder : MultipartBuilder) (headers : List (Str × Str))
    (stream : List SourcePoll) : StreamingMultipart where
  boundary := builder.boundary
  parts := builder.parts.map PartOrStream.buffered ++ [.streamed headers stream]
  generated := builder.generated

/-- `MultipartBuilder::add_file_stream`. -/
def MultipartBuilder.addFileStream (builder : MultipartBuilder) (name filename contentType : Str)
    (stream : List SourcePoll) : StreamingMultipart :=
  builder.addStreamPart (fileHeaders name filename contentType) stream

/-- `part_preamble`. -/
def partPreamble (dashBoundary : Str) (headers : List (Str × Str)) : List UInt8 :=
  let buf := Utf8.encode dashBoundary ++ Utf8.encode "\r\n".toList
  putHeaders buf headers ++ Utf8.encode "\r\n".toList

/-- The three items of a part. -/
def PartOrStream.pending (dashBoundary : Str) : PartOrStream → List PendingChunk
  | .buffered part =>
      [.ready (partPreamble dashBoundary part.headers), .ready part.body,
        .ready (Utf8.encode "\r\n".toList)]
  | .streamed headers stream =>
      [.ready (partPreamble dashBoundary headers), .nested stream,
        .ready (Utf8.encode "\r\n".toList)]

namespace StreamingMultipart

/-- `content_type`. -/
def contentType (streaming : StreamingMultipart) : Str := contentTypeOf streaming.boundary

/-- `add_part`. -/
def addPart (streaming : StreamingMultipart) (part : Part) : StreamingMultipart :=
  { streaming with parts := streaming.parts ++ [.buffered part] }

/-- `add_text`. -/
def addText (streaming : StreamingMultipart) (name value : Str) : StreamingMultipart :=
  streaming.addPart (Part.text name value)

/-- `add_file`. -/
def addFile (streaming : StreamingMultipart) (name filename contentType : Str)
    (body : List UInt8) : StreamingMultipart :=
  streaming.addPart (Part.file name filename contentType body)

/-- `add_stream_part`. -/
def addStreamPart (streaming : StreamingMultipart) (headers : List (Str × Str))
    (stream : List SourcePoll) : StreamingMultipart :=
  { streaming with parts := streaming.parts ++ [.streamed headers stream] }

/-- `add_file_stream`. -/
def addFileStream (streaming : StreamingMultipart) (name filename contentType : Str)
    (stream : List SourcePoll) : StreamingMultipart :=
  streaming.addStreamPart (fileHeaders name filename contentType) stream

/-- A buffered part contains the boundary. -/
def hasCollision (streaming : StreamingMultipart) (boundary : Str) : Bool :=
  streaming.parts.any fun
    | .buffered part => anyWindow (Utf8.encode boundary) part.body
    | .streamed _ _ => false

/-- `find_unique_boundary`. -/
def findUniqueBoundary (streaming : StreamingMultipart) : Option Str :=
  uniqueBoundary streaming.hasCollision streaming.boundary

/-- `build_stream`: the queue of the stream. -/
def buildStream (streaming : StreamingMultipart) : Option (List PendingChunk) :=
  streaming.findUniqueBoundary.map fun boundary =>
    let dashBoundary := "--".toList ++ boundary
    let finalBoundary := "--".toList ++ boundary ++ "--\r\n".toList
    streaming.parts.flatMap (PartOrStream.pending dashBoundary) ++
      [.ready (Utf8.encode finalBoundary)]

end StreamingMultipart

/-! ### What a poll takes from the queue -/

/-- The bytes a part's stream still has. -/
def sourceBytes (stream : List SourcePoll) : List UInt8 :=
  stream.flatMap fun
    | .chunk data => data
    | _ => []

/-- The bytes of an item. -/
def PendingChunk.bytes : PendingChunk → List UInt8
  | .ready data => data
  | .nested stream => sourceBytes stream

/-- The bytes of a queue. -/
def queueBytes (queue : List PendingChunk) : List UInt8 := queue.flatMap PendingChunk.bytes

/-- The bytes a poll gives. -/
def StreamPoll.bytes : StreamPoll → List UInt8
  | .chunk data => data
  | _ => []

/-- The bytes a number of polls give. -/
def received (log : List StreamPoll) : List UInt8 := log.flatMap StreamPoll.bytes

/-- A poll that has not failed. -/
def StreamPoll.Succeeds (p : StreamPoll) : Prop := ∀ e, p ≠ .failed e

theorem queueBytes_cons (item : PendingChunk) (queue : List PendingChunk) :
    queueBytes (item :: queue) = item.bytes ++ queueBytes queue := List.flatMap_cons

theorem received_cons (p : StreamPoll) (log : List StreamPoll) :
    received (p :: log) = p.bytes ++ received log := List.flatMap_cons

theorem pollSource_bytes {stream stream' : List SourcePoll} {p : StreamPoll}
    (h : pollSource stream = (p, stream')) (hp : p.Succeeds) :
    sourceBytes stream = p.bytes ++ sourceBytes stream' ∧ (p = .finished → stream' = []) := by
  induction stream with
  | nil =>
      cases h
      exact ⟨rfl, fun _ => rfl⟩
  | cons event stream ih =>
      cases event with
      | pending =>
          cases h
          exact ⟨rfl, fun h => by cases h⟩
      | failed e =>
          cases h
          exact absurd rfl (hp e)
      | chunk data =>
          rw [pollSource] at h
          split_ifs at h with hempty
          · obtain rfl := List.isEmpty_iff.1 hempty
            exact ih h
          · cases h
            exact ⟨rfl, fun h => by cases h⟩

/-- A poll that does not fail takes its bytes from the queue, and only an empty queue is finished
with. -/
theorem pollNext_bytes {queue queue' : List PendingChunk} {p : StreamPoll}
    (h : pollNext queue = (p, queue')) (hp : p.Succeeds) :
    queueBytes queue = p.bytes ++ queueBytes queue' ∧ (p = .finished → queue' = []) := by
  induction queue with
  | nil =>
      cases h
      exact ⟨rfl, fun _ => rfl⟩
  | cons item queue ih =>
      rw [queueBytes_cons]
      cases item with
      | ready data =>
          rw [pollNext] at h
          split_ifs at h with hempty
          · obtain rfl := List.isEmpty_iff.1 hempty
            exact ih h
          · cases h
            exact ⟨rfl, fun h => by cases h⟩
      | nested stream =>
          rw [pollNext] at h
          rcases hs : pollSource stream with ⟨q, stream'⟩
          rw [hs] at h
          cases q with
          -- an exhausted stream is dropped and the poll goes on with the next item
          | finished =>
              obtain ⟨hbytes, hnil⟩ := pollSource_bytes hs (fun e he => by cases he)
              obtain ⟨hrest, hdone⟩ := ih h
              rw [PendingChunk.bytes, hbytes, hnil rfl, hrest]
              exact ⟨rfl, hdone⟩
          | failed e =>
              cases h
              exact absurd rfl (hp e)
          | pending =>
              cases h
              obtain ⟨hbytes, -⟩ := pollSource_bytes hs hp
              rw [PendingChunk.bytes, hbytes, queueBytes_cons, PendingChunk.bytes]
              exact ⟨rfl, fun h => by cases h⟩
          | chunk data =>
              cases h
              obtain ⟨hbytes, -⟩ := pollSource_bytes hs hp
              rw [PendingChunk.bytes, hbytes, queueBytes_cons, PendingChunk.bytes,
                List.append_assoc]
              exact ⟨rfl, fun h => by cases h⟩

theorem polls_nil (n : ℕ) : (polls n []).2 = [] := by
  induction n with
  | zero => rfl
  | succ n ih => exact ih

/-- What is received and what is left in the queue are what was in the queue. -/
theorem polls_received {n : ℕ} {queue queue' : List PendingChunk} {log : List StreamPoll}
    (h : polls n queue = (log, queue')) (hlog : ∀ p ∈ log, p.Succeeds) :
    queueBytes queue = received log ++ queueBytes queue' ∧ (.finished ∈ log → queue' = []) := by
  induction n generalizing queue log with
  | zero =>
      cases h
      exact ⟨rfl, fun h => by cases h⟩
  | succ n ih =>
      rcases hnext : pollNext queue with ⟨p, rest⟩
      rcases hrest : polls n rest with ⟨log', queue''⟩
      rw [polls, hnext, hrest, Prod.mk.injEq] at h
      obtain ⟨rfl, rfl⟩ := h
      obtain ⟨hbytes, hdone⟩ := pollNext_bytes hnext (hlog p List.mem_cons_self)
      obtain ⟨hbytes', hdone'⟩ := ih hrest fun q hq => hlog q (List.mem_cons_of_mem _ hq)
      refine ⟨?_, fun hfin => ?_⟩
      · rw [hbytes, hbytes', received_cons, List.append_assoc]
      -- a finished stream stays finished
      · rcases List.mem_cons.1 hfin with hp | hfin
        · have hnil := polls_nil n
          rw [hdone hp.symm] at hrest
          rwa [hrest] at hnil
        · exact hdone' hfin

/-! ### The body that is streamed -/

/-- A part, for its receiver: of a stream, all its chunks. -/
def PartOrStream.toBodyPart : PartOrStream → Mime.BodyPart
  | .buffered part => part.toBodyPart
  | .streamed headers stream => { header := headerLines headers, content := sourceBytes stream }

/-- What is received without a failure is the start of the body with these parts under the boundary
that the content type announces; and all of it when the stream has finished. -/
def StreamAnnounces (contentType : Str) (parts : List Mime.BodyPart)
    (queue : List PendingChunk) : Prop :=
  ∃ boundary ∈ boundaryParam contentType, ∀ n, (∀ p ∈ (polls n queue).1, p.Succeeds) →
    received (polls n queue).1 <+: Mime.assemble (Utf8.encode boundary) parts ∧
      (.finished ∈ (polls n queue).1 →
        received (polls n queue).1 = Mime.assemble (Utf8.encode boundary) parts)

theorem partPreamble_eq (boundary : Str) (headers : List (Str × Str)) :
    partPreamble ("--".toList ++ boundary) headers
      = Mime.dashes ++ Utf8.encode boundary ++ Mime.crlf ++ headerLines headers ++ Mime.crlf := by
  rw [partPreamble, putHeaders_eq, Utf8.encode_append, encode_dashes, encode_crlf]

/-- The items of a part. -/
theorem queueBytes_pending (boundary : Str) (part : PartOrStream) (rest : List UInt8) :
    queueBytes (part.pending ("--".toList ++ boundary)) ++ rest
      = Mime.dashes ++ Utf8.encode boundary ++ Mime.crlf ++ part.toBodyPart.header ++ Mime.crlf ++
        part.toBodyPart.content ++ Mime.crlf ++ rest := by
  cases part <;>
    simp only [PartOrStream.pending, PartOrStream.toBodyPart, Part.toBodyPart, queueBytes,
      List.flatMap_cons, List.flatMap_nil, PendingChunk.bytes, partPreamble_eq, encode_crlf,
      List.append_nil, List.append_assoc]

/-- The queue of a body under a boundary. -/
def queueOf (boundary : Str) (parts : List PartOrStream) : List PendingChunk :=
  parts.flatMap (PartOrStream.pending ("--".toList ++ boundary)) ++
    [.ready (Utf8.encode ("--".toList ++ boundary ++ "--\r\n".toList))]

theorem StreamingMultipart.buildStream_eq (streaming : StreamingMultipart) :
    streaming.buildStream
      = streaming.findUniqueBoundary.map fun boundary => queueOf boundary streaming.parts := rfl

/-- The queue holds the multipart body. -/
theorem queueBytes_queueOf (boundary : Str) (parts : List PartOrStream) :
    queueBytes (queueOf boundary parts)
      = Mime.assemble (Utf8.encode boundary) (parts.map PartOrStream.toBodyPart) := by
  unfold queueOf
  induction parts with
  | nil =>
      rw [encode_final]
      exact List.append_nil _
  | cons part parts ih =>
      rw [List.flatMap_cons, List.append_assoc, List.map_cons, Mime.assemble, ← ih,
        ← queueBytes_pending]
      exact List.flatMap_append

theorem StreamingMultipart.hasCollision_eq_false_iff {streaming : StreamingMultipart}
    {boundary : Str} :
    streaming.hasCollision boundary = false ↔
      ∀ part, .buffered part ∈ streaming.parts → ¬ Utf8.encode boundary <:+: part.body := by
  rw [hasCollision, List.any_eq_false]
  constructor
  · intro h part hpart
    have := h _ hpart
    rwa [anyWindow_iff] at this
  · intro h part hpart
    cases part with
    | buffered part =>
        have := h part hpart
        rwa [← anyWindow_iff] at this
    | streamed headers stream => simp

/-- The first poll gives the dashes and the boundary. -/
theorem pollNext_queueOf (boundary : Str) {parts : List PartOrStream} (hne : parts ≠ []) :
    ∃ data queue', pollNext (queueOf boundary parts) = (.chunk data, queue') ∧
      Mime.dashes ++ Utf8.encode boundary <+: data := by
  cases parts with
  | nil => exact absurd rfl hne
  | cons part parts =>
      obtain ⟨headers, rest, heq⟩ : ∃ headers rest, part.pending ("--".toList ++ boundary)
          = .ready (partPreamble ("--".toList ++ boundary) headers) :: rest := by
        cases part with
        | buffered part => exact ⟨_, _, rfl⟩
        | streamed headers stream => exact ⟨_, _, rfl⟩
      rw [queueOf, List.flatMap_cons, heq, List.cons_append, List.cons_append, pollNext,
        if_neg (by rw [partPreamble_eq]; simp [Mime.dashes])]
      refine ⟨_, _, rfl, ?_⟩
      rw [partPreamble_eq, List.append_assoc, List.append_assoc]
      exact List.prefix_append _ _

/-- The content type announces the boundary of the streamed body exactly when no buffered part
contains it. -/
theorem StreamingMultipart.announces_iff (streaming : StreamingMultipart) :
    (∃ queue, streaming.buildStream = some queue ∧ StreamAnnounces streaming.contentType
        (streaming.parts.map PartOrStream.toBodyPart) queue)
      ↔ ∀ part, .buffered part ∈ streaming.parts →
        ¬ Utf8.encode streaming.boundary <:+: part.body := by
  rw [← hasCollision_eq_false_iff]
  simp only [buildStream_eq]
  constructor
  · rintro ⟨queue, hbuild, boundary, hparam, hpolls⟩
    rw [contentType, boundaryParam_contentTypeOf] at hparam
    cases hparam
    obtain ⟨found, hfound, rfl⟩ := Option.map_eq_some_iff.1 hbuild
    obtain ⟨hfree, rfl | ⟨hcol, n, rfl⟩⟩ := uniqueBoundary_cases hfound
    · exact hfree
    · -- a part collides, and the first poll already gives the longer boundary
      have hne : streaming.parts ≠ [] := by
        intro hnil
        rw [hasCollision, hnil] at hcol
        cases hcol
      obtain ⟨data, queue', hnext, hdata⟩ :=
        pollNext_queueOf (streaming.boundary ++ formatHex 4 n) hne
      have honce : (polls 1 (queueOf (streaming.boundary ++ formatHex 4 n) streaming.parts)).1
          = [.chunk data] := by
        rw [polls, hnext]
        rfl
      have hfirst := (hpolls 1 (by
        rw [honce]
        rintro p hp e rfl
        cases List.mem_singleton.1 hp)).1
      rw [honce] at hfirst
      rw [received, List.flatMap_singleton] at hfirst
      exact absurd hfirst (not_initial_of_suffixed hdata _)
  · intro hfree
    refine ⟨_, by rw [findUniqueBoundary, uniqueBoundary_of_free hfree]; rfl, _,
      boundaryParam_contentTypeOf _, fun n hlog => ?_⟩
    rcases hrun : polls n (queueOf streaming.boundary streaming.parts) with ⟨log, queue'⟩
    rw [hrun] at hlog
    obtain ⟨hbytes, hdone⟩ := polls_received hrun hlog
    rw [queueBytes_queueOf] at hbytes
    -- what is still in the queue is the rest of the body, and nothing when the stream has finished
    refine ⟨⟨_, hbytes.symm⟩, fun hfin => ?_⟩
    rw [hbytes, hdone hfin]
    exact (List.append_nil _).symm

end OxiHttp
