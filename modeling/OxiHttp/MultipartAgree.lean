/-
**Streamed and built bodies.**

`build_stream` serialises the parts a second time: the boundary is looked for among the parts in
memory only, and the body comes out in pieces, as the streams of the parts have them.  When no
stream fails or has the boundary in it, the pieces are those of the body that `build` makes of the
same parts, and nothing comes after them.

Main definitions:

* `OxiHttp.StreamingMultipart.buffer` — the builder with the bytes of every stream in memory;
* `OxiHttp.Yields` — polls of a queue give these bytes and then the end.

Main results:

* `OxiHttp.yields_queueBytes` — a queue without failures yields its bytes;
* `OxiHttp.StreamingMultipart.findUniqueBoundary_buffer` — both searches find one boundary;
* `OxiHttp.StreamingMultipart.buildStream_agrees` — both bodies are one.
-/

import OxiHttp.MultipartStream
import Mathlib.Algebra.Order.Ring.Nat

set_option relaxedAutoImplicit false
set_option autoImplicit false

namespace OxiHttp

/-! ### Draining a queue -/

/-- The item does not fail. -/
def PendingChunk.Succeeds : PendingChunk → Prop
  | .ready _ => True
  | .nested stream => ∀ e, .failed e ∉ stream

/-- The number of polls an item is good for, at most. -/
def PendingChunk.weight : PendingChunk → ℕ
  | .ready _ => 1
  | .nested stream => stream.length + 1

/-- The number of polls a queue is good for, at most. -/
def queueWeight (queue : List PendingChunk) : ℕ := (queue.map PendingChunk.weight).sum

/-- After some polls that are pending or give bytes, together these, the queue is at its end. -/
def Yields (queue : List PendingChunk) (bytes : List UInt8) : Prop :=
  ∃ n log, polls (n + 1) queue = (log ++ [.finished], []) ∧
    (∀ p ∈ log, p.Succeeds ∧ p ≠ .finished) ∧ received log = bytes

theorem queueWeight_cons (item : PendingChunk) (queue : List PendingChunk) :
    queueWeight (item :: queue) = item.weight + queueWeight queue := rfl

/-- A poll of a stream without failures leaves less of it, or finds it at its end. -/
theorem pollSource_succeeds {stream stream' : List SourcePoll} {p : StreamPoll}
    (hok : ∀ e, .failed e ∉ stream) (h : pollSource stream = (p, stream')) :
    p.Succeeds ∧ (∀ e, .failed e ∉ stream') ∧ (p ≠ .finished → stream'.length < stream.length) := by
  induction stream with
  | nil =>
      cases h
      exact ⟨(fun e he => by cases he), hok, fun hp => absurd rfl hp⟩
  | cons event stream ih =>
      have hrest : ∀ e, .failed e ∉ stream := fun e he => hok e (List.mem_cons_of_mem _ he)
      cases event with
      | pending =>
          cases h
          exact ⟨(fun e he => by cases he), hrest, fun _ => Nat.lt_succ_self _⟩
      | failed e => exact absurd List.mem_cons_self (hok e)
      | chunk data =>
          rw [pollSource] at h
          split_ifs at h
          · obtain ⟨hp, hok', hlt⟩ := ih hrest h
            exact ⟨hp, hok', fun hne => Nat.lt_succ_of_lt (hlt hne)⟩
          · cases h
            exact ⟨(fun e he => by cases he), hrest, fun _ => Nat.lt_succ_self _⟩

/-- A poll of a queue without failures leaves less of it, or finds it at its end. -/
theorem pollNext_succeeds {queue queue' : List PendingChunk} {p : StreamPoll}
    (hok : ∀ item ∈ queue, item.Succeeds) (h : pollNext queue = (p, queue')) :
    p.Succeeds ∧ (∀ item ∈ queue', item.Succeeds) ∧
      (p ≠ .finished → queueWeight queue' < queueWeight queue) := by
  induction queue with
  | nil =>
      cases h
      exact ⟨(fun e he => by cases he), hok, fun hp => absurd rfl hp⟩
  | cons item queue ih =>
      obtain ⟨hitem, hrest⟩ := List.forall_mem_cons.1 hok
      rw [queueWeight_cons]
      cases item with
      | ready data =>
          rw [pollNext] at h
          split_ifs at h
          · obtain ⟨hp, hok', hlt⟩ := ih hrest h
            exact ⟨hp, hok', fun hne => Nat.lt_of_lt_of_le (hlt hne) (Nat.le_add_left _ _)⟩
          · cases h
            exact ⟨(fun e he => by cases he), hrest, fun _ => Nat.lt_add_of_pos_left Nat.one_pos⟩
      | nested stream =>
          rw [pollNext] at h
          rcases hs : pollSource stream with ⟨q, stream'⟩
          obtain ⟨hq, hok', hlt⟩ := pollSource_succeeds hitem hs
          rw [hs] at h
          -- the stream that is put back is shorter by the poll that was taken
          have hback : ∀ item ∈ PendingChunk.nested stream' :: queue, item.Succeeds :=
            List.forall_mem_cons.2 ⟨hok', hrest⟩
          cases q with
          | finished =>
              obtain ⟨hp, hok'', hlt'⟩ := ih hrest h
              exact ⟨hp, hok'', fun hne => Nat.lt_of_lt_of_le (hlt' hne) (Nat.le_add_left _ _)⟩
          | failed e => exact absurd rfl (hq e)
          | pending =>
              cases h
              have hshorter := hlt fun hp => by cases hp
              refine ⟨hq, hback, fun _ => ?_⟩
              rw [queueWeight_cons, PendingChunk.weight, PendingChunk.weight]
              omega
          | chunk data =>
              cases h
              have hshorter := hlt fun hp => by cases hp
              refine ⟨hq, hback, fun _ => ?_⟩
              rw [queueWeight_cons, PendingChunk.weight, PendingChunk.weight]
              omega

/-- A queue without failures yields its bytes. -/
theorem yields_queueBytes {queue : List PendingChunk} (hok : ∀ item ∈ queue, item.Succeeds) :
    Yields queue (queueBytes queue) := by
  -- induction on what is left: every poll takes something away, until there is nothing
  induction hw : queueWeight queue using Nat.strong_induction_on generalizing queue with
  | _ w ih =>
      rcases hnext : pollNext queue with ⟨p, queue'⟩
      obtain ⟨hp, hok', hlt⟩ := pollNext_succeeds hok hnext
      obtain ⟨hbytes, hdone⟩ := pollNext_bytes hnext hp
      by_cases hfin : p = .finished
      · obtain rfl := hdone hfin
        refine ⟨0, [], ?_, fun q hq => absurd hq List.not_mem_nil, ?_⟩
        · rw [polls, hnext, hfin]
          rfl
        · rw [hbytes, hfin]
          rfl
      · obtain ⟨n, log, hpolls, hlog, hreceived⟩ := ih _ (hw ▸ hlt hfin) hok' rfl
        refine ⟨n + 1, p :: log, ?_, List.forall_mem_cons.2 ⟨⟨hp, hfin⟩, hlog⟩, ?_⟩
        · rw [polls, hnext, hpolls]
          rfl
        · rw [received_cons, hreceived, hbytes]

/-! ### One boundary -/

/-- The search comes out the same when there are more collisions, but not with what it finds. -/
theorem searchBoundary_congr {hasCollision hasCollision' : Str → Bool} {stored boundary : Str}
    {left : ℕ} (hmore : ∀ b, hasCollision b = true → hasCollision' b = true)
    (hfound : ∀ b, searchBoundary hasCollision stored left boundary = some b →
      hasCollision' b = false) :
    searchBoundary hasCollision' stored left boundary
      = searchBoundary hasCollision stored left boundary := by
  induction left generalizing boundary with
  | zero =>
      rw [searchBoundary, searchBoundary]
      cases hc : hasCollision boundary with
      | true => rw [hmore _ hc]
      | false =>
          rw [hfound boundary (by rw [searchBoundary, hc]; rfl)]
  | succ left ih =>
      rw [searchBoundary, searchBoundary]
      cases hc : hasCollision boundary with
      | true =>
          rw [hmore _ hc, if_pos rfl, if_pos rfl]
          exact ih fun b hb => hfound b (by rw [searchBoundary, hc, if_pos rfl, hb])
      | false =>
          rw [hfound boundary (by rw [searchBoundary, hc]; rfl), if_neg Bool.false_ne_true,
            if_neg Bool.false_ne_true]

/-- The part with all its bytes in memory. -/
def PartOrStream.buffer : PartOrStream → Part
  | .buffered part => part
  | .streamed headers stream => { headers, body := sourceBytes stream }

namespace StreamingMultipart

/-- The builder with the bytes of every stream in memory. -/
def buffer (streaming : StreamingMultipart) : MultipartBuilder where
  boundary := streaming.boundary
  parts := streaming.parts.map PartOrStream.buffer
  generated := streaming.generated

variable {streaming : StreamingMultipart}

/-- What a buffered part contains is a collision for both. -/
theorem hasCollision_buffer {boundary : Str} (h : streaming.hasCollision boundary = true) :
    streaming.buffer.hasCollision boundary = true := by
  rw [hasCollision, List.any_eq_true] at h
  obtain ⟨part, hpart, hwindow⟩ := h
  rw [MultipartBuilder.hasCollision, List.any_eq_true]
  refine ⟨part.buffer, List.mem_map_of_mem hpart, ?_⟩
  cases part with
  | buffered part => exact hwindow
  | streamed headers stream => cases hwindow

/-- The boundary of the stream is in no part, in memory or not. -/
theorem hasCollision_buffer_found {boundary : Str}
    (hfound : streaming.findUniqueBoundary = some boundary)
    (hfree : ∀ headers stream, .streamed headers stream ∈ streaming.parts →
      ¬ Utf8.encode boundary <:+: sourceBytes stream) :
    streaming.buffer.hasCollision boundary = false := by
  rw [MultipartBuilder.hasCollision_eq_false_iff]
  intro part hpart
  obtain ⟨part, hmem, rfl⟩ := List.mem_map.1 hpart
  cases part with
  | buffered part => exact hasCollision_eq_false_iff.1 (uniqueBoundary_cases hfound).1 part hmem
  | streamed headers stream => exact hfree headers stream hmem

/-- When no stream contains the boundary of the streamed body, the built body has that boundary. -/
theorem findUniqueBoundary_buffer
    (hfree : ∀ boundary, streaming.findUniqueBoundary = some boundary →
      ∀ headers stream, .streamed headers stream ∈ streaming.parts →
        ¬ Utf8.encode boundary <:+: sourceBytes stream) :
    streaming.buffer.findUniqueBoundary = streaming.findUniqueBoundary :=
  searchBoundary_congr (fun _ => hasCollision_buffer)
    fun boundary hfound => hasCollision_buffer_found hfound (hfree boundary hfound)

theorem toBodyPart_buffer (part : PartOrStream) : part.buffer.toBodyPart = part.toBodyPart := by
  cases part <;> rfl

/-- The built body has the bytes of the queue. -/
theorem build_buffer
    (h : streaming.buffer.findUniqueBoundary = streaming.findUniqueBoundary) :
    streaming.buffer.build = streaming.buildStream.map queueBytes := by
  rw [MultipartBuilder.build_eq, h, buildStream_eq, Option.map_map]
  congr 1
  funext boundary
  rw [Function.comp_apply, queueBytes_queueOf, buffer, List.map_map]
  exact congrArg _ (List.map_congr_left fun part _ => toBodyPart_buffer part)

/-- The queue fails only where a stream does. -/
theorem succeeds_queueOf {boundary : Str} {parts : List PartOrStream}
    (hok : ∀ headers stream, .streamed headers stream ∈ parts → ∀ e, .failed e ∉ stream) :
    ∀ item ∈ queueOf boundary parts, item.Succeeds := by
  intro item hitem
  rcases List.mem_append.1 hitem with hitem | hitem
  · obtain ⟨part, hpart, hitem⟩ := List.mem_flatMap.1 hitem
    cases part with
    | buffered part =>
        simp only [PartOrStream.pending, List.mem_cons, List.not_mem_nil, or_false] at hitem
        rcases hitem with rfl | rfl | rfl <;> trivial
    | streamed headers stream =>
        simp only [PartOrStream.pending, List.mem_cons, List.not_mem_nil, or_false] at hitem
        rcases hitem with rfl | rfl | rfl
        · trivial
        · exact hok headers stream hpart
        · trivial
  · rw [List.mem_singleton.1 hitem]
    trivial

/-- Without failures, and without the boundary in a stream, what is streamed is the body that is
built of the same parts, and then the end; and there is one exactly when there is the other. -/
theorem buildStream_agrees
    (hok : ∀ headers stream, .streamed headers stream ∈ streaming.parts → ∀ e, .failed e ∉ stream)
    (hfree : ∀ boundary, streaming.findUniqueBoundary = some boundary →
      ∀ headers stream, .streamed headers stream ∈ streaming.parts →
        ¬ Utf8.encode boundary <:+: sourceBytes stream) :
    (streaming.buildStream = none ↔ streaming.buffer.build = none) ∧
      ∀ queue, streaming.buildStream = some queue →
        ∃ body, streaming.buffer.build = some body ∧ Yields queue body := by
  have hbuild := build_buffer (findUniqueBoundary_buffer hfree)
  refine ⟨by rw [hbuild, Option.map_eq_none_iff], fun queue hqueue => ?_⟩
  refine ⟨queueBytes queue, by rw [hbuild, hqueue]; rfl, yields_queueBytes ?_⟩
  rw [buildStream_eq] at hqueue
  obtain ⟨boundary, -, rfl⟩ := Option.map_eq_some_iff.1 hqueue
  exact succeeds_queueOf hok

end StreamingMultipart

/-- A text that contains the boundary of the builder, and a file that comes in pieces: an empty one
and one that begins like the boundary are among them. -/
def mixedUpload : StreamingMultipart :=
  ((MultipartBuilder.new 0 0).addText "a".toList (generateBoundary 0 0)).addStreamPart
    (fileHeaders "f".toList "f.txt".toList "text/plain".toList)
    [.pending, .chunk (Utf8.encode "----Oxi".toList), .chunk [], .pending, .chunk [0x0D, 0x0A]]

theorem buildStream_agrees_mixedUpload :
    ∃ queue body, mixedUpload.buildStream = some queue ∧ mixedUpload.buffer.build = some body ∧
      Yields queue body := by
  have hfound : mixedUpload.findUniqueBoundary = some (generateBoundary 0 0 ++ "0001".toList) := by
    decide +kernel
  obtain ⟨queue, hqueue⟩ : ∃ queue, mixedUpload.buildStream = some queue :=
    ⟨_, by rw [StreamingMultipart.buildStream_eq, hfound]; rfl⟩
  have hstream : ∀ headers stream, .streamed headers stream ∈ mixedUpload.parts → stream =
      [.pending, .chunk (Utf8.encode "----Oxi".toList), .chunk [], .pending,
        .chunk [0x0D, 0x0A]] := by
    intro headers stream hpart
    rcases List.mem_cons.1 hpart with h | hpart
    · cases h
    · cases List.mem_singleton.1 hpart
      rfl
  obtain ⟨body, hbody, hyields⟩ := (StreamingMultipart.buildStream_agrees
    (fun headers stream hpart e he => by
      rw [hstream headers stream hpart] at he
      simp at he)
    (fun boundary hb headers stream hpart => by
      rw [hfound] at hb
      cases hb
      rw [hstream headers stream hpart, ← anyWindow_iff]
      decide +kernel)).2 queue hqueue
  exact ⟨queue, body, hqueue, hbody, hyields⟩

end OxiHttp
