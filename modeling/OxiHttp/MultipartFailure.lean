/-
**Streamed bodies that fail.**

When the stream of a part fails, `MultipartStream::poll_next` drops that stream and passes the
failure on, but the items behind it stay in the queue: a body that is polled again goes on with the
line break behind the part, the parts that follow, and the closing delimiter, as if all had been
sent.

Main definitions:

* `OxiHttp.allPolls`, `OxiHttp.trace` — what the items have to give, and up to the first failure;
* `OxiHttp.FailsForGood` — polls that give the trace and then nothing, and the closing delimiter
  only when everything was sent.

Main results:

* `OxiHttp.pollNext_allPolls` — what one poll takes from the items;
* `OxiHttp.polls_trace` — polls up to the first failure give the trace;
* `OxiHttp.polls_after_failure` — the poll after it gives more of the body;
* `OxiHttp.StreamingMultipart.failsForGood_iff` — the runs in which a failure is the end.
-/

import Mathlib.Data.List.GetD
import OxiHttp.MultipartStream

set_option relaxedAutoImplicit false
set_option autoImplicit false

namespace OxiHttp

/-! ### What the items have to give -/

/-- What a poll of a part's stream is for the body. -/
def SourcePoll.polls : SourcePoll → List StreamPoll
  | .pending => [.pending]
  | .chunk data => if data.isEmpty then [] else [.chunk data]
  | .failed e => [.failed e]

/-- What the polls of an item give. -/
def PendingChunk.polls : PendingChunk → List StreamPoll
  | .ready data => if data.isEmpty then [] else [.chunk data]
  | .nested stream => stream.flatMap SourcePoll.polls

/-- What the polls of all the items give, one item after the other. -/
def allPolls (queue : List PendingChunk) : List StreamPoll := queue.flatMap PendingChunk.polls

/-- The polls up to the first one that fails, and that one. -/
def upToFailure : List StreamPoll → List StreamPoll
  | [] => []
  | .failed e :: _ => [.failed e]
  | p :: ps => p :: upToFailure ps

/-- What is to be given before the end: everything, or everything up to the first failure. -/
def trace (queue : List PendingChunk) : List StreamPoll := upToFailure (allPolls queue)

theorem StreamPoll.succeeds_pending : StreamPoll.pending.Succeeds := by rintro e ⟨⟩

theorem StreamPoll.succeeds_chunk (bytes : List UInt8) : (StreamPoll.chunk bytes).Succeeds := by
  rintro e ⟨⟩

theorem StreamPoll.succeeds_finished : StreamPoll.finished.Succeeds := by rintro e ⟨⟩

instance : DecidablePred StreamPoll.Succeeds
  | .failed e => isFalse fun h => h e rfl
  | .pending => isTrue StreamPoll.succeeds_pending
  | .chunk bytes => isTrue (StreamPoll.succeeds_chunk bytes)
  | .finished => isTrue StreamPoll.succeeds_finished

/-- In `n` polls the trace is given and then nothing, and the last item is given only after all the
others were sent. -/
structure FailsForGood (queue : List PendingChunk) (n : ℕ) : Prop where
  stops : ∀ i < n, (polls n queue).1[i]? = some ((trace queue).getD i .finished)
  complete : ∀ i < n, ∀ data, (polls n queue).1[i]? = some (.chunk data) →
    (polls (i + 1) queue).2 = [] →
    (∀ p ∈ allPolls queue, p.Succeeds) ∧ received (polls (i + 1) queue).1 = queueBytes queue

theorem allPolls_cons (item : PendingChunk) (queue : List PendingChunk) :
    allPolls (item :: queue) = item.polls ++ allPolls queue := List.flatMap_cons

theorem upToFailure_cons {p : StreamPoll} (hp : p.Succeeds) (ps : List StreamPoll) :
    upToFailure (p :: ps) = p :: upToFailure ps := by
  cases p with
  | failed e => exact absurd rfl (hp e)
  | pending => rfl
  | chunk data => rfl
  | finished => rfl

/-- Without a failure the trace is everything. -/
theorem upToFailure_of_succeeds {ps : List StreamPoll} (h : ∀ p ∈ ps, p.Succeeds) :
    upToFailure ps = ps := by
  induction ps with
  | nil => rfl
  | cons p ps ih =>
      obtain ⟨hp, hps⟩ := List.forall_mem_cons.1 h
      rw [upToFailure_cons hp, ih hps]

/-- And a trace without a failure is everything. -/
theorem succeeds_of_upToFailure {ps : List StreamPoll} (h : ∀ p ∈ upToFailure ps, p.Succeeds) :
    ∀ p ∈ ps, p.Succeeds := by
  induction ps with
  | nil => exact h
  | cons p ps ih =>
      cases p with
      | failed e => exact absurd rfl (h _ List.mem_cons_self e)
      | pending => exact List.forall_mem_cons.2 ⟨by rintro e ⟨⟩, ih (List.forall_mem_cons.1 h).2⟩
      | chunk data => exact List.forall_mem_cons.2 ⟨by rintro e ⟨⟩, ih (List.forall_mem_cons.1 h).2⟩
      | finished => exact List.forall_mem_cons.2 ⟨by rintro e ⟨⟩, ih (List.forall_mem_cons.1 h).2⟩

/-- Nothing comes after a failure in the trace. -/
theorem upToFailure_getD {ps : List StreamPoll} {e : OxiHttpError} {i j : ℕ}
    (h : (upToFailure ps).getD j .finished = .failed e) (hi : j < i) :
    (upToFailure ps).getD i .finished = .finished := by
  induction ps generalizing i j with
  | nil => rfl
  | cons p ps ih =>
      obtain ⟨i, rfl⟩ : ∃ k, i = k + 1 := ⟨i - 1, by omega⟩
      by_cases hp : p.Succeeds
      · rw [upToFailure_cons hp] at h ⊢
        cases j with
        | zero => exact absurd h (hp e)
        | succ j => exact ih h (by omega)
      · obtain ⟨e', rfl⟩ : ∃ e', p = .failed e' := by
          rw [StreamPoll.Succeeds] at hp
          push Not at hp
          exact hp
        rfl

/-! ### One poll -/

/-- What the first of the polls is, and what is left: after a failure, any of the rest. -/
def Takes (all : List StreamPoll) (p : StreamPoll) (left : List StreamPoll) : Prop :=
  match p with
  | .finished => all = [] ∧ left = []
  | .failed e => ∃ dropped, all = .failed e :: (dropped ++ left)
  | p => all = p :: left

theorem pollSource_takes (stream : List SourcePoll) :
    Takes (stream.flatMap SourcePoll.polls) (pollSource stream).1
      ((pollSource stream).2.flatMap SourcePoll.polls) := by
  induction stream with
  | nil => exact ⟨rfl, rfl⟩
  | cons event stream ih =>
      rw [List.flatMap_cons]
      cases event with
      | pending => rfl
      | failed e => exact ⟨[], rfl⟩
      | chunk data =>
          rw [pollSource, SourcePoll.polls]
          by_cases hempty : data.isEmpty = true
          · rw [if_pos hempty, if_pos hempty]
            exact ih
          · rw [if_neg hempty, if_neg hempty]
            rfl

/-- A poll takes the first of what the items have to give; only a failure drops more. -/
theorem pollNext_allPolls (queue : List PendingChunk) :
    Takes (allPolls queue) (pollNext queue).1 (allPolls (pollNext queue).2) := by
  induction queue with
  | nil => exact ⟨rfl, rfl⟩
  | cons item queue ih =>
      rw [allPolls_cons]
      cases item with
      | ready data =>
          rw [pollNext, PendingChunk.polls]
          by_cases hempty : data.isEmpty = true
          · rw [if_pos hempty, if_pos hempty]
            exact ih
          · rw [if_neg hempty, if_neg hempty]
            rfl
      | nested stream =>
          have hsource := pollSource_takes stream
          rw [pollNext, PendingChunk.polls]
          rcases hs : pollSource stream with ⟨q, stream'⟩
          rw [hs] at hsource
          cases q with
          | finished =>
              rw [hsource.1]
              exact ih
          | failed e =>
              obtain ⟨dropped, hall⟩ := hsource
              refine ⟨dropped ++ stream'.flatMap SourcePoll.polls, ?_⟩
              rw [hall, List.cons_append]
          | pending =>
              have hall : stream.flatMap SourcePoll.polls = _ := hsource
              change _ ++ allPolls queue = _
              rw [hall, allPolls_cons, PendingChunk.polls, List.cons_append]
          | chunk data =>
              have hall : stream.flatMap SourcePoll.polls = _ := hsource
              change _ ++ allPolls queue = _
              rw [hall, allPolls_cons, PendingChunk.polls, List.cons_append]

/-- The trace, by what the next poll gives. -/
theorem trace_pollNext (queue : List PendingChunk) :
    (pollNext queue = (.finished, []) ∧ trace queue = []) ∨
      (∃ e, (pollNext queue).1 = .failed e ∧ trace queue = [.failed e]) ∨
      ((pollNext queue).1.Succeeds ∧
        trace queue = (pollNext queue).1 :: trace (pollNext queue).2) := by
  have htakes := pollNext_allPolls queue
  rcases hnext : pollNext queue with ⟨p, queue'⟩
  rw [hnext] at htakes
  cases p with
  | finished =>
      have hnil := (pollNext_bytes hnext (by rintro e ⟨⟩)).2 rfl
      exact .inl ⟨by rw [hnil], by rw [trace, htakes.1]; rfl⟩
  | failed e =>
      obtain ⟨dropped, hall⟩ := htakes
      exact .inr (.inl ⟨e, rfl, by rw [trace, hall]; rfl⟩)
  | pending =>
      have hall : allPolls queue = _ := htakes
      exact .inr (.inr ⟨by rintro e ⟨⟩, by rw [trace, hall]; rfl⟩)
  | chunk data =>
      have hall : allPolls queue = _ := htakes
      exact .inr (.inr ⟨by rintro e ⟨⟩, by rw [trace, hall]; rfl⟩)

/-! ### A number of polls -/

theorem polls_zero_getElem (n : ℕ) (queue : List PendingChunk) :
    (polls (n + 1) queue).1[0]? = some (pollNext queue).1 := rfl

theorem polls_succ_getElem (n i : ℕ) (queue : List PendingChunk) :
    (polls (n + 1) queue).1[i + 1]? = (polls n (pollNext queue).2).1[i]? := rfl

theorem polls_nil_getElem {n i : ℕ} (hi : i < n) : (polls n []).1[i]? = some .finished := by
  induction n generalizing i with
  | zero => omega
  | succ n ih =>
      cases i with
      | zero => rfl
      | succ i =>
          rw [polls_succ_getElem]
          exact ih (by omega)

/-- Less polls give the start of what more polls give. -/
theorem polls_take {m n : ℕ} (h : m ≤ n) (queue : List PendingChunk) :
    (polls m queue).1 = (polls n queue).1.take m := by
  induction m generalizing n queue with
  | zero => rfl
  | succ m ih =>
      cases n with
      | zero => omega
      | succ n => rw [polls, polls, ih (Nat.le_of_succ_le_succ h), List.take_succ_cons]

/-- Up to the first failure, and without one for ever, the polls give the trace and then nothing. -/
theorem polls_trace {n i : ℕ} {queue : List PendingChunk} (hi : i < n)
    (h : i < (trace queue).length ∨ ∀ p ∈ trace queue, p.Succeeds) :
    (polls n queue).1[i]? = some ((trace queue).getD i .finished) := by
  induction n generalizing i queue with
  | zero => omega
  | succ n ih =>
      rcases trace_pollNext queue with ⟨hnext, htrace⟩ | ⟨e, hnext, htrace⟩ | ⟨hp, htrace⟩
      · rw [htrace, List.getD_nil]
        cases i with
        | zero => rw [polls_zero_getElem, hnext]
        | succ i =>
            rw [polls_succ_getElem, hnext]
            exact polls_nil_getElem (by omega)
      · cases i with
        | zero =>
            rw [polls_zero_getElem, hnext, htrace]
            rfl
        | succ i =>
            -- a poll after the failure is excluded
            rw [htrace] at h
            rcases h with h | h
            · simp at h
            · exact absurd rfl (h _ List.mem_cons_self e)
      · rw [htrace] at h ⊢
        cases i with
        | zero => exact polls_zero_getElem n queue
        | succ i =>
            rw [polls_succ_getElem, List.getD_cons_succ]
            refine ih (by omega) (h.imp (fun hlt => ?_) fun hall => ?_)
            · rw [List.length_cons] at hlt
              omega
            · exact (List.forall_mem_cons.1 hall).2

/-- What the items have to give is given by the polls that succeed, or is still to be given. -/
theorem mem_polls_or {n : ℕ} {queue : List PendingChunk}
    (h : ∀ p ∈ (polls n queue).1, p.Succeeds) {p : StreamPoll} (hp : p ∈ allPolls queue) :
    p ∈ (polls n queue).1 ∨ p ∈ allPolls (polls n queue).2 := by
  induction n generalizing queue with
  | zero => exact .inr hp
  | succ n ih =>
      obtain ⟨hfirst, hrest⟩ := List.forall_mem_cons.1 h
      have htakes := pollNext_allPolls queue
      rcases hnext : pollNext queue with ⟨q, queue'⟩
      rw [hnext] at htakes hfirst hrest
      rw [polls, hnext]
      have hcons : allPolls queue = q :: allPolls queue' → p ∈ q :: (polls n queue').1 ∨
          p ∈ allPolls (polls n queue').2 := by
        intro hall
        rw [hall] at hp
        rcases List.mem_cons.1 hp with rfl | hp
        · exact .inl List.mem_cons_self
        · exact (ih hrest hp).imp (List.mem_cons_of_mem _) id
      cases q with
      | finished =>
          rw [htakes.1] at hp
          cases hp
      | failed e => exact absurd rfl (hfirst e)
      | pending => exact hcons htakes
      | chunk data => exact hcons htakes

/-- When the polls give the trace and then nothing, and one of them gives the last item, everything
was sent before it. -/
theorem complete_of_stops {n i : ℕ} {queue : List PendingChunk} {data : List UInt8}
    (hstops : ∀ i < n, (polls n queue).1[i]? = some ((trace queue).getD i .finished)) (hi : i < n)
    (hchunk : (polls n queue).1[i]? = some (.chunk data)) (hnil : (polls (i + 1) queue).2 = []) :
    (∀ p ∈ allPolls queue, p.Succeeds) ∧ received (polls (i + 1) queue).1 = queueBytes queue := by
  have hlog : ∀ p ∈ (polls (i + 1) queue).1, p.Succeeds := by
    rintro p hp e rfl
    rw [polls_take hi queue] at hp
    obtain ⟨j, hj⟩ := List.mem_iff_getElem?.1 hp
    rw [List.getElem?_take] at hj
    split_ifs at hj with hjlt
    have hfailed : (trace queue).getD j .finished = .failed e := by
      rw [hstops j (by omega), Option.some.injEq] at hj
      exact hj
    rcases Nat.lt_succ_iff_lt_or_eq.1 hjlt with hlt | rfl
    · -- the failure would be the end of the trace
      rw [hstops i hi, trace, upToFailure_getD hfailed hlt] at hchunk
      cases hchunk
    · rw [hstops j hi, hfailed] at hchunk
      cases hchunk
  refine ⟨fun p hp => ?_, ?_⟩
  · rcases mem_polls_or hlog hp with hmem | hmem
    · exact hlog p hmem
    · rw [hnil] at hmem
      cases hmem
  · rcases hrun : polls (i + 1) queue with ⟨log, queue'⟩
    rw [hrun] at hlog hnil
    obtain rfl : queue' = [] := hnil
    rw [(polls_received hrun hlog).1]
    exact (List.append_nil _).symm

/-! ### After a failure -/

/-- Behind every stream there is an item that is ready and not empty. -/
def Followed : List PendingChunk → Prop
  | [] => True
  | .ready _ :: queue => Followed queue
  | .nested _ :: queue =>
      (∃ data rest, queue = .ready data :: rest ∧ data ≠ []) ∧ Followed queue

/-- A poll keeps the item behind a stream; after a failure it is the next one. -/
theorem pollNext_followed {queue : List PendingChunk} (h : Followed queue) :
    Followed (pollNext queue).2 ∧ ∀ e, (pollNext queue).1 = .failed e →
      ∃ data rest, (pollNext queue).2 = .ready data :: rest ∧ data ≠ [] := by
  induction queue with
  | nil => exact ⟨h, by rintro e ⟨⟩⟩
  | cons item queue ih =>
      cases item with
      | ready data =>
          rw [pollNext]
          by_cases hempty : data.isEmpty = true
          · rw [if_pos hempty]
            exact ih h
          · rw [if_neg hempty]
            exact ⟨h, by rintro e ⟨⟩⟩
      | nested stream =>
          obtain ⟨hbehind, hrest⟩ := h
          rw [pollNext]
          rcases pollSource stream with ⟨q, stream'⟩
          cases q with
          | finished => exact ih hrest
          | failed e => exact ⟨hrest, fun _ _ => hbehind⟩
          | pending => exact ⟨⟨hbehind, hrest⟩, by rintro e ⟨⟩⟩
          | chunk data => exact ⟨⟨hbehind, hrest⟩, by rintro e ⟨⟩⟩

/-- The poll after the one that fails gives the item behind the stream. -/
theorem polls_after_failure {n : ℕ} {queue : List PendingChunk} (hqueue : Followed queue)
    (hfail : ∃ p ∈ trace queue, ¬ p.Succeeds) (hn : (trace queue).length < n) :
    ∃ data, (polls n queue).1[(trace queue).length]? = some (.chunk data) := by
  induction n generalizing queue with
  | zero => omega
  | succ n ih =>
      obtain ⟨hqueue', hnextItem⟩ := pollNext_followed hqueue
      rcases trace_pollNext queue with ⟨hnext, htrace⟩ | ⟨e, hnext, htrace⟩ | ⟨hp, htrace⟩
      · obtain ⟨p, hmem, -⟩ := hfail
        rw [htrace] at hmem
        cases hmem
      · obtain ⟨data, rest, hleft, hne⟩ := hnextItem e hnext
        obtain ⟨n, rfl⟩ : ∃ k, n = k + 1 := ⟨n - 1, by
          rw [htrace, List.length_singleton] at hn
          omega⟩
        refine ⟨data, ?_⟩
        rw [htrace, List.length_singleton, polls_succ_getElem, polls_zero_getElem, hleft, pollNext,
          if_neg (by rwa [List.isEmpty_iff])]
      · rw [htrace, List.length_cons] at hn ⊢
        rw [polls_succ_getElem]
        refine ih hqueue' ?_ (by omega)
        obtain ⟨p, hmem, hfailed⟩ := hfail
        rw [htrace] at hmem
        rcases List.mem_cons.1 hmem with rfl | hmem
        · exact absurd hp hfailed
        · exact ⟨p, hmem, hfailed⟩

/-- So it is in the queue of a body. -/
theorem followed_queueOf (boundary : Str) (parts : List PartOrStream) :
    Followed (queueOf boundary parts) := by
  unfold queueOf
  induction parts with
  | nil => trivial
  | cons part parts ih =>
      rw [List.flatMap_cons, List.append_assoc]
      cases part with
      | buffered part => exact ih
      | streamed headers stream =>
          exact ⟨⟨_, _, rfl, by rw [encode_crlf]; exact List.cons_ne_nil _ _⟩, ih⟩

/-! ### The body -/

/-- **A failure is the end exactly when the body is not polled after it**: the polls of a streamed
body give everything up to the first failure and then nothing, and the closing delimiter only when
everything was sent, as long as there is no failure, or no poll after it. -/
theorem StreamingMultipart.failsForGood_iff (streaming : StreamingMultipart)
    {queue : List PendingChunk} (hqueue : streaming.buildStream = some queue) (n : ℕ) :
    FailsForGood queue n ↔ (∀ p ∈ allPolls queue, p.Succeeds) ∨ n ≤ (trace queue).length := by
  constructor
  · intro h
    by_contra hnot
    rw [not_or, not_le] at hnot
    obtain ⟨hfail, hn⟩ := hnot
    have hfollowed : Followed queue := by
      rw [buildStream_eq] at hqueue
      obtain ⟨boundary, -, rfl⟩ := Option.map_eq_some_iff.1 hqueue
      exact followed_queueOf boundary streaming.parts
    have hfail' : ∃ p ∈ trace queue, ¬ p.Succeeds := by
      by_contra hall
      push Not at hall
      exact hfail (succeeds_of_upToFailure hall)
    -- the poll after the failure is to give nothing, and gives the item behind the stream
    obtain ⟨data, hdata⟩ := polls_after_failure hfollowed hfail' hn
    have hstops := h.stops _ hn
    rw [hdata, List.getD_eq_default _ _ le_rfl] at hstops
    cases hstops
  · intro h
    have htrace : ∀ i < n, i < (trace queue).length ∨ ∀ p ∈ trace queue, p.Succeeds := by
      intro i hi
      rcases h with h | h
      · exact .inr (by rwa [trace, upToFailure_of_succeeds h])
      · exact .inl (by omega)
    have hstops : ∀ i < n, (polls n queue).1[i]? = some ((trace queue).getD i .finished) :=
      fun i hi => polls_trace hi (htrace i hi)
    exact ⟨hstops, fun i hi data => complete_of_stops hstops hi⟩

/-! ### A part that fails -/

/-- A body of one part, whose stream gives a chunk and fails. -/
def failingUpload : StreamingMultipart :=
  (MultipartBuilder.new 0 0).addStreamPart []
    [.chunk (Utf8.encode "partial".toList), .failed (.body "simulated read failure")]

/-- A body of one part, whose stream gives a chunk and ends. -/
def soundUpload : StreamingMultipart :=
  (MultipartBuilder.new 0 0).addStreamPart [] [.chunk (Utf8.encode "partial".toList)]

/-- Without a buffered part the boundary is the stored one. -/
theorem buildStream_of_streamed {streaming : StreamingMultipart}
    (h : ∀ part, .buffered part ∉ streaming.parts) :
    streaming.buildStream = some (queueOf streaming.boundary streaming.parts) := by
  have hfree : streaming.hasCollision streaming.boundary = false :=
    StreamingMultipart.hasCollision_eq_false_iff.2 fun part hpart => absurd hpart (h part)
  rw [StreamingMultipart.buildStream_eq, StreamingMultipart.findUniqueBoundary,
    uniqueBoundary_of_free hfree]
  rfl

/-- A body that does not fail may be polled for ever. -/
theorem failsForGood_soundUpload :
    FailsForGood (queueOf soundUpload.boundary soundUpload.parts) 1000 :=
  (soundUpload.failsForGood_iff (buildStream_of_streamed (by
    rintro part hpart
    cases List.mem_singleton.1 hpart)) 1000).2 (.inl (by decide))

/-- A body that fails goes on after the failure, with the line break and the closing delimiter. -/
theorem not_failsForGood_failingUpload :
    ∃ queue, failingUpload.buildStream = some queue ∧ ¬ FailsForGood queue 5 := by
  refine ⟨_, buildStream_of_streamed (by
    rintro part hpart
    cases List.mem_singleton.1 hpart), fun h => ?_⟩
  -- the fifth poll gives the closing delimiter
  have hclosing := (h.complete 4 (by decide)
    (Utf8.encode ("--".toList ++ failingUpload.boundary ++ "--\r\n".toList)) rfl rfl).1
  exact absurd rfl (hclosing (.failed (.body "simulated read failure")) (by decide) _)

end OxiHttp
