/-
**Streaming a range of a file.**

A `FileRangeStream` is polled while its file is read in the background: a read may have nothing yet,
give fewer bytes than were asked for, fail, or come to the end of a file that has become shorter
than its range.  Whatever the reads do, the chunks are small, they are the bytes of the range in
order, and the stream ends.

A file that becomes shorter while it is read gives the bytes that it gave until then, and no more:
it is a shorter file from the beginning.

Main definitions:

* `OxiHttp.FileRangeStream.Polled` — what a poll can come to;
* `OxiHttp.answeredCount` — the reads that came to something.

Main results:

* `OxiHttp.FileRangeStream.pollNext_polled` — every poll comes to one of these;
* `OxiHttp.FileRangeStream.polls_bytes`, `OxiHttp.FileRangeStream.polls_progress` — what any number
  of polls do, whatever the reads do;
* `OxiHttp.streamFileRange_streams` — the stream of a range.
-/

import OxiHttp.FileBody

set_option relaxedAutoImplicit false
set_option autoImplicit false

namespace OxiHttp

/-- The number of reads that came to something: some bytes, the end of the file or an error. -/
def answeredCount (reads : List ReadEvent) : ℕ := reads.countP fun read => read ≠ .pending

/-- A chunk has something in it, and no more than the buffer holds. -/
def StreamPoll.IsSmall (p : StreamPoll) : Prop :=
  ∀ data, p = .chunk data → data ≠ [] ∧ data.length ≤ 64 * 1024

/-- The last poll of a stream: its end, or a failure. -/
def StreamPoll.IsLast (p : StreamPoll) : Prop := p = .finished ∨ ∃ e, p = .failed e

namespace FileRangeStream

variable {s s' : FileRangeStream}

/-- What a poll can come to. -/
inductive Polled (s : FileRangeStream) : ReadEvent → StreamPoll → FileRangeStream → Prop where
  | done {read : ReadEvent} : s.remaining = 0 → Polled s read .finished s
  | pending : Polled s .pending .pending s
  | failed (e : OxiHttpError) : Polled s (.failed e) (.failed e) ⟨s.file, 0⟩
  | endOfFile {more : ℕ} : s.file = [] → Polled s (.ready more) .finished ⟨s.file, 0⟩
  | chunk {more n : ℕ} : n + 1 ≤ min s.remaining chunkSize → n + 1 ≤ s.file.length →
      Polled s (.ready more) (.chunk (s.file.take (n + 1)))
        ⟨s.file.drop (n + 1), s.remaining - (n + 1)⟩

/-- Every poll comes to one of these. -/
theorem pollNext_polled (s : FileRangeStream) (read : ReadEvent) :
    Polled s read (s.pollNext read).1 (s.pollNext read).2 := by
  by_cases hzero : s.remaining = 0
  · rw [pollNext_of_done hzero]
    exact .done hzero
  · rw [pollNext, if_neg hzero]
    cases read with
    | pending => exact .pending
    | failed e => exact .failed e
    | ready more =>
        dsimp only
        split_ifs with hlen
        · -- nothing is left of the file
          rw [List.length_eq_zero_iff, List.take_eq_nil_iff] at hlen
          have hmin : min (more + 1) (min s.remaining chunkSize) ≠ 0 := by
            unfold chunkSize
            omega
          exact .endOfFile (hlen.resolve_left hmin)
        · obtain ⟨n, hn⟩ := Nat.exists_eq_succ_of_ne_zero hlen
          have htake : s.file.take (min (more + 1) (min s.remaining chunkSize))
              = s.file.take (n + 1) := by
            rw [List.take_eq_take_iff]
            rw [List.length_take] at hn
            omega
          rw [hn, htake]
          rw [List.length_take] at hn
          exact .chunk (by omega) (by omega)

/-! ### One poll -/

variable {read : ReadEvent} {p : StreamPoll}

theorem Polled.isSmall (h : Polled s read p s') : p.IsSmall := by
  intro data hdata
  cases h with
  | chunk hn hlen =>
      cases hdata
      unfold chunkSize at hn
      refine ⟨List.ne_nil_of_length_pos ?_, ?_⟩
      · rw [List.length_take]
        omega
      · rw [List.length_take]
        omega
  | _ => cases hdata

/-- A poll takes its bytes from those that are pending. -/
theorem Polled.bytes (h : Polled s read p s') : p.bytes ++ s'.pending <+: s.pending := by
  cases h with
  | done => exact List.prefix_rfl
  | pending => exact List.prefix_rfl
  | failed e => exact List.nil_prefix
  | endOfFile => exact List.nil_prefix
  | @chunk _ n hn _ =>
      have hsplit : s.remaining = (n + 1) + (s.remaining - (n + 1)) := by omega
      have hpending : s.pending = s.file.take (n + 1)
          ++ (s.file.drop (n + 1)).take (s.remaining - (n + 1)) := by
        rw [FileRangeStream.pending]
        conv_lhs => rw [hsplit, List.take_add]
      rw [hpending]
      exact List.prefix_rfl

/-- A read that came to something takes a byte from what is to be read, or ends the stream. -/
theorem Polled.progress (h : Polled s read p s') :
    s'.remaining ≤ s.remaining - answeredCount [read] := by
  cases h with
  | done hzero => simp [hzero]
  | pending => exact le_rfl
  | failed e => exact Nat.zero_le _
  | endOfFile => exact Nat.zero_le _
  | chunk => exact Nat.sub_le_sub_left (Nat.le_add_left _ _) _

theorem Polled.isLast (h : Polled s read p s') (hp : p.IsLast) : s'.remaining = 0 := by
  cases h with
  | done hzero => exact hzero
  | pending => simp [StreamPoll.IsLast] at hp
  | failed e => rfl
  | endOfFile => rfl
  | chunk => simp [StreamPoll.IsLast] at hp

/-! ### Any number of polls -/

/-- A stream that has nothing left to read has ended. -/
theorem polls_of_done (h : s.remaining = 0) (reads : List ReadEvent) :
    ∀ p ∈ (polls reads s).1, p = .finished := by
  induction reads with
  | nil => exact nofun
  | cons read reads ih =>
      rw [polls, pollNext_of_done h, List.forall_mem_cons]
      exact ⟨rfl, ih⟩

theorem polls_isSmall (s : FileRangeStream) (reads : List ReadEvent) :
    ∀ p ∈ (polls reads s).1, p.IsSmall := by
  induction reads generalizing s with
  | nil => exact nofun
  | cons read reads ih =>
      rw [polls, List.forall_mem_cons]
      exact ⟨(pollNext_polled s read).isSmall, ih _⟩

/-- The bytes of the polls are the first of those that are pending. -/
theorem polls_bytes (s : FileRangeStream) (reads : List ReadEvent) :
    received (polls reads s).1 <+: s.pending := by
  induction reads generalizing s with
  | nil => exact List.nil_prefix
  | cons read reads ih =>
      rw [polls, received_cons]
      refine List.IsPrefix.trans ?_ (pollNext_polled s read).bytes
      exact (List.prefix_append_right_inj _).2 (ih _)

theorem polls_progress (s : FileRangeStream) (reads : List ReadEvent) :
    (polls reads s).2.remaining ≤ s.remaining - answeredCount reads := by
  induction reads generalizing s with
  | nil => exact le_rfl
  | cons read reads ih =>
      have hstep := (pollNext_polled s read).progress
      have hrest := ih (s.pollNext read).2
      have hcount : answeredCount (read :: reads) = answeredCount reads + answeredCount [read] :=
        List.countP_cons.trans (by rw [answeredCount, answeredCount, List.countP_singleton])
      rw [polls, hcount]
      dsimp only
      omega

/-- Nothing comes behind the last poll of a stream. -/
theorem polls_behind {reads : List ReadEvent} {front behind : List StreamPoll}
    (h : (polls reads s).1 = front ++ p :: behind) (hp : p.IsLast) :
    ∀ q ∈ behind, q = .finished := by
  induction reads generalizing s front with
  | nil => simp [polls] at h
  | cons read reads ih =>
      rw [polls] at h
      cases front with
      | nil =>
          obtain ⟨rfl, rfl⟩ := List.cons.inj h
          exact polls_of_done ((pollNext_polled s read).isLast hp) reads
      | cons q front => exact ih (List.cons.inj h).2

end FileRangeStream

/-- A stream of a range of a file, over all the ways its reads may go.  If the range lies within the
file and no read fails, the range is delivered.  In any case the chunks are small, they are the
first bytes of the range, there are no more than so many reads that come to something until the
stream ends, and nothing comes behind its end or a failure. -/
structure StreamsRange (content : List UInt8) (start len : ℕ) (s : FileRangeStream) : Prop where
  delivers : start + len ≤ content.length → s.Delivers ((content.drop start).take len)
  small : ∀ reads, ∀ p ∈ (FileRangeStream.polls reads s).1, p.IsSmall
  inOrder : ∀ reads, received (FileRangeStream.polls reads s).1 <+: (content.drop start).take len
  ends : ∀ reads, len < answeredCount reads →
    ∀ later, ∀ p ∈ (FileRangeStream.polls later (FileRangeStream.polls reads s).2).1, p = .finished
  behind : ∀ reads front p behind, (FileRangeStream.polls reads s).1 = front ++ p :: behind → p.IsLast →
    ∀ q ∈ behind, q = .finished

/-- What `stream_file_range` opens streams its range. -/
theorem streamFileRange_streams (metadata : Except OxiHttpError FileMetadata)
    (content : List UInt8) (start len : ℕ) :
    ∃ s, streamFileRange ⟨metadata, .ok content, .ok ()⟩ start len = .ok (.stream s) ∧
      StreamsRange content start len s := by
  have hopen : streamFileRange ⟨metadata, .ok content, .ok ()⟩ start len
      = .ok (.stream ⟨content.drop start, len⟩) := by
    unfold streamFileRange
    by_cases hstart : 0 < start <;> simp only [hstart, if_true, if_false] <;> rfl
  refine ⟨⟨content.drop start, len⟩, hopen, ?_⟩
  constructor
  case delivers =>
      intro hle
      refine FileRangeStream.delivers_of_le ?_
      change len ≤ (content.drop start).length
      rw [List.length_drop]
      omega
  case small => exact FileRangeStream.polls_isSmall _
  case inOrder => exact FileRangeStream.polls_bytes _
  case ends =>
      intro reads hcount later
      have hprogress := FileRangeStream.polls_progress ⟨content.drop start, len⟩ reads
      refine FileRangeStream.polls_of_done ?_ later
      dsimp only at hprogress
      omega
  case behind =>
      intro reads front p behind h hp
      exact FileRangeStream.polls_behind h hp

end OxiHttp
