/-
**The bodies of static files.**

Whatever number of bytes each read of a file gives, the polls of a body deliver the bytes of its
range, in order and no others; and the header fields of the response announce them.  The bodies of
ranges that follow each other from the first byte to the last are the file.

Main definitions:

* `OxiHttp.FileRangeStream.Delivers` — what any number of polls give, as long as no read fails;
* `OxiHttp.StoredFile` — a file that does not change during the request;
* `OxiHttp.AnsweredAsAnnounced` — the status, the fields and the body of a response agree.

Main results:

* `OxiHttp.FileRangeStream.delivers_of_le` — a stream delivers the bytes of its range;
* `OxiHttp.staticResponses_consistent` — and so do the responses.
-/

import OxiHttp.StaticFile

set_option relaxedAutoImplicit false
set_option autoImplicit false

namespace OxiHttp

/-! ### Polling a body -/

/-- A read that does not fail. -/
def ReadEvent.Succeeds (read : ReadEvent) : Prop := ∀ e, read ≠ .failed e

/-- The number of reads that give something, if there is anything left. -/
def readyCount (reads : List ReadEvent) : ℕ :=
  reads.countP fun
    | .ready _ => true
    | _ => false

namespace FileRangeStream

/-- What the stream still has to deliver. -/
def pending (s : FileRangeStream) : List UInt8 := s.file.take s.remaining

/-- The range lies within what is left of the file. -/
def InFile (s : FileRangeStream) : Prop := s.remaining ≤ s.file.length

theorem pollNext_of_done {s : FileRangeStream} (h : s.remaining = 0) (read : ReadEvent) :
    s.pollNext read = (.finished, s) := if_pos h

theorem pollNext_pending {s : FileRangeStream} (h : s.remaining ≠ 0) :
    s.pollNext .pending = (.pending, s) := if_neg h

/-- A read that is ready gives at least one byte. -/
theorem pollNext_ready {s : FileRangeStream} (hs : s.InFile) (h : s.remaining ≠ 0) (more : ℕ) :
    ∃ n, n + 1 ≤ s.remaining ∧ s.pollNext (.ready more)
      = (.chunk (s.file.take (n + 1)), ⟨s.file.drop (n + 1), s.remaining - (n + 1)⟩) := by
  have hle : s.remaining ≤ s.file.length := hs
  obtain ⟨n, hn⟩ : ∃ n, min (more + 1) (min s.remaining chunkSize) = n + 1 :=
    ⟨min (more + 1) (min s.remaining chunkSize) - 1, by unfold chunkSize; omega⟩
  have hlen : (s.file.take (n + 1)).length = n + 1 := by
    rw [List.length_take]
    omega
  refine ⟨n, by omega, ?_⟩
  rw [pollNext, if_neg h]
  dsimp only
  rw [hn, hlen, if_neg (Nat.succ_ne_zero n)]

/-- What one poll does: it takes its bytes from what is pending, it is finished just when nothing
is, and a read that is ready gives something. -/
structure PollStep (s : FileRangeStream) (read : ReadEvent) (p : StreamPoll)
    (s' : FileRangeStream) : Prop where
  inFile : s'.InFile
  bytes : s.pending = p.bytes ++ s'.pending
  succeeds : p.Succeeds
  finished_iff : p = .finished ↔ s.remaining = 0
  remaining_le : s'.remaining ≤ s.remaining
  progress : ∀ more, read = .ready more → s'.remaining ≤ s.remaining - 1

theorem pollNext_step {s : FileRangeStream} (hs : s.InFile) {read : ReadEvent}
    (hread : read.Succeeds) : PollStep s read (s.pollNext read).1 (s.pollNext read).2 := by
  have hle : s.remaining ≤ s.file.length := hs
  by_cases hzero : s.remaining = 0
  · rw [pollNext_of_done hzero]
    exact ⟨hs, rfl, nofun, iff_of_true rfl hzero, le_rfl, fun _ _ => hzero.le.trans (Nat.zero_le _)⟩
  · cases read with
    | pending =>
        rw [pollNext_pending hzero]
        exact ⟨hs, rfl, nofun, iff_of_false nofun hzero, le_rfl,
          nofun⟩
    | failed e => exact absurd rfl (hread e)
    | ready more =>
        obtain ⟨n, hn, hpoll⟩ := pollNext_ready hs hzero more
        rw [hpoll]
        refine ⟨?_, ?_, nofun, iff_of_false nofun hzero,
          Nat.sub_le _ _, fun _ _ => Nat.sub_le_sub_left (Nat.le_add_left _ _) _⟩
        · change s.remaining - (n + 1) ≤ (s.file.drop (n + 1)).length
          rw [List.length_drop]
          omega
        · -- the first bytes, and the others
          have hsplit : s.remaining = (n + 1) + (s.remaining - (n + 1)) := by omega
          change s.file.take s.remaining
            = s.file.take (n + 1) ++ (s.file.drop (n + 1)).take (s.remaining - (n + 1))
          conv_lhs => rw [hsplit, List.take_add]

/-- What any number of polls do. -/
theorem polls_run {reads : List ReadEvent} (hreads : ∀ read ∈ reads, read.Succeeds)
    {s : FileRangeStream} (hs : s.InFile) :
    (polls reads s).2.InFile ∧
      s.pending = received (polls reads s).1 ++ (polls reads s).2.pending ∧
      (∀ p ∈ (polls reads s).1, p.Succeeds) ∧
      (polls reads s).2.remaining ≤ s.remaining - readyCount reads := by
  induction reads generalizing s with
  | nil => exact ⟨hs, rfl, nofun, le_rfl⟩
  | cons read reads ih =>
      rw [List.forall_mem_cons] at hreads
      have hstep := pollNext_step hs hreads.1
      obtain ⟨hs'', hbytes', hpolls, hcount⟩ := ih hreads.2 hstep.inFile
      refine ⟨hs'', ?_, List.forall_mem_cons.2 ⟨hstep.succeeds, hpolls⟩, ?_⟩
      · rw [polls, received_cons, hstep.bytes, hbytes', List.append_assoc]
      · have hle := hstep.remaining_le
        rw [polls]
        dsimp only
        cases read with
        | ready more =>
            have hless := hstep.progress more rfl
            have hcons : readyCount (.ready more :: reads) = readyCount reads + 1 := by
              simp [readyCount]
            omega
        | pending =>
            have hcons : readyCount (.pending :: reads) = readyCount reads := by simp [readyCount]
            omega
        | failed e => exact absurd rfl (hreads.1 e)

/-- The stream delivers these bytes, as long as no read fails: no poll fails, each number of polls
gives a first part of them, as many reads that are ready as there are bytes give all of them, and
the stream ends then and no earlier. -/
structure Delivers (s : FileRangeStream) (bytes : List UInt8) : Prop where
  clean : ∀ reads : List ReadEvent, (∀ read ∈ reads, read.Succeeds) →
    ∀ p ∈ (polls reads s).1, p.Succeeds
  inOrder : ∀ reads : List ReadEvent, (∀ read ∈ reads, read.Succeeds) →
    received (polls reads s).1 <+: bytes
  complete : ∀ reads : List ReadEvent, (∀ read ∈ reads, read.Succeeds) →
    bytes.length ≤ readyCount reads → received (polls reads s).1 = bytes
  ends : ∀ reads : List ReadEvent, (∀ read ∈ reads, read.Succeeds) → ∀ read : ReadEvent,
    read.Succeeds → (((polls reads s).2.pollNext read).1 = .finished ↔
      received (polls reads s).1 = bytes)

/-- A stream delivers the bytes of its range. -/
theorem delivers_of_le {s : FileRangeStream} (hs : s.InFile) : s.Delivers s.pending := by
  have hle : s.remaining ≤ s.file.length := hs
  have hlen : s.pending.length = s.remaining := by
    rw [pending, List.length_take]
    omega
  refine ⟨fun reads hreads => ?_, fun reads hreads => ?_, fun reads hreads hcount => ?_,
    fun reads hreads read hread => ?_⟩
  all_goals obtain ⟨hs', hbytes, hclean, hrest⟩ := polls_run hreads hs
  · exact hclean
  · exact ⟨_, hbytes.symm⟩
  · have hzero : (polls reads s).2.remaining = 0 := by omega
    rw [hbytes, pending, hzero, List.take_zero, List.append_nil]
  · have hfinished := (pollNext_step hs' hread).finished_iff
    have hle' : (polls reads s).2.remaining ≤ (polls reads s).2.file.length := hs'
    rw [hfinished, hbytes, List.self_eq_append_right, pending, List.take_eq_nil_iff,
      ← List.length_eq_zero_iff]
    omega

end FileRangeStream

/-! ### Files that do not change -/

/-- A file with its content, which stays as it is during the request. -/
structure StoredFile where
  content : List UInt8
  modified : Option ℤ
  length_lt : content.length < 2 ^ 64
  modified_lt : ∀ t ∈ modified, t / 10 ^ 9 < 2 ^ 63

namespace StoredFile

/-- The metadata of the file. -/
def metadata (file : StoredFile) : FileMetadata :=
  ⟨file.content.length, file.modified, file.length_lt, file.modified_lt⟩

/-- What the file system answers about it. -/
def access (file : StoredFile) : FileAccess where
  metadata := .ok file.metadata
  content := .ok file.content
  seek := .ok ()

@[simp] theorem metadata_len (file : StoredFile) : file.metadata.len = file.content.length := rfl

@[simp] theorem metadata_modified (file : StoredFile) : file.metadata.modified = file.modified :=
  rfl

@[simp] theorem access_metadata (file : StoredFile) : file.access.metadata = .ok file.metadata :=
  rfl

/-- A length that is a `u64` is a `usize`. -/
theorem min_length (file : StoredFile) :
    min file.content.length (2 ^ 64 - 1) = file.content.length := by
  have hlt := file.length_lt
  omega

/-- The bytes of a range, whose last position belongs to it. -/
def slice (file : StoredFile) (start last : ℕ) : List UInt8 :=
  (file.content.drop start).take (last - start + 1)

end StoredFile

/-- The body delivers these bytes. -/
def FileBody.Delivers : FileBody → List UInt8 → Prop
  | .empty, bytes => bytes = []
  | .stream s, bytes => s.Delivers bytes

theorem FileRangeStream.Delivers.unique {s : FileRangeStream} {a b : List UInt8}
    (ha : s.Delivers a) (hb : s.Delivers b) : a = b := by
  have hreads : ∀ n, ∀ read ∈ List.replicate n (ReadEvent.ready 0), read.Succeeds := by
    intro n read hread
    rw [List.eq_of_mem_replicate hread]
    nofun
  have hcount : ∀ n, readyCount (List.replicate n (ReadEvent.ready 0)) = n := by
    intro n
    simp [readyCount, List.countP_replicate]
  have hall := ha.complete (List.replicate (a.length + b.length) (.ready 0)) (hreads _)
    (by rw [hcount]; omega)
  have hall' := hb.complete (List.replicate (a.length + b.length) (.ready 0)) (hreads _)
    (by rw [hcount]; omega)
  rw [← hall, hall']

theorem FileBody.Delivers.unique {body : FileBody} {a b : List UInt8} (ha : body.Delivers a)
    (hb : body.Delivers b) : a = b := by
  cases body with
  | empty => exact Eq.trans ha (Eq.symm hb)
  | stream s => exact FileRangeStream.Delivers.unique ha hb

/-- The body of a `GET` request. -/
theorem bodyFor_get {file : StoredFile} (start len : ℕ) (h : start + len ≤ file.content.length) :
    ∃ body, bodyFor .get file.access start len = .ok body ∧
      body.Delivers ((file.content.drop start).take len) := by
  refine ⟨.stream ⟨file.content.drop start, len⟩, ?_, ?_⟩
  · unfold bodyFor streamFileRange
    rw [if_neg (by decide)]
    change (if 0 < start then _ else _) = _
    split_ifs <;> rfl
  · refine FileRangeStream.delivers_of_le ?_
    change len ≤ (file.content.drop start).length
    rw [List.length_drop]
    omega

/-! ### The responses -/

/-- No condition of the request keeps the file from it. -/
def Unconditional (file : StoredFile) (headers : HeaderMap) : Prop :=
  noneMatchFails headers (computeEtagFromMetadata file.content.length file.modified) = false ∧
    modifiedSinceFails headers file.modified ≠ .ok true

/-- The one value of a header field is this text. -/
def HasField (headers : HeaderMap) (name : String) (text : Str) : Prop :=
  headers.getAll name.toList = [⟨Utf8.encode text⟩]

/-- The text of a `Content-Range`. -/
def contentRange (start last len : ℕ) : Str :=
  "bytes ".toList ++ (toString start).toList ++ '-' :: (toString last).toList ++
    '/' :: (toString len).toList

/-- The response to a request for a range that is accepted. -/
structure AnswersRange (file : StoredFile) (start last : ℕ) (r : FileResponse) : Prop where
  status : r.status = 206
  contentRange : HasField r.headers "content-range"
    (contentRange start last file.content.length)
  contentLength : HasField r.headers "content-length" (toString (last - start + 1)).toList
  body : r.body.Delivers (file.slice start last)

/-- The response to a request for the whole file. -/
structure AnswersWhole (file : StoredFile) (r : FileResponse) : Prop where
  status : r.status = 200
  contentLength : HasField r.headers "content-length" (toString file.content.length).toList
  body : r.body.Delivers file.content

/-- The status, the header fields and the body of a response agree with the request. -/
def AnsweredAsAnnounced (file : StoredFile) (headers : HeaderMap) (r : FileResponse) : Prop :=
  match headerText headers "range" with
  | none => AnswersWhole file r
  | some range => ∀ start last, parseSingleRange range file.content.length = .ok (start, last) →
      AnswersRange file start last r

/-- The fields of a name among fields that are given as texts. -/
theorem getAll_encodeFields (fields : List (Str × Str)) (name : Str) :
    (HeaderMap.mk (encodeFields fields)).getAll name
      = ((fields.filter fun p => p.1 = name).map fun p => ⟨Utf8.encode p.2⟩) := by
  simp only [HeaderMap.getAll, encodeFields, List.filter_map, List.map_map]
  rfl

theorem filter_optionalField {name name' : Str} (h : name ≠ name') (text : Option Str) :
    (optionalField name text).filter (fun p => p.1 = name') = [] := by
  cases text with
  | none => rfl
  | some text => simp [optionalField, h]

theorem answersRange_of_partialResponse {file : StoredFile} {mime : Str}
    {cacheControl : Option Str} {start last : ℕ} {r : FileResponse} (hle : start ≤ last)
    (hlt : last < file.content.length)
    (h : partialResponse file.access file.metadata .get mime cacheControl start last = .ok r) :
    AnswersRange file start last r := by
  obtain ⟨-, body, hbody, rfl⟩ := partialResponse_eq_ok_iff.1 h
  obtain ⟨body', hbody', hdelivers⟩ := bodyFor_get start (last - start + 1)
    (by omega : start + (last - start + 1) ≤ file.content.length)
  rw [hbody] at hbody'
  cases hbody'
  refine ⟨rfl, ?_, ?_, hdelivers⟩
  · rw [HasField, getAll_encodeFields, partialFields, List.filter_append,
      filter_optionalField (by decide)]
    rfl
  · rw [HasField, getAll_encodeFields, partialFields, List.filter_append,
      filter_optionalField (by decide)]
    rfl

theorem answersWhole_of_fullResponse {file : StoredFile} {mime : Str}
    {cacheControl : Option Str} {r : FileResponse}
    (h : fullResponse file.access file.metadata .get mime cacheControl = .ok r) :
    AnswersWhole file r := by
  obtain ⟨-, body, hbody, rfl⟩ := fullResponse_eq_ok_iff.1 h
  obtain ⟨body', hbody', hdelivers⟩ := bodyFor_get 0 file.content.length
    (by omega : 0 + file.content.length ≤ file.content.length)
  change bodyFor .get file.access 0 file.content.length = _ at hbody
  rw [hbody] at hbody'
  cases hbody'
  refine ⟨rfl, ?_, by simpa using hdelivers⟩
  rw [HasField, getAll_encodeFields, fullFields, List.filter_append, List.filter_append,
    filter_optionalField (by decide), filter_optionalField (by decide)]
  rfl

/-- A request without a condition that keeps the file from it. -/
theorem respondWithFile_of_unconditional {file : StoredFile} {headers : HeaderMap}
    (h : Unconditional file headers) (method : Method) (mime : Str) (cacheControl : Option Str) :
    respondWithFile file.access method headers mime cacheControl =
      match modifiedSinceFails headers file.modified with
      | .error _ => .error .panicked
      | .ok _ =>
          (selectResponse file.access file.metadata method headers mime cacheControl).mapError
            .failed := by
  obtain ⟨hnone, hsince⟩ := h
  have hnot : ¬ noneMatchFails headers
      (computeEtagFromMetadata file.metadata.len file.metadata.modified) = true := by
    rw [StoredFile.metadata_len, StoredFile.metadata_modified, hnone]
    exact Bool.false_ne_true
  unfold respondWithFile
  rw [StoredFile.access_metadata]
  dsimp only
  rw [if_neg hnot, StoredFile.metadata_modified]
  cases hfails : modifiedSinceFails headers file.modified with
  | error stop => rfl
  | ok fails =>
      cases fails with
      | true => exact absurd hfails hsince
      | false => rfl

/-- The positions that are asked for lie within the file. -/
theorem bounds_of_parse {file : StoredFile} {range : Str} {start last : ℕ}
    (h : parseSingleRange range file.content.length = .ok (start, last)) :
    start ≤ last ∧ last < file.content.length := by
  obtain ⟨_, spec, -, -, -, hselect⟩ := (parseSingleRange_eq_ok_iff file.length_lt).1 h
  exact ByteRange.Spec.lt_of_select hselect

/-- A range that is read has a body. -/
theorem bodyFor_of_parse {file : StoredFile} {range : Str} {start last : ℕ}
    (h : parseSingleRange range file.content.length = .ok (start, last)) :
    ∃ body, bodyFor .get file.access start (last - start + 1) = .ok body := by
  obtain ⟨hle, hlt⟩ := bounds_of_parse h
  obtain ⟨body, hbody, -⟩ := @bodyFor_get file start (last - start + 1) (by omega)
  exact ⟨body, hbody⟩

theorem selectResponse_answered {file : StoredFile} {headers : HeaderMap} {mime : Str}
    {cacheControl : Option Str} {r : FileResponse}
    (h : selectResponse file.access file.metadata .get headers mime cacheControl = .ok r) :
    AnsweredAsAnnounced file headers r := by
  unfold selectResponse at h
  unfold AnsweredAsAnnounced
  rw [StoredFile.metadata_len, StoredFile.min_length] at h
  cases hrange : headerText headers "range" with
  | none =>
      rw [hrange] at h
      exact answersWhole_of_fullResponse h
  | some range =>
      rw [hrange] at h
      intro start last hparse
      dsimp only at h
      rw [hparse] at h
      obtain ⟨hle, hlt⟩ := bounds_of_parse hparse
      exact answersRange_of_partialResponse hle hlt h

/-- A response without its body. -/
def FileResponse.withoutBody (r : FileResponse) : FileResponse := { r with body := .empty }

theorem buildResponse_withoutBody (status : ℕ) (fields : List (Str × Str)) (body : FileBody) :
    (buildResponse status fields body).map FileResponse.withoutBody
      = buildResponse status fields .empty := by
  unfold buildResponse
  cases fieldValues fields <;> rfl

/-- A `HEAD` request gets what a `GET` request gets, without the body. -/
theorem selectResponse_head (file : StoredFile) (headers : HeaderMap) (mime : Str)
    (cacheControl : Option Str) :
    selectResponse file.access file.metadata .head headers mime cacheControl =
      (selectResponse file.access file.metadata .get headers mime cacheControl).map
        FileResponse.withoutBody := by
  have hhead : ∀ start len, bodyFor .head file.access start len = .ok .empty := fun _ _ => rfl
  unfold selectResponse
  rw [StoredFile.metadata_len, StoredFile.min_length]
  cases headerText headers "range" with
  | none =>
      obtain ⟨body, hbody, -⟩ := @bodyFor_get file 0 file.content.length (by omega)
      dsimp only [fullResponse, StoredFile.metadata_len]
      rw [hhead, hbody]
      exact (buildResponse_withoutBody _ _ _).symm
  | some range =>
      dsimp only
      cases hparse : parseSingleRange range file.content.length with
      | error e => exact (buildResponse_withoutBody _ _ _).symm
      | ok p =>
          obtain ⟨start, last⟩ := p
          obtain ⟨body, hbody⟩ := bodyFor_of_parse hparse
          dsimp only [partialResponse]
          rw [hhead, hbody]
          exact (buildResponse_withoutBody _ _ _).symm

/-! ### There is a response -/

open HeaderValue (IsVisible)
open Decimal (padded)

theorem isVisible_padded (width n : ℕ) : IsVisible (padded width n) := by
  intro c hc
  have hdigit := (Decimal.isNumeral_padded width n).2 c hc
  unfold Char.isDigit at hdigit
  grind [UInt32.le_iff_toNat_le]

/-- A date is a header value. -/
theorem isVisible_imfFixdate (w : Gregorian.Weekday) (m : HttpDate.Moment) :
    IsVisible (HttpDate.imfFixdate w m) := by
  have hday : IsVisible (HttpDate.dayName w) := by cases w <;> decide
  have hmonth : ∀ month, 1 ≤ month → month ≤ 12 → IsVisible (HttpDate.monthName month) := by
    intro month hpos hle
    interval_cases month <;> decide
  have htime : IsVisible m.time :=
    isVisible_append (isVisible_padded _ _) (isVisible_cons (by decide)
      (isVisible_append (isVisible_padded _ _) (isVisible_cons (by decide) (isVisible_padded _ _))))
  have hrest : IsVisible (padded 4 m.date.year ++ ' ' :: (m.time ++ ' ' :: "GMT".toList)) :=
    isVisible_append (isVisible_padded _ _) (isVisible_cons (by decide)
      (isVisible_append htime (by decide)))
  exact isVisible_append hday (isVisible_append (by decide) (isVisible_append
    (isVisible_padded _ _) (isVisible_cons (by decide) (isVisible_append
      (hmonth _ m.date.month_pos m.date.month_le) (isVisible_cons (by decide) hrest)))))

theorem isVisible_lastModified {mtime : ℤ} (h : mtime / 10 ^ 9 < 2 ^ 63) {text : Str}
    (htext : lastModified mtime = some text) : IsVisible text := by
  by_cases hnonneg : 0 ≤ mtime
  · rw [lastModified, if_pos hnonneg, Option.some_inj] at htext
    rw [← htext, formatHttpDate_eq (by omega)]
    exact isVisible_imfFixdate _ _
  · rw [lastModified, if_neg hnonneg] at htext
    cases htext

theorem forall_mem_optionalField {name : Str} {text : Option Str}
    (h : ∀ t ∈ text, IsFieldText t) : ∀ p ∈ optionalField name text, IsFieldText p.2 := by
  intro p hp
  obtain ⟨t, ht, rfl⟩ : ∃ t, text = some t ∧ (name, t) = p := by
    simpa [optionalField] using hp
  exact h t ht

section

variable (file : StoredFile) {mime : Str} {cacheControl : Option Str} (hmime : IsFieldText mime)
  (hcache : ∀ text ∈ cacheControl, IsFieldText text)
include hmime hcache

theorem isFieldText_partialFields (start last : ℕ) :
    ∀ p ∈ partialFields file.metadata mime cacheControl start last, IsFieldText p.2 := by
  have hrange : IsVisible (contentRange start last file.content.length) :=
    isVisible_append (isVisible_append (isVisible_append (by decide) (isVisible_toString _))
      (isVisible_cons (by decide) (isVisible_toString _)))
      (isVisible_cons (by decide) (isVisible_toString _))
  intro p hp
  rcases List.mem_append.1 hp with hp | hp
  · simp only [List.mem_cons, List.not_mem_nil, or_false] at hp
    rcases hp with rfl | rfl | rfl | rfl
    · exact hmime
    · exact isFieldText_of_isVisible hrange
    · exact isFieldText_of_isVisible (isVisible_toString _)
    · exact isFieldText_of_isVisible (isVisible_etag _ _)
  · exact forall_mem_optionalField hcache p hp

theorem isFieldText_fullFields :
    ∀ p ∈ fullFields file.metadata mime cacheControl, IsFieldText p.2 := by
  intro p hp
  rcases List.mem_append.1 hp with hp | hp
  · rcases List.mem_append.1 hp with hp | hp
    · simp only [List.mem_cons, List.not_mem_nil, or_false] at hp
      rcases hp with rfl | rfl | rfl
      · exact hmime
      · exact isFieldText_of_isVisible (isVisible_toString _)
      · exact isFieldText_of_isVisible (isVisible_etag _ _)
    · exact forall_mem_optionalField hcache p hp
  · refine forall_mem_optionalField (fun text htext => ?_) p hp
    obtain ⟨mtime, hmtime, htext⟩ := Option.bind_eq_some_iff.1 htext
    exact isFieldText_of_isVisible (isVisible_lastModified (file.modified_lt mtime hmtime) htext)

/-- With texts that are header values there is a response. -/
theorem selectResponse_isOk (headers : HeaderMap) :
    ∃ r, selectResponse file.access file.metadata .get headers mime cacheControl = .ok r := by
  unfold selectResponse
  rw [StoredFile.metadata_len, StoredFile.min_length]
  cases headerText headers "range" with
  | none =>
      obtain ⟨body, hbody, -⟩ := @bodyFor_get file 0 file.content.length (by omega)
      exact ⟨_, fullResponse_eq_ok_iff.2 ⟨isFieldText_fullFields file hmime hcache, body, hbody,
        rfl⟩⟩
  | some range =>
      dsimp only
      cases hparse : parseSingleRange range file.content.length with
      | error e =>
          refine ⟨_, buildResponse_eq_ok_iff.2 ⟨fun p hp => ?_, rfl⟩⟩
          rw [List.mem_singleton.1 hp]
          exact isFieldText_of_isVisible (isVisible_append (by decide) (isVisible_toString _))
      | ok p =>
          obtain ⟨start, last⟩ := p
          obtain ⟨body, hbody⟩ := bodyFor_of_parse hparse
          exact ⟨_, partialResponse_eq_ok_iff.2
            ⟨isFieldText_partialFields file hmime hcache start last, body, hbody, rfl⟩⟩

end

/-! ### Ranges that follow each other -/

/-- Ranges that follow each other, from a position up to the end. -/
inductive Consecutive (len : ℕ) : ℕ → List (ℕ × ℕ) → Prop where
  | nil : Consecutive len len []
  | cons {start last : ℕ} {ranges : List (ℕ × ℕ)} : Consecutive len (last + 1) ranges →
      Consecutive len start ((start, last) :: ranges)

/-- These bytes are the body of the response to a request for this range. -/
def ReceivedFor (file : StoredFile) (mime : Str) (cacheControl : Option Str) (p : ℕ × ℕ)
    (bytes : List UInt8) : Prop :=
  ∃ headers range r, Unconditional file headers ∧ headerText headers "range" = some range ∧
    parseSingleRange range file.content.length = .ok p ∧
    respondWithFile file.access .get headers mime cacheControl = .ok r ∧ r.body.Delivers bytes

/-- Only an overflow keeps the server from comparing dates. -/
theorem modifiedSinceFails_ne_refused (headers : HeaderMap) (mtime : Option ℤ) :
    modifiedSinceFails headers mtime ≠ .error .refused := by
  unfold modifiedSinceFails
  split
  · unfold isModifiedSince
    split <;> nofun
  · nofun

theorem respondWithFile_head (file : StoredFile) (headers : HeaderMap) (mime : Str)
    (cacheControl : Option Str) :
    respondWithFile file.access .head headers mime cacheControl =
      (respondWithFile file.access .get headers mime cacheControl).map
        FileResponse.withoutBody := by
  unfold respondWithFile
  rw [StoredFile.access_metadata]
  dsimp only
  rw [notModifiedResponse_eq_ok, selectResponse_head]
  split_ifs
  · rfl
  · cases modifiedSinceFails headers file.metadata.modified with
    | error stop => rfl
    | ok fails =>
        cases fails with
        | true => rfl
        | false =>
            cases selectResponse file.access file.metadata .get headers mime cacheControl <;> rfl

theorem answered_of_respond {file : StoredFile} {headers : HeaderMap}
    (h : Unconditional file headers) {mime : Str} {cacheControl : Option Str} {r : FileResponse}
    (hr : respondWithFile file.access .get headers mime cacheControl = .ok r) :
    AnsweredAsAnnounced file headers r := by
  rw [respondWithFile_of_unconditional h] at hr
  cases hfails : modifiedSinceFails headers file.modified with
  | error stop =>
      rw [hfails] at hr
      cases hr
  | ok fails =>
      rw [hfails] at hr
      dsimp only at hr
      cases hselect : selectResponse file.access file.metadata .get headers mime cacheControl with
      | error e =>
          rw [hselect] at hr
          cases hr
      | ok r' =>
          rw [hselect] at hr
          cases hr
          exact selectResponse_answered hselect

/-- What is received for a range is this part of the file. -/
theorem ReceivedFor.eq_slice {file : StoredFile} {mime : Str} {cacheControl : Option Str}
    {start last : ℕ} {bytes : List UInt8}
    (h : ReceivedFor file mime cacheControl (start, last) bytes) :
    bytes = file.slice start last ∧ start ≤ last := by
  obtain ⟨headers, range, r, hcond, hrange, hparse, hr, hbytes⟩ := h
  have hanswered := answered_of_respond hcond hr
  rw [AnsweredAsAnnounced, hrange] at hanswered
  exact ⟨hbytes.unique (hanswered start last hparse).body, (bounds_of_parse hparse).1⟩

theorem flatten_of_consecutive {file : StoredFile} {mime : Str} {cacheControl : Option Str}
    {start : ℕ} {ranges : List (ℕ × ℕ)} {bodies : List (List UInt8)}
    (h : Consecutive file.content.length start ranges)
    (hbodies : List.Forall₂ (ReceivedFor file mime cacheControl) ranges bodies) :
    bodies.flatten = file.content.drop start := by
  induction h generalizing bodies with
  | nil =>
      cases hbodies
      rw [List.drop_length]
      rfl
  | @cons start last ranges _ ih =>
      cases hbodies with
      | cons hbody hbodies =>
          obtain ⟨rfl, hle⟩ := hbody.eq_slice
          have hnext : last + 1 = start + (last - start + 1) := by omega
          rw [List.flatten_cons, ih hbodies, StoredFile.slice, hnext, ← List.drop_drop,
            List.take_append_drop]

/-- Every response to a `GET` request that no condition keeps from the file has the status, the
header fields and the body of its range, or of the whole file when there is no range; a `HEAD`
request gets the same without the body; there is a response when the texts of its fields are header
values and the date of the request does not overflow; and the bodies of ranges that follow each
other from the first byte to the last are the file. -/
theorem staticResponses_consistent (file : StoredFile) (mime : Str) (cacheControl : Option Str) :
    (∀ headers r, Unconditional file headers →
      respondWithFile file.access .get headers mime cacheControl = .ok r →
        AnsweredAsAnnounced file headers r) ∧
    (∀ headers, respondWithFile file.access .head headers mime cacheControl =
      (respondWithFile file.access .get headers mime cacheControl).map
        FileResponse.withoutBody) ∧
    (∀ headers, Unconditional file headers →
      modifiedSinceFails headers file.modified ≠ .error .overflow → IsFieldText mime →
      (∀ text ∈ cacheControl, IsFieldText text) →
        ∃ r, respondWithFile file.access .get headers mime cacheControl = .ok r) ∧
    ∀ ranges bodies, Consecutive file.content.length 0 ranges →
      List.Forall₂ (ReceivedFor file mime cacheControl) ranges bodies →
        bodies.flatten = file.content := by
  refine ⟨fun headers r h hr => answered_of_respond h hr,
    fun headers => respondWithFile_head file headers mime cacheControl,
    fun headers h hdate hmime hcache => ?_, fun ranges bodies => flatten_of_consecutive⟩
  obtain ⟨r, hr⟩ := selectResponse_isOk file hmime hcache headers
  refine ⟨r, ?_⟩
  rw [respondWithFile_of_unconditional h, hr]
  cases hfails : modifiedSinceFails headers file.modified with
  | error stop =>
      cases stop with
      | refused => exact absurd hfails (modifiedSinceFails_ne_refused _ _)
      | overflow => exact absurd hfails hdate
  | ok fails => rfl

theorem hello_length_lt : (Utf8.encode "hello".toList).length < 2 ^ 64 := by decide

theorem hello_modified_lt : ∀ t ∈ some (784111777000000000 : ℤ), t / 10 ^ 9 < 2 ^ 63 := by decide

/-- A file of five bytes. -/
def helloFile : StoredFile where
  content := Utf8.encode "hello".toList
  modified := some 784111777000000000
  length_lt := hello_length_lt
  modified_lt := hello_modified_lt

/-- The second to the fourth byte of it are sent as they are announced. -/
theorem staticResponses_consistent_hello :
    ∃ r, respondWithFile helloFile.access .get
        ⟨[("range".toList, ⟨Utf8.encode "bytes=1-3".toList⟩)]⟩ "text/plain".toList none = .ok r ∧
      AnswersRange helloFile 1 3 r := by
  obtain ⟨hanswered, -, hresponse, -⟩ :=
    staticResponses_consistent helloFile "text/plain".toList none
  have hcond : Unconditional helloFile
      ⟨[("range".toList, ⟨Utf8.encode "bytes=1-3".toList⟩)]⟩ :=
    ⟨by decide, by decide⟩
  obtain ⟨r, hr⟩ := hresponse _ hcond (by decide) (by decide) nofun
  exact ⟨r, hr, hanswered _ r hcond hr 1 3 (by decide)⟩

end OxiHttp
