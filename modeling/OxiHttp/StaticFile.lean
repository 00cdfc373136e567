/-
**Static files.**

`respond_with_file` answers a request for a file: with 304 when a condition of the request says that
the client has it already, with a part of the file when there is a range, and with the whole of it
otherwise.  The body is read in chunks while it is sent.

The file system is given by what it answers: the metadata of the file, its content when it is
opened, and whether a seek fails.  A read gives some of the bytes that are left, and at least one
when there are any.

Main definitions:

* `OxiHttp.FileMetadata`, `OxiHttp.FileAccess` — a file as the server sees it;
* `OxiHttp.computeEtagFromMetadata`, `OxiHttp.etagMatches` — its entity tag;
* `OxiHttp.FileRangeStream` — the body that is read from it;
* `OxiHttp.respondWithFile` — the response.

Main results:

* `OxiHttp.answersNotModified_iff` — when the response has status 304.
-/

import OxiHttp.DateFormat
import OxiHttp.Http
import OxiHttp.MultipartStream
import OxiHttp.SingleRange

set_option relaxedAutoImplicit false
set_option autoImplicit false

namespace OxiHttp

/-! ### Files -/

/-- The metadata of a file: its length, which is a `u64`, and its time of modification in
nanoseconds since the beginning of 1970, where the platform has one; its seconds are an `i64`. -/
structure FileMetadata where
  len : ℕ
  modified : Option ℤ
  len_lt : len < 2 ^ 64
  modified_lt : ∀ t ∈ modified, t / 10 ^ 9 < 2 ^ 63

/-- What the file system answers about a file. -/
structure FileAccess where
  metadata : Except OxiHttpError FileMetadata
  content : Except OxiHttpError (List UInt8)
  seek : Except OxiHttpError Unit

/-- `{:x}`. -/
def lowerHex (n : ℕ) : Str := Nat.toDigits 16 n

/-- `compute_etag_from_metadata`. -/
def computeEtagFromMetadata (len : ℕ) (mtime : Option ℤ) : Str :=
  match mtime.filter (0 ≤ ·) with
  | some d => '"' :: (lowerHex d.toNat ++ '-' :: (lowerHex len ++ ['"']))
  | none => '"' :: (lowerHex len ++ ['"'])

/-- `etag_matches`. -/
def etagMatches (ifNoneMatch etag : Str) : Bool :=
  let inm := trim ifNoneMatch
  if inm = "*".toList then true else ((inm.splitOn ',').map trim).any (· = etag)

/-! ### The body -/

/-- `FileRangeStream`: what is left of the file behind the position of its handle, and how much of
it belongs to the range. -/
structure FileRangeStream where
  file : List UInt8
  remaining : ℕ
deriving DecidableEq, Repr

/-- What reading the file comes to: nothing yet, some bytes, of which there are no more than are
left and than fit into the buffer, or an error. -/
inductive ReadEvent where
  | pending
  | ready (more : ℕ)
  | failed (e : OxiHttpError)
deriving DecidableEq, Repr

namespace FileRangeStream

/-- `CHUNK_SIZE`. -/
def chunkSize : ℕ := 64 * 1024

/-- `poll_next`. -/
def pollNext (s : FileRangeStream) (read : ReadEvent) : StreamPoll × FileRangeStream :=
  if s.remaining = 0 then (.finished, s)
  else
    let want := min s.remaining chunkSize
    match read with
    | .ready more =>
        let buf := s.file.take (min (more + 1) want)
        -- the end of the file
        if buf.length = 0 then (.finished, { s with remaining := 0 })
        else (.chunk buf, ⟨s.file.drop buf.length, s.remaining - buf.length⟩)
    | .failed e => (.failed e, { s with remaining := 0 })
    | .pending => (.pending, s)

/-- A number of polls, and the stream after them. -/
def polls : List ReadEvent → FileRangeStream → List StreamPoll × FileRangeStream
  | [], s => ([], s)
  | read :: reads, s =>
      ((s.pollNext read).1 :: (polls reads (s.pollNext read).2).1,
        (polls reads (s.pollNext read).2).2)

end FileRangeStream

/-- The body of a response. -/
inductive FileBody where
  | empty
  | stream (s : FileRangeStream)
deriving DecidableEq, Repr

/-- `stream_file_range`. -/
def streamFileRange (file : FileAccess) (start len : ℕ) : Except OxiHttpError FileBody := do
  let content ← file.content
  if 0 < start then file.seek
  return .stream ⟨content.drop start, len⟩

/-! ### The response -/

/-- `http::Response<Body>`. -/
structure FileResponse where
  status : ℕ
  headers : HeaderMap
  body : FileBody
deriving DecidableEq

/-- The header fields that the response builder is given as texts. -/
def fieldValues : List (Str × Str) → Except OxiHttpError (List (Str × HeaderValue))
  | [] => .ok []
  | (name, text) :: fields => do
      let value ← headerValue text
      let values ← fieldValues fields
      return (name, value) :: values

/-- What the response builder makes of a status, header fields and a body. -/
def buildResponse (status : ℕ) (fields : List (Str × Str)) (body : FileBody) :
    Except OxiHttpError FileResponse := do
  let fields ← fieldValues fields
  return { status, headers := ⟨fields⟩, body }

/-- The body, which a `HEAD` request does not get. -/
def bodyFor (method : Method) (file : FileAccess) (start len : ℕ) :
    Except OxiHttpError FileBody :=
  if method = .head then .ok .empty else streamFileRange file start len

/-- The field of a value that there may be. -/
def optionalField (name : Str) (text : Option Str) : List (Str × Str) :=
  (text.map fun text => (name, text)).toList

/-- The answer to a request that has the file already. -/
def notModifiedResponse (etag : Str) : Except OxiHttpError FileResponse :=
  buildResponse 304 [("etag".toList, etag)] .empty

/-- The header fields of a part of a file. -/
def partialFields (md : FileMetadata) (mime : Str) (cacheControl : Option Str) (start last : ℕ) :
    List (Str × Str) :=
  let contentRange := "bytes ".toList ++ (toString start).toList ++ '-' :: (toString last).toList ++
    '/' :: (toString md.len).toList
  [("content-type".toList, mime), ("content-range".toList, contentRange),
    ("content-length".toList, (toString (last - start + 1)).toList),
    ("etag".toList, computeEtagFromMetadata md.len md.modified)] ++
    optionalField "cache-control".toList cacheControl

/-- The answer to a range. -/
def partialResponse (file : FileAccess) (md : FileMetadata) (method : Method) (mime : Str)
    (cacheControl : Option Str) (start last : ℕ) : Except OxiHttpError FileResponse := do
  let body ← bodyFor method file start (last - start + 1)
  buildResponse 206 (partialFields md mime cacheControl start last) body

/-- The answer to a range that cannot be satisfied. -/
def unsatisfiableResponse (md : FileMetadata) : Except OxiHttpError FileResponse :=
  buildResponse 416 [("content-range".toList, "bytes */".toList ++ (toString md.len).toList)] .empty

/-- The header fields of a whole file. -/
def fullFields (md : FileMetadata) (mime : Str) (cacheControl : Option Str) : List (Str × Str) :=
  [("content-type".toList, mime), ("content-length".toList, (toString md.len).toList),
    ("etag".toList, computeEtagFromMetadata md.len md.modified)] ++
    optionalField "cache-control".toList cacheControl ++
    optionalField "last-modified".toList (md.modified.bind lastModified)

/-- The answer with the whole file. -/
def fullResponse (file : FileAccess) (md : FileMetadata) (method : Method) (mime : Str)
    (cacheControl : Option Str) : Except OxiHttpError FileResponse := do
  let body ← bodyFor method file 0 md.len
  buildResponse 200 (fullFields md mime cacheControl) body

/-- The condition of `If-None-Match`, as the server takes it. -/
def noneMatchFails (headers : HeaderMap) (etag : Str) : Bool :=
  match headerText headers "if-none-match" with
  | some v => etagMatches v etag
  | none => false

/-- The condition of `If-Modified-Since`, as the server takes it: whether it fails. -/
def modifiedSinceFails (headers : HeaderMap) (mtime : Option ℤ) : Except DateStop Bool :=
  match mtime, headerText headers "if-modified-since" with
  | some mt, some ims => (isModifiedSince mt ims).map (!·)
  | _, _ => .ok false

/-- Why there is no response: an error, or a panic. -/
inductive FileStop where
  | failed (e : OxiHttpError)
  | panicked
deriving DecidableEq, Repr

/-- The response to a request whose conditions do not keep it from one. -/
def selectResponse (file : FileAccess) (md : FileMetadata) (method : Method) (headers : HeaderMap)
    (mime : Str) (cacheControl : Option Str) : Except OxiHttpError FileResponse :=
  match headerText headers "range" with
  | some range =>
      match parseSingleRange range (min md.len (2 ^ 64 - 1)) with
      | .ok (start, last) => partialResponse file md method mime cacheControl start last
      | .error _ => unsatisfiableResponse md
  | none => fullResponse file md method mime cacheControl

/-- `respond_with_file`, in a build with overflow checks. -/
def respondWithFile (file : FileAccess) (method : Method) (headers : HeaderMap) (mime : Str)
    (cacheControl : Option Str) : Except FileStop FileResponse :=
  match file.metadata with
  | .error e => .error (.failed e)
  | .ok md =>
      let etag := computeEtagFromMetadata md.len md.modified
      if noneMatchFails headers etag then (notModifiedResponse etag).mapError .failed
      else
        match modifiedSinceFails headers md.modified with
        | .error _ => .error .panicked
        | .ok true => (notModifiedResponse etag).mapError .failed
        | .ok false =>
            (selectResponse file md method headers mime cacheControl).mapError .failed

/-! ### What the response builder takes -/

open HeaderValue (IsVisible)

/-- An entity tag is a header value. -/
theorem isVisible_etag (len : ℕ) (mtime : Option ℤ) :
    IsVisible (computeEtagFromMetadata len mtime) := by
  have hhex : ∀ n, IsVisible (lowerHex n) := isVisible_toDigits (by decide)
  have hquote : IsVisible ['"'] := by decide
  unfold computeEtagFromMetadata
  split
  · exact isVisible_cons (by decide) (isVisible_append (hhex _)
      (isVisible_cons (by decide) (isVisible_append (hhex _) hquote)))
  · exact isVisible_cons (by decide) (isVisible_append (hhex _) hquote)

/-- The text of a header value. -/
def IsFieldText (s : Str) : Prop := (HeaderValue.fromStr s).isSome = true

instance (s : Str) : Decidable (IsFieldText s) := inferInstanceAs (Decidable (_ = _))

theorem isFieldText_of_isVisible {s : Str} (h : IsVisible s) : IsFieldText s := by
  rw [IsFieldText, HeaderValue.fromStr_of_isVisible h]
  rfl

theorem headerValue_eq_ok_iff {s : Str} {v : HeaderValue} :
    headerValue s = .ok v ↔ IsFieldText s ∧ v = ⟨Utf8.encode s⟩ := by
  unfold headerValue IsFieldText HeaderValue.fromStr
  split_ifs
  · simp [eq_comm]
  · simp

/-- The fields with their values. -/
def encodeFields (fields : List (Str × Str)) : List (Str × HeaderValue) :=
  fields.map fun p => (p.1, ⟨Utf8.encode p.2⟩)

theorem fieldValues_eq_ok_iff {fields : List (Str × Str)} {values : List (Str × HeaderValue)} :
    fieldValues fields = .ok values ↔
      (∀ p ∈ fields, IsFieldText p.2) ∧ values = encodeFields fields := by
  induction fields generalizing values with
  | nil => simp [fieldValues, encodeFields, eq_comm]
  | cons field fields ih =>
      obtain ⟨name, text⟩ := field
      rw [fieldValues, List.forall_mem_cons]
      cases hvalue : headerValue text with
      | error e =>
          have hnot : ¬ IsFieldText text := fun htext => by
            rw [headerValue_eq_ok_iff.2 ⟨htext, rfl⟩] at hvalue
            cases hvalue
          exact iff_of_false (fun h => by cases h) fun h => hnot h.1.1
      | ok value =>
          obtain ⟨htext, rfl⟩ := headerValue_eq_ok_iff.1 hvalue
          cases hvalues : fieldValues fields with
          | error e =>
              refine iff_of_false (fun h => by cases h) fun h => ?_
              rw [ih.2 ⟨h.1.2, rfl⟩] at hvalues
              cases hvalues
          | ok values' =>
              obtain ⟨htexts, rfl⟩ := ih.1 hvalues
              refine ⟨fun h => ?_, fun ⟨_, h⟩ => ?_⟩
              · cases h
                exact ⟨⟨htext, htexts⟩, rfl⟩
              · rw [h]
                rfl

/-- What is built, and from which texts. -/
theorem buildResponse_eq_ok_iff {status : ℕ} {fields : List (Str × Str)} {body : FileBody}
    {r : FileResponse} :
    buildResponse status fields body = .ok r ↔
      (∀ p ∈ fields, IsFieldText p.2) ∧ r = ⟨status, ⟨encodeFields fields⟩, body⟩ := by
  unfold buildResponse
  cases hvalues : fieldValues fields with
  | error e =>
      refine iff_of_false (fun h => by cases h) fun h => ?_
      rw [fieldValues_eq_ok_iff.2 ⟨h.1, rfl⟩] at hvalues
      cases hvalues
  | ok values =>
      obtain ⟨htexts, rfl⟩ := fieldValues_eq_ok_iff.1 hvalues
      refine ⟨fun h => ?_, fun ⟨_, h⟩ => ?_⟩
      · cases h
        exact ⟨htexts, rfl⟩
      · rw [h]
        rfl

theorem partialResponse_eq_ok_iff {file : FileAccess} {md : FileMetadata} {method : Method}
    {mime : Str} {cacheControl : Option Str} {start last : ℕ} {r : FileResponse} :
    partialResponse file md method mime cacheControl start last = .ok r ↔
      (∀ p ∈ partialFields md mime cacheControl start last, IsFieldText p.2) ∧
        ∃ body, bodyFor method file start (last - start + 1) = .ok body ∧
          r = ⟨206, ⟨encodeFields (partialFields md mime cacheControl start last)⟩, body⟩ := by
  unfold partialResponse
  cases hbody : bodyFor method file start (last - start + 1) with
  | error e => exact iff_of_false (fun h => by cases h) fun ⟨_, _, h, _⟩ => by cases h
  | ok body => exact buildResponse_eq_ok_iff.trans (and_congr_right fun _ => by simp)

theorem fullResponse_eq_ok_iff {file : FileAccess} {md : FileMetadata} {method : Method}
    {mime : Str} {cacheControl : Option Str} {r : FileResponse} :
    fullResponse file md method mime cacheControl = .ok r ↔
      (∀ p ∈ fullFields md mime cacheControl, IsFieldText p.2) ∧
        ∃ body, bodyFor method file 0 md.len = .ok body ∧
          r = ⟨200, ⟨encodeFields (fullFields md mime cacheControl)⟩, body⟩ := by
  unfold fullResponse
  cases hbody : bodyFor method file 0 md.len with
  | error e => exact iff_of_false (fun h => by cases h) fun ⟨_, _, h, _⟩ => by cases h
  | ok body => exact buildResponse_eq_ok_iff.trans (and_congr_right fun _ => by simp)

/-! ### When the response is 304 -/

theorem notModifiedResponse_eq_ok (len : ℕ) (mtime : Option ℤ) :
    notModifiedResponse (computeEtagFromMetadata len mtime) = .ok ⟨304,
      ⟨encodeFields [("etag".toList, computeEtagFromMetadata len mtime)]⟩, .empty⟩ := by
  refine buildResponse_eq_ok_iff.2 ⟨fun p hp => ?_, rfl⟩
  rw [List.mem_singleton.1 hp]
  exact isFieldText_of_isVisible (isVisible_etag len mtime)

/-- A file that is sent is sent with another status. -/
theorem selectResponse_status {file : FileAccess} {md : FileMetadata} {method : Method}
    {headers : HeaderMap} {mime : Str} {cacheControl : Option Str} {r : FileResponse}
    (h : selectResponse file md method headers mime cacheControl = .ok r) : r.status ≠ 304 := by
  unfold selectResponse at h
  split at h
  · split at h
    · obtain ⟨-, body, -, rfl⟩ := partialResponse_eq_ok_iff.1 h
      exact (by decide : (206 : ℕ) ≠ 304)
    · obtain ⟨-, rfl⟩ := buildResponse_eq_ok_iff.1 h
      exact (by decide : (416 : ℕ) ≠ 304)
  · obtain ⟨-, body, -, rfl⟩ := fullResponse_eq_ok_iff.1 h
    exact (by decide : (200 : ℕ) ≠ 304)

/-- The response to a request has status 304. -/
def AnswersNotModified (file : FileAccess) (method : Method) (headers : HeaderMap) (mime : Str)
    (cacheControl : Option Str) : Prop :=
  ∃ r, respondWithFile file method headers mime cacheControl = .ok r ∧ r.status = 304

/-- It has this status when one of the two conditions fails; the second one is only looked at after
the first one. -/
theorem answersNotModified_iff {file : FileAccess} {md : FileMetadata}
    (hmd : file.metadata = .ok md) (method : Method) (headers : HeaderMap) (mime : Str)
    (cacheControl : Option Str) :
    AnswersNotModified file method headers mime cacheControl ↔
      noneMatchFails headers (computeEtagFromMetadata md.len md.modified) = true ∨
        modifiedSinceFails headers md.modified = .ok true := by
  unfold AnswersNotModified respondWithFile
  rw [hmd]
  dsimp only
  rw [notModifiedResponse_eq_ok]
  split_ifs with hnone
  · exact iff_of_true ⟨_, rfl, rfl⟩ (.inl hnone)
  · cases hsince : modifiedSinceFails headers md.modified with
    | error stop => simp [hnone]
    | ok fails =>
        cases fails with
        | true => exact iff_of_true ⟨_, rfl, rfl⟩ (.inr rfl)
        | false =>
            refine iff_of_false (fun ⟨r, hr, hstatus⟩ => ?_) (by simp [hnone])
            cases hselect : selectResponse file md method headers mime cacheControl with
            | error e =>
                rw [hselect] at hr
                cases hr
            | ok r' =>
                rw [hselect] at hr
                cases hr
                exact selectResponse_status hselect hstatus

end OxiHttp
