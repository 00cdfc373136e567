/-
**Resuming a download.**

A client whose download of a file breaks off keeps what has come with the entity tag, and asks for
the rest with a `Range` from there to the end.  `respond_with_file` does not look at `If-Range`, so
it is the client that compares the tags: it continues when the response is partial and has the tag
of what it keeps, and begins anew otherwise.

What it ends with is the file as it is then, wherever the connections break, if and only if the file
is never changed before its last byte under the same length and time.

Main definitions:

* `OxiHttp.rangeFrom` — the range that is missing;
* `OxiHttp.resumeDownload`, `OxiHttp.downloads` — one request of such a client, and any number.

Main results:

* `OxiHttp.parseSingleRange_rangeFrom` — how the range is read;
* `OxiHttp.received_ready` — a body can break off anywhere;
* `OxiHttp.resumeDownload_eq`, `OxiHttp.exists_resumeDownload_eq` — one request is one step of the
  client;
* `OxiHttp.downloads_current_iff` — when a client ends with the file as it is.
-/

import OxiHttp.FileRevalidation
import OxiHttp.Resumption

set_option relaxedAutoImplicit false
set_option autoImplicit false

namespace OxiHttp

open Resumption (Started)

/-! ### The range that is missing -/

/-- The bytes from a position on. -/
def rangeFrom (start : ℕ) : Str := "bytes=".toList ++ (Nat.toDigits 10 start ++ ['-'])

theorem isVisible_rangeFrom (start : ℕ) : HeaderValue.IsVisible (rangeFrom start) :=
  isVisible_append (by decide) (isVisible_append (isVisible_toDigits (by decide) _) (by decide))

/-- How the range is read. -/
theorem parseSingleRange_rangeFrom {start fileLen : ℕ} (hlen : fileLen < 2 ^ 64) :
    parseSingleRange (rangeFrom start) fileLen =
      if start < fileLen then .ok (start, fileLen - 1) else .error .invalid := by
  have hnumeral := Decimal.isNumeral_toDigits start
  have htrim : trim (rangeFrom start) = rangeFrom start := by
    refine trim_eq_self (fun c hc => ?_) fun c hc => ?_
    · obtain rfl : 'b' = c := Option.some.inj hc
      decide
    · rw [rangeFrom, ← List.append_assoc, List.getLast?_concat] at hc
      obtain rfl : '-' = c := Option.some.inj hc
      decide
  have hstrip : stripPfx "bytes=".toList (rangeFrom start) =
      some (Nat.toDigits 10 start ++ ['-']) := stripPfx_eq_some_iff.2 rfl
  have hcomma : ¬ (Nat.toDigits 10 start ++ ['-']).contains ',' = true := by
    rw [List.contains_iff_mem, List.mem_append, not_or]
    exact ⟨hnumeral.notMem (by decide), by decide⟩
  have hsplit : splitOnce '-' (Nat.toDigits 10 start ++ ['-']) = some (Nat.toDigits 10 start, []) :=
    splitOnce_append (hnumeral.notMem (by decide)) []
  have hne : (Nat.toDigits 10 start).isEmpty = false := by
    rw [List.isEmpty_eq_false_iff]
    exact hnumeral.1
  rw [parseSingleRange, htrim, hstrip]
  dsimp only
  rw [if_neg hcomma, hsplit]
  dsimp only
  rw [rangeBounds, hne, if_neg Bool.false_ne_true, parseU64_of_isNumeral hnumeral,
    Decimal.value_toDigits]
  by_cases hstart : start < 2 ^ 64
  · rw [if_pos hstart]
    dsimp only
    rw [List.isEmpty_nil, if_pos rfl]
    dsimp only
    by_cases hlt : start < fileLen
    · rw [if_neg (by omega), if_pos hlt]
    · rw [if_pos (by omega), if_neg hlt]
  · rw [if_neg hstart, if_neg (by omega)]

/-! ### Where a body breaks off -/

namespace FileRangeStream

/-- A read that gives one byte. -/
theorem pollNext_ready_zero {s : FileRangeStream} (hs : s.InFile) (hmore : s.remaining ≠ 0) :
    ∃ b s', s.pollNext (.ready 0) = (.chunk [b], s') ∧ s'.InFile ∧ s.pending = b :: s'.pending := by
  have hle : s.remaining ≤ s.file.length := hs
  obtain ⟨m, hm⟩ : ∃ m, s.remaining = m + 1 := Nat.exists_eq_succ_of_ne_zero hmore
  obtain ⟨b, file, hfile⟩ : ∃ b file, s.file = b :: file :=
    List.exists_cons_of_length_pos (by omega)
  have hone : min (0 + 1) (min s.remaining chunkSize) = 1 := by
    unfold chunkSize
    omega
  refine ⟨b, ⟨file, m⟩, ?_, ?_, ?_⟩
  · rw [pollNext, if_neg hmore]
    dsimp only
    rw [hone, hfile, hm]
    rfl
  · rw [hfile, hm, List.length_cons] at hle
    exact Nat.le_of_succ_le_succ hle
  · rw [pending, pending, hfile, hm, List.take_succ_cons]

/-- Reads that give one byte each give as many as there are of them. -/
theorem received_ready {s : FileRangeStream} (hs : s.InFile) (n : ℕ) :
    received (polls (List.replicate n (.ready 0)) s).1 = s.pending.take n := by
  induction n generalizing s with
  | zero => rfl
  | succ n ih =>
      rw [List.replicate_succ, polls, received_cons]
      by_cases hdone : s.remaining = 0
      · have hnothing : s.pending = [] := by rw [pending, hdone, List.take_zero]
        rw [pollNext_of_done hdone, ih hs, hnothing, List.take_nil, List.take_nil]
        rfl
      · obtain ⟨b, s', hpoll, hrest, hpending⟩ := pollNext_ready_zero hs hdone
        rw [hpoll, ih hrest, hpending, List.take_succ_cons]
        rfl

end FileRangeStream

/-! ### The responses -/

/-- The field that asks for what is missing. -/
def rangeField : Started Str UInt8 → List (Str × HeaderValue)
  | none => []
  | some (_, got) => [("range".toList, ⟨Utf8.encode (rangeFrom got.length)⟩)]

namespace StoredFile

variable (file : StoredFile)

/-- The response with a file from a position on. -/
def rest (start : ℕ) (mime : Str) (cacheControl : Option Str) : FileResponse :=
  ⟨206, ⟨encodeFields (partialFields file.metadata mime cacheControl start
      (file.content.length - 1))⟩,
    .stream ⟨file.content.drop start, file.content.length - 1 - start + 1⟩⟩

/-- The response that there is nothing from that position on. -/
def unsatisfiable : FileResponse :=
  ⟨416, ⟨encodeFields [("content-range".toList,
    "bytes */".toList ++ (toString file.content.length).toList)]⟩, .empty⟩

theorem headerText_rest (start : ℕ) (mime : Str) (cacheControl : Option Str) :
    headerText (file.rest start mime cacheControl).headers "etag" = some file.etag := by
  refine headerText_of_getAll ?_
  rw [rest, getAll_encodeFields, partialFields, List.filter_append,
    filter_optionalField (by decide)]
  rfl

end StoredFile

variable {fields : List (Str × HeaderValue)} {mime : Str} {cacheControl : Option Str}

/-- The response with the rest is built. -/
theorem partialResponse_rest (hmime : IsFieldText mime)
    (hcache : ∀ text ∈ cacheControl, IsFieldText text) (file : StoredFile) (start : ℕ) :
    partialResponse file.access file.metadata .get mime cacheControl start
      (file.content.length - 1) = .ok (file.rest start mime cacheControl) := by
  refine partialResponse_eq_ok_iff.2
    ⟨isFieldText_partialFields file hmime hcache _ _, _, ?_, rfl⟩
  unfold bodyFor streamFileRange
  rw [if_neg (by decide)]
  change (if 0 < start then _ else _) = _
  split_ifs <;> rfl

/-- So is the response that there is none. -/
theorem unsatisfiableResponse_metadata (file : StoredFile) :
    unsatisfiableResponse file.metadata = .ok file.unsatisfiable := by
  refine buildResponse_eq_ok_iff.2 ⟨fun p hp => ?_, rfl⟩
  rw [List.mem_singleton.1 hp]
  exact isFieldText_of_isVisible (isVisible_append (by decide) (isVisible_toString _))

/-- The response to a request for what is missing. -/
theorem respondWithFile_rangeField (h : Unrelated fields) (hmime : IsFieldText mime)
    (hcache : ∀ text ∈ cacheControl, IsFieldText text) (file : StoredFile) (tag : Str)
    (got : List UInt8) :
    respondWithFile file.access .get ⟨fields ++ rangeField (some (tag, got))⟩ mime cacheControl =
      .ok (if got.length < file.content.length then file.rest got.length mime cacheControl
        else file.unsatisfiable) := by
  have htext : ∀ name ∈ ["if-none-match", "if-modified-since"],
      headerText ⟨fields ++ rangeField (some (tag, got))⟩ name = none := by
    intro name hname
    simp only [List.mem_cons, List.not_mem_nil, or_false] at hname
    rcases hname with rfl | rfl <;>
      rw [headerText, HeaderMap.get, getAll_unrelated h _ (by decide)] <;> rfl
  have hrange : headerText ⟨fields ++ rangeField (some (tag, got))⟩ "range" =
      some (rangeFrom got.length) := by
    rw [headerText, HeaderMap.get, getAll_unrelated h _ (by decide)]
    exact HeaderValue.toStr_of_isVisible (isVisible_rangeFrom _)
  have hsince : modifiedSinceFails ⟨fields ++ rangeField (some (tag, got))⟩ file.modified =
      .ok false := by
    unfold modifiedSinceFails
    rw [htext _ (by decide)]
    cases file.modified <;> rfl
  rw [respondWithFile, StoredFile.access_metadata]
  dsimp only
  rw [StoredFile.metadata_len, StoredFile.metadata_modified, noneMatchFails, htext _ (by decide)]
  dsimp only
  rw [if_neg Bool.false_ne_true, hsince]
  dsimp only
  rw [selectResponse, hrange]
  dsimp only
  rw [StoredFile.metadata_len, file.min_length, parseSingleRange_rangeFrom file.length_lt]
  split_ifs with hlt
  · dsimp only
    rw [partialResponse_rest hmime hcache]
    rfl
  · dsimp only
    rw [unsatisfiableResponse_metadata]
    rfl

/-! ### One request -/

/-- What a client that has started makes of a response, when so many polls of its body have been
made before the connection broke. -/
def FileResponse.resumed (r : FileResponse) (s : Started Str UInt8) (reads : List ReadEvent) :
    Option (List UInt8) × Started Str UInt8 :=
  match headerText r.headers "etag", (headerText r.headers "content-length").bind parseU64,
      r.body with
  | some tag, some length, .stream body =>
      let came := received (body.polls reads).1
      -- what a part of a file is to be put behind
      match if r.status = 206 then (s.filter fun started => started.1 = tag).map Prod.snd
        else some [] with
      | none => (none, none)
      | some got =>
          if length ≤ came.length then (some (got ++ came), none)
          else (none, some (tag, got ++ came))
  | _, _, _ => (none, none)

/-- One request of a client: the file, when it is complete, and what the client keeps. -/
def resumeDownload (s : Started Str UInt8) (reads : List ReadEvent)
    (fields : List (Str × HeaderValue)) (file : StoredFile) (mime : Str)
    (cacheControl : Option Str) : Option (List UInt8) × Started Str UInt8 :=
  match respondWithFile file.access .get ⟨fields ++ rangeField s⟩ mime cacheControl with
  | .error _ => (none, s)
  | .ok r => r.resumed s reads

/-- The body of the response to a request for what is missing. -/
def StoredFile.bodyFrom (file : StoredFile) (start : ℕ) : FileRangeStream :=
  ⟨file.content.drop start, file.content.length - start⟩

theorem StoredFile.pending_bodyFrom (file : StoredFile) (start : ℕ) :
    (file.bodyFrom start).pending = file.content.drop start :=
  List.take_of_length_le (by simp [bodyFrom])

theorem StoredFile.inFile_bodyFrom (file : StoredFile) (start : ℕ) :
    (file.bodyFrom start).InFile := by
  change file.content.length - start ≤ (file.content.drop start).length
  rw [List.length_drop]

/-- The length that is announced. -/
theorem parse_contentLength {headers : HeaderMap} {n : ℕ} (hn : n < 2 ^ 64)
    (h : headers.getAll "content-length".toList = [⟨Utf8.encode (toString n).toList⟩]) :
    (headerText headers "content-length").bind parseU64 = some n := by
  have htext : headerText headers "content-length" = some (Nat.toDigits 10 n) := by
    rw [headerText, HeaderMap.get, h, ← Nat.toList_repr, ← Nat.toString_eq_repr]
    exact HeaderValue.toStr_of_isVisible (isVisible_toString n)
  rw [htext, Option.bind_some, parseU64_of_isNumeral (Decimal.isNumeral_toDigits n),
    Decimal.value_toDigits, if_pos hn]

/-- What is made of the response with the file. -/
theorem resumed_whole (file : StoredFile) (s : Started Str UInt8) (reads : List ReadEvent) :
    (file.whole mime cacheControl).resumed s reads =
      Resumption.finish (file.etag, file.content)
        (received ((file.bodyFrom 0).polls reads).1) := by
  have hlength : (headerText (file.whole mime cacheControl).headers "content-length").bind
      parseU64 = some file.content.length := by
    refine parse_contentLength file.length_lt ?_
    rw [StoredFile.whole, getAll_encodeFields, fullFields, List.filter_append, List.filter_append,
      filter_optionalField (by decide), filter_optionalField (by decide)]
    rfl
  rw [FileResponse.resumed, file.headerText_whole, hlength]
  rfl

/-- What is made of the response with a part of it. -/
theorem resumed_rest (file : StoredFile) {got : List UInt8}
    (hlt : got.length < file.content.length) (tag : Str) (reads : List ReadEvent) :
    (file.rest got.length mime cacheControl).resumed (some (tag, got)) reads =
      if tag = file.etag then Resumption.finish (file.etag, file.content)
        (got ++ received ((file.bodyFrom got.length).polls reads).1)
      else (none, none) := by
  have hcount : file.content.length - 1 - got.length + 1 = file.content.length - got.length := by
    omega
  have hlength : (headerText (file.rest got.length mime cacheControl).headers
      "content-length").bind parseU64 = some (file.content.length - got.length) := by
    refine parse_contentLength (lt_of_le_of_lt (Nat.sub_le _ _) file.length_lt) ?_
    rw [StoredFile.rest, getAll_encodeFields, partialFields, List.filter_append,
      filter_optionalField (by decide), ← hcount]
    rfl
  have hbody : (file.rest got.length mime cacheControl).body =
      .stream (file.bodyFrom got.length) := by
    rw [StoredFile.rest, hcount]
    rfl
  have hstatus : (file.rest got.length mime cacheControl).status = 206 := rfl
  rw [FileResponse.resumed, file.headerText_rest, hlength, hbody]
  dsimp only
  rw [if_pos hstatus]
  by_cases htag : tag = file.etag
  · rw [Option.filter_some, if_pos (decide_eq_true htag), if_pos htag, Option.map_some,
      Resumption.finish]
    dsimp only
    rw [List.length_append]
    refine if_congr ?_ rfl rfl
    omega
  · rw [Option.filter_some, if_neg (by rwa [decide_eq_true_eq]), if_neg htag]
    rfl

/-- **One request is one step of the client**: as many bytes come as the polls give. -/
theorem resumeDownload_eq (h : Unrelated fields) (hmime : IsFieldText mime)
    (hcache : ∀ text ∈ cacheControl, IsFieldText text) (s : Started Str UInt8)
    {reads : List ReadEvent} (hreads : ∀ read ∈ reads, read.Succeeds) (file : StoredFile) :
    resumeDownload s reads fields file mime cacheControl =
      Resumption.step s (file.etag, file.content)
        (received ((file.bodyFrom (Resumption.position s)).polls reads).1).length := by
  let came := received ((file.bodyFrom (Resumption.position s)).polls reads).1
  have hcame : came = (file.content.drop (Resumption.position s)).take came.length := by
    have hprefix := (FileRangeStream.delivers_of_le
      (file.inFile_bodyFrom (Resumption.position s))).inOrder reads hreads
    rw [file.pending_bodyFrom] at hprefix
    exact List.prefix_iff_eq_take.1 hprefix
  rw [resumeDownload]
  cases s with
  | none =>
      have hwhole := respondWithFile_ifNoneMatch h hmime hcache
        (show ∀ tag ∈ ([] : List Str), IsEtag tag from fun _ htag => absurd htag List.not_mem_nil)
        file
      rw [if_neg List.not_mem_nil] at hwhole
      have hresponse : respondWithFile file.access .get ⟨fields ++ rangeField none⟩ mime
        cacheControl = .ok (file.whole mime cacheControl) := hwhole
      rw [hresponse]
      dsimp only
      rw [resumed_whole, Resumption.step]
      exact congrArg _ hcame
  | some started =>
      obtain ⟨tag, got⟩ := started
      rw [respondWithFile_rangeField h hmime hcache, Resumption.step]
      dsimp only
      by_cases hlt : got.length < file.content.length
      · rw [if_pos hlt, resumed_rest file hlt]
        refine if_congr ⟨fun htag => ⟨htag, hlt⟩, And.left⟩ ?_ rfl
        exact congrArg (fun rest => Resumption.finish _ (got ++ rest)) hcame
      · rw [if_neg hlt, if_neg fun hstarted => hlt hstarted.2]
        rfl

/-- The connection can break after any number of bytes. -/
theorem exists_resumeDownload_eq (h : Unrelated fields) (hmime : IsFieldText mime)
    (hcache : ∀ text ∈ cacheControl, IsFieldText text) (s : Started Str UInt8) (file : StoredFile)
    (n : ℕ) : ∃ reads : List ReadEvent, (∀ read ∈ reads, read.Succeeds) ∧
      resumeDownload s reads fields file mime cacheControl =
        Resumption.step s (file.etag, file.content) n := by
  have hreads : ∀ read ∈ List.replicate n (ReadEvent.ready 0), read.Succeeds := by
    intro read hread
    rw [List.eq_of_mem_replicate hread]
    exact fun e he => by cases he
  refine ⟨List.replicate n (.ready 0), hreads, ?_⟩
  rw [resumeDownload_eq h hmime hcache s hreads,
    FileRangeStream.received_ready (file.inFile_bodyFrom _), file.pending_bodyFrom]
  exact Resumption.step_length_take s (file.etag, file.content) n

/-! ### Any number of requests -/

/-- What is completed with the versions of a file, as far as the polls of the bodies go; with some
versions the client does not come to ask. -/
def downloads (reads : ℕ → Option (List ReadEvent)) (fields : ℕ → List (Str × HeaderValue))
    (mime : Str) (cacheControl : Option Str) (s : Started Str UInt8) :
    List StoredFile → List (Option (List UInt8))
  | [] => []
  | file :: files =>
      match reads 0 with
      | none => none ::
          downloads (fun i => reads (i + 1)) (fun i => fields (i + 1)) mime cacheControl s files
      | some polled =>
          (resumeDownload s polled (fields 0) file mime cacheControl).1 ::
            downloads (fun i => reads (i + 1)) (fun i => fields (i + 1)) mime cacheControl
              (resumeDownload s polled (fields 0) file mime cacheControl).2 files

section

variable {fields : ℕ → List (Str × HeaderValue)} (h : ∀ i, Unrelated (fields i))
  (hmime : IsFieldText mime) (hcache : ∀ text ∈ cacheControl, IsFieldText text)
include h hmime hcache

/-- The requests are a run of the client. -/
theorem downloads_eq {reads : ℕ → Option (List ReadEvent)}
    (hreads : ∀ i, ∀ polled ∈ reads i, ∀ read ∈ polled, read.Succeeds) (s : Started Str UInt8)
    (files : List StoredFile) :
    ∃ breaks, downloads reads fields mime cacheControl s files =
      Resumption.run breaks s (tagged files) := by
  induction files generalizing reads fields s with
  | nil => exact ⟨fun _ => none, rfl⟩
  | cons file files ih =>
      have hlater : ∀ s, ∃ breaks, downloads (fun i => reads (i + 1)) (fun i => fields (i + 1)) mime
          cacheControl s files = Resumption.run breaks s (tagged files) :=
        fun s => ih (fun i => h (i + 1)) (fun i => hreads (i + 1)) s
      rw [downloads]
      cases hpolled : reads 0 with
      | none =>
          obtain ⟨breaks, hrun⟩ := hlater s
          refine ⟨Stream'.cons none breaks, ?_⟩
          dsimp only
          rw [hrun]
          rfl
      | some polled =>
          have hstep := resumeDownload_eq (h 0) hmime hcache s (hreads 0 polled hpolled) file
          obtain ⟨breaks, hrun⟩ := hlater
            (resumeDownload s polled (fields 0) file mime cacheControl).2
          refine ⟨Stream'.cons (some (received
            ((file.bodyFrom (Resumption.position s)).polls polled).1).length) breaks, ?_⟩
          dsimp only
          rw [hrun, hstep]
          rfl

/-- Every run of the client is one of its requests. -/
theorem exists_downloads_eq (breaks : ℕ → Option ℕ) (s : Started Str UInt8)
    (files : List StoredFile) :
    ∃ reads : ℕ → Option (List ReadEvent),
      (∀ i, ∀ polled ∈ reads i, ∀ read ∈ polled, read.Succeeds) ∧
      downloads reads fields mime cacheControl s files =
        Resumption.run breaks s (tagged files) := by
  induction files generalizing breaks fields s with
  | nil => exact ⟨fun _ => none, fun i polled hpolled => (by cases hpolled), rfl⟩
  | cons file files ih =>
      have hlater := fun s => ih (fun i => h (i + 1)) (fun i => breaks (i + 1)) s
      have hrun : tagged (file :: files) = (file.etag, file.content) :: tagged files := rfl
      rw [hrun, Resumption.run]
      cases hbreak : breaks 0 with
      | none =>
          obtain ⟨reads, hreads, heq⟩ := hlater s
          refine ⟨Stream'.cons none reads, fun i => ?_, ?_⟩
          · cases i with
            | zero => exact fun polled hpolled => (by cases hpolled)
            | succ i => exact hreads i
          · exact congrArg (List.cons none) heq
      | some n =>
          obtain ⟨polled, hpolled, hstep⟩ :=
            exists_resumeDownload_eq (h 0) hmime hcache s file n
          obtain ⟨reads, hreads, heq⟩ := hlater (Resumption.step s (file.etag, file.content) n).2
          refine ⟨Stream'.cons (some polled) reads, fun i => ?_, ?_⟩
          · cases i with
            | zero =>
                intro polled' hpolled'
                obtain rfl : polled = polled' := Option.some.inj hpolled'
                exact hpolled
            | succ i => exact hreads i
          · have hasked : downloads (Stream'.cons (some polled) reads) fields mime cacheControl s
                (file :: files) = (resumeDownload s polled (fields 0) file mime cacheControl).1 ::
                  downloads reads (fun i => fields (i + 1)) mime cacheControl
                    (resumeDownload s polled (fields 0) file mime cacheControl).2 files := rfl
            rw [hasked, hstep, heq]

end

/-- Two versions can be continued with each other. -/
theorem agree_iff {a b : StoredFile} :
    Resumption.Agree (a.etag, a.content) (b.etag, b.content) ↔
      (SameKnown a b → a.content.dropLast = b.content.dropLast) := by
  rw [Resumption.Agree]
  dsimp only
  rw [etag_eq_iff]
  refine imp_congr_right fun hsame => ?_
  have hlength : a.content.length = b.content.length := hsame.1
  rw [List.dropLast_eq_take, List.dropLast_eq_take, hlength]
  constructor
  · intro hall
    by_cases hzero : b.content.length = 0
    · rw [List.eq_nil_of_length_eq_zero hzero, List.eq_nil_of_length_eq_zero (hlength.trans hzero)]
    · exact hall _ (by omega) (by omega)
  · intro hlast n _ hn
    have htake := congrArg (List.take n) hlast
    rwa [List.take_take, List.take_take, min_eq_left (by omega)] at htake

/-- **A client ends with the file as it is**, wherever its connections break, if and only if the
file is never changed before its last byte under the same length and time. -/
theorem downloads_current_iff (files : List StoredFile) {fields : ℕ → List (Str × HeaderValue)}
    (h : ∀ i, Unrelated (fields i)) (hmime : IsFieldText mime)
    (hcache : ∀ text ∈ cacheControl, IsFieldText text) :
    (∀ reads : ℕ → Option (List ReadEvent),
      (∀ i, ∀ polled ∈ reads i, ∀ read ∈ polled, read.Succeeds) →
      List.Forall₂ (fun file completed => ∀ content ∈ completed, content = file.content) files
        (downloads reads fields mime cacheControl none files)) ↔
      files.Pairwise fun a b => SameKnown a b → a.content.dropLast = b.content.dropLast := by
  have hpairwise : (tagged files).Pairwise Resumption.Agree ↔
      files.Pairwise fun a b => SameKnown a b → a.content.dropLast = b.content.dropLast := by
    rw [tagged, List.pairwise_map]
    simp only [agree_iff]
  have hcurrent : ∀ completed, List.Forall₂ Resumption.Current (tagged files) completed ↔
      List.Forall₂ (fun file completed => ∀ content ∈ completed, content = file.content) files
        completed := fun completed => List.forall₂_map_left_iff
  rw [← hpairwise, ← Resumption.run_current_iff]
  constructor
  · intro hall breaks
    obtain ⟨reads, hreads, heq⟩ := exists_downloads_eq h hmime hcache breaks none files
    rw [← heq, hcurrent]
    exact hall reads hreads
  · intro hall reads hreads
    obtain ⟨breaks, heq⟩ := downloads_eq h hmime hcache hreads none files
    rw [heq, ← hcurrent]
    exact hall breaks

/-- A client begins anew when the file is edited a nanosecond later, but it can end with parts of
both versions when the time is set back to what it was. -/
theorem downloads_current_iff_edited :
    (∀ reads : ℕ → Option (List ReadEvent),
      (∀ i, ∀ polled ∈ reads i, ∀ read ∈ polled, read.Succeeds) →
      List.Forall₂ (fun file completed => ∀ content ∈ completed, content = file.content)
        [helloFile, worldFile 784111777000000001 (by decide)]
        (downloads reads (fun _ => []) "text/plain".toList none none
          [helloFile, worldFile 784111777000000001 (by decide)])) ∧
    ¬ ∀ reads : ℕ → Option (List ReadEvent),
      (∀ i, ∀ polled ∈ reads i, ∀ read ∈ polled, read.Succeeds) →
      List.Forall₂ (fun file completed => ∀ content ∈ completed, content = file.content)
        [helloFile, worldFile 784111777000000000 (by decide)]
        (downloads reads (fun _ => []) "text/plain".toList none none
          [helloFile, worldFile 784111777000000000 (by decide)]) := by
  have hmime : IsFieldText "text/plain".toList := by decide
  have hcache : ∀ text ∈ (none : Option Str), IsFieldText text := fun _ h => by cases h
  have hiff := fun files => downloads_current_iff files
    (fun _ => (show Unrelated [] from fun p hp => by cases hp)) hmime hcache
  constructor
  · refine (hiff [helloFile, worldFile 784111777000000001 (by decide)]).2 ?_
    refine List.pairwise_pair.2 fun hsame => absurd hsame.2 ?_
    decide
  · intro hcurrent
    have hpairwise := (hiff [helloFile, worldFile 784111777000000000 (by decide)]).1 hcurrent
    exact absurd (List.pairwise_pair.1 hpairwise ⟨rfl, rfl⟩) (by decide)

end OxiHttp
