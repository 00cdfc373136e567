/-
**Conditional requests.**

RFC 7232 wants 304 when `If-None-Match` is `*` or lists the entity tag of the file, a weakness mark
aside, and looks at `If-Modified-Since` only when there is no `If-None-Match`.  The server compares
strictly, reads the first line of the field only, and looks at `If-Modified-Since` whenever
`If-None-Match` has not matched.

Main definitions:

* `OxiHttp.ListsTag`, `OxiHttp.NotModifiedSince` — the two conditions of the RFC;
* `OxiHttp.ExpectsNotModified` — the requests that are to be answered with 304;
* `OxiHttp.ListsTagStrictly`, `OxiHttp.LooselyNotModifiedSince` — the two conditions of the server;
* `OxiHttp.DateAgrees` — the server takes a date as the RFC does.

Main results:

* `OxiHttp.etagMatches_iff` — a list of tags is read as one;
* `OxiHttp.ListsTagStrictly.listsTag` — what the server takes for a match is one;
* `OxiHttp.followsConditionalRfc_iff` — which requests are answered as they should be.
-/

import OxiHttp.DateExact
import OxiHttp.FieldList
import OxiHttp.Pieces
import OxiHttp.StaticFile

set_option relaxedAutoImplicit false
set_option autoImplicit false

namespace OxiHttp

open HttpDate (Moment)

/-! ### What the RFC wants -/

/-- An entity tag without its weakness mark, which is all that the weak comparison looks at. -/
def opaqueTag : Str → Str
  | 'W' :: '/' :: tag => tag
  | tag => tag

/-- `If-None-Match` is `*` or lists the entity tag. -/
def ListsTag (headers : HeaderMap) (etag : Str) : Prop :=
  ∃ v ∈ headers.getAll "if-none-match".toList,
    FieldList.trimOws v.latin1 = "*".toList ∨
      ∃ item ∈ FieldList.items v.latin1, opaqueTag item = opaqueTag etag

instance (headers : HeaderMap) (etag : Str) : Decidable (ListsTag headers etag) :=
  inferInstanceAs (Decidable (∃ v ∈ _, _ ∨ ∃ item ∈ _, _))

/-- `If-Modified-Since` is a date that is not earlier than the time of modification, in whole
seconds. -/
def NotModifiedSince (headers : HeaderMap) (mtime : Option ℤ) : Prop :=
  ∃ text mt, headerText headers "if-modified-since" = some text ∧ mtime = some mt ∧
    ∃ m : Moment, HttpDate.Denotes century (trim text) m ∧ mt / 10 ^ 9 ≤ m.unix

/-- The requests that RFC 7232 wants to be answered with 304. -/
def ExpectsNotModified (headers : HeaderMap) (md : FileMetadata) : Prop :=
  if headers.containsKey "if-none-match".toList = true then
    ListsTag headers (computeEtagFromMetadata md.len md.modified)
  else NotModifiedSince headers md.modified

/-- The response is 304 exactly when the RFC wants it. -/
def FollowsConditionalRfc (file : FileAccess) (md : FileMetadata) (method : Method)
    (headers : HeaderMap) (mime : Str) (cacheControl : Option Str) : Prop :=
  AnswersNotModified file method headers mime cacheControl ↔ ExpectsNotModified headers md

/-! ### What the server looks at -/

/-- The first line of `If-None-Match` is readable, and is `*` or lists the entity tag as it is. -/
def ListsTagStrictly (headers : HeaderMap) (etag : Str) : Prop :=
  ∃ text, headerText headers "if-none-match" = some text ∧
    (FieldList.trimOws text = "*".toList ∨ etag ∈ FieldList.items text)

/-- The first line of `If-Modified-Since` is readable and is taken for a date that is not earlier
than the time of modification, in whole seconds. -/
def LooselyNotModifiedSince (headers : HeaderMap) (mtime : Option ℤ) : Prop :=
  ∃ text mt, headerText headers "if-modified-since" = some text ∧ mtime = some mt ∧
    ∃ f, LooseDate (trim text) f ∧ f.Counted ∧ mt / 10 ^ 9 ≤ f.unix

/-- The server takes a date as the RFC does: a date before 1970, which it refuses, is earlier than
the time of modification; and so is what it takes a text for that is no date. -/
def DateAgrees (text : Str) (mtime : ℤ) : Prop :=
  (∀ m : Moment, HttpDate.Denotes century (trim text) m → m.date.year < 1970 →
    m.unix < mtime / 10 ^ 9) ∧
  ((∀ m : Moment, ¬ HttpDate.Denotes century (trim text) m) →
    ∀ f, LooseDate (trim text) f → f.Counted → (f.unix : ℤ) < mtime / 10 ^ 9)

/-! ### Matches -/

/-- An entity tag of the server is strong and not empty. -/
theorem etag_head (len : ℕ) (mtime : Option ℤ) :
    ∃ rest, computeEtagFromMetadata len mtime = '"' :: rest := by
  unfold computeEtagFromMetadata
  split
  · exact ⟨_, rfl⟩
  · exact ⟨_, rfl⟩

/-- **A list of tags is read as one.** -/
theorem etagMatches_iff {text etag : Str} (h : HeaderValue.IsReadable text) (hne : etag ≠ []) :
    etagMatches text etag = true ↔
      FieldList.trimOws text = "*".toList ∨ etag ∈ FieldList.items text := by
  have hspace := h.isWhitespace
  rw [etagMatches, HeaderValue.trim_eq_trimOws hspace]
  split_ifs with hstar
  · exact iff_of_true rfl (.inl hstar)
  · -- a piece of the line has no other white space either
    have hpiece : ∀ piece ∈ (FieldList.trimOws text).splitOn ',',
        trim piece = FieldList.trimOws piece := fun piece hmem =>
      HeaderValue.trim_eq_trimOws fun c hc =>
        hspace c (FieldList.mem_of_mem_trimOws (Pieces.mem_of_mem_splitOn hmem hc))
    rw [List.any_eq_true, or_iff_right hstar, FieldList.mem_items_iff]
    constructor
    · rintro ⟨item, hitem, heq⟩
      obtain ⟨piece, hmem, rfl⟩ := List.mem_map.1 hitem
      exact ⟨hne, piece, hmem, (hpiece piece hmem).symm.trans (of_decide_eq_true heq)⟩
    · rintro ⟨-, piece, hmem, heq⟩
      exact ⟨trim piece, List.mem_map_of_mem hmem, decide_eq_true ((hpiece piece hmem).trans heq)⟩

theorem noneMatchFails_iff {headers : HeaderMap} {len : ℕ} {mtime : Option ℤ} :
    noneMatchFails headers (computeEtagFromMetadata len mtime) = true ↔
      ListsTagStrictly headers (computeEtagFromMetadata len mtime) := by
  obtain ⟨rest, hetag⟩ := etag_head len mtime
  have hne : computeEtagFromMetadata len mtime ≠ [] := by
    rw [hetag]
    exact List.cons_ne_nil _ _
  unfold noneMatchFails ListsTagStrictly
  cases htext : headerText headers "if-none-match" with
  | none => simp
  | some text =>
      obtain ⟨v, -, hv⟩ := Option.bind_eq_some_iff.1 htext
      simp only [Option.some_inj, exists_eq_left']
      exact etagMatches_iff (HeaderValue.isReadable_of_toStr hv) hne

/-- What the server takes for a match is one. -/
theorem ListsTagStrictly.listsTag {headers : HeaderMap} {etag : Str}
    (h : ListsTagStrictly headers etag) : ListsTag headers etag := by
  obtain ⟨text, htext, hlist⟩ := h
  obtain ⟨v, hget, hv⟩ := Option.bind_eq_some_iff.1 htext
  obtain rfl := HeaderValue.latin1_of_toStr hv
  exact ⟨v, List.mem_of_head? hget, hlist.imp id fun hmem => ⟨etag, hmem, rfl⟩⟩

/-! ### Dates -/

/-- The server finds a file not modified when it reads a date that is not earlier. -/
theorem isModifiedSince_eq_false_iff {mtime : ℤ} {text : Str} :
    isModifiedSince mtime text = .ok false ↔
      ∃ t : ℕ, parseHttpDate text = .ok t ∧ mtime / 10 ^ 9 ≤ t := by
  unfold isModifiedSince
  cases parseHttpDate text with
  | ok t =>
      simp only [Except.ok.injEq, decide_eq_false_iff_not, exists_eq_left']
      omega
  | error stop => cases stop <;> simp

/-- What it reads is a loosely written date. -/
theorem isModifiedSince_eq_false_iff_loose {mtime : ℤ} {text : Str} :
    isModifiedSince mtime text = .ok false ↔
      ∃ f, LooseDate (trim text) f ∧ f.Counted ∧ mtime / 10 ^ 9 ≤ f.unix := by
  simp only [isModifiedSince_eq_false_iff, parseHttpDate_eq_ok_iff]
  constructor
  · rintro ⟨_, ⟨f, hf, hcounted, rfl⟩, hle⟩
    exact ⟨f, hf, hcounted, hle⟩
  · rintro ⟨f, hf, hcounted, hle⟩
    exact ⟨_, ⟨f, hf, hcounted, rfl⟩, hle⟩

/-- A date from 1970 on is read as it is. -/
theorem isModifiedSince_of_denotes {mtime : ℤ} {text : Str} {m : Moment}
    (h : HttpDate.Denotes century (trim text) m) :
    isModifiedSince mtime text = .ok false ↔ 1970 ≤ m.date.year ∧ mtime / 10 ^ 9 ≤ m.unix := by
  have hlt : m.date.year < 2 ^ 32 := (parseHttpDate_eq_of_denotes h).2.trans (by decide)
  rw [isModifiedSince_eq_false_iff, parseHttpDate_of_denotes h]
  split_ifs with hyear
  · have hunix := Int.toNat_of_nonneg (unix_nonneg hyear)
    simp only [Except.ok.injEq, exists_eq_left', hunix, hyear, true_and]
  · simp [hyear]

/-- The two readings of a date agree. -/
theorem dateAgrees_iff {text : Str} {mtime : ℤ} :
    DateAgrees text mtime ↔ (isModifiedSince mtime text = .ok false ↔
      ∃ m : Moment, HttpDate.Denotes century (trim text) m ∧ mtime / 10 ^ 9 ≤ m.unix) := by
  constructor
  · rintro ⟨hpast, hnone⟩
    constructor
    · intro hfalse
      by_contra hnot
      obtain ⟨f, hf, hcounted, hle⟩ := isModifiedSince_eq_false_iff_loose.1 hfalse
      refine absurd (hnone (fun m hm => ?_) f hf hcounted) (not_lt.2 hle)
      exact hnot ⟨m, hm, ((isModifiedSince_of_denotes hm).1 hfalse).2⟩
    · rintro ⟨m, hm, hle⟩
      refine (isModifiedSince_of_denotes hm).2 ⟨?_, hle⟩
      by_contra hyear
      exact absurd (hpast m hm (not_le.1 hyear)) (not_lt.2 hle)
  · intro hagree
    refine ⟨fun m hm hyear => ?_, fun hnone f hf hcounted => ?_⟩
    · by_contra hle
      have hfalse := hagree.2 ⟨m, hm, not_lt.1 hle⟩
      have hpast := ((isModifiedSince_of_denotes hm).1 hfalse).1
      omega
    · by_contra hle
      obtain ⟨m, hm, -⟩ :=
        hagree.1 (isModifiedSince_eq_false_iff_loose.2 ⟨f, hf, hcounted, not_lt.1 hle⟩)
      exact hnone m hm

theorem modifiedSinceFails_iff {headers : HeaderMap} {mtime : Option ℤ} :
    modifiedSinceFails headers mtime = .ok true ↔ LooselyNotModifiedSince headers mtime := by
  unfold modifiedSinceFails LooselyNotModifiedSince
  cases mtime with
  | none => simp
  | some mt =>
      cases headerText headers "if-modified-since" with
      | none => simp
      | some text =>
          have hmap : (isModifiedSince mt text).map (!·) = .ok true ↔
              isModifiedSince mt text = .ok false := by
            cases isModifiedSince mt text with
            | error stop => simp [Except.map]
            | ok modified => cases modified <;> simp [Except.map]
          simp only [hmap, Option.some.injEq, exists_and_left, exists_eq_left',
            isModifiedSince_eq_false_iff_loose]

/-- And so do the two readings of the header, when they agree about its date. -/
theorem looselyNotModifiedSince_iff {headers : HeaderMap} {mtime : Option ℤ} :
    (LooselyNotModifiedSince headers mtime ↔ NotModifiedSince headers mtime) ↔
      ∀ text mt, headerText headers "if-modified-since" = some text → mtime = some mt →
        DateAgrees text mt := by
  unfold LooselyNotModifiedSince NotModifiedSince
  cases mtime with
  | none => simp
  | some mt =>
      cases headerText headers "if-modified-since" with
      | none => simp
      | some text =>
          simp only [Option.some.injEq, exists_and_left, exists_eq_left', dateAgrees_iff,
            isModifiedSince_eq_false_iff_loose]
          constructor
          · rintro h _ _ rfl rfl
            exact h
          · intro h
            exact h _ _ rfl rfl

/-! ### Which requests are answered as they should be -/

/-- A request is answered as RFC 7232 wants it exactly when: with `If-None-Match`, the first line of
it lists the tag as it is, or else it lists the tag just in case the server takes
`If-Modified-Since` for a date that is not earlier; and without `If-None-Match`, the server takes
this date as the RFC does. -/
theorem followsConditionalRfc_iff {file : FileAccess} {md : FileMetadata}
    (hmd : file.metadata = .ok md) (method : Method) (headers : HeaderMap) (mime : Str)
    (cacheControl : Option Str) :
    FollowsConditionalRfc file md method headers mime cacheControl ↔
      if headers.containsKey "if-none-match".toList = true then
        ListsTagStrictly headers (computeEtagFromMetadata md.len md.modified) ∨
          (ListsTag headers (computeEtagFromMetadata md.len md.modified) ↔
            LooselyNotModifiedSince headers md.modified)
      else
        ∀ text mt, headerText headers "if-modified-since" = some text → md.modified = some mt →
          DateAgrees text mt := by
  unfold FollowsConditionalRfc ExpectsNotModified
  rw [answersNotModified_iff hmd, noneMatchFails_iff, modifiedSinceFails_iff]
  split_ifs with hkey
  · have hlists (h : ListsTagStrictly headers (computeEtagFromMetadata md.len md.modified)) :=
      h.listsTag
    tauto
  · -- without the field nothing matches
    have hnone : ¬ ListsTagStrictly headers (computeEtagFromMetadata md.len md.modified) := by
      have hget : headers.get "if-none-match".toList = none := by
        simpa [HeaderMap.containsKey] using hkey
      rintro ⟨text, htext, -⟩
      rw [headerText, hget] at htext
      cases htext
    rw [← looselyNotModifiedSince_iff, or_iff_right hnone]

/-- A file of five bytes, last modified on 6 November 1994. -/
def greetingMetadata : FileMetadata where
  len := 5
  modified := some 784111777000000000
  len_lt := by decide
  modified_lt := by decide

def greetingFile : FileAccess where
  metadata := .ok greetingMetadata
  content := .ok (Utf8.encode "hello".toList)
  seek := .ok ()

/-- A request with the entity tag of the file is answered with 304, as it should be. -/
theorem followsConditionalRfc_sameTag :
    FollowsConditionalRfc greetingFile greetingMetadata .get
      ⟨[("if-none-match".toList, ⟨Utf8.encode "\"ae1b981bc490a00-5\"".toList⟩)]⟩
      "text/plain".toList none := by
  refine (followsConditionalRfc_iff rfl _ _ _ _).2 ?_
  rw [if_pos (by decide)]
  exact .inl ⟨"\"ae1b981bc490a00-5\"".toList, by decide, .inr (by decide)⟩

/-- A tag that does not match is overridden by the date. -/
theorem not_followsConditionalRfc_otherTag :
    ¬ FollowsConditionalRfc greetingFile greetingMetadata .get
      ⟨[("if-none-match".toList, ⟨Utf8.encode "\"other\"".toList⟩),
        ("if-modified-since".toList, ⟨Utf8.encode "Sun, 06 Nov 1994 08:49:37 GMT".toList⟩)]⟩
      "text/plain".toList none := by
  intro h
  have hexpects := h.1 ((answersNotModified_iff rfl _ _ _ _).2 (.inr (by decide)))
  rw [ExpectsNotModified, if_pos (by decide)] at hexpects
  revert hexpects
  decide

end OxiHttp
