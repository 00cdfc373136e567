/-
**Revalidating a file.**

A client keeps the files that it has been sent under their entity tags, and asks for a file again
with some of these tags in `If-None-Match`, separated by commas.  `respond_with_file` answers 304
with the current tag when it is among them, and otherwise sends the file.

The tag is written from the length and the time of modification, and says no more than these: a time
before 1970 is as good as none.  So a client always shows the file as it is, for all that it may
offer, if and only if the file is never changed under the same length and time.

Main definitions:

* `OxiHttp.ifNoneMatch` — the field that offers some tags;
* `OxiHttp.revalidate`, `OxiHttp.revalidations` — one request of such a client, and any number;
* `OxiHttp.revalidationExchanges` — the tags that it offers and the responses.

Main results:

* `OxiHttp.computeEtagFromMetadata_inj` — what a tag says;
* `OxiHttp.etagMatches_commaSeparated` — a list of tags is read as it was written;
* `OxiHttp.revalidate_eq` — one request is one step of the client;
* `OxiHttp.revalidation_current_iff` — what each request is answered with, and when a client is
  always shown the file as it is.
-/

import OxiHttp.BoundarySearch
import OxiHttp.ConditionalGet
import OxiHttp.FieldList
import OxiHttp.FileBody
import OxiHttp.Revalidation

set_option relaxedAutoImplicit false
set_option autoImplicit false

namespace OxiHttp

/-! ### What a tag says -/

theorem hexDigitValue_digitChar : ∀ d < 16, hexDigitValue (Nat.digitChar d) = d := by decide

/-- A number is read back. -/
theorem hexValue_lowerHex (n : ℕ) : hexValue 0 (lowerHex n) = n := by
  induction n using Nat.strongRecOn with
  | ind n ih =>
      rw [lowerHex, Nat.toDigits_eq_if (by decide)]
      split_ifs with hlt
      · exact (Nat.zero_add _).trans (hexDigitValue_digitChar n hlt)
      · have hdiv := ih (n / 16) (Nat.div_lt_self (by omega) (by decide))
        rw [lowerHex] at hdiv
        rw [hexValue_append, hdiv]
        change n / 16 * 16 + hexDigitValue (Nat.digitChar (n % 16)) = n
        rw [hexDigitValue_digitChar _ (Nat.mod_lt n (by decide))]
        omega

/-- What an entity tag is written with. -/
theorem mem_lowerHex {n : ℕ} {c : Char} (h : c ∈ lowerHex n) : c ∈ "0123456789abcdef".toList := by
  have hdigit : ∀ d < 16, Nat.digitChar d ∈ "0123456789abcdef".toList := by decide
  induction n using Nat.strongRecOn with
  | ind n ih =>
      rw [lowerHex, Nat.toDigits_eq_if (by decide)] at h
      split_ifs at h with hlt
      · rw [List.mem_singleton.1 h]
        exact hdigit n hlt
      · rcases List.mem_append.1 h with h | h
        · exact ih (n / 16) (Nat.div_lt_self (by omega) (by decide)) h
        · rw [List.mem_singleton.1 h]
          exact hdigit _ (Nat.mod_lt n (by decide))

theorem dash_notMem_lowerHex (n : ℕ) : '-' ∉ lowerHex n := fun h =>
  absurd (mem_lowerHex h) (by decide)

/-- What stands between the quotes of a tag. -/
theorem etag_inner (len : ℕ) (mtime : Option ℤ) :
    (computeEtagFromMetadata len mtime).tail.dropLast.splitOn '-' =
      ((mtime.filter (0 ≤ ·)).map fun d => lowerHex d.toNat).toList ++ [lowerHex len] := by
  unfold computeEtagFromMetadata
  cases mtime.filter (0 ≤ ·) with
  | none =>
      change (lowerHex len ++ ['"']).dropLast.splitOn '-' = _
      rw [List.dropLast_concat, List.splitOn_eq_singleton (dash_notMem_lowerHex len)]
      rfl
  | some d =>
      change (lowerHex d.toNat ++ '-' :: (lowerHex len ++ ['"'])).dropLast.splitOn '-' = _
      rw [← List.cons_append, ← List.append_assoc, List.dropLast_concat,
        List.splitOn_append_cons_self, List.splitOn_eq_singleton (dash_notMem_lowerHex d.toNat),
        List.splitOn_eq_singleton (dash_notMem_lowerHex len)]
      rfl

/-- **What a tag says**: the length, and the time if it is not before 1970. -/
theorem computeEtagFromMetadata_inj {len len' : ℕ} {mtime mtime' : Option ℤ} :
    computeEtagFromMetadata len mtime = computeEtagFromMetadata len' mtime' ↔
      len = len' ∧ mtime.filter (0 ≤ ·) = mtime'.filter (0 ≤ ·) := by
  constructor
  · intro h
    have hinner := etag_inner len mtime
    rw [h, etag_inner] at hinner
    obtain ⟨htime, hlen⟩ := List.append_inj' hinner rfl
    have hlen' := congrArg (hexValue 0) (List.singleton_inj.1 hlen)
    rw [hexValue_lowerHex, hexValue_lowerHex] at hlen'
    refine ⟨hlen'.symm, ?_⟩
    have hnonneg : ∀ (mtime : Option ℤ) d, mtime.filter (0 ≤ ·) = some d → 0 ≤ d := by
      intro mtime d hd
      exact of_decide_eq_true (Option.filter_eq_some_iff.1 hd).2
    cases hd : mtime.filter (0 ≤ ·) with
    | none =>
        cases hd' : mtime'.filter (0 ≤ ·) with
        | none => rfl
        | some d' =>
            rw [hd, hd'] at htime
            cases htime
    | some d =>
        cases hd' : mtime'.filter (0 ≤ ·) with
        | none =>
            rw [hd, hd'] at htime
            cases htime
        | some d' =>
            rw [hd, hd'] at htime
            have hvalue := congrArg (hexValue 0) (List.singleton_inj.1 htime)
            rw [hexValue_lowerHex, hexValue_lowerHex] at hvalue
            have hpos := hnonneg mtime d hd
            have hpos' := hnonneg mtime' d' hd'
            exact congrArg some (by omega)
  · rintro ⟨rfl, htime⟩
    rw [computeEtagFromMetadata, computeEtagFromMetadata, htime]

/-! ### Offering tags -/

/-- The entity tag of a file. -/
def StoredFile.etag (file : StoredFile) : Str :=
  computeEtagFromMetadata file.content.length file.modified

/-- A text that is a tag of some file. -/
def IsEtag (text : Str) : Prop := ∃ len mtime, text = computeEtagFromMetadata len mtime

theorem StoredFile.isEtag_etag (file : StoredFile) : IsEtag file.etag := ⟨_, _, rfl⟩

theorem IsEtag.isVisible {text : Str} (h : IsEtag text) : HeaderValue.IsVisible text := by
  obtain ⟨len, mtime, rfl⟩ := h
  exact isVisible_etag len mtime

/-- A tag stands between quotes. -/
theorem IsEtag.quoted {text : Str} (h : IsEtag text) :
    text.head? = some '"' ∧ text.getLast? = some '"' := by
  obtain ⟨len, mtime, rfl⟩ := h
  unfold computeEtagFromMetadata
  split
  · refine ⟨rfl, ?_⟩
    rw [← List.cons_append, ← List.cons_append, ← List.append_assoc]
    exact List.getLast?_concat
  · refine ⟨rfl, ?_⟩
    rw [← List.cons_append]
    exact List.getLast?_concat

/-- A tag can stand in a list. -/
theorem IsEtag.isElement {text : Str} (h : IsEtag text) : FieldList.IsElement text := by
  obtain ⟨hhead, hlast⟩ := h.quoted
  obtain ⟨len, mtime, rfl⟩ := h
  refine ⟨List.ne_nil_of_mem (List.mem_of_head? hhead), fun hcomma => ?_,
    FieldList.trim_eq_self (fun c hc => ?_) fun c hc => ?_⟩
  · have hhex : ∀ n, ',' ∉ lowerHex n := fun n hn => absurd (mem_lowerHex hn) (by decide)
    unfold computeEtagFromMetadata at hcomma
    split at hcomma
    · simp [hhex] at hcomma
    · simp [hhex] at hcomma
  · cases hhead.symm.trans hc
    rfl
  · cases hlast.symm.trans hc
    rfl

/-- Tags with commas between them. -/
def commaSeparated (tags : List Str) : Str := ", ".toList.intercalate tags

theorem isVisible_commaSeparated {tags : List Str} (h : ∀ tag ∈ tags, IsEtag tag) :
    HeaderValue.IsVisible (commaSeparated tags) := by
  induction tags with
  | nil => exact fun c hc => absurd hc List.not_mem_nil
  | cons tag tags ih =>
      obtain ⟨htag, htags⟩ := List.forall_mem_cons.1 h
      cases tags with
      | nil =>
          rw [commaSeparated, List.intercalate_singleton]
          exact htag.isVisible
      | cons tag' tags =>
          rw [commaSeparated, List.intercalate_cons_cons]
          exact isVisible_append (isVisible_append htag.isVisible (by decide)) (ih htags)

/-- **A list of tags is read as it was written.** -/
theorem etagMatches_commaSeparated {tags : List Str} (h : ∀ tag ∈ tags, IsEtag tag) {etag : Str}
    (hetag : IsEtag etag) : etagMatches (commaSeparated tags) etag = true ↔ etag ∈ tags := by
  have hread := HeaderValue.isReadable_of_isVisible (isVisible_commaSeparated h)
  have hitems : FieldList.items (commaSeparated tags) = tags := by
    rw [FieldList.items_eq_tokens]
    exact FieldList.tokens_intercalate fun tag htag => (h tag htag).isElement
  have hstar : FieldList.trimOws (commaSeparated tags) ≠ "*".toList := by
    intro heq
    have hone : tags = ["*".toList] := by
      rw [← hitems, FieldList.items, heq]
      decide
    have hquoted := (h "*".toList (by rw [hone]; exact List.mem_singleton_self _)).quoted.1
    cases hquoted
  rw [etagMatches_iff hread hetag.isElement.ne_nil, or_iff_right hstar, hitems]

/-! ### One request -/

/-- The field that offers some tags. -/
def ifNoneMatch (tags : List Str) : List (Str × HeaderValue) :=
  if tags = [] then [] else [("if-none-match".toList, ⟨Utf8.encode (commaSeparated tags)⟩)]

/-- Fields that do not ask for a part of the file or for something on a condition. -/
def Unrelated (fields : List (Str × HeaderValue)) : Prop :=
  ∀ p ∈ fields, p.1 ∉ ["if-none-match".toList, "if-modified-since".toList, "range".toList]

/-- A response: what it shows of a file under its tag, when there are files that are kept. -/
def FileResponse.shown (r : FileResponse) (stored : Str → Option (List UInt8)) :
    Option (Str × List UInt8) :=
  (headerText r.headers "etag").bind fun tag =>
    if r.status = 304 then (stored tag).map fun content => (tag, content)
    else
      match r.body with
      | .stream s => some (tag, s.pending)
      | .empty => none

/-- One request of a client that keeps files under their tags and offers some of these: what it is
shown, and what it keeps then. -/
def revalidate (stored : Str → Option (List UInt8)) (offer : List Str)
    (fields : List (Str × HeaderValue)) (file : StoredFile) (mime : Str)
    (cacheControl : Option Str) : Option (List UInt8) × (Str → Option (List UInt8)) :=
  let headers : HeaderMap := ⟨fields ++ ifNoneMatch (offer.filter fun tag => (stored tag).isSome)⟩
  match respondWithFile file.access .get headers mime cacheControl with
  | .error _ => (none, stored)
  | .ok r =>
      match r.shown stored with
      | some (tag, content) => (some content, Function.update stored tag (some content))
      | none => (none, stored)

variable {fields : List (Str × HeaderValue)} {tags : List Str}

/-- The unrelated fields say nothing about these names. -/
theorem getAll_unrelated (h : Unrelated fields) (others : List (Str × HeaderValue)) {name : Str}
    (hname : name ∈ ["if-none-match".toList, "if-modified-since".toList, "range".toList]) :
    (HeaderMap.mk (fields ++ others)).getAll name = (HeaderMap.mk others).getAll name := by
  have hnone : fields.filter (fun p => p.1 = name) = [] :=
    List.filter_eq_nil_iff.2 fun p hp heq => h p hp (of_decide_eq_true heq ▸ hname)
  rw [HeaderMap.getAll, List.filter_append, hnone]
  rfl

/-- The tags that are offered are those that match. -/
theorem noneMatchFails_ifNoneMatch (h : Unrelated fields) (htags : ∀ tag ∈ tags, IsEtag tag)
    {etag : Str} (hetag : IsEtag etag) :
    noneMatchFails ⟨fields ++ ifNoneMatch tags⟩ etag = true ↔ etag ∈ tags := by
  rw [noneMatchFails, headerText, HeaderMap.get, getAll_unrelated h _ (by decide), ifNoneMatch]
  split_ifs with hnil
  · rw [hnil]
    exact iff_of_false Bool.false_ne_true List.not_mem_nil
  · have htext : ((HeaderMap.mk [("if-none-match".toList,
        ⟨Utf8.encode (commaSeparated tags)⟩)]).getAll "if-none-match".toList).head?.bind
          HeaderValue.toStr = some (commaSeparated tags) :=
      HeaderValue.toStr_of_isVisible (isVisible_commaSeparated htags)
    rw [htext]
    exact etagMatches_commaSeparated htags hetag

/-- The response that a file has not been modified. -/
def StoredFile.notModified (file : StoredFile) : FileResponse :=
  ⟨304, ⟨encodeFields [("etag".toList, file.etag)]⟩, .empty⟩

/-- The response with a file. -/
def StoredFile.whole (file : StoredFile) (mime : Str) (cacheControl : Option Str) : FileResponse :=
  ⟨200, ⟨encodeFields (fullFields file.metadata mime cacheControl)⟩,
    .stream ⟨file.content, file.content.length⟩⟩

theorem headerText_of_getAll {file : StoredFile} {headers : HeaderMap}
    (hall : headers.getAll "etag".toList = [⟨Utf8.encode file.etag⟩]) :
    headerText headers "etag" = some file.etag := by
  rw [headerText, HeaderMap.get, hall]
  exact HeaderValue.toStr_of_isVisible file.isEtag_etag.isVisible

/-- Both responses have the tag of the file. -/
theorem StoredFile.headerText_notModified (file : StoredFile) :
    headerText file.notModified.headers "etag" = some file.etag := headerText_of_getAll rfl

theorem StoredFile.headerText_whole (file : StoredFile) (mime : Str) (cacheControl : Option Str) :
    headerText (file.whole mime cacheControl).headers "etag" = some file.etag := by
  refine headerText_of_getAll ?_
  rw [whole, getAll_encodeFields, fullFields, List.filter_append, List.filter_append,
    filter_optionalField (by decide), filter_optionalField (by decide)]
  rfl

/-- The response to a request that offers some tags. -/
theorem respondWithFile_ifNoneMatch (h : Unrelated fields) {mime : Str} {cacheControl : Option Str}
    (hmime : IsFieldText mime) (hcache : ∀ text ∈ cacheControl, IsFieldText text)
    (htags : ∀ tag ∈ tags, IsEtag tag) (file : StoredFile) :
    respondWithFile file.access .get ⟨fields ++ ifNoneMatch tags⟩ mime cacheControl =
      .ok (if file.etag ∈ tags then file.notModified else file.whole mime cacheControl) := by
  have hmatch := noneMatchFails_ifNoneMatch h htags file.isEtag_etag
  have hother : ∀ name ∈ ["if-modified-since", "range"],
      headerText ⟨fields ++ ifNoneMatch tags⟩ name = none := by
    intro name hname
    have hget : (HeaderMap.mk (ifNoneMatch tags)).getAll name.toList = [] := by
      have hne : "if-none-match".toList ≠ name.toList := by
        rcases List.mem_cons.1 hname with rfl | hname
        · decide
        · rw [List.mem_singleton.1 hname]
          decide
      unfold ifNoneMatch
      split_ifs
      · rfl
      · rw [HeaderMap.getAll, List.filter_cons_of_neg (by rwa [decide_eq_true_eq])]
        rfl
    have hnames : name.toList ∈
        ["if-none-match".toList, "if-modified-since".toList, "range".toList] :=
      List.mem_cons_of_mem _ (List.mem_map_of_mem (f := String.toList) hname)
    rw [headerText, HeaderMap.get, getAll_unrelated h _ hnames, hget]
    rfl
  have hetag : computeEtagFromMetadata file.content.length file.modified = file.etag := rfl
  have hnot : notModifiedResponse file.etag = .ok file.notModified := notModifiedResponse_eq_ok _ _
  rw [respondWithFile, StoredFile.access_metadata]
  dsimp only
  rw [StoredFile.metadata_len, StoredFile.metadata_modified, hetag, hnot]
  by_cases hmem : file.etag ∈ tags
  · rw [if_pos (hmatch.2 hmem), if_pos hmem]
    rfl
  · have hsince : modifiedSinceFails ⟨fields ++ ifNoneMatch tags⟩ file.modified = .ok false := by
      unfold modifiedSinceFails
      rw [hother _ List.mem_cons_self]
      cases file.modified <;> rfl
    have hwhole : fullResponse file.access file.metadata .get mime cacheControl =
        .ok (file.whole mime cacheControl) :=
      fullResponse_eq_ok_iff.2 ⟨isFieldText_fullFields file hmime hcache, _, rfl, rfl⟩
    rw [if_neg fun hfails => hmem (hmatch.1 hfails), if_neg hmem, hsince]
    dsimp only
    rw [selectResponse, hother _ (List.mem_cons_of_mem _ List.mem_cons_self)]
    dsimp only
    rw [hwhole]
    rfl

/-- **One request is one step of the client**: the current tag has been offered if it stands in the
offer and something is kept under it. -/
theorem revalidate_eq (h : Unrelated fields) {mime : Str} {cacheControl : Option Str}
    (hmime : IsFieldText mime) (hcache : ∀ text ∈ cacheControl, IsFieldText text)
    {stored : Str → Option (List UInt8)} (hstored : ∀ tag, (stored tag).isSome → IsEtag tag)
    (offer : List Str) (file : StoredFile) :
    revalidate stored offer fields file mime cacheControl =
      (some (Revalidation.step stored (file.etag, file.content) (offer.contains file.etag)).1,
        (Revalidation.step stored (file.etag, file.content) (offer.contains file.etag)).2) := by
  have htags : ∀ tag ∈ offer.filter fun tag => (stored tag).isSome, IsEtag tag :=
    fun tag htag => hstored tag (List.mem_filter.1 htag).2
  unfold revalidate
  dsimp only
  rw [respondWithFile_ifNoneMatch h hmime hcache htags]
  dsimp only
  split_ifs with hmem
  · obtain ⟨hoffer, hsome⟩ := List.mem_filter.1 hmem
    obtain ⟨content, hcontent⟩ := Option.isSome_iff_exists.1 hsome
    have hshown : file.notModified.shown stored = some (file.etag, content) := by
      have hstatus : file.notModified.status = 304 := rfl
      rw [FileResponse.shown, file.headerText_notModified, Option.bind_some, if_pos hstatus,
        hcontent, Option.map_some]
    have hkept : Function.update stored file.etag (some content) = stored := by
      rw [← hcontent, Function.update_eq_self]
    have hcontains : offer.contains file.etag = true := List.contains_iff_mem.2 hoffer
    rw [hshown, Revalidation.step, hcontains, if_pos rfl, hcontent]
    dsimp only
    rw [hkept]
  · have hshown : (file.whole mime cacheControl).shown stored = some (file.etag, file.content) := by
      have hstatus : (file.whole mime cacheControl).status ≠ 304 := (by decide : (200 : ℕ) ≠ 304)
      rw [FileResponse.shown, file.headerText_whole, Option.bind_some, if_neg hstatus]
      change some (file.etag, FileRangeStream.pending _) = _
      rw [FileRangeStream.pending, List.take_length]
    have hnone : (if offer.contains file.etag = true then stored file.etag else none) = none := by
      split_ifs with hcontains
      · rw [← Option.not_isSome_iff_eq_none]
        exact fun hsome => hmem (List.mem_filter.2 ⟨List.contains_iff_mem.1 hcontains, hsome⟩)
      · rfl
    rw [hshown, Revalidation.step, hnone]

/-! ### Any number of requests -/

/-- What a client is shown of the versions of a file, one request for each. -/
def revalidations (offers : ℕ → List Str) (fields : ℕ → List (Str × HeaderValue)) (mime : Str)
    (cacheControl : Option Str) (stored : Str → Option (List UInt8)) :
    List StoredFile → List (Option (List UInt8))
  | [] => []
  | file :: files =>
      (revalidate stored (offers 0) (fields 0) file mime cacheControl).1 ::
        revalidations (fun i => offers (i + 1)) (fun i => fields (i + 1)) mime cacheControl
          (revalidate stored (offers 0) (fields 0) file mime cacheControl).2 files

/-- What the requests of a client offer, and their responses. -/
def revalidationExchanges (offers : ℕ → List Str) (fields : ℕ → List (Str × HeaderValue))
    (mime : Str) (cacheControl : Option Str) (stored : Str → Option (List UInt8)) :
    List StoredFile → List (List Str × Except FileStop FileResponse)
  | [] => []
  | file :: files =>
      let tags := (offers 0).filter fun tag => (stored tag).isSome
      (tags, respondWithFile file.access .get ⟨fields 0 ++ ifNoneMatch tags⟩ mime cacheControl) ::
        revalidationExchanges (fun i => offers (i + 1)) (fun i => fields (i + 1)) mime cacheControl
          (revalidate stored (offers 0) (fields 0) file mime cacheControl).2 files

/-- The versions of a file with their tags. -/
def tagged (files : List StoredFile) : List (Str × List UInt8) :=
  files.map fun file => (file.etag, file.content)

section

variable {mime : Str} {cacheControl : Option Str} (hmime : IsFieldText mime)
  (hcache : ∀ text ∈ cacheControl, IsFieldText text)
include hmime hcache

/-- What a client keeps after a request is kept under tags. -/
theorem isEtag_of_revalidate (h : Unrelated fields) {stored : Str → Option (List UInt8)}
    (hstored : ∀ tag, (stored tag).isSome → IsEtag tag) (offer : List Str) (file : StoredFile)
    {tag : Str} (htag : ((revalidate stored offer fields file mime cacheControl).2 tag).isSome) :
    IsEtag tag := by
  rw [revalidate_eq h hmime hcache hstored] at htag
  obtain ⟨-, -, hothers⟩ := Revalidation.step_cases stored (file.etag, file.content)
    (offer.contains file.etag)
  by_cases hself : tag = file.etag
  · rw [hself]
    exact file.isEtag_etag
  · dsimp only at htag
    rw [hothers tag hself] at htag
    exact hstored tag htag

/-- All requests are a run of the client. -/
theorem revalidations_eq {fields : ℕ → List (Str × HeaderValue)} (h : ∀ i, Unrelated (fields i))
    {stored : Str → Option (List UInt8)} (hstored : ∀ tag, (stored tag).isSome → IsEtag tag)
    (offers : ℕ → List Str) (files : List StoredFile) :
    revalidations offers fields mime cacheControl stored files =
      (Revalidation.run (fun i tag => (offers i).contains tag) stored (tagged files)).map some := by
  induction files generalizing offers fields stored with
  | nil => rfl
  | cons file files ih =>
      have hafter := fun tag => @isEtag_of_revalidate _ mime cacheControl hmime hcache (h 0) _
        hstored (offers 0) file tag
      rw [revalidations, ih (fun i => h (i + 1)) hafter,
        revalidate_eq (h 0) hmime hcache hstored (offers 0) file]
      rfl

/-- Every request is answered as the tags that it offers ask for. -/
theorem getElem?_revalidationExchanges {fields : ℕ → List (Str × HeaderValue)}
    (h : ∀ i, Unrelated (fields i)) {stored : Str → Option (List UInt8)}
    (hstored : ∀ tag, (stored tag).isSome → IsEtag tag) (offers : ℕ → List Str)
    {files : List StoredFile} {i : ℕ} {file : StoredFile} (hfile : files[i]? = some file) :
    ∃ tags, (revalidationExchanges offers fields mime cacheControl stored files)[i]? = some
      (tags, .ok (if file.etag ∈ tags then file.notModified
        else file.whole mime cacheControl)) := by
  induction files generalizing offers fields stored i with
  | nil => cases hfile
  | cons first files ih =>
      cases i with
      | zero =>
          cases hfile
          refine ⟨(offers 0).filter fun tag => (stored tag).isSome, ?_⟩
          have htags : ∀ tag ∈ (offers 0).filter fun tag => (stored tag).isSome, IsEtag tag :=
            fun tag htag => hstored tag (List.mem_filter.1 htag).2
          rw [← respondWithFile_ifNoneMatch (h 0) hmime hcache htags file]
          rfl
      | succ i =>
          have hafter := fun tag => @isEtag_of_revalidate _ mime cacheControl hmime hcache (h 0) _
            hstored (offers 0) first tag
          exact ih (fun i => h (i + 1)) hafter (fun i => offers (i + 1)) hfile

end

/-- Nothing that a tag says distinguishes the two versions: neither their length nor their time, if
it is not before 1970. -/
def SameKnown (a b : StoredFile) : Prop :=
  a.content.length = b.content.length ∧ a.modified.filter (0 ≤ ·) = b.modified.filter (0 ≤ ·)

theorem etag_eq_iff {a b : StoredFile} : a.etag = b.etag ↔ SameKnown a b :=
  computeEtagFromMetadata_inj

/-- **A client is always shown the file as it is**, whatever tags it offers, if and only if the file
is never changed under the same length and time; and in any case it is shown what the file has been
under these.  It is answered 304 with the current tag when it has offered that, and otherwise with
the file. -/
theorem revalidation_current_iff (files : List StoredFile)
    (fields : ℕ → List (Str × HeaderValue)) (hfields : ∀ i, Unrelated (fields i)) (mime : Str)
    (cacheControl : Option Str) (hmime : IsFieldText mime)
    (hcache : ∀ text ∈ cacheControl, IsFieldText text) :
    ((∀ offers, revalidations offers fields mime cacheControl (fun _ => none) files =
        files.map fun file => some file.content) ↔
      files.Pairwise fun a b => SameKnown a b → a.content = b.content) ∧
    (∀ offers i file, files[i]? = some file → ∃ earlier ∈ files.take (i + 1),
      SameKnown earlier file ∧
      (revalidations offers fields mime cacheControl (fun _ => none) files)[i]? =
        some (some earlier.content)) ∧
    ∀ (offers : ℕ → List Str) (i : ℕ) (file : StoredFile), files[i]? = some file → ∃ tags,
      (revalidationExchanges offers fields mime cacheControl (fun _ => none) files)[i]? = some
        (tags, .ok (if file.etag ∈ tags then file.notModified
          else file.whole mime cacheControl)) := by
  have hnothing : ∀ tag, ((fun _ => none : Str → Option (List UInt8)) tag).isSome → IsEtag tag :=
    fun _ h => by cases h
  have hrun := fun offers => revalidations_eq hmime hcache hfields hnothing offers files
  have hcontents : (files.map fun file => some file.content) =
      ((tagged files).map Prod.snd).map some := by
    rw [tagged, List.map_map, List.map_map]
    rfl
  have hinj : Function.Injective (List.map (some : List UInt8 → Option (List UInt8))) :=
    List.map_injective_iff.2 (Option.some_injective _)
  refine ⟨?_, fun offers i file hfile => ?_, fun offers i file hfile =>
    getElem?_revalidationExchanges hmime hcache hfields hnothing offers hfile⟩
  · have hpairwise : (tagged files).Pairwise (fun a b => a.1 = b.1 → a.2 = b.2) ↔
        files.Pairwise fun a b => SameKnown a b → a.content = b.content := by
      rw [tagged, List.pairwise_map]
      simp only [etag_eq_iff]
    rw [← hpairwise, ← Revalidation.run_eq_iff]
    constructor
    · intro hcurrent offered
      -- of the tags of the file, those are offered that the client would offer
      let offers : ℕ → List Str := fun i => ((tagged files).map Prod.fst).filter (offered i)
      have hoffers := hcurrent offers
      rw [hrun, hcontents] at hoffers
      rw [← hinj hoffers]
      refine Revalidation.run_congr _ (fun i version hmem => ?_) _
      have hkey : version.1 ∈ (tagged files).map Prod.fst := List.mem_map_of_mem hmem
      rw [Bool.eq_iff_iff, List.contains_iff_mem, List.mem_filter]
      exact ⟨fun hoffered => ⟨hkey, hoffered⟩, fun h => h.2⟩
    · intro hall offers
      rw [hrun, hall, hcontents]
  · have htagged : (tagged files)[i]? = some (file.etag, file.content) := by
      rw [tagged, List.getElem?_map, hfile]
      rfl
    obtain ⟨shown, hshown⟩ : ∃ shown, (Revalidation.run (fun i tag => (offers i).contains tag)
        (fun _ => none) (tagged files))[i]? = some shown := by
      have hi : i < (tagged files).length := (List.getElem?_eq_some_iff.1 htagged).1
      exact ⟨_, List.getElem?_eq_getElem (by rwa [Revalidation.length_run])⟩
    rcases Revalidation.run_shown _ _ _ htagged hshown with hstored | ⟨version, hmem, hkey, hvalue⟩
    · cases hstored
    · rw [tagged, ← List.map_take] at hmem
      obtain ⟨earlier, hearlier, rfl⟩ := List.mem_map.1 hmem
      refine ⟨earlier, hearlier, etag_eq_iff.1 hkey, ?_⟩
      rw [hrun, List.getElem?_map, hshown, ← hvalue]
      rfl

/-! ### A file that is edited -/

theorem world_length_lt : (Utf8.encode "world".toList).length < 2 ^ 64 := by decide

theorem world_modified_lt (t : ℤ) (h : t < 10 ^ 27) : ∀ s ∈ some t, s / 10 ^ 9 < 2 ^ 63 := by
  intro s hs
  cases hs
  omega

/-- Another content of the same length, with a time. -/
def worldFile (t : ℤ) (h : t < 10 ^ 27) : StoredFile where
  content := Utf8.encode "world".toList
  modified := some t
  length_lt := world_length_lt
  modified_lt := world_modified_lt t h

/-- A client notices it when the file is edited a nanosecond later, but not when the time is set back
to what it was. -/
theorem revalidation_current_iff_edited :
    (∀ offers, revalidations offers (fun _ => []) "text/plain".toList none (fun _ => none)
      [helloFile, worldFile 784111777000000001 (by decide)] =
        [some (Utf8.encode "hello".toList), some (Utf8.encode "world".toList)]) ∧
    ¬ ∀ offers, revalidations offers (fun _ => []) "text/plain".toList none (fun _ => none)
      [helloFile, worldFile 784111777000000000 (by decide)] =
        [some (Utf8.encode "hello".toList), some (Utf8.encode "world".toList)] := by
  have hiff := fun files => (revalidation_current_iff files (fun _ => []) (fun _ p hp => by cases hp)
    "text/plain".toList none (by decide) (fun _ h => by cases h)).1
  constructor
  · refine (hiff [helloFile, worldFile 784111777000000001 (by decide)]).2 ?_
    refine List.pairwise_pair.2 fun hsame => absurd hsame.2 ?_
    decide
  · intro hcurrent
    have hpairwise := (hiff [helloFile, worldFile 784111777000000000 (by decide)]).1 hcurrent
    exact absurd (List.pairwise_pair.1 hpairwise ⟨rfl, rfl⟩) (by decide)

end OxiHttp
