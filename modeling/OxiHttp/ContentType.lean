/-
**Media types and `Accept`.**

`ContentType` names the media types that the crate knows and keeps the others as texts.
`parse_accept` reads the pieces of an `Accept` as media types with qualities and sorts them by
quality, and `negotiate_content_type` goes through them for the first that a supported type matches.

The quality is found by its `;q=` in the lower case of a piece, and read from the piece itself at
the same offset.  Where the lower case has another number of bytes, the offset may be none of the
piece, and the slicing panics.  So may the sort, when a quality is no number.

Main definitions:

* `OxiHttp.ContentType`, `OxiHttp.ContentType.fromStr` — media types, and how they are read;
* `OxiHttp.extractQuality`, `OxiHttp.parseAccept` — the entries of an `Accept`;
* `OxiHttp.negotiateContentType` — the type that is chosen.

Main results:

* `OxiHttp.ContentType.fromStr_eq` — a text is read by its type and its parameters;
* `OxiHttp.perm_of_parseAccept` — the entries are those of the pieces, in another order;
* `OxiHttp.parseAccept_of_numbers` — they are sorted when every quality is a number.
-/

import OxiHttp.AcceptText
import OxiHttp.Binary32
import OxiHttp.UnicodeText

set_option relaxedAutoImplicit false
set_option autoImplicit false

namespace OxiHttp

/-! ### Media types -/

/-- `ContentType`. -/
inductive ContentType where
  | json
  | form
  | multipart (boundary : Option Str)
  | octetStream
  | text (charset : Option Str)
  | html (charset : Option Str)
  | xml
  | other (s : Str)
deriving DecidableEq

namespace ContentType

/-- `ContentType::mime_type`. -/
def mimeType : ContentType → Str
  | json => "application/json".toList
  | form => "application/x-www-form-urlencoded".toList
  | multipart _ => "multipart/form-data".toList
  | octetStream => "application/octet-stream".toList
  | text _ => "text/plain".toList
  | html _ => "text/html".toList
  | xml => "application/xml".toList
  | other s => s

/-- `trim_matches(c)`. -/
def trimMatches (c : Char) (s : Str) : Str := trimEnd c (s.dropWhile (· = c))

/-- The value of the first parameter with a name, in any case, without the quotes around it. -/
def parameter (name params : Str) : Option Str :=
  ((params.splitOn ';').map trim).findSome? fun param =>
    match splitOnce '=' param with
    | some (key, val) =>
        if eqIgnoreAsciiCase (trim key) name then some (trimMatches '"' (trim val)) else none
    | none => none

/-- `ContentType::from_str`, which is never an error. -/
def fromStr (table : UnicodeText.CaseTable) (s : Str) : ContentType :=
  let trimmed := trim s
  let (mimeRaw, paramsRaw) :=
    match splitOnce ';' trimmed with
    | some (m, p) => (trim m, some (trim p))
    | none => (trimmed, none)
  let mime := table.lower mimeRaw
  let charset := paramsRaw.bind (parameter "charset".toList)
  let boundary := paramsRaw.bind (parameter "boundary".toList)
  if mime = "application/json".toList then json
  else if mime = "application/x-www-form-urlencoded".toList then form
  else if mime = "multipart/form-data".toList then multipart boundary
  else if mime = "application/octet-stream".toList then octetStream
  else if mime = "text/plain".toList then text charset
  else if mime = "text/html".toList then html charset
  else if mime = "application/xml".toList ∨ mime = "text/xml".toList then xml
  else other mime

/-- What stands in front of the first slash: `split('/').next()`. -/
def beforeSlash (s : Str) : Str := s.takeWhile (· ≠ '/')

/-- The tests of `negotiate_content_type` on the `mime_type` of an entry and of a supported type. -/
def IsMatch (entry sup : Str) : Prop :=
  entry = sup ∨ entry = "*/*".toList ∨
    ("/*".toList <:+ entry ∧ beforeSlash entry = beforeSlash sup)

instance (entry sup : Str) : Decidable (IsMatch entry sup) :=
  inferInstanceAs (Decidable (_ ∨ _ ∨ _ ∧ _))

end ContentType

/-! ### The entries -/

/-- `AcceptEntry`. -/
structure ContentType.AcceptEntry where
  contentType : ContentType
  quality : Binary32.Value

/-- The offset of a text in another, `find`. -/
def findStr (pat s : Str) : Option ℕ :=
  (splitOnceStr pat s).map fun p => (Utf8.encode p.1).length

/-- The quality behind its `;q=`, up to the next parameter; it is one when it is no number. -/
def readQuality (qStr : Str) : Binary32.Value :=
  (Binary32.parse (trim (qStr.takeWhile (· ≠ ';')))).getD Binary32.one

/-- `extract_quality`, unless the slicing panics. -/
def extractQuality (table : UnicodeText.CaseTable) (s : Str) : Option (Str × Binary32.Value) :=
  match findStr ";q=".toList (table.lower s) with
  | some idx => do
      let (mime, rest) ← UnicodeText.splitAtByte idx s
      let (_, qStr) ← UnicodeText.splitAtByte 3 rest
      some (trim mime, readQuality qStr)
  | none => some (s, Binary32.one)

/-- The entry of a piece. -/
def parsePiece (table : UnicodeText.CaseTable) (part : Str) : Option ContentType.AcceptEntry :=
  (extractQuality table part).map fun p => ⟨ContentType.fromStr table p.1, p.2⟩

/-- The comparison of the sort: the greater quality comes first. -/
def byQuality (a b : ContentType.AcceptEntry) : Ordering :=
  (Binary32.partialCmp b.quality a.quality).getD .eq

/-- `parse_accept`, unless the slicing or the sort panics. -/
def parseAccept (table : UnicodeText.CaseTable) (disorder : SortBy.Disorder ContentType.AcceptEntry)
    (header : Str) : Option (List ContentType.AcceptEntry) :=
  ((acceptParts header).mapM (parsePiece table)).bind (SortBy.sortBy disorder byQuality)

/-- `negotiate_content_type`, unless `parse_accept` panics. -/
def negotiateContentType (table : UnicodeText.CaseTable)
    (disorder : SortBy.Disorder ContentType.AcceptEntry) (acceptHeader : Str)
    (supported : List ContentType) : Option (Option ContentType) :=
  (parseAccept table disorder acceptHeader).map fun entries =>
    entries.findSome? fun entry => supported.find? fun sup =>
      ContentType.IsMatch entry.contentType.mimeType sup.mimeType

/-! ### What they are -/

/-- The lower case of an ASCII character is one, and no other character has it. -/
theorem isAscii_toLower {c : Char} : Utf8.IsAscii c.toLower ↔ Utf8.IsAscii c := by
  have hmax : (127 : UInt32).toNat = 127 := rfl
  rw [Utf8.IsAscii, Utf8.IsAscii, Char.utf8Size_eq_one_iff, Char.utf8Size_eq_one_iff,
    UInt32.le_iff_toNat_le, UInt32.le_iff_toNat_le, toLower_val]
  split <;> omega

namespace ContentType

/-- What a text has in front of its parameters. -/
def essence (s : Str) : Str :=
  match splitOnce ';' (trim s) with
  | some (m, _) => trim m
  | none => trim s

/-- The name of a type is its own, but for the one that has two. -/
def canonical (mime : Str) : Str :=
  if mime = "text/xml".toList then "application/xml".toList else mime

theorem canonical_of_ne {mime : Str} (h : mime ≠ "text/xml".toList) : canonical mime = mime :=
  if_neg h

/-- The parameters. -/
def parameters (s : Str) : List Str :=
  match splitOnce ';' (trim s) with
  | some (_, params) => ((trim params).splitOn ';').map trim
  | none => []

/-- The first parameter with a name, as it stands there. -/
def rawParameter (name s : Str) : Option Str :=
  (parameters s).findSome? fun param =>
    match splitOnce '=' param with
    | some (key, val) => if eqIgnoreAsciiCase (trim key) name then some (trim val) else none
    | none => none

/-- The value of the first parameter with a name. -/
def parameterValue (s name : Str) : Option Str := (rawParameter name s).map (trimMatches '"')

/-- What a type with these parameters is read as. -/
def ofParts (mime : Str) (param : Str → Option Str) : ContentType :=
  if mime = "application/json".toList then json
  else if mime = "application/x-www-form-urlencoded".toList then form
  else if mime = "multipart/form-data".toList then multipart (param "boundary".toList)
  else if mime = "application/octet-stream".toList then octetStream
  else if mime = "text/plain".toList then text (param "charset".toList)
  else if mime = "text/html".toList then html (param "charset".toList)
  else if mime = "application/xml".toList ∨ mime = "text/xml".toList then xml
  else other mime

theorem parameter_eq (name s : Str) {m params : Str}
    (h : splitOnce ';' (trim s) = some (m, params)) :
    parameter name (trim params) = parameterValue s name := by
  have hparams : parameters s = ((trim params).splitOn ';').map trim := by
    unfold parameters
    rw [h]
  rw [parameter, parameterValue, rawParameter, hparams, List.map_findSome?]
  congr 1
  funext param
  cases hsplit : splitOnce '=' param with
  | none => simp [hsplit]
  | some p =>
      simp only [Function.comp_apply, hsplit]
      split_ifs <;> rfl

/-- A text is read by its type and its parameters. -/
theorem fromStr_eq (table : UnicodeText.CaseTable) (s : Str) :
    fromStr table s = ofParts (table.lower (essence s)) (parameterValue s) := by
  cases h : splitOnce ';' (trim s) with
  | none =>
      have hnone : ∀ name, parameterValue s name = none := by
        intro name
        rw [parameterValue, rawParameter, parameters, h]
        rfl
      rw [ofParts, hnone, hnone, essence, h]
      simp only [fromStr, h]
      rfl
  | some p =>
      obtain ⟨m, params⟩ := p
      rw [ofParts, ← parameter_eq _ s h, ← parameter_eq _ s h, essence, h]
      simp only [fromStr, h]
      rfl

theorem mimeType_ofParts (mime : Str) (param : Str → Option Str) :
    (ofParts mime param).mimeType = canonical mime := by
  unfold ofParts
  split_ifs with h h h h h h h
  · rw [h]
    exact (canonical_of_ne (show "application/json".toList ≠ _ by decide)).symm
  · rw [h]
    exact (canonical_of_ne (show "application/x-www-form-urlencoded".toList ≠ _ by decide)).symm
  · rw [h]
    exact (canonical_of_ne (show "multipart/form-data".toList ≠ _ by decide)).symm
  · rw [h]
    exact (canonical_of_ne (show "application/octet-stream".toList ≠ _ by decide)).symm
  · rw [h]
    exact (canonical_of_ne (show "text/plain".toList ≠ _ by decide)).symm
  · rw [h]
    exact (canonical_of_ne (show "text/html".toList ≠ _ by decide)).symm
  · rcases h with h | h
    · rw [h]
      exact (canonical_of_ne (show "application/xml".toList ≠ _ by decide)).symm
    · rw [h]
      exact (if_pos rfl).symm
  · exact (canonical_of_ne (not_or.1 h).2).symm

/-- A type is known by its name. -/
theorem mimeType_fromStr (table : UnicodeText.CaseTable) (s : Str) :
    (fromStr table s).mimeType = canonical (table.lower (essence s)) := by
  rw [fromStr_eq, mimeType_ofParts]

end ContentType

theorem mapM_eq_some_iff {α β : Type} {f : α → Option β} {l : List α} {r : List β} :
    l.mapM f = some r ↔ l.map f = r.map some := by
  induction l generalizing r with
  | nil => cases r <;> simp
  | cons x l ih =>
      cases hx : f x with
      | none => cases r <;> simp [hx]
      | some y =>
          rw [List.mapM_cons, hx]
          cases r with
          | nil => simp [hx, Option.bind_eq_some_iff]
          | cons z r =>
              rw [List.map_cons, List.map_cons, hx, List.cons.injEq, ← ih]
              simp [Option.bind_eq_some_iff, and_comm]

/-- Where a function has a value with a property on each element, it has them on the list. -/
theorem exists_map_eq_map_some {α β : Type} {f : α → Option β} {P : β → Prop} {l : List α}
    (h : ∀ x ∈ l, ∃ y, f x = some y ∧ P y) : ∃ r : List β, l.map f = r.map some ∧ ∀ y ∈ r, P y := by
  induction l with
  | nil => exact ⟨[], rfl, List.forall_mem_nil _⟩
  | cons x l ih =>
      rw [List.forall_mem_cons] at h
      obtain ⟨⟨y, hxy, hy⟩, hl⟩ := h
      obtain ⟨r, hr, hP⟩ := ih hl
      refine ⟨y :: r, ?_, List.forall_mem_cons.2 ⟨hy, hP⟩⟩
      rw [List.map_cons, List.map_cons, hxy, hr]

variable {table : UnicodeText.CaseTable} {disorder : SortBy.Disorder ContentType.AcceptEntry}
  {header : Str} {entries es : List ContentType.AcceptEntry}

/-- What is sliced from a piece at an offset. -/
theorem extractQuality_eq_some_iff {part mime : Str} {idx : ℕ} {q : Binary32.Value}
    (hidx : findStr ";q=".toList (table.lower part) = some idx) :
    extractQuality table part = some (mime, q) ↔
      ∃ m mark rest, part = m ++ (mark ++ rest) ∧ (Utf8.encode mark).length = 3 ∧
        (Utf8.encode m).length = idx ∧ mime = trim m ∧ q = readQuality rest := by
  rw [extractQuality, hidx]
  constructor
  · intro h
    obtain ⟨⟨m, t⟩, hm, h⟩ := Option.bind_eq_some_iff.1 h
    obtain ⟨⟨mark, rest⟩, hmark, h⟩ := Option.bind_eq_some_iff.1 h
    cases h
    obtain ⟨rfl, hlen⟩ := UnicodeText.splitAtByte_eq_some_iff.1 hm
    obtain ⟨rfl, hlen'⟩ := UnicodeText.splitAtByte_eq_some_iff.1 hmark
    exact ⟨m, mark, rest, rfl, hlen', hlen, rfl, rfl⟩
  · rintro ⟨m, mark, rest, rfl, hlen', rfl, rfl, rfl⟩
    refine Option.bind_eq_some_iff.2 ⟨(m, mark ++ rest), UnicodeText.splitAtByte_encode _ _, ?_⟩
    refine Option.bind_eq_some_iff.2 ⟨(mark, rest), ?_, rfl⟩
    exact UnicodeText.splitAtByte_eq_some_iff.2 ⟨rfl, hlen'⟩

/-- The entries are those of the pieces, in another order. -/
theorem perm_of_parseAccept (h : parseAccept table disorder header = some entries) :
    ∃ es, (acceptParts header).map (parsePiece table) = es.map some ∧ entries.Perm es := by
  obtain ⟨es, hes, hsort⟩ := Option.bind_eq_some_iff.1 h
  exact ⟨es, mapM_eq_some_iff.1 hes, SortBy.perm_of_sortBy hsort⟩

theorem byQuality_num {a b : ContentType.AcceptEntry} {m n : ℤ} (ha : a.quality = .num m)
    (hb : b.quality = .num n) : byQuality a b = compare n m := by
  rw [byQuality, ha, hb]
  rfl

/-- When every quality is a number, they are sorted. -/
theorem parseAccept_of_numbers (hes : (acceptParts header).map (parsePiece table) = es.map some)
    (hnum : ∀ e ∈ es, e.quality ≠ .nan) : parseAccept table disorder header =
      some (es.mergeSort fun a b => byQuality a b != .gt) := by
  have htotal : SortBy.IsTotal byQuality es :=
    Binary32.isTotal_of_numbers (fun _ _ => rfl) hnum
  rw [parseAccept, mapM_eq_some_iff.2 hes, Option.bind_some, SortBy.sortBy, if_pos htotal]

end OxiHttp
