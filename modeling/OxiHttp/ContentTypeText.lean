/-
**Content types that are written and read again.**

`Display` writes a content type with its charset or its boundary, and `from_str` reads one.  Reading
takes the quotes off a parameter, and writing does not put any back; so white space that the quotes
protected is lost the next time.  Everything else is read again as it was.

A header that is read and written back may lose more, which reading it again does not show: a
charset or a boundary of a type that keeps none, as in `application/json; charset=latin1` or in
`multipart/mixed; boundary=abc`, the name `text/xml`, and a value that has a semicolon or a
backslash in its quotes.

The lower case of a text is that of Unicode, of which two things are used: a lower case is its own
lower case, and white space is in that of white space only.

Main definitions:

* `OxiHttp.ContentType.display` — `Display`;
* `OxiHttp.HeaderMap.contentType`, `OxiHttp.HeaderMap.setContentType` — the header;
* `OxiHttp.ContentType.PadsQuotes` — whether the quotes of a parameter protect white space;
* `OxiHttp.ContentType.ReadsQuotes` — whether it does not matter what is in quotes;
* `OxiHttp.ContentType.KeepsContentType`, `OxiHttp.ContentType.WritesAll` — a content type that is
  kept, and what a text must be for it.

Main results:

* `OxiHttp.ContentType.rawParameter_withParameter` — a parameter that is written is found again;
* `OxiHttp.ContentType.fromStr_display_iff` — when a content type is read again as it was;
* `OxiHttp.ContentType.keepsParts_display_iff` — when the header has the same parts;
* `OxiHttp.ContentType.keepsContentType_iff` — when a content type is kept;
* `OxiHttp.ContentType.writesAll_quoted_iff` — what that says of one value in quotes.
-/

import OxiHttp.AcceptSafety
import OxiHttp.FieldParameters
import OxiHttp.Http

set_option relaxedAutoImplicit false
set_option autoImplicit false

namespace OxiHttp

/-- The lower case of Unicode. -/
structure UnicodeTable extends UnicodeText.CaseTable where
  form_form : ∀ before c after, ¬ Utf8.IsAscii c → ∀ d ∈ form before c after, ¬ Utf8.IsAscii d →
    ∀ before' after', form before' d after' = [d]
  form_space : ∀ before c after, ¬ Utf8.IsAscii c → isWhitespace c = false →
    ∀ d ∈ form before c after, isWhitespace d = false

namespace ContentType

/-! ### Writing and reading -/

/-- A type with a parameter. -/
def withParameter (mime name value : Str) : Str :=
  mime ++ "; ".toList ++ name ++ "=".toList ++ value

/-- `Display`. -/
def display : ContentType → Str
  | multipart (some boundary) =>
      withParameter "multipart/form-data".toList "boundary".toList boundary
  | text (some charset) => withParameter "text/plain".toList "charset".toList charset
  | html (some charset) => withParameter "text/html".toList "charset".toList charset
  | c => c.mimeType

end ContentType

namespace HeaderMap

/-- `HeaderMapExt::content_type`. -/
def contentType (table : UnicodeText.CaseTable) (headers : HeaderMap) : Option ContentType :=
  ((headers.get "content-type".toList).bind HeaderValue.toStr).map (ContentType.fromStr table)

/-- `HeaderMapExt::set_content_type`. -/
def setContentType (headers : HeaderMap) (ct : ContentType) : Except OxiHttpError HeaderMap :=
  match HeaderValue.fromStr ct.display with
  | some val => .ok (headers.insert "content-type".toList val)
  | none => .error (.invalidHeader "failed to parse header value")

end HeaderMap

namespace ContentType

/-! ### The text of a content type -/

/-- White space stands behind the quotes in front, or in front of those at the end. -/
def PadsQuotes (raw : Str) : Prop :=
  ∃ quotes c rest, (∀ q ∈ quotes, q = '"') ∧ isWhitespace c = true ∧
    (raw = quotes ++ c :: rest ∨ raw = rest ++ c :: quotes)

/-- The parameter that is kept of a type. -/
def keptParameter (mime : Str) : Option Str :=
  if mime = "multipart/form-data".toList then some "boundary".toList
  else if mime = "text/plain".toList ∨ mime = "text/html".toList then some "charset".toList
  else none

/-- The parameters of a text, when it has them as RFC 9110 §8.3.1 writes them. -/
def fieldParameters (s : Str) : Option (List (Str × Str)) :=
  let params := (trim s).dropWhile fun c => Parameters.isTchar c || c = '/'
  Parameters.parameters (params.length + 1) params

/-- The value of the first parameter with a name. -/
def firstValue (name : Str) (params : List (Str × Str)) : Option Str :=
  (params.find? fun p => eqIgnoreAsciiCase p.1 name).map Prod.snd

/-- The charset and the boundary that RFC 9110 reads of a text are the ones that are read when
semicolons and backslashes in quotes are as any others. -/
def ReadsQuotes (s : Str) : Prop :=
  ∀ params ∈ fieldParameters s, ∀ name ∈ ["charset".toList, "boundary".toList],
    parameterValue s name = firstValue name params

/-- What is written for a text has its type, in any case, and the values of its charset and its
boundary, with or without quotes around them: the ones that are read of the text, and the ones that
RFC 9110 gives it. -/
structure KeepsParts (table : UnicodeText.CaseTable) (s written : Str) : Prop where
  type : table.lower (essence written) = table.lower (essence s)
  charset : parameterValue written "charset".toList = parameterValue s "charset".toList
  boundary : parameterValue written "boundary".toList = parameterValue s "boundary".toList
  quoted : ∀ params ∈ fieldParameters s, ∀ name ∈ ["charset".toList, "boundary".toList],
    parameterValue written name = firstValue name params

/-- A content type that is written is read as it was, and a header that it is written back into has
the type, the charset and the boundary that it had. -/
structure KeepsContentType (table : UnicodeText.CaseTable) (s : Str) : Prop where
  read : fromStr table (fromStr table s).display = fromStr table s
  header : ∀ headers : HeaderMap,
    (headers.get "content-type".toList).bind HeaderValue.toStr = some s →
      ∃ headers' written, headers.setContentType (fromStr table s) = .ok headers' ∧
        (headers'.get "content-type".toList).bind HeaderValue.toStr = some written ∧
        headers'.contentType table = headers.contentType table ∧ KeepsParts table s written

/-- The quotes of the parameter that is kept protect no white space.  The text of a header also has
the type that is written, it has no charset and no boundary that is not kept, and these do not
depend on semicolons and backslashes in quotes. -/
structure WritesAll (table : UnicodeText.CaseTable) (s : Str) : Prop where
  unpadded : ∀ name ∈ keptParameter (table.lower (essence s)), ∀ raw ∈ rawParameter name s,
    ¬ PadsQuotes raw
  type : HeaderValue.IsReadable s → table.lower (essence s) ≠ "text/xml".toList
  kept : HeaderValue.IsReadable s → ∀ name ∈ ["charset".toList, "boundary".toList],
    rawParameter name s ≠ none → keptParameter (table.lower (essence s)) = some name
  quoted : HeaderValue.IsReadable s → ReadsQuotes s

/-! ### A parameter without its quotes -/

/-- Taking quotes off is taking two ends off. -/
theorem trimMatches_trimMatches (s : Str) :
    trimMatches '"' (trimMatches '"' s) = trimMatches '"' s :=
  FieldList.trim_trim (· = '"') s

theorem trimMatches_append_cons {c : Char} (hc : c ≠ '"') (a b : Str) :
    trimMatches '"' (a ++ c :: b) = a.dropWhile (· = '"') ++ c :: b.rdropWhile (· = '"') :=
  FieldList.trim_append_cons (p := fun x => decide (x = '"')) (decide_eq_false hc) a b

/-- White space at an end of the value was protected by quotes. -/
theorem padsQuotes_of_trimMatches {raw rest : Str} {c : Char} (hc : isWhitespace c = true)
    (h : trimMatches '"' raw = c :: rest ∨ trimMatches '"' raw = rest ++ [c]) :
    PadsQuotes raw := by
  obtain ⟨front, back, hfront, hback, hraw⟩ := FieldList.exists_of_trim (· = '"') raw
  change raw = front ++ trimMatches '"' raw ++ back at hraw
  rcases h with h | h
  · refine ⟨front, c, rest ++ back, fun q hq => of_decide_eq_true (hfront q hq), hc, .inl ?_⟩
    rw [hraw, h]
    simp
  · refine ⟨back, c, front ++ rest, fun q hq => of_decide_eq_true (hback q hq), hc, .inr ?_⟩
    rw [hraw, h]
    simp

/-- A value is trimmed exactly when its quotes protected no white space. -/
theorem trim_trimMatches_iff (raw : Str) :
    trim (trimMatches '"' raw) = trimMatches '"' raw ↔ ¬ PadsQuotes raw := by
  have hquote : ∀ c, isWhitespace c = true → c ≠ '"' := by
    rintro c hc rfl
    revert hc
    decide
  constructor
  · rintro h ⟨quotes, c, rest, hquotes, hc, hraw⟩
    obtain ⟨hfirst, hlast⟩ := FieldList.trim_eq_self_iff.1 h
    have hnone : quotes.dropWhile (· = '"') = [] :=
      List.dropWhile_eq_nil_iff.2 fun q hq => decide_eq_true (hquotes q hq)
    have hnone' : quotes.rdropWhile (· = '"') = [] :=
      List.rdropWhile_eq_nil_iff.2 fun q hq => decide_eq_true (hquotes q hq)
    rcases hraw with rfl | rfl
    · rw [trimMatches_append_cons (hquote c hc), hnone] at hfirst
      exact Bool.false_ne_true ((hfirst c rfl).symm.trans hc)
    · rw [trimMatches_append_cons (hquote c hc), hnone'] at hlast
      exact Bool.false_ne_true ((hlast c List.getLast?_concat).symm.trans hc)
  · intro h
    refine FieldList.trim_eq_self (fun c hc => ?_) fun c hc => ?_
    · rw [← Bool.not_eq_true]
      intro hspace
      obtain ⟨rest, hrest⟩ := List.head?_eq_some_iff.1 hc
      exact h (padsQuotes_of_trimMatches hspace (.inl hrest))
    · rw [← Bool.not_eq_true]
      intro hspace
      obtain ⟨rest, hrest⟩ := List.getLast?_eq_some_iff.1 hc
      exact h (padsQuotes_of_trimMatches hspace (.inr hrest))

/-- What is read of a value that was written is that value when it is trimmed. -/
theorem trimMatches_trim_iff (raw : Str) :
    trimMatches '"' (trim (trimMatches '"' raw)) = trimMatches '"' raw ↔ ¬ PadsQuotes raw := by
  rw [← trim_trimMatches_iff]
  constructor
  · intro h
    refine (FieldList.trim_sublist isWhitespace _).eq_of_length_le ?_
    calc (trimMatches '"' raw).length
        = (trimMatches '"' (trim (trimMatches '"' raw))).length := by rw [h]
      _ ≤ (trim (trimMatches '"' raw)).length :=
        (FieldList.trim_sublist (· = '"') (trim (trimMatches '"' raw))).length_le
  · intro h
    rw [h, trimMatches_trimMatches]

theorem map_trimMatches_iff (raw : Option Str) :
    raw.map (fun raw => trimMatches '"' (trim (trimMatches '"' raw))) = raw.map (trimMatches '"') ↔
      ∀ r ∈ raw, ¬ PadsQuotes r := by
  cases raw with
  | none => simp
  | some raw => simpa using trimMatches_trim_iff raw

/-! ### Reading what was written -/

/-- A name of a type or of a parameter. -/
structure IsName (name : Str) : Prop where
  isWord : IsWord name
  semicolon_notMem : ';' ∉ name
  equals_notMem : '=' ∉ name

theorem IsName.dropWhile_append {name : Str} (h : IsName name) (s : Str) :
    (name ++ s).dropWhile isWhitespace = name ++ s := by
  cases name with
  | nil => exact absurd rfl h.isWord.1
  | cons c name =>
      have hc := h.isWord.2 c List.mem_cons_self
      exact List.dropWhile_cons_of_neg (by rw [hc]; exact Bool.false_ne_true)

theorem IsName.dropWhile {name : Str} (h : IsName name) : name.dropWhile isWhitespace = name := by
  have happend := h.dropWhile_append []
  rwa [List.append_nil] at happend

theorem IsName.trim {name : Str} (h : IsName name) : trim name = name :=
  trim_eq_self (fun c hc => h.isWord.2 c (List.mem_of_head? hc))
    fun c hc => h.isWord.2 c (List.mem_of_getLast? hc)

section

variable {mime name value : Str} (hmime : IsName mime) (hname : IsName name)
include hmime

/-- Only the end of the value is trimmed with the text. -/
theorem trim_withParameter : trim (withParameter mime name value)
    = mime ++ ';' :: (' ' :: name ++ '=' :: value.rdropWhile isWhitespace) := by
  have hcut : withParameter mime name value = (mime ++ "; ".toList ++ name) ++ '=' :: value := by
    rw [withParameter, List.append_assoc _ "=".toList]
    rfl
  have hfront : (mime ++ "; ".toList ++ name).dropWhile isWhitespace
      = mime ++ "; ".toList ++ name := by
    rw [List.append_assoc]
    exact hmime.dropWhile_append _
  rw [hcut, OxiHttp.trim, FieldList.trim_append_cons (by decide), hfront]
  simp

theorem splitOnce_withParameter : splitOnce ';' (trim (withParameter mime name value))
    = some (mime, ' ' :: name ++ '=' :: value.rdropWhile isWhitespace) := by
  rw [trim_withParameter hmime]
  exact splitOnce_append hmime.semicolon_notMem _

theorem essence_withParameter : essence (withParameter mime name value) = mime := by
  unfold essence
  rw [splitOnce_withParameter hmime]
  exact hmime.trim

include hname

/-- The parameters of the text are the one that was written. -/
theorem parameters_withParameter (hvalue : ';' ∉ value) :
    parameters (withParameter mime name value)
      = [name ++ '=' :: value.rdropWhile isWhitespace] := by
  have hequals : isWhitespace '=' = false := by decide
  have htwice : (value.rdropWhile isWhitespace).rdropWhile isWhitespace
      = value.rdropWhile isWhitespace := List.rdropWhile_idempotent _ _
  have hspace : (' ' :: name).dropWhile isWhitespace = name := by
    rw [List.dropWhile_cons_of_pos (by decide), hname.dropWhile]
  have hfirst : trim (' ' :: name ++ '=' :: value.rdropWhile isWhitespace)
      = name ++ '=' :: value.rdropWhile isWhitespace := by
    rw [OxiHttp.trim, FieldList.trim_append_cons hequals, hspace, htwice]
  have hsecond : trim (name ++ '=' :: value.rdropWhile isWhitespace)
      = name ++ '=' :: value.rdropWhile isWhitespace := by
    rw [OxiHttp.trim, FieldList.trim_append_cons hequals, hname.dropWhile, htwice]
  have hone : ';' ∉ name ++ '=' :: value.rdropWhile isWhitespace := by
    rw [List.mem_append, List.mem_cons, not_or, not_or]
    exact ⟨hname.semicolon_notMem, by decide,
      fun h => hvalue ((List.rdropWhile_prefix _ _).mem h)⟩
  rw [parameters, splitOnce_withParameter hmime]
  simp only [hfirst, List.splitOn_eq_singleton hone, List.map_singleton, hsecond]

/-- A parameter that is written is found again, without the white space around it. -/
theorem rawParameter_withParameter (hvalue : ';' ∉ value) :
    rawParameter name (withParameter mime name value) = some (trim value) := by
  have hback : ∀ c ∈ value.rtakeWhile isWhitespace, isWhitespace c = true := by
    intro c hc
    exact List.mem_rtakeWhile_imp hc
  have htrim : trim (value.rdropWhile isWhitespace) = trim value := by
    have haround := trim_around (List.forall_mem_nil _) hback (value.rdropWhile isWhitespace)
    rw [List.nil_append, List.rdropWhile_append_rtakeWhile] at haround
    exact haround.symm
  rw [rawParameter, parameters_withParameter hmime hname hvalue, List.findSome?_cons,
    splitOnce_append hname.equals_notMem]
  simp only [hname.trim, eqIgnoreAsciiCase_iff.2, if_true, htrim]

/-- No other is found. -/
theorem rawParameter_withParameter_of_ne {other : Str} (hvalue : ';' ∉ value)
    (hne : eqIgnoreAsciiCase name other = false) :
    rawParameter other (withParameter mime name value) = none := by
  rw [rawParameter, parameters_withParameter hmime hname hvalue, List.findSome?_cons,
    splitOnce_append hname.equals_notMem]
  simp [hname.trim, hne]

end

/-- A type alone has no parameters. -/
theorem essence_of_notMem {mime : Str} (h : ';' ∉ mime) (htrim : trim mime = mime) :
    essence mime = mime := by
  rw [essence, htrim, splitOnce_eq_none h]

theorem parameterValue_of_notMem {mime : Str} (h : ';' ∉ mime) (htrim : trim mime = mime)
    (name : Str) : parameterValue mime name = none := by
  rw [parameterValue, rawParameter, parameters, htrim, splitOnce_eq_none h]
  rfl

/-! ### Parts -/

/-- Two types of one name differ in the parameter that is kept. -/
theorem ofParts_eq_iff {mime : Str} {param param' : Str → Option Str} :
    ofParts mime param = ofParts mime param' ↔
      ∀ name ∈ keptParameter mime, param name = param' name := by
  unfold ofParts keptParameter
  split_ifs <;> simp_all

/-- The two names of XML are read as one. -/
theorem ofParts_canonical (mime : Str) (param : Str → Option Str) :
    ofParts (canonical mime) param = ofParts mime param := by
  unfold canonical
  split_ifs with h
  · rw [h]
    rfl
  · rfl

theorem isName_of_keptParameter {mime name : Str} (h : keptParameter mime = some name) :
    IsName mime ∧ IsName name := by
  unfold keptParameter at h
  split_ifs at h with hmultipart htext
  · rw [hmultipart, ← Option.some_inj.1 h]
    exact ⟨⟨by decide, by decide, by decide⟩, by decide, by decide, by decide⟩
  · rw [← Option.some_inj.1 h]
    refine ⟨?_, by decide, by decide, by decide⟩
    rcases htext with rfl | rfl
    · exact ⟨by decide, by decide, by decide⟩
    · exact ⟨by decide, by decide, by decide⟩

theorem eq_of_keptParameter {mime name : Str} (h : keptParameter mime = some name) :
    name = "charset".toList ∨ name = "boundary".toList := by
  unfold keptParameter at h
  split_ifs at h
  · exact .inr (Option.some_inj.1 h).symm
  · exact .inl (Option.some_inj.1 h).symm

/-- The two names are two in any case. -/
theorem eqIgnoreAsciiCase_of_keptParameter {mime kept name : Str}
    (hkept : keptParameter mime = some kept)
    (hname : name = "charset".toList ∨ name = "boundary".toList) (hne : some kept ≠ some name) :
    eqIgnoreAsciiCase kept name = false := by
  rcases eq_of_keptParameter hkept with rfl | rfl
  · rcases hname with rfl | rfl
    · exact absurd rfl hne
    · decide
  · rcases hname with rfl | rfl
    · decide
    · exact absurd rfl hne

/-- A type with the parameter that is kept is written with it. -/
theorem display_ofParts_of_some {mime name value : Str} {param : Str → Option Str}
    (hname : keptParameter mime = some name) (hvalue : param name = some value) :
    (ofParts mime param).display = withParameter mime name value := by
  unfold keptParameter at hname
  split_ifs at hname with hmultipart htext
  · obtain rfl := Option.some_inj.1 hname
    have hparts : ofParts mime param = multipart (some value) := by
      rw [hmultipart, ← hvalue]
      rfl
    rw [hparts, hmultipart]
    rfl
  · obtain rfl := Option.some_inj.1 hname
    rcases htext with rfl | rfl
    · have hparts : ofParts "text/plain".toList param = text (some value) := by
        rw [← hvalue]
        rfl
      rw [hparts]
      rfl
    · have hparts : ofParts "text/html".toList param = html (some value) := by
        rw [← hvalue]
        rfl
      rw [hparts]
      rfl

/-- Any other is written by its name alone. -/
theorem display_ofParts_of_none {mime : Str} {param : Str → Option Str}
    (h : ∀ name ∈ keptParameter mime, param name = none) :
    (ofParts mime param).display = canonical mime := by
  rw [← mimeType_ofParts mime param]
  have hplain : ofParts mime param = ofParts mime fun _ => none := ofParts_eq_iff.2 h
  rw [hplain]
  unfold ofParts
  split_ifs <;> rfl

/-! ### The lower case of Unicode -/

end ContentType

namespace UnicodeTable

variable (table : UnicodeTable)

theorem isWhitespace_toLower :
    ∀ n < 128, isWhitespace (Char.ofNat n).toLower = isWhitespace (Char.ofNat n) := by
  decide +kernel

theorem isWhitespace_lowerChar {before after : Str} {c d : Char} (hc : isWhitespace c = false)
    (hd : d ∈ table.lowerChar before c after) : isWhitespace d = false := by
  unfold UnicodeText.CaseTable.lowerChar at hd
  split_ifs at hd with hascii
  · have hlow := isWhitespace_toLower c.val.toNat (Nat.lt_succ_of_le hascii.val_le)
    have hchar : Char.ofNat c.val.toNat = c := Char.ofNat_toNat c
    rw [List.mem_singleton.1 hd]
    rwa [hchar, hc] at hlow
  · exact table.form_space before c after hascii hc d hd

/-- The lower case of a character is its own lower case. -/
theorem lowerChar_lowerChar {before after : Str} {c d : Char}
    (hd : d ∈ table.lowerChar before c after) (before' after' : Str) :
    table.lowerChar before' d after' = [d] := by
  unfold UnicodeText.CaseTable.lowerChar at hd ⊢
  split_ifs at hd with hc
  · obtain rfl := List.mem_singleton.1 hd
    rw [if_pos (isAscii_toLower.2 hc), toLower_toLower]
  · split_ifs with hd'
    · rcases table.ascii before c after hc d hd hd' with rfl | rfl
      · rfl
      · rfl
    · exact table.form_form before c after hc d hd hd' before' after'

theorem lower_lower (s : Str) : table.lower (table.lower s) = table.lower s := by
  refine table.lowerFrom_eq_self (fun d hd before after => ?_) _ _
  obtain ⟨before', c, after', -, hd⟩ := table.mem_lowerFrom hd
  exact table.lowerChar_lowerChar hd before after

/-- White space does not come up at the ends. -/
theorem trim_lower {s : Str} (h : trim s = s) : trim (table.lower s) = table.lower s := by
  obtain ⟨hfirst, hlast⟩ := FieldList.trim_eq_self_iff.1 h
  refine trim_eq_self (fun d hd => ?_) fun d hd => ?_
  · obtain ⟨c, after, hc, hd⟩ := table.head?_lower hd
    exact table.isWhitespace_lowerChar (hfirst c hc) hd
  · obtain ⟨before, c, hc, hd⟩ := table.getLast?_lower hd
    exact table.isWhitespace_lowerChar (hlast c hc) hd

theorem semicolon_notMem_lower {s : Str} (h : ';' ∉ s) : ';' ∉ table.lower s := by
  intro hmem
  obtain ⟨before, c, after, hc, hd⟩ := table.mem_lowerFrom hmem
  unfold UnicodeText.CaseTable.lowerChar at hd
  split_ifs at hd with hascii
  · have hsemicolon := (toLower_eq_iff (by decide)).1 (List.mem_singleton.1 hd).symm
    exact h (hsemicolon ▸ hc)
  · exact absurd (table.ascii before c after hascii _ hd (by decide)) (by decide)

end UnicodeTable

namespace ContentType

/-! ### The round trip -/

theorem semicolon_notMem_essence (s : Str) : ';' ∉ essence s := by
  unfold essence
  cases hsplit : splitOnce ';' (trim s) with
  | none => exact notMem_of_splitOnce_eq_none hsplit
  | some p => exact fun hmem => (splitOnce_eq_some hsplit).2 (mem_of_mem_trim hmem)

theorem trim_essence (s : Str) : trim (essence s) = essence s := by
  unfold essence
  cases splitOnce ';' (trim s) with
  | none => exact trim_trim s
  | some p => exact trim_trim p.1

theorem mem_of_mem_essence {s : Str} {c : Char} (h : c ∈ essence s) : c ∈ s := by
  unfold essence at h
  cases hsplit : splitOnce ';' (trim s) with
  | none =>
      rw [hsplit] at h
      exact mem_of_mem_trim h
  | some p =>
      rw [hsplit] at h
      refine mem_of_mem_trim ?_
      rw [(splitOnce_eq_some hsplit).1]
      exact List.mem_append_left _ (mem_of_mem_trim h)

/-- A parameter is a piece of the text. -/
theorem rawParameter_spec {s name raw : Str} (h : rawParameter name s = some raw) :
    ';' ∉ raw ∧ ∀ c ∈ raw, c ∈ s := by
  obtain ⟨param, hparam, h⟩ := List.exists_of_findSome?_eq_some h
  have hraw : ∀ c ∈ raw, c ∈ param := by
    cases hsplit : splitOnce '=' param with
    | none =>
        rw [hsplit] at h
        cases h
    | some p =>
        rw [hsplit] at h
        simp only [Option.ite_none_right_eq_some, Option.some_inj] at h
        obtain ⟨-, rfl⟩ := h
        intro c hc
        rw [(splitOnce_eq_some hsplit).1]
        exact List.mem_append_right _ (List.mem_cons_of_mem _ (mem_of_mem_trim hc))
  unfold parameters at hparam
  cases hsplit : splitOnce ';' (trim s) with
  | none =>
      rw [hsplit] at hparam
      cases hparam
  | some p =>
      rw [hsplit] at hparam
      obtain ⟨piece, hpiece, rfl⟩ := List.mem_map.1 hparam
      refine ⟨fun hmem => ?_, fun c hc => ?_⟩
      · exact Pieces.sep_notMem_of_mem_splitOn hpiece (mem_of_mem_trim (hraw _ hmem))
      · refine mem_of_mem_trim ?_
        rw [(splitOnce_eq_some hsplit).1]
        refine List.mem_append_right _ (List.mem_cons_of_mem _ ?_)
        exact mem_of_mem_trim (Pieces.mem_of_mem_splitOn hpiece (mem_of_mem_trim (hraw c hc)))

/-- The name of a type is written as one. -/
theorem isPlain_canonical (table : UnicodeTable) (s : Str) :
    ';' ∉ canonical (table.lower (essence s)) ∧
      trim (canonical (table.lower (essence s))) = canonical (table.lower (essence s)) ∧
      table.lower (canonical (table.lower (essence s))) = canonical (table.lower (essence s)) := by
  unfold canonical
  split_ifs
  · refine ⟨by decide, by decide, ?_⟩
    rw [UnicodeText.CaseTable.lower, table.lowerFrom_of_isAscii (by decide)]
    decide
  · exact ⟨table.semicolon_notMem_lower (semicolon_notMem_essence s),
      table.trim_lower (trim_essence s), table.lower_lower _⟩

/-- What is written for a text: the type with the parameter that is kept, or its name alone. -/
theorem display_fromStr (table : UnicodeText.CaseTable) (s : Str) :
    (∃ name raw, keptParameter (table.lower (essence s)) = some name ∧
      rawParameter name s = some raw ∧ (fromStr table s).display
        = withParameter (table.lower (essence s)) name (trimMatches '"' raw)) ∨
    ((∀ name ∈ keptParameter (table.lower (essence s)), rawParameter name s = none) ∧
      (fromStr table s).display = canonical (table.lower (essence s))) := by
  rw [fromStr_eq]
  by_cases h : ∀ name ∈ keptParameter (table.lower (essence s)), rawParameter name s = none
  · refine .inr ⟨h, display_ofParts_of_none fun name hname => ?_⟩
    rw [parameterValue, h name hname]
    rfl
  · obtain ⟨name, h⟩ := not_forall.1 h
    obtain ⟨hname, hne⟩ := Classical.not_imp.1 h
    obtain ⟨raw, hraw⟩ := Option.ne_none_iff_exists'.1 hne
    refine .inl ⟨name, raw, hname, hraw, display_ofParts_of_some hname ?_⟩
    rw [parameterValue, hraw]
    rfl

theorem semicolon_notMem_trimMatches {s name raw : Str} (hraw : rawParameter name s = some raw) :
    ';' ∉ trimMatches '"' raw := fun hmem =>
  (rawParameter_spec hraw).1 ((FieldList.trim_sublist (· = '"') raw).mem hmem)

/-- The type is written under its first name. -/
theorem lower_essence_display (table : UnicodeTable) (s : Str) :
    table.lower (essence (fromStr table.toCaseTable s).display)
      = canonical (table.lower (essence s)) := by
  rcases display_fromStr table.toCaseTable s with ⟨name, raw, hname, -, hdisplay⟩ | ⟨-, hdisplay⟩
  · have hne : table.lower (essence s) ≠ "text/xml".toList := by
      intro h
      have hnone : keptParameter "text/xml".toList = none := by decide
      rw [h, hnone] at hname
      cases hname
    rw [hdisplay, essence_withParameter (isName_of_keptParameter hname).1, table.lower_lower,
      canonical_of_ne hne]
  · obtain ⟨hnot, htrim, hlower⟩ := isPlain_canonical table s
    rw [hdisplay, essence_of_notMem hnot htrim, hlower]

/-- The parameter that is kept is written without its quotes, and no other charset and no other
boundary. -/
theorem parameterValue_display (table : UnicodeTable) (s : Str) {name : Str}
    (hname : name = "charset".toList ∨ name = "boundary".toList) :
    parameterValue (fromStr table.toCaseTable s).display name
      = if keptParameter (table.lower (essence s)) = some name
        then (rawParameter name s).map fun raw => trimMatches '"' (trim (trimMatches '"' raw))
        else none := by
  rcases display_fromStr table.toCaseTable s with ⟨kept, raw, hkept, hraw, hdisplay⟩ | ⟨h, hdisplay⟩
  · obtain ⟨hmime, hkept'⟩ := isName_of_keptParameter hkept
    rw [hdisplay, hkept, parameterValue]
    split_ifs with heq
    · obtain rfl := Option.some_inj.1 heq
      rw [rawParameter_withParameter hmime hkept' (semicolon_notMem_trimMatches hraw), hraw]
      rfl
    · rw [rawParameter_withParameter_of_ne hmime hkept' (semicolon_notMem_trimMatches hraw)
        (eqIgnoreAsciiCase_of_keptParameter hkept hname heq)]
      rfl
  · obtain ⟨hnot, htrim, -⟩ := isPlain_canonical table s
    rw [hdisplay, parameterValue_of_notMem hnot htrim]
    split_ifs with heq
    · rw [h name heq]
      rfl
    · rfl

/-- A text is read as before once it was written exactly when the quotes of the parameter that is
kept protect no white space. -/
theorem fromStr_display_iff (table : UnicodeTable) (s : Str) :
    fromStr table.toCaseTable (fromStr table.toCaseTable s).display = fromStr table.toCaseTable s ↔
      ∀ name ∈ keptParameter (table.lower (essence s)), ∀ raw ∈ rawParameter name s,
        ¬ PadsQuotes raw := by
  rw [fromStr_eq table.toCaseTable (fromStr table.toCaseTable s).display, lower_essence_display,
    ofParts_canonical, fromStr_eq table.toCaseTable s, ofParts_eq_iff, ← fromStr_eq]
  refine forall₂_congr fun name hname => ?_
  rw [parameterValue_display table s (eq_of_keptParameter hname), if_pos (Option.mem_def.1 hname),
    parameterValue]
  exact map_trimMatches_iff _

/-- What is written has the parts of the text exactly when the text has no other name of XML, and no
charset and no boundary that is not kept, whose quotes protect white space, or that depends on what
is in quotes. -/
theorem keepsParts_display_iff (table : UnicodeTable) (s : Str) :
    KeepsParts table.toCaseTable s (fromStr table.toCaseTable s).display ↔
      table.lower (essence s) ≠ "text/xml".toList ∧
        (∀ name ∈ ["charset".toList, "boundary".toList], ∀ raw ∈ rawParameter name s,
          keptParameter (table.lower (essence s)) = some name ∧ ¬ PadsQuotes raw) ∧
        ReadsQuotes s := by
  have hvalue : ∀ name, (name = "charset".toList ∨ name = "boundary".toList) →
      (parameterValue (fromStr table.toCaseTable s).display name = parameterValue s name ↔
        ∀ raw ∈ rawParameter name s,
          keptParameter (table.lower (essence s)) = some name ∧ ¬ PadsQuotes raw) := by
    intro name hname
    rw [parameterValue_display table s hname, parameterValue]
    split_ifs with hkept
    · simp only [hkept, true_and]
      exact map_trimMatches_iff _
    · simp only [hkept, false_and, imp_false]
      cases rawParameter name s <;> simp
  have hnames : ∀ name ∈ ["charset".toList, "boundary".toList],
      name = "charset".toList ∨ name = "boundary".toList := by simp
  constructor
  · rintro ⟨htype, hcharset, hboundary, hquoted⟩
    have hsame : ∀ name ∈ ["charset".toList, "boundary".toList],
        parameterValue (fromStr table.toCaseTable s).display name = parameterValue s name := by
      simp only [List.forall_mem_cons, List.not_mem_nil, false_imp_iff, implies_true, and_true]
      exact ⟨hcharset, hboundary⟩
    refine ⟨fun h => ?_, fun name hname => (hvalue _ (hnames _ hname)).1 (hsame _ hname), ?_⟩
    · rw [lower_essence_display, h] at htype
      revert htype
      decide
    · intro params hparams name hname
      rw [← hsame name hname]
      exact hquoted params hparams name hname
  · rintro ⟨hne, h, hquotes⟩
    have hsame : ∀ name ∈ ["charset".toList, "boundary".toList],
        parameterValue (fromStr table.toCaseTable s).display name = parameterValue s name :=
      fun name hname => (hvalue _ (hnames _ hname)).2 (h _ hname)
    refine ⟨?_, hsame _ (by simp), hsame _ (by simp), fun params hparams name hname => ?_⟩
    · rw [lower_essence_display, canonical_of_ne hne]
    · rw [hsame name hname]
      exact hquotes params hparams name hname

/-! ### The header -/

open HeaderValue (IsReadable isReadable_append)

/-- The lower case of a readable text is readable. -/
theorem isReadable_lower (table : UnicodeText.CaseTable) {s : Str} (h : IsReadable s) :
    IsReadable (table.lower s) := by
  rw [UnicodeText.CaseTable.lower, table.lowerFrom_of_isAscii h.isAscii]
  intro d hd
  obtain ⟨c, hc, rfl⟩ := List.mem_map.1 hd
  have hrange := h c hc
  rw [toLower_val]
  split <;> omega

/-- What is written of a readable text is readable. -/
theorem isReadable_display (table : UnicodeText.CaseTable) {s : Str} (h : IsReadable s) :
    IsReadable (fromStr table s).display := by
  have hmime : IsReadable (table.lower (essence s)) :=
    isReadable_lower table fun c hc => h c (mem_of_mem_essence hc)
  rcases display_fromStr table s with ⟨name, raw, hname, hraw, hdisplay⟩ | ⟨-, hdisplay⟩
  · have hkey : IsReadable name := by
      rcases eq_of_keptParameter hname with rfl | rfl
      · decide
      · decide
    have hread : IsReadable (trimMatches '"' raw) := fun c hc =>
      h c ((rawParameter_spec hraw).2 c ((FieldList.trim_sublist (· = '"') raw).mem hc))
    rw [hdisplay]
    refine isReadable_append (isReadable_append (isReadable_append (isReadable_append hmime ?_)
      hkey) ?_) hread
    · decide
    · decide
  · rw [hdisplay, canonical]
    split_ifs
    · decide
    · exact hmime

theorem get_insert_contentType (headers : HeaderMap) {s : Str} (h : IsReadable s) :
    ((headers.insert "content-type".toList ⟨Utf8.encode s⟩).get "content-type".toList).bind
      HeaderValue.toStr = some s := by
  rw [HeaderMap.get, HeaderMap.getAll_insert, if_pos rfl, List.head?_cons, Option.bind_some,
    HeaderValue.toStr_of_isReadable h]

/-- A readable text is written into the header. -/
theorem setContentType_fromStr (table : UnicodeText.CaseTable) (headers : HeaderMap) {s : Str}
    (h : IsReadable s) : headers.setContentType (fromStr table s) = .ok
      (headers.insert "content-type".toList ⟨Utf8.encode (fromStr table s).display⟩) := by
  rw [HeaderMap.setContentType, HeaderValue.fromStr_of_isReadable (isReadable_display table h)]

/-- A content type is kept exactly when the quotes of the parameter that is kept protect no white
space and the text, if a header can have it, says nothing else that is written back. -/
theorem keepsContentType_iff (table : UnicodeTable) (s : Str) :
    KeepsContentType table.toCaseTable s ↔ WritesAll table.toCaseTable s := by
  constructor
  · rintro ⟨hread, hheader⟩
    have hparts : IsReadable s →
        KeepsParts table.toCaseTable s (fromStr table.toCaseTable s).display := by
      intro hs
      obtain ⟨headers', written, hset, hwritten, -, hparts⟩ :=
        hheader _ (get_insert_contentType ⟨[]⟩ hs)
      rw [setContentType_fromStr table.toCaseTable _ hs] at hset
      obtain rfl := Except.ok.inj hset
      rw [get_insert_contentType _ (isReadable_display table.toCaseTable hs)] at hwritten
      rwa [Option.some_inj.1 hwritten]
    refine ⟨(fromStr_display_iff table s).1 hread, fun hs => ?_, fun hs name hname hne => ?_,
      fun hs => ?_⟩
    · exact ((keepsParts_display_iff table s).1 (hparts hs)).1
    · obtain ⟨raw, hraw⟩ := Option.ne_none_iff_exists'.1 hne
      exact (((keepsParts_display_iff table s).1 (hparts hs)).2.1 name hname raw hraw).1
    · exact ((keepsParts_display_iff table s).1 (hparts hs)).2.2
  · rintro ⟨hunpadded, htype, hkept, hquoted⟩
    have hread := (fromStr_display_iff table s).2 hunpadded
    refine ⟨hread, fun headers hget => ?_⟩
    have hs : IsReadable s := by
      obtain ⟨v, -, hv⟩ := Option.bind_eq_some_iff.1 hget
      exact HeaderValue.isReadable_of_toStr hv
    have hwritten := get_insert_contentType headers (isReadable_display table.toCaseTable hs)
    refine ⟨_, _, setContentType_fromStr table.toCaseTable headers hs, hwritten, ?_, ?_⟩
    · rw [HeaderMap.contentType, HeaderMap.contentType, hwritten, hget, Option.map_some,
        Option.map_some, hread]
    · refine (keepsParts_display_iff table s).2
        ⟨htype hs, fun name hname raw hraw => ?_, hquoted hs⟩
      have hname' : keptParameter (table.lower (essence s)) = some name :=
        hkept hs name hname (by rw [hraw]; exact Option.some_ne_none raw)
      exact ⟨hname', hunpadded name hname' raw hraw⟩

theorem toLower_of_not_isAscii {c : Char} (h : ¬ Utf8.IsAscii c) : c.toLower = c := by
  rw [Utf8.IsAscii, Char.utf8Size_eq_one_iff, UInt32.le_iff_toNat_le] at h
  have hmax : (127 : UInt32).toNat = 127 := rfl
  rw [Char.ext_iff, ← UInt32.toNat_inj, toLower_val, if_neg (by omega)]

/-- The characters that have ASCII letters in their lower case. -/
def letterUnicode : UnicodeTable where
  toCaseTable := letterTable
  form_form _ c _ hc d hd hd' _ _ := by
    change d ∈ lowercaseChar c at hd
    change lowercaseChar d = [d]
    unfold lowercaseChar at hd
    split_ifs at hd with hkelvin hdotted
    · rw [List.mem_singleton.1 hd] at hd'
      exact absurd (by decide) hd'
    · rcases List.mem_cons.1 hd with rfl | hd
      · exact absurd (by decide) hd'
      · rw [List.mem_singleton.1 hd]
        decide
    · rw [List.mem_singleton.1 hd, toLower_of_not_isAscii hc, lowercaseChar, if_neg hkelvin,
        if_neg hdotted, toLower_of_not_isAscii hc]
  form_space _ c _ hc hspace d hd := by
    change d ∈ lowercaseChar c at hd
    unfold lowercaseChar at hd
    split_ifs at hd with hkelvin hdotted
    · rw [List.mem_singleton.1 hd]
      decide
    · rcases List.mem_cons.1 hd with rfl | hd
      · decide
      · rw [List.mem_singleton.1 hd]
        decide
    · rw [List.mem_singleton.1 hd, toLower_of_not_isAscii hc]
      exact hspace

/-- The blanks of a quoted charset are lost. -/
theorem not_keepsContentType_padded :
    ¬ KeepsContentType letterUnicode.toCaseTable "text/plain; charset=\" utf-8 \"".toList := by
  intro h
  have hread := h.read
  revert hread
  decide +kernel

/-! ### One value in quotes -/

/-- A value in quotes. -/
def quotedValue (value : Str) : Str := '"' :: (Parameters.escape value ++ ['"'])

theorem count_trimMatches {c d : Char} (hne : c ≠ d) (s : Str) :
    (trimMatches d s).count c = s.count c := by
  obtain ⟨front, back, hfront, hback, hs⟩ := FieldList.exists_of_trim (· = d) s
  change s = front ++ trimMatches d s ++ back at hs
  have hnone : ∀ ends : Str, (∀ x ∈ ends, decide (x = d) = true) → ends.count c = 0 :=
    fun ends hends => List.count_eq_zero.2 fun hmem => hne (of_decide_eq_true (hends c hmem))
  calc (trimMatches d s).count c
      = (front ++ trimMatches d s ++ back).count c := by
        rw [List.count_append, List.count_append, hnone front hfront, hnone back hback]
        omega
    _ = s.count c := by rw [← hs]

theorem trim_quotedValue (value : Str) : trim (quotedValue value) = quotedValue value := by
  refine trim_eq_self (fun c hc => ?_) fun c hc => ?_
  · rw [← Option.some_inj.1 hc]
    decide
  · rw [quotedValue, ← List.cons_append, List.getLast?_concat] at hc
    rw [← Option.some_inj.1 hc]
    decide

theorem rdropWhile_quotedValue (value : Str) :
    (quotedValue value).rdropWhile isWhitespace = quotedValue value := by
  rw [quotedValue, ← List.cons_append, List.rdropWhile_concat_neg]
  decide

theorem trimMatches_quotedValue {value : Str} (h : ∀ c ∈ value, c ≠ '"' ∧ c ≠ '\\') :
    trimMatches '"' (quotedValue value) = value := by
  have hquotes : ∀ c ∈ ['"'], decide (c = '"') = true :=
    fun c hc => decide_eq_true (List.mem_singleton.1 hc)
  have hinner : trimMatches '"' value = value :=
    FieldList.trim_eq_self (fun c hc => decide_eq_false (h c (List.mem_of_head? hc)).1)
      fun c hc => decide_eq_false (h c (List.mem_of_getLast? hc)).1
  rw [quotedValue, Parameters.escape_eq_self h]
  exact (FieldList.trim_around hquotes hquotes value).trans hinner

theorem semicolon_notMem_quotedValue {value : Str} (h : ';' ∉ value) : ';' ∉ quotedValue value := by
  intro hmem
  rcases List.mem_cons.1 hmem with hc | hmem
  · exact absurd hc (by decide)
  · rcases List.mem_append.1 hmem with hc | hc
    · exact (Parameters.mem_escape hc).elim (fun hc => absurd hc (by decide)) h
    · exact absurd (List.mem_singleton.1 hc) (by decide)

theorem isReadable_quotedValue {value : Str} (h : HeaderValue.IsReadable value) :
    HeaderValue.IsReadable (quotedValue value) := by
  intro c hc
  rcases List.mem_cons.1 hc with rfl | hc
  · decide
  · rcases List.mem_append.1 hc with hc | hc
    · rcases Parameters.mem_escape hc with rfl | hc
      · decide
      · exact h c hc
    · rw [List.mem_singleton.1 hc]
      decide

section

variable {mime name value : Str} (hkept : keptParameter mime = some name)
include hkept

/-- The types that keep a parameter are written in small letters that a header can have. -/
theorem plain_of_keptParameter (table : UnicodeText.CaseTable) :
    table.lower mime = mime ∧
      HeaderValue.IsReadable (mime ++ "; ".toList ++ name ++ "=".toList) := by
  have hlower : ∀ s : Str, (∀ c ∈ s, Utf8.IsAscii c) → s.map Char.toLower = s →
      table.lower s = s := fun s hs heq => (table.lowerFrom_of_isAscii hs _ _).trans heq
  unfold keptParameter at hkept
  split_ifs at hkept with hmultipart htext
  · rw [hmultipart, ← Option.some_inj.1 hkept]
    exact ⟨hlower _ (by decide) (by decide), by decide⟩
  · rw [← Option.some_inj.1 hkept]
    rcases htext with rfl | rfl
    · exact ⟨hlower _ (by decide) (by decide), by decide⟩
    · exact ⟨hlower _ (by decide) (by decide), by decide⟩

/-- A parameter in quotes is one that RFC 9110 reads. -/
theorem fieldParameters_quotedValue (hvalue : ∀ c ∈ value, Parameters.Writable c) :
    fieldParameters (withParameter mime name (quotedValue value)) = some [(name, value)] := by
  have htoken : (mime.all fun c => Parameters.isTchar c || c = '/') = true ∧
      Parameters.IsToken name := by
    unfold keptParameter at hkept
    split_ifs at hkept with hmultipart htext
    · rw [hmultipart, ← Option.some_inj.1 hkept]
      decide
    · rw [← Option.some_inj.1 hkept]
      rcases htext with rfl | rfl
      · decide
      · decide
  have hdrop : (trim (withParameter mime name (quotedValue value))).dropWhile
      (fun c => Parameters.isTchar c || c = '/') = [(name, value)].flatMap Parameters.render := by
    rw [trim_withParameter (isName_of_keptParameter hkept).1, rdropWhile_quotedValue,
      List.dropWhile_append_of_pos (List.all_eq_true.1 htoken.1),
      List.dropWhile_cons_of_neg (by decide)]
    simp [Parameters.render, quotedValue]
  unfold fieldParameters
  rw [hdrop]
  refine Parameters.parameters_render (by simpa using htoken.2) (by simpa using hvalue) ?_
  simp [Parameters.render]

/-- With one value in quotes everything is kept exactly when no white space is at its ends, and no
semicolon, no quote and no backslash is in it. -/
theorem writesAll_quoted_iff (table : UnicodeText.CaseTable)
    (hvalue : HeaderValue.IsReadable value) :
    WritesAll table (withParameter mime name (quotedValue value)) ↔
      trim value = value ∧ ∀ c ∈ value, c ≠ ';' ∧ c ≠ '"' ∧ c ≠ '\\' := by
  obtain ⟨hmime, hname⟩ := isName_of_keptParameter hkept
  have hnames := eq_of_keptParameter hkept
  obtain ⟨hlower, hfront⟩ := plain_of_keptParameter hkept table
  have hessence : table.lower (essence (withParameter mime name (quotedValue value))) = mime := by
    rw [essence_withParameter hmime, hlower]
  have hread : HeaderValue.IsReadable (withParameter mime name (quotedValue value)) :=
    HeaderValue.isReadable_append hfront (isReadable_quotedValue hvalue)
  have hparams : fieldParameters (withParameter mime name (quotedValue value)) =
      some [(name, value)] := by
    refine fieldParameters_quotedValue hkept fun c hc => Parameters.writable_iff.2 ?_
    rcases hvalue c hc with h | h
    · exact .inl ⟨h.1, Nat.ne_of_lt h.2⟩
    · exact .inr (Char.toNat_inj.1 h)
  constructor
  · rintro ⟨hunpadded, -, -, hquoted⟩
    have hfirst : parameterValue (withParameter mime name (quotedValue value)) name =
        some value := by
      rw [hquoted hread _ hparams name (by simpa using hnames)]
      simp [firstValue, eqIgnoreAsciiCase_iff.2]
    obtain ⟨raw, hraw, htrim⟩ := Option.map_eq_some_iff.1 hfirst
    have hsemicolon : ';' ∉ value := htrim ▸ semicolon_notMem_trimMatches hraw
    have hnone : ';' ∉ quotedValue value := semicolon_notMem_quotedValue hsemicolon
    have hwhole : raw = quotedValue value := by
      rw [rawParameter_withParameter hmime hname hnone, trim_quotedValue] at hraw
      exact (Option.some_inj.1 hraw).symm
    have hcount : value.count '\\' = value.count '\\' +
        value.countP fun c => c = '"' || c = '\\' := by
      calc value.count '\\'
          = (trimMatches '"' raw).count '\\' := by rw [htrim]
        _ = (quotedValue value).count '\\' := by rw [count_trimMatches (by decide), hwhole]
        _ = (Parameters.escape value).count '\\' := by simp [quotedValue]
        _ = _ := Parameters.count_escape value
    have hplain := List.countP_eq_zero.1 (Nat.left_eq_add.1 hcount)
    refine ⟨?_, fun c hc => ⟨fun h => hsemicolon (h ▸ hc), ?_⟩⟩
    · rw [← htrim, trim_trimMatches_iff]
      exact hunpadded name (by rw [hessence]; exact hkept) raw hraw
    · simpa using hplain c hc
  · rintro ⟨htrim, hplain⟩
    have hquotes : ∀ c ∈ value, c ≠ '"' ∧ c ≠ '\\' := fun c hc => (hplain c hc).2
    have hinner := trimMatches_quotedValue hquotes
    have hnone : ';' ∉ quotedValue value :=
      semicolon_notMem_quotedValue fun hmem => (hplain _ hmem).1 rfl
    have hraw := rawParameter_withParameter hmime hname hnone
    rw [trim_quotedValue] at hraw
    have hother : ∀ other ∈ ["charset".toList, "boundary".toList], some name ≠ some other →
        eqIgnoreAsciiCase name other = false := fun other hmem hne =>
      eqIgnoreAsciiCase_of_keptParameter hkept (by simpa using hmem) hne
    refine ⟨fun other hsome raw hmem => ?_, fun _ h => ?_, fun _ other hmem hsome => ?_,
      fun _ params hmem other hmem' => ?_⟩
    · rw [hessence, hkept] at hsome
      obtain rfl := Option.some_inj.1 hsome
      obtain rfl := Option.some_inj.1 (hraw.symm.trans hmem)
      rw [← trim_trimMatches_iff, hinner, htrim]
    · have hxml : keptParameter "text/xml".toList = none := by decide
      rw [← hessence, h, hxml] at hkept
      cases hkept
    · rw [hessence, hkept]
      by_contra hne
      exact hsome (rawParameter_withParameter_of_ne hmime hname hnone (hother other hmem hne))
    · obtain rfl := Option.some_inj.1 (hparams.symm.trans hmem)
      by_cases heq : name = other
      · rw [← heq, parameterValue, hraw, Option.map_some, hinner]
        simp [firstValue, eqIgnoreAsciiCase_iff.2]
      · have hne := hother other hmem' fun h => heq (Option.some_inj.1 h)
        rw [parameterValue, rawParameter_withParameter_of_ne hmime hname hnone hne]
        simp [firstValue, hne]

end

end ContentType

end OxiHttp
