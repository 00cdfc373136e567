/-
**The header lines of a part.**

The name, the file name and the content type of a part are put into its header lines.
`sanitize_header_param` escapes the quotes and backslashes of what goes into a quoted-string and
drops line breaks, so that whatever the texts are, a part has the header lines it is meant to have.
Other control characters stay where they are, and there is no quoted-string with one of them, tabs
apart: the disposition has the parameters it is meant to have exactly when there is none.

Main definitions:

* `OxiHttp.withoutBreaks` — a text without its line breaks;
* `OxiHttp.fieldLines` — the lines of a header, for a reader that ends a line at every CR or LF;
* `OxiHttp.HasFields`, `OxiHttp.HasParameters` — a header with these fields, and with these
  parameters of the disposition;
* `OxiHttp.Quotable` — a text without control characters other than tabs and line breaks.

Main results:

* `OxiHttp.sanitizeHeaderParam_eq` — what is put into a quoted-string;
* `OxiHttp.fieldLines_headerLines` — fields without line breaks are lines of their own;
* `OxiHttp.hasParameters_iff` — the parameters of a disposition are read back when they can be
  written;
* `OxiHttp.partHeaders_exact` — the headers of text parts, file parts and streamed files.
-/

import OxiHttp.FieldParameters
import OxiHttp.MultipartDecode
import OxiHttp.MultipartStream

set_option relaxedAutoImplicit false
set_option autoImplicit false

namespace OxiHttp

/-! ### Texts -/

/-- A character that breaks a line. -/
def isBreak (c : Char) : Bool := c = '\r' || c = '\n'

/-- A text without its line breaks. -/
def withoutBreaks (s : Str) : Str := s.filter fun c => !isBreak c

/-- A text that breaks no line. -/
def NoBreaks (s : Str) : Prop := ∀ c ∈ s, isBreak c = false

theorem noBreaks_withoutBreaks (s : Str) : NoBreaks (withoutBreaks s) := by
  intro c hc
  simpa using (List.mem_filter.1 hc).2

theorem NoBreaks.append {a b : Str} (ha : NoBreaks a) (hb : NoBreaks b) : NoBreaks (a ++ b) :=
  fun c hc => (List.mem_append.1 hc).elim (ha c) (hb c)

instance (s : Str) : Decidable (NoBreaks s) := List.decidableBAll _ s

/-- Outside of a quoted-string line breaks are dropped. -/
theorem sanitizeHeaderParam_plain (s : Str) : sanitizeHeaderParam s false = withoutBreaks s := by
  induction s with
  | nil => rfl
  | cons c s ih =>
      have hcons : sanitizeHeaderParam (c :: s) false =
          (if isBreak c then [] else [c]) ++ sanitizeHeaderParam s false := by
        simp [sanitizeHeaderParam, isBreak]
      rw [hcons, ih, withoutBreaks, withoutBreaks, List.filter_cons]
      cases isBreak c <;> rfl

/-- In a quoted-string quotes and backslashes are escaped, too. -/
theorem sanitizeHeaderParam_eq (s : Str) :
    sanitizeHeaderParam s true = Parameters.escape (withoutBreaks s) := by
  induction s with
  | nil => rfl
  | cons c s ih =>
      have hcons : sanitizeHeaderParam (c :: s) true =
          (if isBreak c then [] else Parameters.escape [c]) ++ sanitizeHeaderParam s true := by
        by_cases hquote : c = '\x22'
        · subst hquote
          rfl
        · by_cases hslash : c = '\\'
          · subst hslash
            rfl
          · simp [sanitizeHeaderParam, Parameters.escape, isBreak, hquote, hslash]
      rw [hcons, ih, withoutBreaks, withoutBreaks, List.filter_cons]
      cases isBreak c with
      | true => rfl
      | false => exact (Parameters.escape_append [c] _).symm

theorem noBreaks_escape {s : Str} (h : NoBreaks s) : NoBreaks (Parameters.escape s) := by
  intro c hc
  rcases Parameters.mem_escape hc with rfl | hc
  · rfl
  · exact h c hc

/-! ### Lines -/

/-- The lines of a header that are not empty, when a line ends at every CR and LF. -/
def fieldLines (bs : List UInt8) : List (List UInt8) :=
  (bs.splitOnP fun b => b = 0x0D || b = 0x0A).filter fun line => !line.isEmpty

/-- The bytes of a text that breaks no line are no line ends. -/
theorem encode_noBreaks {s : Str} (h : NoBreaks s) :
    ∀ b ∈ Utf8.encode s, (decide (b = 0x0D) || decide (b = 0x0A)) = false := by
  intro b hb
  have hcr : (0x0D : UInt8) ∉ Utf8.encode s := fun hmem => by
    have := h _ ((Utf8.mem_encode_iff (d := '\r') (by decide)).1 hmem)
    cases this
  have hlf : (0x0A : UInt8) ∉ Utf8.encode s := fun hmem => by
    have := h _ ((Utf8.mem_encode_iff (d := '\n') (by decide)).1 hmem)
    cases this
  have hne : b ≠ 0x0D ∧ b ≠ 0x0A :=
    ⟨fun he => hcr (he ▸ hb), fun he => hlf (he ▸ hb)⟩
  simp [hne]

/-- Lines that are not empty and have no line end in them are read back. -/
theorem fieldLines_flatMap {lines : List (List UInt8)}
    (h : ∀ l ∈ lines, l ≠ [] ∧ ∀ b ∈ l, (decide (b = 0x0D) || decide (b = 0x0A)) = false) :
    fieldLines (lines.flatMap (· ++ Mime.crlf)) = lines := by
  induction lines with
  | nil => rfl
  | cons l lines ih =>
      obtain ⟨⟨hne, hline⟩, hrest⟩ := List.forall_mem_cons.1 h
      -- the CR ends the line, the LF an empty one
      have hsplit := List.splitOnP_append_cons_of_forall_mem hline 0x0D (by decide)
        (0x0A :: lines.flatMap (· ++ Mime.crlf))
      have hempty : (0x0A :: lines.flatMap (· ++ Mime.crlf)).splitOnP
          (fun b => b = 0x0D || b = 0x0A) = [] :: (lines.flatMap (· ++ Mime.crlf)).splitOnP
            fun b => b = 0x0D || b = 0x0A := by
        rw [List.splitOnP_cons_eq_if_modifyHead]
        rfl
      have happend : (l ++ Mime.crlf) ++ lines.flatMap (· ++ Mime.crlf) =
          l ++ 0x0D :: 0x0A :: lines.flatMap (· ++ Mime.crlf) := by
        rw [List.append_assoc]
        rfl
      rw [List.flatMap_cons, happend, fieldLines, hsplit, hempty,
        List.filter_cons_of_pos (by simpa using hne), List.filter_cons_of_neg (by decide)]
      exact congrArg _ (ih hrest)

/-- Fields without line breaks are lines of their own. -/
theorem fieldLines_headerLines {headers : List (Str × Str)}
    (h : ∀ f ∈ headers, NoBreaks f.1 ∧ NoBreaks f.2) :
    fieldLines (headerLines headers) = headers.map fieldLine := by
  rw [headerLines_eq]
  refine fieldLines_flatMap fun l hl => ?_
  obtain ⟨f, hf, rfl⟩ := List.mem_map.1 hl
  obtain ⟨hname, hvalue⟩ := h f hf
  have hall := (hname.append (show NoBreaks ": ".toList by decide)).append hvalue
  refine ⟨PlainHeader.fieldLine_ne_nil f, ?_⟩
  rw [fieldLine, ← Utf8.encode_append, ← Utf8.encode_append]
  exact encode_noBreaks hall

/-! ### The headers of parts -/

/-- A header whose fields have these names, each a line of its own. -/
structure HasFields (headers : List (Str × Str)) (names : List String) : Prop where
  names_eq : headers.map Prod.fst = names.map String.toList
  lines_eq : fieldLines (headerLines headers) = headers.map fieldLine

/-- A header that begins with a disposition with these parameters. -/
def HasParameters (headers : List (Str × Str)) (params : List (Str × Str)) : Prop :=
  ∃ value, headers.head? = some ("Content-Disposition".toList, value) ∧
    Parameters.parse value = some ("form-data".toList, params)

/-- A text whose control characters are tabs and line breaks. -/
def Quotable (s : Str) : Prop :=
  ∀ c ∈ s, c.toNat < 0x20 ∨ c.toNat = 0x7F → c = '\t' ∨ c = '\r' ∨ c = '\n'

/-- Without its line breaks it can be written in a quoted-string. -/
theorem quotable_iff {s : Str} : Quotable s ↔ ∀ c ∈ withoutBreaks s, Parameters.Writable c := by
  have hchar : ∀ c, isBreak c = false →
      (Parameters.Writable c ↔ (c.toNat < 0x20 ∨ c.toNat = 0x7F → c = '\t')) := by
    intro c _
    rw [Parameters.writable_iff]
    constructor
    · rintro (h | rfl) hcontrol
      · omega
      · rfl
    · intro h
      by_cases hcontrol : c.toNat < 0x20 ∨ c.toNat = 0x7F
      · exact .inr (h hcontrol)
      · exact .inl (by omega)
  simp only [Quotable, withoutBreaks, List.mem_filter, Bool.not_eq_true', and_imp]
  refine forall₂_congr fun c _ => ?_
  constructor
  · intro h hbreak
    refine (hchar c hbreak).2 fun hcontrol => (h hcontrol).resolve_right fun hcr => ?_
    have hboth : c ≠ '\r' ∧ c ≠ '\n' := by simpa [isBreak] using hbreak
    exact hcr.elim hboth.1 hboth.2
  · intro h hcontrol
    by_cases hbreak : isBreak c = true
    · exact .inr (by simpa [isBreak] using hbreak)
    · rw [Bool.not_eq_true] at hbreak
      exact .inl ((hchar c hbreak).1 (h hbreak) hcontrol)

/-- The disposition with these parameters. -/
def formData (params : List (Str × Str)) : Str :=
  "form-data".toList ++ params.flatMap Parameters.render

theorem noBreaks_formData {params : List (Str × Str)}
    (h : ∀ p ∈ params, NoBreaks p.1 ∧ NoBreaks p.2) : NoBreaks (formData params) := by
  refine NoBreaks.append (by decide) fun c hc => ?_
  obtain ⟨p, hp, hc⟩ := List.mem_flatMap.1 hc
  obtain ⟨hname, hvalue⟩ := h p hp
  have hrender : NoBreaks ("; ".toList ++ p.1 ++ "=\"".toList ++ Parameters.escape p.2 ++
      "\"".toList) :=
    (((NoBreaks.append (by decide) hname).append (by decide)).append
      (noBreaks_escape hvalue)).append (by decide)
  exact hrender c (by simpa [Parameters.render] using hc)

/-- Fields that break no line, the first of them a disposition, are the header they are meant to
be. -/
theorem hasFields_of {params : List (Str × Str)} {fields : List (Str × Str)}
    (hparams : ∀ p ∈ params, NoBreaks p.1 ∧ NoBreaks p.2)
    (hfields : ∀ f ∈ fields, NoBreaks f.1 ∧ NoBreaks f.2) {names : List String}
    (hnames : fields.map Prod.fst = names.map String.toList) :
    HasFields (("Content-Disposition".toList, formData params) :: fields)
      ("Content-Disposition" :: names) where
  names_eq := by rw [List.map_cons, List.map_cons, hnames]
  lines_eq := fieldLines_headerLines (List.forall_mem_cons.2
    ⟨⟨show NoBreaks "Content-Disposition".toList by decide, noBreaks_formData hparams⟩, hfields⟩)

/-- The parameters of a disposition are read back exactly when their values can be written. -/
theorem hasParameters_iff {params fields : List (Str × Str)}
    (hnames : ∀ p ∈ params, Parameters.IsToken p.1) :
    HasParameters (("Content-Disposition".toList, formData params) :: fields) params ↔
      ∀ p ∈ params, ∀ c ∈ p.2, Parameters.Writable c := by
  have htoken : Parameters.IsToken "form-data".toList := by decide
  have hparse : Parameters.parse (formData params) = some ("form-data".toList, params) ↔
      ∀ p ∈ params, ∀ c ∈ p.2, Parameters.Writable c := Parameters.parse_render_iff htoken hnames
  rw [← hparse]
  constructor
  · rintro ⟨value, hvalue, h⟩
    rw [List.head?_cons, Option.some.injEq, Prod.mk.injEq] at hvalue
    rwa [hvalue.2]
  · exact fun h => ⟨formData params, List.head?_cons, h⟩

/-- The disposition, up to the name. -/
theorem formData_open : "form-data; name=\"".toList =
    "form-data".toList ++ ';' :: ' ' :: ("name".toList ++ ['=', '\x22']) := by decide

/-- And what stands between the two names. -/
theorem formData_between : "\"; filename=\"".toList =
    '\x22' :: ';' :: ' ' :: ("filename".toList ++ ['=', '\x22']) := by decide

/-- The quote behind a value and the parameter behind it, in one piece. -/
theorem quote_append_render (name value : Str) :
    '\x22' :: ';' :: ' ' :: (name ++ ['=', '\x22']) ++ (Parameters.escape value ++ ['\x22']) =
      '\x22' :: (Parameters.render (name, value) ++ []) := by
  simp [Parameters.render]

/-- A token and the parameter behind it. -/
theorem append_render (token name value rest : Str) :
    (token ++ ';' :: ' ' :: (name ++ ['=', '\x22'])) ++ Parameters.escape value ++ '\x22' :: rest =
      token ++ (Parameters.render (name, value) ++ rest) := by
  simp [Parameters.render]

theorem textHeaders_eq (name value : Str) : (Part.text name value).headers =
    [("Content-Disposition".toList, formData [("name".toList, withoutBreaks name)])] := by
  have hquote : "\"".toList = ['\x22'] := by decide
  have hvalue : "form-data; name=\"".toList ++ sanitizeHeaderParam name true ++ "\"".toList =
      formData [("name".toList, withoutBreaks name)] := by
    rw [formData_open, hquote, sanitizeHeaderParam_eq]
    exact append_render _ _ _ []
  rw [← hvalue, Part.text]

theorem fileHeaders_eq (name filename contentType : Str) : fileHeaders name filename contentType =
    [("Content-Disposition".toList, formData [("name".toList, withoutBreaks name),
        ("filename".toList, withoutBreaks filename)]),
      ("Content-Type".toList, withoutBreaks contentType)] := by
  have hquote : "\"".toList = ['\x22'] := by decide
  have hvalue : "form-data; name=\"".toList ++ sanitizeHeaderParam name true ++
      "\"; filename=\"".toList ++ sanitizeHeaderParam filename true ++ "\"".toList = formData
        [("name".toList, withoutBreaks name), ("filename".toList, withoutBreaks filename)] := by
    rw [formData_open, formData_between, hquote, sanitizeHeaderParam_eq, sanitizeHeaderParam_eq,
      List.append_assoc (_ ++ _), List.append_assoc (_ ++ _), quote_append_render]
    exact append_render _ _ _ _
  rw [← hvalue, fileHeaders, sanitizeHeaderParam_plain]

/-- **The headers of a part cannot be broken out of**: whatever the name, the file name and the
content type are, a text part has one line and a file part two, and the streamed files the same; and
the disposition has the name and the file name as its only parameters exactly when these have no
control characters but tabs and line breaks, which are left out. -/
theorem partHeaders_exact (name filename contentType value : Str) (body : List UInt8)
    (builder : MultipartBuilder) (streaming : StreamingMultipart) (stream : List SourcePoll) :
    (HasFields (Part.text name value).headers ["Content-Disposition"] ∧
        (HasParameters (Part.text name value).headers [("name".toList, withoutBreaks name)] ↔
          Quotable name)) ∧
      (HasFields (Part.file name filename contentType body).headers
          ["Content-Disposition", "Content-Type"] ∧
        (HasParameters (Part.file name filename contentType body).headers
            [("name".toList, withoutBreaks name), ("filename".toList, withoutBreaks filename)] ↔
          Quotable name ∧ Quotable filename)) ∧
      (builder.addFileStream name filename contentType stream).parts =
        builder.parts.map PartOrStream.buffered ++
          [.streamed (Part.file name filename contentType body).headers stream] ∧
      (streaming.addFileStream name filename contentType stream).parts = streaming.parts ++
        [.streamed (Part.file name filename contentType body).headers stream] := by
  have hname : NoBreaks "name".toList ∧ NoBreaks (withoutBreaks name) :=
    ⟨by decide, noBreaks_withoutBreaks _⟩
  have hfilename : NoBreaks "filename".toList ∧ NoBreaks (withoutBreaks filename) :=
    ⟨by decide, noBreaks_withoutBreaks _⟩
  have htoken : Parameters.IsToken "name".toList ∧ Parameters.IsToken "filename".toList := by decide
  refine ⟨?_, ?_, rfl, rfl⟩
  · rw [textHeaders_eq]
    refine ⟨hasFields_of (List.forall_mem_singleton.2 hname) (List.forall_mem_nil _) rfl, ?_⟩
    rw [hasParameters_iff (List.forall_mem_singleton.2 htoken.1), List.forall_mem_singleton,
      quotable_iff]
  · change HasFields (fileHeaders name filename contentType) _ ∧
      (HasParameters (fileHeaders name filename contentType) _ ↔ _)
    rw [fileHeaders_eq]
    refine ⟨hasFields_of (List.forall_mem_cons.2 ⟨hname, List.forall_mem_singleton.2 hfilename⟩)
      (List.forall_mem_singleton.2 ⟨show NoBreaks "Content-Type".toList by decide,
        noBreaks_withoutBreaks _⟩) rfl, ?_⟩
    rw [hasParameters_iff (List.forall_mem_cons.2 ⟨htoken.1, List.forall_mem_singleton.2 htoken.2⟩),
      List.forall_mem_cons, List.forall_mem_singleton, quotable_iff, quotable_iff]

/-- With a NUL in its name a part has no disposition that can be read. -/
theorem not_hasParameters_nul :
    ¬ HasParameters (Part.text "a\x00b".toList "".toList).headers
      [("name".toList, withoutBreaks "a\x00b".toList)] := by
  rintro ⟨value, hvalue, h⟩
  have hnone : ((Part.text "a\x00b".toList "".toList).headers.head?.bind fun field =>
      Parameters.parse field.2) = none := by decide +kernel
  rw [hvalue, Option.bind_some, h] at hnone
  cases hnone

end OxiHttp
