/-
**Multipart form bodies are read back.**

The boundary that `build` looks for occurs in the content of no part, but nothing is looked up in
the headers: those of `text` and `file` carry names the caller chose, and those of `custom` are
taken as they are.  A header line begins with the name of the header, so a boundary in its value
delimits nothing, as long as no name or value brings a line end with it.

Main definitions:

* `OxiHttp.fieldLine`, `OxiHttp.Part.received` — a part as its receiver sees it;
* `OxiHttp.Part.Sendable` — a part of `text` or `file`, or one of `custom` whose headers are
  harmless;
* `OxiHttp.PlainHeader` — what all their headers have in common.

Main results:

* `OxiHttp.Part.Sendable.plainHeader` — the headers of such a part are plain;
* `OxiHttp.PlainHeader.not_isDelimiter` — a plain header line is not taken for a delimiter.
-/

import OxiHttp.MimeLines
import OxiHttp.Multipart

set_option relaxedAutoImplicit false
set_option autoImplicit false

namespace OxiHttp

/-! ### What is received -/

/-- The line of a header. -/
def fieldLine (h : Str × Str) : List UInt8 :=
  Utf8.encode h.1 ++ Utf8.encode ": ".toList ++ Utf8.encode h.2

/-- A part as its receiver sees it. -/
def Part.received (part : Part) : Mime.LinePart where
  headerLines := part.headers.map fieldLine
  content := part.body

theorem headerLines_eq (headers : List (Str × Str)) :
    headerLines headers = (headers.map fieldLine).flatMap (· ++ Mime.crlf) := by
  induction headers with
  | nil => rfl
  | cons h headers ih =>
      have hcons : headerLines (h :: headers) = putHeaders (fieldLine h ++ Mime.crlf) headers := by
        rw [headerLines, putHeaders, List.foldl_cons, ← encode_crlf]
        rfl
      rw [hcons, putHeaders_eq, ih, List.map_cons, List.flatMap_cons]

theorem Part.toBodyPart_eq (part : Part) : part.toBodyPart = part.received.toBodyPart := by
  rw [toBodyPart, headerLines_eq]
  rfl

/-! ### The parts that can be sent -/

/-- A part of `text` or `file`, whatever it is given, or one of `custom` whose header names have
neither colons nor line ends, whose values have no line ends, and which contain the boundary
neither in a name nor in a value. -/
inductive Part.Sendable (boundary : Str) : Part → Prop where
  | text (name value : Str) : Sendable boundary (Part.text name value)
  | file (name filename contentType : Str) (body : List UInt8) :
      Sendable boundary (Part.file name filename contentType body)
  | custom (headers : List (Str × Str)) (body : List UInt8)
      (names : ∀ h ∈ headers, ':' ∉ h.1 ∧ '\r' ∉ h.1 ∧ '\n' ∉ h.1)
      (values : ∀ h ∈ headers, '\r' ∉ h.2 ∧ '\n' ∉ h.2)
      (free : ∀ h ∈ headers, ¬ boundary <:+: h.1 ∧ ¬ boundary <:+: h.2) :
      Sendable boundary (Part.custom headers body)

/-- A header whose line is one line that its name begins. -/
structure PlainHeader (boundary : Str) (h : Str × Str) : Prop where
  colon : ':' ∉ h.1
  name : '\r' ∉ h.1
  value : '\r' ∉ h.2
  free : ¬ boundary <:+: h.1

theorem cr_notMem_sanitizeHeaderParam (value : Str) (escapeQuotes : Bool) :
    '\r' ∉ sanitizeHeaderParam value escapeQuotes := by
  intro h
  obtain ⟨c, -, hc⟩ := List.mem_flatMap.1 h
  split_ifs at hc with h₁ h₂ h₃
  · simp at hc
  · simp at hc
  · simp at hc
  · exact h₃ (by simp [← List.mem_singleton.1 hc])

theorem length_generateBoundary (nanos : UInt32) (counter : UInt64) :
    31 ≤ (generateBoundary nanos counter).length := by
  have hlen : ∀ a b : Str, 8 ≤ a.length → 4 ≤ b.length →
      31 ≤ ("----OxiHTTPBoundary".toList ++ a ++ b).length := by
    intro a b ha hb
    have hfixed : "----OxiHTTPBoundary".toList.length = 19 := by decide
    rw [List.length_append, List.length_append, hfixed]
    omega
  exact hlen _ _ (width_le_length_formatHex _ _) (width_le_length_formatHex _ _)

/-- The names of the headers that `text` and `file` write are shorter than a boundary. -/
theorem plainHeader_of_short {boundary : Str} (hlen : 31 ≤ boundary.length) {name value : Str}
    (hname : name.length < 31 ∧ ':' ∉ name ∧ '\r' ∉ name) (hvalue : '\r' ∉ value) :
    PlainHeader boundary (name, value) where
  colon := hname.2.1
  name := hname.2.2
  value := hvalue
  free := fun h => by
    have := h.length_le
    have hshort := hname.1
    dsimp only at this
    omega

theorem Part.Sendable.plainHeader {boundary : Str} (hlen : 31 ≤ boundary.length) {part : Part}
    (h : part.Sendable boundary) : ∀ field ∈ part.headers, PlainHeader boundary field := by
  have hdisposition : "Content-Disposition".toList.length < 31 ∧
      ':' ∉ "Content-Disposition".toList ∧ '\r' ∉ "Content-Disposition".toList := by decide
  have htype : "Content-Type".toList.length < 31 ∧ ':' ∉ "Content-Type".toList ∧
      '\r' ∉ "Content-Type".toList := by decide
  have hopening : '\r' ∉ "form-data; name=\"".toList := by decide
  have hmiddle : '\r' ∉ "\"; filename=\"".toList := by decide
  have hquote : '\r' ∉ "\"".toList := by decide
  cases h with
  | text name value =>
      intro field hfield
      rw [Part.text, List.mem_singleton] at hfield
      subst hfield
      refine plainHeader_of_short hlen hdisposition ?_
      simp only [List.mem_append, hopening, cr_notMem_sanitizeHeaderParam, hquote, or_self,
        not_false_eq_true]
  | file name filename contentType body =>
      intro field hfield
      rw [Part.file, fileHeaders, List.mem_cons, List.mem_singleton] at hfield
      rcases hfield with rfl | rfl
      · refine plainHeader_of_short hlen hdisposition ?_
        simp only [List.mem_append, hopening, hmiddle, cr_notMem_sanitizeHeaderParam, hquote,
          or_self, not_false_eq_true]
      · exact plainHeader_of_short hlen htype (cr_notMem_sanitizeHeaderParam _ _)
  | custom headers body names values free =>
      intro field hfield
      exact ⟨(names field hfield).1, (names field hfield).2.1, (values field hfield).1,
        (free field hfield).1⟩

/-! ### The lines -/

/-- A text that lacks a character ends before the character. -/
theorem prefix_of_prefix_append_cons {a b d : Str} {c : Char} (h : a <+: b ++ c :: d)
    (hc : c ∉ a) : a <+: b := by
  rcases Nat.lt_or_ge b.length a.length with hlt | hle
  · have hbc : b ++ [c] <+: b ++ c :: d := ⟨d, by simp⟩
    have hba : b ++ [c] <+: a := List.prefix_of_prefix_length_le hbc h (by simp; omega)
    exact absurd (hba.subset (by simp)) hc
  · exact List.prefix_of_prefix_length_le h (List.prefix_append _ _) hle

/-- The characters of a boundary: what the search appends are hex digits. -/
structure Plain (boundary : Str) : Prop where
  ascii : ∀ c ∈ boundary, Utf8.IsAscii c
  colon : ':' ∉ boundary
  cr : '\r' ∉ boundary

theorem Plain.append {a b : Str} (ha : Plain a) (hb : Plain b) : Plain (a ++ b) where
  ascii := fun c hc => (List.mem_append.1 hc).elim (ha.ascii c) (hb.ascii c)
  colon := fun h => (List.mem_append.1 h).elim ha.colon hb.colon
  cr := fun h => (List.mem_append.1 h).elim ha.cr hb.cr

theorem plain_formatHex (width n : ℕ) : Plain (formatHex width n) := by
  have hdigit : ∀ d < 16, Utf8.IsAscii (hexLower d) ∧ hexLower d ≠ ':' ∧ hexLower d ≠ '\r' := by
    decide
  refine ⟨fun c hc => ?_, fun h => ?_, fun h => ?_⟩
  · obtain ⟨d, hd, rfl⟩ := mem_formatHex hc
    exact (hdigit d hd).1
  · obtain ⟨d, hd, heq⟩ := mem_formatHex h
    exact (hdigit d hd).2.1 heq.symm
  · obtain ⟨d, hd, heq⟩ := mem_formatHex h
    exact (hdigit d hd).2.2 heq.symm

theorem plain_generateBoundary (nanos : UInt32) (counter : UInt64) :
    Plain (generateBoundary nanos counter) :=
  (Plain.append ⟨by decide, by decide, by decide⟩ (plain_formatHex _ _)).append
    (plain_formatHex _ _)

theorem cr_notMem_encode {s : Str} (h : '\r' ∉ s) : 0x0D ∉ Utf8.encode s :=
  fun hmem => h ((Utf8.mem_encode_iff (d := '\r') (by decide)).1 hmem)

namespace PlainHeader

variable {boundary : Str} {h : Str × Str}

theorem cr_notMem_fieldLine (hplain : PlainHeader boundary h) : 0x0D ∉ fieldLine h := by
  have hcolon : (0x0D : UInt8) ∉ Utf8.encode ": ".toList := by decide
  simp only [fieldLine, List.mem_append, cr_notMem_encode hplain.name, hcolon,
    cr_notMem_encode hplain.value, or_self, not_false_eq_true]

theorem fieldLine_ne_nil (h : Str × Str) : fieldLine h ≠ [] := by
  simp [fieldLine]

/-- The name ends at the first colon. -/
theorem field_fieldLine (hplain : PlainHeader boundary h) :
    Mime.field (fieldLine h) = (Utf8.encode h.1, 0x20 :: Utf8.encode h.2) := by
  have hcolon : Utf8.encode ": ".toList = [0x3A, 0x20] := by decide
  have hname : ∀ b ∈ Utf8.encode h.1, decide (b ≠ 0x3A) = true := by
    intro b hb
    rw [decide_eq_true_eq]
    rintro rfl
    exact hplain.colon ((Utf8.mem_encode_iff (d := ':') (by decide)).1 hb)
  rw [Mime.field, fieldLine, hcolon, List.append_assoc, List.takeWhile_append_of_pos hname,
    List.dropWhile_append_of_pos hname]
  simp

/-- The line of a plain header is no delimiter: it would begin with the boundary, which ends
before the colon and so is part of the name. -/
theorem not_isDelimiter (hplain : PlainHeader boundary h) {found : Str} (hfound : Plain found)
    (hlonger : boundary <+: found) :
    Mime.isDelimiter (Utf8.encode found) (fieldLine h) = false := by
  rw [Mime.isDelimiter, ← Bool.not_eq_true, List.isPrefixOf_iff_prefix]
  intro hp
  have hdash : Plain "--".toList := ⟨by decide, by decide, by decide⟩
  have hline : fieldLine h = Utf8.encode (h.1 ++ ':' :: ' ' :: h.2) := by
    rw [fieldLine, ← Utf8.encode_append, ← Utf8.encode_append, List.append_assoc]
    rfl
  rw [← encode_dashes, ← Utf8.encode_append, hline] at hp
  have hchars := Utf8.prefix_of_encode_prefix (hdash.append hfound).ascii hp
  have hname := prefix_of_prefix_append_cons hchars (hdash.append hfound).colon
  refine hplain.free (hlonger.isInfix.trans ?_)
  exact (List.suffix_append _ _).isInfix.trans hname.isInfix

end PlainHeader

/-- A boundary that stands in no content delimits no line of it. -/
theorem not_isDelimiter_of_notInfix {boundary content : List UInt8} (h : ¬ boundary <:+: content) :
    ∀ l ∈ Mime.lines content, Mime.isDelimiter boundary l = false := by
  intro l hl
  rw [Mime.isDelimiter, ← Bool.not_eq_true, List.isPrefixOf_iff_prefix]
  intro hp
  exact h ((List.suffix_append _ _).isInfix.trans (hp.isInfix.trans (Mime.infix_of_mem_lines hl)))

namespace MultipartBuilder

/-- What the search finds begins with the boundary of the builder, and stands in no part. -/
theorem findUniqueBoundary_spec {builder : MultipartBuilder} {found : Str}
    (h : builder.findUniqueBoundary = some found) :
    builder.boundary <+: found ∧ Plain found ∧
      ∀ part ∈ builder.parts, ¬ Utf8.encode found <:+: part.body := by
  have hplain : Plain builder.boundary := by
    obtain ⟨nanos, counter, hgen⟩ := builder.generated
    rw [hgen]
    exact plain_generateBoundary nanos counter
  obtain ⟨hfree, hcases⟩ := uniqueBoundary_cases h
  rw [hasCollision_eq_false_iff] at hfree
  rcases hcases with rfl | ⟨-, n, rfl⟩
  · exact ⟨List.prefix_refl _, hplain, hfree⟩
  · exact ⟨List.prefix_append _ _, hplain.append (plain_formatHex 4 n), hfree⟩

theorem length_boundary (builder : MultipartBuilder) : 31 ≤ builder.boundary.length := by
  obtain ⟨nanos, counter, hgen⟩ := builder.generated
  rw [hgen]
  exact length_generateBoundary nanos counter

/-- **The body that `build` writes is read back**: under the boundary that was found its parts are
the parts of the builder, in order, each with its header lines, which split into the names and
values they were made from, and its content. -/
theorem build_decodes {builder : MultipartBuilder} {body : List UInt8}
    (hparts : ∀ part ∈ builder.parts, part.Sendable builder.boundary)
    (hbuild : builder.build = some body) :
    ∃ boundary ∈ builder.findUniqueBoundary,
      Mime.decode (Utf8.encode boundary) body = some (builder.parts.map Part.received) ∧
        ∀ part ∈ builder.parts, ∀ h ∈ part.headers,
          Mime.field (fieldLine h) = (Utf8.encode h.1, 0x20 :: Utf8.encode h.2) := by
  rw [build_eq] at hbuild
  obtain ⟨found, hfound, rfl⟩ := Option.map_eq_some_iff.1 hbuild
  obtain ⟨hlonger, hplain, hfree⟩ := findUniqueBoundary_spec hfound
  have hheaders : ∀ part ∈ builder.parts, ∀ h ∈ part.headers, PlainHeader builder.boundary h :=
    fun part hpart => (hparts part hpart).plainHeader builder.length_boundary
  refine ⟨found, hfound, ?_, fun part hpart h hh => (hheaders part hpart h hh).field_fieldLine⟩
  have hreceived : builder.parts.map Part.toBodyPart
      = (builder.parts.map Part.received).map Mime.LinePart.toBodyPart := by
    rw [List.map_map]
    exact List.map_congr_left fun part _ => part.toBodyPart_eq
  rw [hreceived]
  refine Mime.decode_assemble (cr_notMem_encode hplain.cr) fun p hp => ?_
  obtain ⟨part, hpart, rfl⟩ := List.mem_map.1 hp
  refine ⟨fun l hl => ?_, fun l hl => ?_, not_isDelimiter_of_notInfix (hfree part hpart)⟩
  · obtain ⟨h, hh, rfl⟩ := List.mem_map.1 hl
    exact ⟨PlainHeader.fieldLine_ne_nil h, (hheaders part hpart h hh).cr_notMem_fieldLine⟩
  · obtain ⟨h, hh, rfl⟩ := List.mem_map.1 hl
    exact (hheaders part hpart h hh).not_isDelimiter hplain hlonger

/-- A text whose name brings a header line along and whose value is a whole part under the boundary
of the builder, and a part of its own headers whose content is the beginning of a delimiter. -/
def forgingBuilder : MultipartBuilder :=
  let boundary := generateBoundary 0 0
  ((MultipartBuilder.new 0 0).addText "a\r\nX-Forged: 1".toList
    ("\r\n--".toList ++ boundary ++ "\r\n\r\nforged\r\n--".toList ++ boundary ++
      "--\r\n".toList)).addPart
    (Part.custom [("X-Id".toList, "1: 2".toList)] (Utf8.encode "\r\n------OxiHTTP".toList))

theorem build_decodes_forgingBuilder :
    ∃ body boundary, forgingBuilder.build = some body ∧
      forgingBuilder.findUniqueBoundary = some boundary ∧
      Mime.decode (Utf8.encode boundary) body
        = some (forgingBuilder.parts.map Part.received) := by
  obtain ⟨body, hbody⟩ := Option.isSome_iff_exists.1
    (show forgingBuilder.build.isSome = true by decide +kernel)
  have hparts : ∀ part ∈ forgingBuilder.parts, part.Sendable forgingBuilder.boundary := by
    intro part hpart
    rcases List.mem_cons.1 hpart with rfl | hpart
    · exact .text _ _
    · rw [List.mem_singleton.1 hpart]
      exact .custom _ _ (by decide) (by decide) (by decide +kernel)
  obtain ⟨boundary, hboundary, hdecode, -⟩ := build_decodes hparts hbody
  exact ⟨body, boundary, hbody, hboundary, hdecode⟩

end MultipartBuilder

end OxiHttp
