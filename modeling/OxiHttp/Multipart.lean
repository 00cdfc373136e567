/-
**Multipart form bodies.**

`MultipartBuilder` draws a boundary when it is made, and announces it in the content type.  When it
writes the body it first looks for a boundary that occurs in no part: the one it drew, or that one
with a number appended.

Main definitions:

* `OxiHttp.Part`, `OxiHttp.MultipartBuilder` — the parts and the builder, with the operations of the
  source;
* `OxiHttp.searchBoundary` — the search;
* `OxiHttp.boundaryParam`, `OxiHttp.Announces` — what a receiver of the content type expects.

Main results:

* `OxiHttp.uniqueBoundary_cases` — what the search finds;
* `OxiHttp.MultipartBuilder.build_eq` — the body is the multipart body under what it finds;
* `OxiHttp.MultipartBuilder.announces_iff` — it is the one that is announced exactly when no part
  contains the boundary.
-/

import OxiHttp.Mime
import OxiHttp.Text
import OxiHttp.Utf8
import Mathlib.Data.List.Infix

set_option relaxedAutoImplicit false
set_option autoImplicit false

namespace OxiHttp

/-! ### Hexadecimal numbers -/

/-- The lower-case hex digit of a number below 16. -/
def hexLower (n : ℕ) : Char := if n < 10 then Char.ofNat (0x30 + n) else Char.ofNat (0x57 + n)

/-- The hex digits of a 64-bit number from the most significant on, without leading zeros. -/
def hexDigits (n : ℕ) : List ℕ :=
  ((List.range 16).reverse.map fun i => n / 16 ^ i % 16).dropWhile (· = 0)

/-- `format!("{n:0width$x}")`. -/
def formatHex (width n : ℕ) : Str := List.leftpad width '0' ((hexDigits n).map hexLower)

theorem mem_formatHex {width n : ℕ} {c : Char} (h : c ∈ formatHex width n) :
    ∃ d < 16, c = hexLower d := by
  rw [formatHex, List.leftpad, List.mem_append] at h
  rcases h with h | h
  · exact ⟨0, by omega, List.eq_of_mem_replicate h⟩
  · obtain ⟨d, hd, rfl⟩ := List.mem_map.1 h
    obtain ⟨i, -, rfl⟩ := List.mem_map.1 ((List.dropWhile_sublist _).subset hd)
    exact ⟨_, Nat.mod_lt _ (by omega), rfl⟩

theorem width_le_length_formatHex (width n : ℕ) : width ≤ (formatHex width n).length := by
  rw [formatHex, List.leftpad, List.length_append, List.length_replicate]
  omega

example : formatHex 4 0x1f = "001f".toList := by decide
example : formatHex 4 0xbeef0 = "beef0".toList := by decide

/-! ### Parts -/

/-- `sanitize_header_param`. -/
def sanitizeHeaderParam (value : Str) (escapeQuotes : Bool) : Str :=
  value.flatMap fun c =>
    if c = '\x22' && escapeQuotes then ['\x5c', '\x22']
    else if c = '\x5c' && escapeQuotes then ['\x5c', '\x5c']
    else if c = '\r' || c = '\n' then []
    else [c]

/-- `Part`. -/
structure Part where
  headers : List (Str × Str)
  body : List UInt8
deriving DecidableEq

/-- `Part::text`. -/
def Part.text (name value : Str) : Part where
  headers := [("Content-Disposition".toList,
    "form-data; name=\"".toList ++ sanitizeHeaderParam name true ++ "\"".toList)]
  body := Utf8.encode value

/-- The headers that `Part::file` and `add_file_stream` give a file. -/
def fileHeaders (name filename contentType : Str) : List (Str × Str) :=
  [("Content-Disposition".toList,
      "form-data; name=\"".toList ++ sanitizeHeaderParam name true ++ "\"; filename=\"".toList ++
        sanitizeHeaderParam filename true ++ "\"".toList),
    ("Content-Type".toList, sanitizeHeaderParam contentType false)]

/-- `Part::file`. -/
def Part.file (name filename contentType : Str) (body : List UInt8) : Part where
  headers := fileHeaders name filename contentType
  body

/-- `Part::custom`. -/
def Part.custom (headers : List (Str × Str)) (body : List UInt8) : Part where
  headers
  body

/-! ### The boundary -/

/-- `generate_boundary`, at a time with this many nanoseconds and this value of the counter. -/
def generateBoundary (nanos : UInt32) (counter : UInt64) : Str :=
  "----OxiHTTPBoundary".toList ++ formatHex 8 nanos.toNat ++ formatHex 4 counter.toNat

/-- A window of the length of `w` in the bytes is `w`. -/
def anyWindow (w bs : List UInt8) : Bool := bs.tails.any fun t => w.isPrefixOf t

theorem anyWindow_iff {w bs : List UInt8} : anyWindow w bs = true ↔ w <:+: bs := by
  simp only [anyWindow, List.any_eq_true, List.mem_tails, List.isPrefixOf_iff_prefix]
  rw [List.infix_iff_prefix_suffix]
  exact exists_congr fun t => and_comm

/-- The loop of `find_unique_boundary` with `left` increments of the `u32` suffix left; `none` is
the overflow of the suffix. -/
def searchBoundary (hasCollision : Str → Bool) (stored : Str) : (left : ℕ) → Str → Option Str
  | 0, boundary => if hasCollision boundary then none else some boundary
  | left + 1, boundary =>
      if hasCollision boundary then
        searchBoundary hasCollision stored left (stored ++ formatHex 4 (2 ^ 32 - 1 - left))
      else some boundary

/-- The search from the stored boundary on. -/
def uniqueBoundary (hasCollision : Str → Bool) (stored : Str) : Option Str :=
  searchBoundary hasCollision stored (2 ^ 32 - 1) stored

theorem searchBoundary_eq_some {hasCollision : Str → Bool} {stored boundary found : Str} {left : ℕ}
    (h : searchBoundary hasCollision stored left boundary = some found) :
    hasCollision found = false ∧ (found = boundary ∨
      hasCollision boundary = true ∧ ∃ n, found = stored ++ formatHex 4 n) := by
  -- induction on the increments that are left; the boundary after the first turn carries a suffix
  induction left generalizing boundary with
  | zero =>
      rw [searchBoundary] at h
      split_ifs at h with hc
      cases h
      exact ⟨by simpa using hc, .inl rfl⟩
  | succ left ih =>
      rw [searchBoundary] at h
      split_ifs at h with hc
      · obtain ⟨hfree, hfound⟩ := ih h
        refine ⟨hfree, .inr ⟨hc, ?_⟩⟩
        rcases hfound with rfl | ⟨-, n, rfl⟩
        · exact ⟨_, rfl⟩
        · exact ⟨n, rfl⟩
      · cases h
        exact ⟨by simpa using hc, .inl rfl⟩

/-- The search finds a boundary without a collision: the stored one, or a longer one when the
stored one has a collision. -/
theorem uniqueBoundary_cases {hasCollision : Str → Bool} {stored found : Str}
    (h : uniqueBoundary hasCollision stored = some found) :
    hasCollision found = false ∧ (found = stored ∨
      hasCollision stored = true ∧ ∃ n, found = stored ++ formatHex 4 n) :=
  searchBoundary_eq_some h

/-- A stored boundary without a collision is found. -/
theorem uniqueBoundary_of_free {hasCollision : Str → Bool} {stored : Str}
    (h : hasCollision stored = false) : uniqueBoundary hasCollision stored = some stored := by
  rw [uniqueBoundary, searchBoundary.eq_def]
  simp [h]

/-! ### The builder -/

/-- `MultipartBuilder`: its boundary is a generated one. -/
structure MultipartBuilder where
  boundary : Str
  parts : List Part := []
  generated : ∃ nanos counter, boundary = generateBoundary nanos counter
deriving DecidableEq

/-- The header lines of a part, as they are put into the buffer. -/
def putHeaders (buf : List UInt8) (headers : List (Str × Str)) : List UInt8 :=
  headers.foldl (fun buf h =>
    buf ++ Utf8.encode h.1 ++ Utf8.encode ": ".toList ++ Utf8.encode h.2 ++
      Utf8.encode "\r\n".toList) buf

/-- The content type that announces a boundary. -/
def contentTypeOf (boundary : Str) : Str := "multipart/form-data; boundary=".toList ++ boundary

namespace MultipartBuilder

/-- `MultipartBuilder::new`. -/
def new (nanos : UInt32) (counter : UInt64) : MultipartBuilder where
  boundary := generateBoundary nanos counter
  generated := ⟨nanos, counter, rfl⟩

/-- `content_type`. -/
def contentType (builder : MultipartBuilder) : Str := contentTypeOf builder.boundary

/-- `add_part`. -/
def addPart (builder : MultipartBuilder) (part : Part) : MultipartBuilder :=
  { builder with parts := builder.parts ++ [part] }

/-- `add_text`. -/
def addText (builder : MultipartBuilder) (name value : Str) : MultipartBuilder :=
  builder.addPart (Part.text name value)

/-- `add_file`. -/
def addFile (builder : MultipartBuilder) (name filename contentType : Str) (body : List UInt8) :
    MultipartBuilder :=
  builder.addPart (Part.file name filename contentType body)

/-- A part contains the boundary. -/
def hasCollision (builder : MultipartBuilder) (boundary : Str) : Bool :=
  builder.parts.any fun p => anyWindow (Utf8.encode boundary) p.body

/-- `find_unique_boundary`. -/
def findUniqueBoundary (builder : MultipartBuilder) : Option Str :=
  uniqueBoundary builder.hasCollision builder.boundary

/-- `build`. -/
def build (builder : MultipartBuilder) : Option (List UInt8) :=
  builder.findUniqueBoundary.map fun boundary =>
    let dashBoundary := "--".toList ++ boundary
    let finalBoundary := "--".toList ++ boundary ++ "--\r\n".toList
    let buf := builder.parts.foldl (fun buf part =>
      let buf := buf ++ Utf8.encode dashBoundary ++ Utf8.encode "\r\n".toList
      let buf := putHeaders buf part.headers
      let buf := buf ++ Utf8.encode "\r\n".toList
      let buf := buf ++ part.body
      buf ++ Utf8.encode "\r\n".toList) []
    buf ++ Utf8.encode finalBoundary

end MultipartBuilder

/-! ### The body that is built -/

/-- The header lines of a part. -/
def headerLines (headers : List (Str × Str)) : List UInt8 := putHeaders [] headers

theorem putHeaders_eq (buf : List UInt8) (headers : List (Str × Str)) :
    putHeaders buf headers = buf ++ headerLines headers := by
  unfold headerLines putHeaders
  induction headers generalizing buf with
  | nil => simp
  | cons h headers ih =>
      rw [List.foldl_cons, List.foldl_cons, ih, ih (_ ++ _)]
      simp only [List.nil_append, List.append_assoc]

/-- A part, for its receiver. -/
def Part.toBodyPart (part : Part) : Mime.BodyPart where
  header := headerLines part.headers
  content := part.body

theorem encode_crlf : Utf8.encode "\r\n".toList = Mime.crlf := by decide

theorem encode_dashes : Utf8.encode "--".toList = Mime.dashes := by decide

theorem encode_final (boundary : Str) :
    Utf8.encode ("--".toList ++ boundary ++ "--\r\n".toList)
      = Mime.assemble (Utf8.encode boundary) [] := by
  have hend : Utf8.encode "--\r\n".toList = Mime.dashes ++ Mime.crlf := by decide
  rw [Utf8.encode_append, Utf8.encode_append, encode_dashes, hend, Mime.assemble,
    List.append_assoc, List.append_assoc, List.append_assoc]

/-- The builder writes the multipart body under the boundary it finds. -/
theorem MultipartBuilder.build_eq (builder : MultipartBuilder) :
    builder.build = builder.findUniqueBoundary.map fun boundary =>
      Mime.assemble (Utf8.encode boundary) (builder.parts.map Part.toBodyPart) := by
  unfold build
  congr 1
  funext boundary
  simp only [encode_final]
  simp only [encode_crlf, putHeaders_eq, Utf8.encode_append, encode_dashes]
  -- the buffer is generalised: each turn of the loop appends one part to it
  suffices h : ∀ (parts : List Part) (buf : List UInt8),
      parts.foldl (fun buf part => buf ++ (Mime.dashes ++ Utf8.encode boundary) ++ Mime.crlf ++
        headerLines part.headers ++ Mime.crlf ++ part.body ++ Mime.crlf) buf
          ++ Mime.assemble (Utf8.encode boundary) []
        = buf ++ Mime.assemble (Utf8.encode boundary) (parts.map Part.toBodyPart) from h _ []
  intro parts
  induction parts with
  | nil => intro buf; rfl
  | cons p parts ih =>
      intro buf
      rw [List.foldl_cons, ih, List.map_cons, Mime.assemble]
      simp only [Part.toBodyPart, List.append_assoc]

/-! ### What is announced -/

/-- The boundary a content type announces. -/
def boundaryParam (contentType : Str) : Option Str :=
  stripPfx "multipart/form-data; boundary=".toList contentType

/-- The body has these parts under the boundary that the content type announces. -/
def Announces (contentType : Str) (parts : List Mime.BodyPart) (body : List UInt8) : Prop :=
  ∃ boundary ∈ boundaryParam contentType, body = Mime.assemble (Utf8.encode boundary) parts

theorem boundaryParam_contentTypeOf (boundary : Str) :
    boundaryParam (contentTypeOf boundary) = some boundary :=
  stripPfx_eq_some_iff.2 rfl

/-- A byte that a number is written with neither ends a line nor is a hyphen. -/
theorem encode_longer (stored : Str) (n : ℕ) :
    ∃ b rest, b ≠ 0x0D ∧ b ≠ 0x2D ∧
      Utf8.encode (stored ++ formatHex 4 n) = Utf8.encode stored ++ b :: rest := by
  have hlen := width_le_length_formatHex 4 n
  cases hhex : formatHex 4 n with
  | nil =>
      rw [hhex] at hlen
      cases hlen
  | cons c cs =>
      obtain ⟨d, hd, rfl⟩ := mem_formatHex (c := c) (by rw [hhex]; exact List.mem_cons_self)
      have hbyte : ∀ d < 16, Utf8.IsAscii (hexLower d) ∧ (hexLower d).val.toUInt8 ≠ 0x0D ∧
          (hexLower d).val.toUInt8 ≠ 0x2D := by
        decide
      obtain ⟨hascii, hcr, hdash⟩ := hbyte d hd
      refine ⟨(hexLower d).val.toUInt8, Utf8.encode cs, hcr, hdash, ?_⟩
      rw [Utf8.encode_append, Utf8.encode_cons, hascii.encode]
      rfl

/-- Nothing that begins with the dashes and a longer boundary is the start of the announced body. -/
theorem not_initial_of_suffixed {stored : Str} {n : ℕ} {s : List UInt8}
    (hs : Mime.dashes ++ Utf8.encode (stored ++ formatHex 4 n) <+: s) (ps : List Mime.BodyPart) :
    ¬ s <+: Mime.assemble (Utf8.encode stored) ps := by
  obtain ⟨b, rest, hcr, hdash, heq⟩ := encode_longer stored n
  refine Mime.not_initial_of_longer hcr hdash (.trans ?_ hs) ps
  rw [heq]
  exact ⟨rest, by simp⟩

theorem dashes_boundary_initial (boundary : List UInt8) (ps : List Mime.BodyPart) :
    Mime.dashes ++ boundary <+: Mime.assemble boundary ps := by
  obtain ⟨b, rest, heq, -⟩ := Mime.assemble_head boundary ps
  exact ⟨b :: rest, heq.symm⟩

theorem MultipartBuilder.hasCollision_eq_false_iff {builder : MultipartBuilder} {boundary : Str} :
    builder.hasCollision boundary = false ↔
      ∀ part ∈ builder.parts, ¬ Utf8.encode boundary <:+: part.body := by
  simp only [hasCollision, List.any_eq_false, anyWindow_iff]

/-- The content type announces the boundary of the body exactly when no part contains it. -/
theorem MultipartBuilder.announces_iff (builder : MultipartBuilder) :
    (∃ body, builder.build = some body ∧
        Announces builder.contentType (builder.parts.map Part.toBodyPart) body)
      ↔ ∀ part ∈ builder.parts, ¬ Utf8.encode builder.boundary <:+: part.body := by
  rw [← hasCollision_eq_false_iff, build_eq]
  constructor
  · rintro ⟨body, hbuild, boundary, hparam, hbody⟩
    rw [contentType, boundaryParam_contentTypeOf] at hparam
    cases hparam
    obtain ⟨found, hfound, rfl⟩ := Option.map_eq_some_iff.1 hbuild
    obtain ⟨hfree, rfl | ⟨-, n, rfl⟩⟩ := uniqueBoundary_cases hfound
    · exact hfree
    -- the body begins with the longer boundary, which the announced one is not
    · have hlonger := dashes_boundary_initial (Utf8.encode (builder.boundary ++ formatHex 4 n))
        (builder.parts.map Part.toBodyPart)
      exact absurd (by rw [hbody]) (not_initial_of_suffixed hlonger _)
  · intro hfree
    refine ⟨_, by rw [findUniqueBoundary, uniqueBoundary_of_free hfree]; rfl, _, ?_, rfl⟩
    exact boundaryParam_contentTypeOf _

end OxiHttp
