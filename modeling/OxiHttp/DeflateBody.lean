/-
**Decompressing a deflate body.**

`bounded_deflate_decompress` decompresses a body into a buffer of bounded size: at each of the two
attempts it tries the zlib format, and DEFLATE alone when that fails.  At the first attempt the zlib
format also fails when the content does not fit the small buffer, and then the body is read as
DEFLATE alone although it is a zlib stream.  `zlib_decompress_into` and `inflate_into` are code
outside the repository and parameters.

Main definitions:

* `OxiHttp.boundedDeflateDecompress` — the decompression;
* `OxiHttp.DecodesInto` — what is relied on of the two decoders;
* `OxiHttp.AsUnbounded` — a result that is the one of the decoders without a bound;
* `OxiHttp.Misread` — the bodies that the first attempt takes for DEFLATE alone;
* `OxiHttp.BuffersFor` — the caps under which no buffer for the content is too long.

Main results:

* `OxiHttp.boundedDeflateDecompress_asUnbounded_iff` — the results that are the ones without a
  bound;
* `OxiHttp.not_asUnbounded_ambiguous` — a body that is misread.
-/

import OxiHttp.Deflate
import OxiHttp.GzipBody

set_option relaxedAutoImplicit false
set_option autoImplicit false

namespace OxiHttp

/-- The decoders of a deflate body: the zlib format, or else DEFLATE alone. -/
def deflateInflate (zlibDecompressInto inflateInto : List UInt8 → ℕ → Except String (List UInt8))
    (src : List UInt8) (n : ℕ) : Except OxiHttpError (List UInt8) :=
  ((zlibDecompressInto src n).tryCatch fun _ => inflateInto src n).mapError fun e =>
    .body ("deflate decompression error: " ++ e)

/-- `bounded_deflate_decompress`. -/
def boundedDeflateDecompress
    (zlibDecompressInto inflateInto : List UInt8 → ℕ → Except String (List UInt8))
    (raw : List UInt8) (cap : ℕ) : Except Panic (Except OxiHttpError (List UInt8)) :=
  boundedInflate (deflateInflate zlibDecompressInto inflateInto) raw cap

/-! ### What the decoders give -/

/-- What is relied on of a decoder: it gives the whole content of a stream exactly when the buffer
is large enough. -/
structure DecodesInto (decode : List UInt8 → Option (List UInt8))
    (into : List UInt8 → ℕ → Except String (List UInt8)) : Prop where
  fits : ∀ {src c : List UInt8} {n : ℕ}, decode src = some c → c.length ≤ n → into src n = .ok c
  exceeds : ∀ {src c : List UInt8} {n : ℕ}, decode src = some c → n < c.length →
    ∃ e : String, into src n = .error e
  invalid : ∀ {src : List UInt8}, decode src = none → ∀ n, ∃ e : String, into src n = .error e

/-- A decoder that reads streams also reads those that something follows. -/
theorem inflates_of_decodesInto {deflate : List UInt8 → Option (List UInt8)}
    {inflateInto : List UInt8 → ℕ → Except String (List UInt8)}
    (hi : DecodesInto deflate inflateInto) :
    Inflates (fun d c => ∀ rest, deflate (d ++ rest) = some c) inflateInto where
  fits h hn rest := hi.fits (h rest) hn
  exceeds h hn rest := hi.exceeds (h rest) hn

/-- A result that is the one without a bound, when that is within the cap: the zlib content, or else
the one of DEFLATE alone. -/
def AsUnbounded (zlib deflate : List UInt8 → Option (List UInt8)) (raw : List UInt8) (cap : ℕ)
    (r : Except Panic (Except OxiHttpError (List UInt8))) : Prop :=
  ∀ c, (zlib raw).or (deflate raw) = some c → c.length ≤ cap → r = .ok (.ok c)

/-- A zlib stream whose content fits the cap but not the first buffer, and that is also DEFLATE
alone, of a content that fits the first buffer. -/
def Misread (zlib deflate : List UInt8 → Option (List UInt8)) (raw : List UInt8) (cap : ℕ) : Prop :=
  ∃ c d, zlib raw = some c ∧ deflate raw = some d ∧ firstTry raw cap < c.length ∧
    c.length ≤ cap ∧ d.length ≤ firstTry raw cap

/-- The buffers that are tried for the content can be had, when it fits the cap. -/
def BuffersFor (zlib deflate : List UInt8 → Option (List UInt8)) (raw : List UInt8) (cap : ℕ) :
    Prop :=
  ∀ c, (zlib raw).or (deflate raw) = some c → c.length ≤ cap → Affords raw cap c.length

section DecodesInto

variable {zlib deflate : List UInt8 → Option (List UInt8)}
  {zlibInto inflateInto : List UInt8 → ℕ → Except String (List UInt8)}
  (hz : DecodesInto zlib zlibInto) (hi : DecodesInto deflate inflateInto)
  {raw c d : List UInt8} {n : ℕ}

/-- The zlib content comes back when it fits the buffer. -/
theorem deflateInflate_zlib (inflateInto : List UInt8 → ℕ → Except String (List UInt8))
    (hz : DecodesInto zlib zlibInto) (hc : zlib raw = some c) (hn : c.length ≤ n) :
    deflateInflate zlibInto inflateInto raw n = .ok c := by
  rw [deflateInflate, hz.fits hc hn]
  rfl

include hz

/-- The zlib format fails on what is no zlib stream, and on one whose content does not fit. -/
theorem zlibInto_error (h : ∀ c, zlib raw = some c → n < c.length) :
    ∃ e, zlibInto raw n = .error e := by
  cases hc : zlib raw with
  | none => exact hz.invalid hc n
  | some c => exact hz.exceeds hc (h c hc)

include hi

/-- Then the content of DEFLATE alone comes back when it fits. -/
theorem deflateInflate_raw (h : ∀ c, zlib raw = some c → n < c.length) (hd : deflate raw = some d)
    (hn : d.length ≤ n) : deflateInflate zlibInto inflateInto raw n = .ok d := by
  obtain ⟨e, he⟩ := zlibInto_error hz h
  rw [deflateInflate, he]
  simp only [Except.tryCatch, hi.fits hd hn]
  rfl

/-- And there is an error when neither of the two is there and fits. -/
theorem deflateInflate_error (h : ∀ c, zlib raw = some c → n < c.length)
    (hd : ∀ d, deflate raw = some d → n < d.length) :
    ∃ e, deflateInflate zlibInto inflateInto raw n = .error e := by
  obtain ⟨e, he⟩ := zlibInto_error hz h
  obtain ⟨e', he'⟩ := zlibInto_error hi hd
  refine ⟨.body ("deflate decompression error: " ++ e'), ?_⟩
  rw [deflateInflate, he]
  simp only [Except.tryCatch, he']
  rfl

/-- What is given is no longer than the buffer. -/
theorem length_le_of_deflateInflate {bs : List UInt8}
    (h : deflateInflate zlibInto inflateInto raw n = .ok bs) : bs.length ≤ n := by
  by_cases hfits : ∃ c, zlib raw = some c ∧ c.length ≤ n
  · obtain ⟨c, hc, hn⟩ := hfits
    rw [deflateInflate_zlib inflateInto hz hc hn, Except.ok.injEq] at h
    rwa [← h]
  · have hlarge : ∀ c, zlib raw = some c → n < c.length := by
      intro c hc
      by_contra hn
      exact hfits ⟨c, hc, Nat.le_of_not_lt hn⟩
    by_cases hraw : ∃ d, deflate raw = some d ∧ d.length ≤ n
    · obtain ⟨d, hd, hn⟩ := hraw
      rw [deflateInflate_raw hz hi hlarge hd hn, Except.ok.injEq] at h
      rwa [← h]
    · obtain ⟨e, he⟩ := deflateInflate_error hz hi hlarge fun d hd => by
        by_contra hn
        exact hraw ⟨d, hd, Nat.le_of_not_lt hn⟩
      rw [he] at h
      cases h

/-- A body that is misread gives the content of DEFLATE alone, if anything. -/
theorem boundedDeflateDecompress_misread (hc : zlib raw = some c) (hd : deflate raw = some d)
    {cap : ℕ} (hlarge : firstTry raw cap < c.length) (hsmall : d.length ≤ firstTry raw cap)
    {r : Except OxiHttpError (List UInt8)}
    (h : boundedDeflateDecompress zlibInto inflateInto raw cap = .ok r) : r = .ok d := by
  have hlarge' : ∀ c', zlib raw = some c' → firstTry raw cap < c'.length := by
    intro c' hc'
    rw [hc, Option.some.injEq] at hc'
    rwa [← hc']
  have hfirst := deflateInflate_raw hz hi hlarge' hd hsmall
  obtain ⟨hbuffer, -⟩ := boundedInflate_eq_ok h
  have hok := (boundedInflate_ok hbuffer hfirst).symm.trans h
  exact (Except.ok.inj hok).symm

/-- What an attempt makes of a zlib stream: it gives the content, or fails when that does not fit
and DEFLATE alone fails as well. -/
theorem deflateInflate_arrives (hc : zlib raw = some c)
    (halone : n < c.length → ∀ d, deflate raw = some d → n < d.length) :
    Arrives (c.length ≤ n) c (deflateInflate zlibInto inflateInto raw n) := by
  refine ⟨deflateInflate_zlib inflateInto hz hc, fun hn => ?_⟩
  have hlarge := Nat.lt_of_not_le hn
  refine deflateInflate_error hz hi (fun c' hc' => ?_) (halone hlarge)
  rw [hc, Option.some.injEq] at hc'
  rwa [← hc']

/-- And of a stream of DEFLATE alone. -/
theorem deflateInflate_arrives_raw (hnone : zlib raw = none) (hd : deflate raw = some d) :
    Arrives (d.length ≤ n) d (deflateInflate zlibInto inflateInto raw n) := by
  have hlarge : ∀ c, zlib raw = some c → n < c.length := by
    intro c hc
    rw [hnone] at hc
    cases hc
  refine ⟨deflateInflate_raw hz hi hlarge hd, fun hn => ?_⟩
  refine deflateInflate_error hz hi hlarge fun d' hd' => ?_
  rw [hd, Option.some.injEq] at hd'
  rw [← hd']
  exact Nat.lt_of_not_le hn

end DecodesInto

/-- **The result is the one without a bound exactly when the body is not misread and its buffers can
be had**: when it is no zlib stream whose content fits the cap but not the first buffer, and which
read as DEFLATE alone has a content that does fit; and when no buffer that is tried for its content
is beyond `isize::MAX`. -/
theorem boundedDeflateDecompress_asUnbounded_iff {zlib deflate : List UInt8 → Option (List UInt8)}
    {zlibInto inflateInto : List UInt8 → ℕ → Except String (List UInt8)}
    (hz : DecodesInto zlib zlibInto) (hi : DecodesInto deflate inflateInto) (raw : List UInt8)
    (cap : ℕ) :
    AsUnbounded zlib deflate raw cap (boundedDeflateDecompress zlibInto inflateInto raw cap) ↔
      ¬ Misread zlib deflate raw cap ∧ BuffersFor zlib deflate raw cap := by
  constructor
  · refine fun h => ⟨?_, fun c hc hcap => ?_⟩
    · rintro ⟨c, d, hc, hd, hlarge, hcap, hsmall⟩
      have hok := h c (by rw [hc]; rfl) hcap
      have heq := boundedDeflateDecompress_misread hz hi hc hd hlarge hsmall hok
      rw [Except.ok.inj heq] at hlarge
      omega
    · refine affords_of_eq_ok (h c hc hcap) fun d hd heq => ?_
      rw [Except.ok.inj heq]
      exact length_le_of_deflateInflate hz hi hd
  · rintro ⟨hnot, hbuffers⟩ c hc hcap
    -- both attempts read the body alike
    have harrives : ∀ n, n = firstTry raw cap ∨ n = cap →
        Arrives (c.length ≤ n) c (deflateInflate zlibInto inflateInto raw n) := by
      intro n hn
      cases hzlib : zlib raw with
      | some z =>
          obtain rfl : z = c := by simpa [hzlib] using hc
          refine deflateInflate_arrives hz hi hzlib fun hlarge d hd => ?_
          by_contra hsmall
          rcases hn with rfl | rfl
          · exact hnot ⟨z, d, hzlib, hd, hlarge, hcap, Nat.le_of_not_lt hsmall⟩
          · omega
      | none => exact deflateInflate_arrives_raw hz hi hzlib (by simpa [hzlib] using hc)
    obtain ⟨r, hr, hgives⟩ := boundedInflate_arrives (hbuffers c hc hcap)
      (harrives _ (.inl rfl)) (harrives cap (.inr rfl))
    rw [boundedDeflateDecompress, hr, hgives.1 hcap]

/-! ### A zlib stream that is also DEFLATE alone -/

/-- A decoder that fails when the content does not fit. -/
def intoBuffer (decode : List UInt8 → Option (List UInt8)) (src : List UInt8) (n : ℕ) :
    Except String (List UInt8) :=
  match decode src with
  | some c => if c.length ≤ n then .ok c else .error "output buffer too small"
  | none => .error "invalid data"

theorem intoBuffer_decodesInto (decode : List UInt8 → Option (List UInt8)) :
    DecodesInto decode (intoBuffer decode) where
  fits h hn := by rw [intoBuffer, h]; exact if_pos hn
  exceeds h hn := ⟨"output buffer too small", by rw [intoBuffer, h]; exact if_neg (by omega)⟩
  invalid h n := ⟨"invalid data", by rw [intoBuffer, h]⟩

/-- Two bytes in the zlib format: a stored block. -/
def storedStream : List UInt8 :=
  [0x78, 0x01, 0x01, 0x02, 0x00, 0xFD, 0xFF, 0x68, 0x69, 0x01, 0x3B, 0x00, 0xD2]

/-- Stored streams are not misread. -/
theorem asUnbounded_storedStream :
    AsUnbounded Zlib.decode Deflate.inflate storedStream 1024 (boundedDeflateDecompress
      (intoBuffer Zlib.decode) (intoBuffer Deflate.inflate) storedStream 1024) :=
  (boundedDeflateDecompress_asUnbounded_iff (intoBuffer_decodesInto _) (intoBuffer_decodesInto _)
    storedStream 1024).2 <| by
      refine ⟨?_, fun c _ _ => .inl (by decide)⟩
      rintro ⟨c, d, -, hd, -⟩
      have hnone : Deflate.inflate storedStream = none := by decide +kernel
      rw [hnone] at hd
      cases hd

/-- The beginning of a DEFLATE stream: a few bytes and thirty-two copies of 258 bytes, then the
header of a stored block. -/
def copies : List UInt8 :=
  [0x02, 0xA8, 0xFD, 0xC0, 0x28, 0x18, 0x05, 0xA3, 0x60, 0x14, 0x8C, 0x82, 0x51, 0x30, 0x0A, 0x46,
    0xC1, 0x28, 0x18, 0x05, 0xA3, 0x60, 0x14, 0x8C, 0x82, 0x51, 0x30, 0x0A, 0x46, 0xC1, 0x28,
    0x18, 0x05, 0xA3, 0x60, 0x14, 0x8C, 0x82, 0x51, 0x30, 0x0A, 0x46, 0xC1, 0x28, 0x18, 0x05,
    0xA3, 0x60, 0x14, 0x8C, 0x82, 0x51, 0x30, 0x0A, 0x46, 0x01, 0x20, 0x22, 0x02, 0xDD, 0xFD]

/-- What the stored block contains: its last five bytes are the header of a stored block of four
bytes, and the checksum behind it is what that block contains. -/
def padding : List UInt8 := List.replicate 541 0 ++ [0x01, 0x04, 0x00, 0xFB, 0xFF]

/-- A zlib stream whose first five bytes are also the header of a stored block. -/
def ambiguous : List UInt8 := [0x18, 0x57] ++ (copies ++ padding ++ [0x6F, 0x5C, 0x34, 0xAF])

/-- What the stream contains. -/
def longContent : List UInt8 := [135] ++ List.replicate 8257 192 ++ padding

/-- What it contains when it is read as DEFLATE alone. -/
def shortContent : List UInt8 :=
  copies.drop 3 ++ List.replicate 541 0 ++ [0x6F, 0x5C, 0x34, 0xAF]

theorem expand_copies : Deflate.expand ([.literal 135, .literal 192] ++
    List.replicate 32 (.copy 258 1) ++ [.stored padding]) = some longContent := by
  have hbytes : [Deflate.Token.literal 135, .literal 192].foldlM Deflate.Token.apply [] =
      some ([135] ++ [192]) := rfl
  have hrun := Deflate.foldlM_copy_one [135] 192 258 32
  have hstored : ∀ out, [Deflate.Token.stored padding].foldlM Deflate.Token.apply out =
      some (out ++ padding) := fun out => rfl
  rw [Deflate.expand, List.foldlM_append, List.foldlM_append, hbytes, Option.bind_eq_bind,
    Option.bind_some, hrun, Option.bind_some, hstored, longContent]

theorem adler32_longContent : Zlib.adler32 longContent = 0x6F5C34AF := by
  have hpad : ∀ sums, padding.foldl Zlib.step sums =
      [0x01, 0x04, 0x00, 0xFB, 0xFF].foldl Zlib.step (sums.1, sums.2 + 541 * sums.1) := by
    rintro ⟨s, t⟩
    rw [padding, List.foldl_append, Zlib.foldl_step_replicate]
    simp
  rw [Zlib.adler32, longContent, List.foldl_append, List.foldl_append, hpad]
  simp only [List.foldl_cons, List.foldl_nil, Zlib.step, Zlib.foldl_step_replicate]
  simp

theorem decode_ambiguous : Zlib.decode ambiguous = some longContent := by
  -- the tokens are read off the stream; their content is too long to be computed
  have htokens : Deflate.tokens (copies ++ padding ++ [0x6F, 0x5C, 0x34, 0xAF]) =
      some ([.literal 135, .literal 192] ++ List.replicate 32 (.copy 258 1) ++ [.stored padding],
        [0x6F, 0x5C, 0x34, 0xAF]) := by decide +kernel
  have hsum : BigEndian.ofBytes [0x6F, 0x5C, 0x34, 0xAF] = 0x6F5C34AF := by
    simp [BigEndian.ofBytes, BigEndian.ofBytesFrom]
  rw [ambiguous, List.cons_append, List.cons_append, List.nil_append, Zlib.decode,
    if_neg (by decide), htokens, Option.bind_eq_bind, Option.bind_some]
  dsimp only
  rw [expand_copies, Option.bind_eq_bind, Option.bind_some, adler32_longContent]
  exact if_neg (by simp [hsum])

/-- Read as DEFLATE alone the stream is two stored blocks. -/
theorem inflate_ambiguous : Deflate.inflate ambiguous = some shortContent := by
  have htokens : Deflate.tokens ambiguous = some ([.stored (copies.drop 3 ++ List.replicate 541 0),
      .stored [0x6F, 0x5C, 0x34, 0xAF]], []) := by decide +kernel
  have hexpand : ∀ bs bs', Deflate.expand [.stored bs, .stored bs'] = some (bs ++ bs') :=
    fun bs bs' => rfl
  rw [Deflate.inflate, htokens, Option.bind_eq_bind, Option.bind_some]
  exact hexpand _ _

/-- The stream is misread: what comes back is the content of the stored blocks. -/
theorem not_asUnbounded_ambiguous :
    DecodesInto Zlib.decode (intoBuffer Zlib.decode) ∧
      DecodesInto Deflate.inflate (intoBuffer Deflate.inflate) ∧
      ¬ AsUnbounded Zlib.decode Deflate.inflate ambiguous 65536 (boundedDeflateDecompress
        (intoBuffer Zlib.decode) (intoBuffer Deflate.inflate) ambiguous 65536) := by
  refine ⟨intoBuffer_decodesInto _, intoBuffer_decodesInto _, fun h => ?_⟩
  have hlong : longContent.length = 8804 := by
    simp [longContent, padding, -List.reduceReplicate]
  have hshort : shortContent.length = 603 := by
    simp [shortContent, copies, -List.reduceReplicate]
  have hlen : ambiguous.length = 613 := by
    simp [ambiguous, copies, padding, -List.reduceReplicate]
  have hfirst : firstTry ambiguous 65536 = 8192 := by simp [firstTry, hlen]
  have hok := h longContent (by rw [decode_ambiguous]; rfl) (by omega)
  have hmisread := boundedDeflateDecompress_misread (intoBuffer_decodesInto _)
    (intoBuffer_decodesInto _) decode_ambiguous inflate_ambiguous
    (show firstTry ambiguous 65536 < _ by omega) (by omega) hok
  have hlength := congrArg List.length (Except.ok.inj hmisread)
  omega

end OxiHttp
