/-
**Decompressing a gzip body.**

`bounded_gzip_decompress` skips the header of the body, decompresses what follows into a buffer of
bounded size, and compares the result with the checksum and the length in the last eight bytes of
the body.  `inflate_into` is code outside the repository and a parameter: it is given the input and
the size of the buffer, and returns what it wrote, or an error.  The checksum also comes from outside
the repository, and is taken to be the one of RFC 1952.  A buffer is a vector of zeros, and asking
for one beyond `isize::MAX` is a panic; the cap is not checked for that.

Main definitions:

* `OxiHttp.gzipDeflatePayloadStart` — where the compressed content begins;
* `OxiHttp.boundedInflate`, `OxiHttp.boundedGzipDecompress` — the decompression;
* `OxiHttp.Arrives` — a content, when that is allowed, or else an error;
* `OxiHttp.Affords` — the caps under which no buffer for a content is too long;
* `OxiHttp.Inflates` — what is relied on of `inflate_into`.

Main results:

* `OxiHttp.gzipDeflatePayloadStart_encode` — a header is skipped, whatever follows it;
* `OxiHttp.boundedInflate_arrives`, `OxiHttp.boundedInflate_eq_ok` — what becomes of the two
  attempts, and when there is no panic;
* `OxiHttp.boundedInflate_inflates` — of a compressed content.
-/

import Mathlib.Data.List.GetD
import OxiHttp.BigEndian
import OxiHttp.Error
import OxiHttp.Gzip

set_option relaxedAutoImplicit false
set_option autoImplicit false

namespace OxiHttp

/-! ### The header -/

/-- `FEXTRA`: a length of two bytes and that many bytes. -/
def skipExtra (flg : UInt8) (data : List UInt8) (pos : ℕ) : Except OxiHttpError ℕ :=
  if flg &&& 0x04 ≠ 0 then
    if data.length < pos + 2 then .error (.body "gzip: truncated FEXTRA length")
    else
      let xlen := LittleEndian.ofBytes [data.getD pos 0, data.getD (pos + 1) 0]
      if 2 ^ 64 ≤ pos + 2 + xlen then .error (.body "gzip: FEXTRA length overflow")
      else if data.length < pos + 2 + xlen then .error (.body "gzip: truncated FEXTRA data")
      else .ok (pos + 2 + xlen)
  else .ok pos

/-- The loop that looks for the end of a text. -/
def scanText : List UInt8 → ℕ → ℕ
  | b :: bs, pos => if b ≠ 0 then scanText bs (pos + 1) else pos
  | [], pos => pos

/-- `FNAME` and `FCOMMENT`: a text that ends with a zero. -/
def skipText (bit : UInt8) (field : String) (flg : UInt8) (data : List UInt8) (pos : ℕ) :
    Except OxiHttpError ℕ :=
  if flg &&& bit ≠ 0 then
    let pos := scanText (data.drop pos) pos
    if data.length ≤ pos then .error (.body ("gzip: truncated " ++ field)) else .ok (pos + 1)
  else .ok pos

/-- `FNAME`. -/
def skipName : UInt8 → List UInt8 → ℕ → Except OxiHttpError ℕ := skipText 0x08 "FNAME"

/-- `FCOMMENT`. -/
def skipComment : UInt8 → List UInt8 → ℕ → Except OxiHttpError ℕ := skipText 0x10 "FCOMMENT"

/-- `FHCRC`: two bytes. -/
def skipHcrc (flg : UInt8) (data : List UInt8) (pos : ℕ) : Except OxiHttpError ℕ :=
  if flg &&& 0x02 ≠ 0 then
    if data.length < pos + 2 then .error (.body "gzip: truncated FHCRC") else .ok (pos + 2)
  else .ok pos

/-- `gzip_deflate_payload_start`. -/
def gzipDeflatePayloadStart (data : List UInt8) : Except OxiHttpError ℕ := do
  if data.length < 10 then .error (.body "gzip: stream too short")
  else if data.getD 0 0 ≠ 0x1F ∨ data.getD 1 0 ≠ 0x8B then .error (.body "gzip: bad magic bytes")
  else if data.getD 2 0 ≠ 8 then
    .error (.body ("gzip: unsupported compression method " ++ toString (data.getD 2 0).toNat))
  else
    let flg := data.getD 3 0
    let pos ← skipExtra flg data 10
    let pos ← skipName flg data pos
    let pos ← skipComment flg data pos
    let pos ← skipHcrc flg data pos
    if data.length < pos then .error (.body "gzip: header extends past end of data")
    else .ok pos

/-! ### A header and what follows it -/

section Header

open Gzip

/-- The loop stops at the zero that ends a text. -/
theorem scanText_text {t : List UInt8} (ht : (0 : UInt8) ∉ t) (rest : List UInt8) (pos : ℕ) :
    scanText (t ++ 0 :: rest) pos = pos + t.length := by
  induction t generalizing pos with
  | nil => simp [scanText]
  | cons b t ih =>
      obtain ⟨hb, ht⟩ := List.ne_and_not_mem_of_not_mem_cons ht
      rw [List.cons_append, scanText, if_pos (Ne.symm hb), ih ht, List.length_cons]
      omega

theorem skipExtra_append (h : Header) (front rest : List UInt8) (hp : front.length ≤ 10) :
    skipExtra h.flags (front ++ (h.extraBytes ++ rest)) front.length =
      .ok (front.length + h.extraBytes.length) := by
  rw [skipExtra, Header.extraBytes]
  cases he : h.extra with
  | none =>
      have hf : ¬ (h.flags &&& 0x04 ≠ 0) := by simp [(Header.flags_bits h).2.1, he]
      rw [if_neg hf]
      rfl
  | some e =>
      have hf : h.flags &&& 0x04 ≠ 0 := by simp [(Header.flags_bits h).2.1, he]
      have hs : e.length < 65536 := h.extra_short e he
      have hx : LittleEndian.ofBytes [UInt8.ofNat e.length, UInt8.ofNat (e.length / 256)] =
          e.length :=
        (LittleEndian.ofBytes_toBytes 2 e.length).trans (Nat.mod_eq_of_lt hs)
      rw [if_pos hf]
      have h₀ : (front ++ (LittleEndian.toBytes 2 e.length ++ e ++ rest)).getD front.length 0 =
          UInt8.ofNat e.length := by
        rw [List.getD_append_right _ _ _ _ le_rfl, Nat.sub_self]
        rfl
      have h₁ : (front ++ (LittleEndian.toBytes 2 e.length ++ e ++ rest)).getD
          (front.length + 1) 0 = UInt8.ofNat (e.length / 256) := by
        rw [List.getD_append_right _ _ _ _ (Nat.le_add_right _ _), Nat.add_sub_cancel_left]
        rfl
      simp only [h₀, h₁, hx, List.length_append, LittleEndian.length_toBytes]
      rw [if_neg (by omega), if_neg (by omega), if_neg (by omega)]
      simp only [Except.ok.injEq]
      omega

theorem skipText_append {bit flg : UInt8} {t : Option (List UInt8)}
    (hb : flg &&& bit ≠ 0 ↔ t.isSome = true) (ht : ∀ n ∈ t, (0 : UInt8) ∉ n) (field : String)
    (front rest : List UInt8) :
    skipText bit field flg (front ++ (textBytes t ++ rest)) front.length =
      .ok (front.length + (textBytes t).length) := by
  rw [skipText]
  cases t with
  | none =>
      rw [if_neg (by simp [hb])]
      rfl
  | some n =>
      rw [if_pos (by simp [hb])]
      simp only [textBytes, List.drop_left, List.append_assoc, List.singleton_append,
        scanText_text (ht n rfl), List.length_append, List.length_cons]
      rw [if_neg (by omega)]
      simp only [List.length_nil, zero_add, Nat.add_assoc]

theorem skipHcrc_append (h : Header) (front rest : List UInt8) :
    skipHcrc h.flags (front ++ (h.checkBytes ++ rest)) front.length =
      .ok (front.length + h.checkBytes.length) := by
  rw [skipHcrc, Header.checkBytes]
  by_cases hc : h.checked = true
  · have hlen : ¬ (front ++ (LittleEndian.toBytes 2 (Crc32.crc32 h.body).toNat ++ rest)).length <
        front.length + 2 := by
      rw [List.length_append, List.length_append, LittleEndian.length_toBytes]
      omega
    rw [if_pos ((Header.flags_bits h).1.2 hc), if_pos hc, if_neg hlen, LittleEndian.length_toBytes]
  · rw [if_neg (mt (Header.flags_bits h).1.1 hc), if_neg hc]
    rfl

/-- A header is skipped, whatever follows it. -/
theorem gzipDeflatePayloadStart_encode (h : Header) (rest : List UInt8) :
    gzipDeflatePayloadStart (h.encode ++ rest) = .ok h.encode.length := by
  -- Each step is taken on the whole body: what is in front of its field has been skipped.
  obtain ⟨-, -, hname, hcomment⟩ := Header.flags_bits h
  generalize hdata : h.encode ++ rest = data
  have hlen : h.encode.length ≤ data.length := by
    rw [← hdata, List.length_append]
    exact Nat.le_add_right _ _
  have h₁ : skipExtra h.flags data h.fixed.length = .ok (h.fixed ++ h.extraBytes).length := by
    have := skipExtra_append h h.fixed
      (textBytes h.name ++ textBytes h.comment ++ h.checkBytes ++ rest) (le_of_eq h.length_fixed)
    simpa [← hdata, Header.encode, Header.body] using this
  have h₂ : skipName h.flags data (h.fixed ++ h.extraBytes).length =
      .ok (h.fixed ++ h.extraBytes ++ textBytes h.name).length := by
    have := skipText_append hname h.name_text "FNAME" (h.fixed ++ h.extraBytes)
      (textBytes h.comment ++ h.checkBytes ++ rest)
    simpa [← hdata, Header.encode, Header.body, Nat.add_assoc, skipName] using this
  have h₃ : skipComment h.flags data (h.fixed ++ h.extraBytes ++ textBytes h.name).length =
      .ok h.body.length := by
    have := skipText_append hcomment h.comment_text "FCOMMENT"
      (h.fixed ++ h.extraBytes ++ textBytes h.name) (h.checkBytes ++ rest)
    simpa [← hdata, Header.encode, Header.body, Nat.add_assoc, skipComment] using this
  have h₄ : skipHcrc h.flags data h.body.length = .ok h.encode.length := by
    have := skipHcrc_append h h.body rest
    simpa [← hdata, Header.encode] using this
  obtain ⟨hid1, hid2, hcm, hflg⟩ : data.getD 0 0 = 0x1F ∧ data.getD 1 0 = 0x8B ∧
      data.getD 2 0 = 8 ∧ data.getD 3 0 = h.flags := by
    rw [← hdata]
    exact ⟨rfl, rfl, rfl, rfl⟩
  have h₁₀ : 10 ≤ h.encode.length := by
    rw [← h.length_fixed]
    simp [Header.encode, Header.body]
  rw [Header.length_fixed] at h₁
  have hnot : ¬ (data.getD 0 0 ≠ 0x1F ∨ data.getD 1 0 ≠ 0x8B) := by simp only [hid1, hid2]; decide
  rw [gzipDeflatePayloadStart, if_neg (by omega), if_neg hnot, if_neg (by simp only [hcm]; decide)]
  simp only [hflg, h₁, h₂, h₃, h₄, bind, Except.bind, if_neg (not_lt.2 hlen)]

end Header

/-! ### The content -/

/-- `vec![0u8; n]`. -/
def zeroedVec (n : ℕ) : Except Panic Unit := if n < 2 ^ 63 then .ok () else .error .capacity

/-- `first_try`, the size of the buffer at the first attempt. -/
def firstTry (src : List UInt8) (cap : ℕ) : ℕ :=
  min (max (min (src.length * 8) (2 ^ 64 - 1)) 8192) cap

/-- `bounded_inflate`: a first attempt with a small buffer, and a second one with all that is
allowed. -/
def boundedInflate (decode : List UInt8 → ℕ → Except OxiHttpError (List UInt8)) (src : List UInt8)
    (cap : ℕ) : Except Panic (Except OxiHttpError (List UInt8)) := do
  zeroedVec (firstTry src cap)
  match decode src (firstTry src cap) with
  | .ok buf => return .ok buf
  | .error firstErr =>
    if cap ≤ firstTry src cap then return .error firstErr
    else
      zeroedVec cap
      return decode src cap

/-- A number as `{:#010x}` prints it. -/
def hex10 (n : UInt32) : String :=
  "0x" ++ String.ofList ((BigEndian.toBytes 4 n.toNat).flatMap fun b =>
    [Nat.digitChar (b.toNat / 16), Nat.digitChar (b.toNat % 16)])

/-- `inflate_into` with the error text of the gzip decompression. -/
def gzipInflate (inflateInto : List UInt8 → ℕ → Except String (List UInt8)) (src : List UInt8)
    (n : ℕ) : Except OxiHttpError (List UInt8) :=
  (inflateInto src n).mapError fun e => .body ("gzip decompression error: " ++ e)

/-- The length and the checksum of what was decoded, against the ones that are expected. -/
def checkTrailer (expectedIsize expectedCrc : UInt32) (decoded : List UInt8) :
    Except OxiHttpError (List UInt8) :=
  if UInt32.ofNat decoded.length ≠ expectedIsize then
    .error (.body ("gzip: decoded length does not match the trailing ISIZE field (truncated " ++
      "body, corrupted data, or an unsupported concatenated multi-member stream)"))
  else if Crc32.crc32 decoded ≠ expectedCrc then
    .error (.body ("gzip: CRC-32 mismatch (stored " ++ hex10 expectedCrc ++ ", computed " ++
      hex10 (Crc32.crc32 decoded) ++ "): response body is corrupted"))
  else .ok decoded

/-- `bounded_gzip_decompress`. -/
def boundedGzipDecompress (inflateInto : List UInt8 → ℕ → Except String (List UInt8))
    (raw : List UInt8) (cap : ℕ) : Except Panic (Except OxiHttpError (List UInt8)) :=
  match gzipDeflatePayloadStart raw with
  | .error e => .ok (.error e)
  | .ok deflateStart =>
    if raw.length < deflateStart + 8 then .ok (.error (.body "gzip: missing trailer"))
    else
      let trailer := raw.drop (raw.length - 8)
      let expectedCrc := UInt32.ofNat (LittleEndian.ofBytes (trailer.take 4))
      let expectedIsize := UInt32.ofNat (LittleEndian.ofBytes (trailer.drop 4))
      (boundedInflate (gzipInflate inflateInto) (raw.drop deflateStart) cap).map fun decoded =>
        decoded.bind (checkTrailer expectedIsize expectedCrc)

/-! ### The two attempts -/

/-- A content, when that is allowed, or else an error. -/
def Arrives (allowed : Prop) (content : List UInt8) (r : Except OxiHttpError (List UInt8)) : Prop :=
  (allowed → r = .ok content) ∧ (¬ allowed → ∃ e, r = .error e)

/-- Only one content arrives. -/
theorem not_arrives_of_ok {allowed : Prop} {content bs : List UInt8}
    {r : Except OxiHttpError (List UInt8)} (h : r = .ok bs) (hne : bs ≠ content) :
    ¬ Arrives allowed content r := by
  rintro ⟨hyes, hno⟩
  by_cases ha : allowed
  · rw [hyes ha, Except.ok.injEq] at h
    exact hne h.symm
  · obtain ⟨e, he⟩ := hno ha
    rw [he] at h
    cases h

/-- The caps under which no buffer that is tried for a content of this length is beyond
`isize::MAX`. -/
def Affords (src : List UInt8) (cap len : ℕ) : Prop :=
  cap < 2 ^ 63 ∨ firstTry src cap < 2 ^ 63 ∧ len ≤ firstTry src cap

theorem firstTry_le (src : List UInt8) (cap : ℕ) : firstTry src cap ≤ cap := min_le_right _ _

/-- There is a buffer for the first attempt. -/
theorem Affords.firstTry_lt {src : List UInt8} {cap len : ℕ} (h : Affords src cap len) :
    firstTry src cap < 2 ^ 63 :=
  h.elim (lt_of_le_of_lt (firstTry_le src cap)) And.left

/-- And one for the second, when the content does not fit the first. -/
theorem Affords.cap_lt {src : List UInt8} {cap len : ℕ} (h : Affords src cap len)
    (hlarge : firstTry src cap < len) : cap < 2 ^ 63 :=
  h.resolve_right fun hsmall => absurd hsmall.2 (Nat.not_le.2 hlarge)

theorem zeroedVec_of_lt {n : ℕ} (h : n < 2 ^ 63) : zeroedVec n = .ok () := if_pos h

section BoundedInflate

variable {decode : List UInt8 → ℕ → Except OxiHttpError (List UInt8)} {src c : List UInt8}
  {cap : ℕ}

/-- The first attempt gives a result. -/
theorem boundedInflate_ok (hbuffer : firstTry src cap < 2 ^ 63)
    (h : decode src (firstTry src cap) = .ok c) : boundedInflate decode src cap = .ok (.ok c) := by
  rw [boundedInflate, zeroedVec_of_lt hbuffer, h]
  rfl

/-- The first attempt fails, and what comes then depends on the cap. -/
theorem boundedInflate_failed {e : OxiHttpError} (hbuffer : firstTry src cap < 2 ^ 63)
    (h : decode src (firstTry src cap) = .error e) :
    boundedInflate decode src cap =
      if cap ≤ firstTry src cap then .ok (.error e)
      else (zeroedVec cap).map fun _ => decode src cap := by
  rw [boundedInflate, zeroedVec_of_lt hbuffer, h]
  rfl

/-- Without a panic the second attempt then gives the result. -/
theorem eq_of_boundedInflate_failed {e : OxiHttpError} {r : Except OxiHttpError (List UInt8)}
    (hr : boundedInflate decode src cap = .ok r) (hbuffer : firstTry src cap < 2 ^ 63)
    (h : decode src (firstTry src cap) = .error e) (hlt : firstTry src cap < cap) :
    r = decode src cap := by
  rw [boundedInflate_failed hbuffer h, if_neg (Nat.not_le.2 hlt), zeroedVec] at hr
  split_ifs at hr
  · exact (Except.ok.inj hr).symm
  · cases hr

/-- When both attempts give the content where it fits and fail where it does not, so does the
whole. -/
theorem boundedInflate_arrives (hafford : Affords src cap c.length)
    (hfirst : Arrives (c.length ≤ firstTry src cap) c (decode src (firstTry src cap)))
    (hcap : Arrives (c.length ≤ cap) c (decode src cap)) :
    ∃ r, boundedInflate decode src cap = .ok r ∧ Arrives (c.length ≤ cap) c r := by
  by_cases hsmall : c.length ≤ firstTry src cap
  · have hok := boundedInflate_ok hafford.firstTry_lt (hfirst.1 hsmall)
    exact ⟨.ok c, hok, fun _ => rfl, fun h => absurd (hsmall.trans (firstTry_le src cap)) h⟩
  · obtain ⟨e, he⟩ := hfirst.2 hsmall
    have hfailed := boundedInflate_failed hafford.firstTry_lt he
    by_cases hle : cap ≤ firstTry src cap
    · rw [if_pos hle] at hfailed
      exact ⟨.error e, hfailed, fun h => absurd (h.trans hle) hsmall, fun _ => ⟨e, rfl⟩⟩
    · rw [if_neg hle, zeroedVec_of_lt (hafford.cap_lt (Nat.lt_of_not_le hsmall))] at hfailed
      exact ⟨decode src cap, hfailed, hcap⟩

/-- Without a panic the first attempt had its buffer and gave the result, or the cap is no longer
than a buffer may be. -/
theorem boundedInflate_eq_ok {r : Except OxiHttpError (List UInt8)}
    (h : boundedInflate decode src cap = .ok r) :
    firstTry src cap < 2 ^ 63 ∧
      ((∃ d, decode src (firstTry src cap) = .ok d ∧ r = .ok d) ∨ cap < 2 ^ 63) := by
  have hbuffer : firstTry src cap < 2 ^ 63 := by
    by_contra hlong
    rw [boundedInflate, zeroedVec, if_neg hlong] at h
    cases h
  refine ⟨hbuffer, ?_⟩
  cases hfirst : decode src (firstTry src cap) with
  | ok d =>
      rw [boundedInflate_ok hbuffer hfirst, Except.ok.injEq] at h
      exact .inl ⟨d, rfl, h.symm⟩
  | error e =>
      right
      rw [boundedInflate_failed hbuffer hfirst] at h
      by_cases hle : cap ≤ firstTry src cap
      · exact hle.trans_lt hbuffer
      · by_contra hlong
        rw [if_neg hle, zeroedVec, if_neg hlong] at h
        cases h

/-- So the buffers can be had, when no attempt gives more than its buffer holds. -/
theorem affords_of_eq_ok {r : Except OxiHttpError (List UInt8)}
    (h : boundedInflate decode src cap = .ok r)
    (hfits : ∀ d, decode src (firstTry src cap) = .ok d → r = .ok d →
      c.length ≤ firstTry src cap) : Affords src cap c.length := by
  obtain ⟨hbuffer, ⟨d, hd, hr⟩ | hcap⟩ := boundedInflate_eq_ok h
  · exact .inr ⟨hbuffer, hfits d hd hr⟩
  · exact .inl hcap

end BoundedInflate

/-! ### What `inflate_into` gives -/

/-- What is relied on of `inflate_into`: it decompresses the content at the start of its input,
ignores what follows, and fails when the result does not fit. -/
structure Inflates (IsDeflate : List UInt8 → List UInt8 → Prop)
    (inflateInto : List UInt8 → ℕ → Except String (List UInt8)) : Prop where
  fits : ∀ {d c : List UInt8} {n : ℕ}, IsDeflate d c → c.length ≤ n → ∀ rest : List UInt8,
    inflateInto (d ++ rest) n = .ok c
  exceeds : ∀ {d c : List UInt8} {n : ℕ}, IsDeflate d c → n < c.length → ∀ rest : List UInt8,
    ∃ e : String, inflateInto (d ++ rest) n = .error e

section Inflates

variable {IsDeflate : List UInt8 → List UInt8 → Prop}
  {inflateInto : List UInt8 → ℕ → Except String (List UInt8)}
  (hi : Inflates IsDeflate inflateInto) {d c : List UInt8} (hd : IsDeflate d c)
include hi hd

/-- What an attempt makes of a compressed content. -/
theorem gzipInflate_arrives (rest : List UInt8) (n : ℕ) :
    Arrives (c.length ≤ n) c (gzipInflate inflateInto (d ++ rest) n) := by
  constructor
  · intro hn
    rw [gzipInflate, hi.fits hd hn rest]
    rfl
  · intro hn
    obtain ⟨e, he⟩ := hi.exceeds hd (Nat.lt_of_not_le hn) rest
    exact ⟨.body ("gzip decompression error: " ++ e), by rw [gzipInflate, he]; rfl⟩

/-- The two attempts give the content when it fits the cap, and an error when it does not; there is
no panic exactly when the buffers can be had. -/
theorem boundedInflate_inflates (rest : List UInt8) (cap : ℕ) :
    (Affords (d ++ rest) cap c.length →
        ∃ r, boundedInflate (gzipInflate inflateInto) (d ++ rest) cap = .ok r ∧
          Arrives (c.length ≤ cap) c r) ∧
      ∀ r, boundedInflate (gzipInflate inflateInto) (d ++ rest) cap = .ok r →
        Affords (d ++ rest) cap c.length := by
  have hfirst := gzipInflate_arrives hi hd rest (firstTry (d ++ rest) cap)
  refine ⟨fun hafford =>
    boundedInflate_arrives hafford hfirst (gzipInflate_arrives hi hd rest cap), fun r hr => ?_⟩
  refine affords_of_eq_ok hr fun bs hbs _ => ?_
  by_contra hlarge
  obtain ⟨e, he⟩ := hfirst.2 hlarge
  rw [he] at hbs
  cases hbs

end Inflates

end OxiHttp
