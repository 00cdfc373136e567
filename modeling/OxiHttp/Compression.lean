/-
**Compressing responses.**

`Compression::apply` replaces the body of a response by a compressed one when the client accepts an
algorithm of the server, and says so in the header fields.  It gives back the response as it is
when that has no success to report, is encoded already, or is too short.

The compressors belong to another crate.  What is relied on is that the decoder of the same
algorithm gives back what they were given, when they do not report an error.

`Vary` gets the one value `Accept-Encoding`.  Whatever else was named there is lost.

Main definitions:

* `OxiHttp.Compression`, `OxiHttp.Compression.apply` — the middleware;
* `OxiHttp.Compression.Transparent` — nothing but the encoding changes.

Main results:

* `OxiHttp.Compression.transparent_iff` — when it is transparent.
-/

import OxiHttp.AcceptEncoding
import OxiHttp.FieldList
import OxiHttp.Gzip
import OxiHttp.Http

set_option relaxedAutoImplicit false
set_option autoImplicit false

namespace OxiHttp

/-! ### The middleware -/

/-- `CompressionConfig`. -/
structure CompressionConfig where
  minSize : ℕ
  algorithms : List CompressionAlgorithm
  level : ℕ
deriving DecidableEq, Repr

/-- `Compression`.  Its setters keep the level in bounds. -/
structure Compression where
  config : CompressionConfig
  level_bounds : 1 ≤ config.level ∧ config.level ≤ 9

namespace Compression

theorem defaultLevel_bounds : 1 ≤ 6 ∧ 6 ≤ 9 := by decide

/-- `Compression::new`. -/
def new : Compression where
  config := { minSize := 1024, algorithms := [.gzip, .deflate], level := 6 }
  level_bounds := defaultLevel_bounds

/-- `Compression::min_size`. -/
def minSize (c : Compression) (n : ℕ) : Compression where
  config := { c.config with minSize := n }
  level_bounds := c.level_bounds

/-- `Compression::level`. -/
def level (c : Compression) (n : ℕ) : Compression where
  config := { c.config with level := max 1 (min n 9) }
  level_bounds :=
    ⟨Nat.le_max_left 1 (min n 9), Nat.max_le.2 ⟨Nat.one_le_ofNat, Nat.min_le_right n 9⟩⟩

/-- `Compression::algorithms`. -/
def algorithms (c : Compression) (algos : List CompressionAlgorithm) : Compression where
  config := { c.config with algorithms := algos }
  level_bounds := c.level_bounds

end Compression

/-- `Response<Full<Bytes>>`. -/
structure FullResponse where
  status : ℕ
  headers : HeaderMap
  body : List UInt8
deriving DecidableEq

/-- Why there is no response: an error, or the panic of a sort. -/
inductive CompressionStop where
  | failed (e : OxiHttpError)
  | panicked
deriving DecidableEq, Repr

/-- The two compressors, of a body at a level. -/
structure Compressors where
  gzipCompress : List UInt8 → ℕ → Except String (List UInt8)
  zlibCompress : List UInt8 → ℕ → Except String (List UInt8)

/-- The compressor of an algorithm; `deflate` is with the wrapping of zlib. -/
def Compressors.compress (z : Compressors) :
    CompressionAlgorithm → List UInt8 → ℕ → Except String (List UInt8)
  | .gzip => z.gzipCompress
  | .deflate => z.zlibCompress

/-- `HeaderValue::from_str`, with the error of the middleware. -/
def middlewareValue (s : Str) : Except OxiHttpError HeaderValue :=
  match HeaderValue.fromStr s with
  | some v => .ok v
  | none => .error (.invalidHeader "failed to parse header value")

namespace Compression

/-- `is_success()`, and 206. -/
def isCompressibleStatus (status : ℕ) : Bool :=
  (200 ≤ status && status < 300) || status == 206

/-- The response with the compressed body. -/
def encoded (chosen : CompressionAlgorithm) (resp : FullResponse) (compressed : List UInt8) :
    Except OxiHttpError FullResponse := do
  let headers := resp.headers.remove "content-length".toList
  let encoding ← middlewareValue chosen.asStr
  let headers := headers.insert "content-encoding".toList encoding
  let contentLength ← middlewareValue (toString compressed.length).toList
  let headers := headers.insert "content-length".toList contentLength
  let headers := headers.insert "vary".toList ⟨Utf8.encode "Accept-Encoding".toList⟩
  return { status := resp.status, headers, body := compressed }

/-- `Compression::apply`. -/
def apply (z : Compressors) (disorder : SortBy.Disorder AcceptEntry) (c : Compression)
    (acceptEncoding : Option Str) (resp : FullResponse) : Except CompressionStop FullResponse :=
  if isCompressibleStatus resp.status = false then .ok resp
  else if resp.headers.containsKey "content-encoding".toList = true then .ok resp
  else
    match acceptEncoding with
    | none => .ok resp
    | some ae =>
        match negotiate disorder ae c.config.algorithms with
        | none => .error .panicked
        | some none => .ok resp
        | some (some chosen) =>
            if resp.body.length < c.config.minSize then .ok resp
            else
              match z.compress chosen resp.body c.config.level with
              | .error e => .error (.failed (.body e))
              | .ok compressed => (encoded chosen resp compressed).mapError .failed

end Compression

/-! ### Transparency -/

/-- A token is among those of `Vary`, in any case. -/
def VariesOn (headers : HeaderMap) (token : Str) : Prop :=
  ∃ v ∈ headers.getAll "vary".toList, ∃ item ∈ FieldList.items v.latin1, lower item = lower token

/-- The decoders of the two encodings. -/
abbrev Decoders := CompressionAlgorithm → List UInt8 → Option (List UInt8)

/-- The decoders give back what the compressors were given. -/
def Compressors.InvertedBy (z : Compressors) (decode : Decoders) : Prop :=
  ∀ algo data level compressed, 1 ≤ level → level ≤ 9 →
    z.compress algo data level = .ok compressed → decode algo compressed = some data

namespace Compression

variable {z : Compressors} {decode : Decoders} {disorder : SortBy.Disorder AcceptEntry}
  {c : Compression}

/-- A response that stands for another one under an encoding. -/
structure EncodedAs (decode : Decoders) (c : Compression) (resp r : FullResponse) : Prop where
  status : r.status = resp.status
  body : ∃ algo ∈ c.config.algorithms,
    r.headers.getAll "content-encoding".toList = [⟨Utf8.encode algo.asStr⟩] ∧
      decode algo r.body = some resp.body
  contentLength : r.headers.getAll "content-length".toList =
    [⟨Utf8.encode (toString r.body.length).toList⟩]
  others : ∀ name, name ≠ "content-encoding".toList → name ≠ "content-length".toList →
    name ≠ "vary".toList → r.headers.getAll name = resp.headers.getAll name
  vary : ∀ token, VariesOn r.headers token ↔
    VariesOn resp.headers token ∨ lower token = "accept-encoding".toList

/-- What comes out is the response itself, or stands for it. -/
def Transparent (z : Compressors) (decode : Decoders) (disorder : SortBy.Disorder AcceptEntry)
    (c : Compression) (acceptEncoding : Option Str) (resp : FullResponse) : Prop :=
  ∃ r, c.apply z disorder acceptEncoding resp = .ok r ∧ (r = resp ∨ EncodedAs decode c resp r)

/-- Nothing is to be compressed: the response is no success or is encoded, or there is no
`Accept-Encoding`. -/
def PassedOver (acceptEncoding : Option Str) (resp : FullResponse) : Prop :=
  isCompressibleStatus resp.status = false ∨
    resp.headers.containsKey "content-encoding".toList = true ∨ acceptEncoding = none

/-- The response can be compressed without a loss: the compressor reports no error, and `Vary` has
no token but `Accept-Encoding`. -/
def Compresses (z : Compressors) (c : Compression) (chosen : CompressionAlgorithm)
    (resp : FullResponse) : Prop :=
  (∃ compressed, z.compress chosen resp.body c.config.level = .ok compressed) ∧
    ∀ token, VariesOn resp.headers token → lower token = "accept-encoding".toList

/-! ### The compressed response -/

theorem middlewareValue_of_isVisible {s : Str} (h : HeaderValue.IsVisible s) :
    middlewareValue s = .ok ⟨Utf8.encode s⟩ := by
  rw [middlewareValue, HeaderValue.fromStr_of_isVisible h]

theorem isVisible_asStr (algo : CompressionAlgorithm) : HeaderValue.IsVisible algo.asStr := by
  cases algo <;> decide

/-- The header fields of the compressed response. -/
def encodedHeaders (chosen : CompressionAlgorithm) (headers : HeaderMap) (len : ℕ) : HeaderMap :=
  (((headers.remove "content-length".toList).insert "content-encoding".toList
    ⟨Utf8.encode chosen.asStr⟩).insert "content-length".toList
      ⟨Utf8.encode (toString len).toList⟩).insert "vary".toList
        ⟨Utf8.encode "Accept-Encoding".toList⟩

theorem encoded_eq_ok (chosen : CompressionAlgorithm) (resp : FullResponse)
    (compressed : List UInt8) :
    encoded chosen resp compressed =
      .ok ⟨resp.status, encodedHeaders chosen resp.headers compressed.length, compressed⟩ := by
  unfold encoded
  rw [middlewareValue_of_isVisible (isVisible_asStr chosen),
    middlewareValue_of_isVisible (isVisible_toString compressed.length)]
  rfl

variable {chosen : CompressionAlgorithm} {headers : HeaderMap} {len : ℕ}

theorem getAll_encoding : (encodedHeaders chosen headers len).getAll "content-encoding".toList =
    [⟨Utf8.encode chosen.asStr⟩] := by
  rw [encodedHeaders, HeaderMap.getAll_insert, HeaderMap.getAll_insert, HeaderMap.getAll_insert,
    if_neg (by decide), if_neg (by decide), if_pos rfl]

theorem getAll_contentLength :
    (encodedHeaders chosen headers len).getAll "content-length".toList =
      [⟨Utf8.encode (toString len).toList⟩] := by
  rw [encodedHeaders, HeaderMap.getAll_insert, HeaderMap.getAll_insert, if_neg (by decide),
    if_pos rfl]

theorem getAll_other {name : Str} (hencoding : name ≠ "content-encoding".toList)
    (hlength : name ≠ "content-length".toList) (hvary : name ≠ "vary".toList) :
    (encodedHeaders chosen headers len).getAll name = headers.getAll name := by
  rw [encodedHeaders, HeaderMap.getAll_insert, HeaderMap.getAll_insert, HeaderMap.getAll_insert,
    HeaderMap.getAll_remove, if_neg hvary.symm, if_neg hlength.symm, if_neg hencoding.symm,
    if_neg hlength.symm]

/-- `Accept-Encoding` is the only token of `Vary`. -/
theorem variesOn_encoded {token : Str} :
    VariesOn (encodedHeaders chosen headers len) token ↔
      lower token = "accept-encoding".toList := by
  have hitems : FieldList.items (HeaderValue.latin1 ⟨Utf8.encode "Accept-Encoding".toList⟩) =
      ["Accept-Encoding".toList] := by decide
  have hlower : lower "Accept-Encoding".toList = "accept-encoding".toList := by decide
  rw [VariesOn, encodedHeaders, HeaderMap.getAll_insert, if_pos rfl]
  simp only [List.mem_singleton, exists_eq_left, hitems, hlower]
  exact eq_comm

/-- The response was not encoded before, so that it is another one now. -/
theorem encodedHeaders_ne (h : headers.containsKey "content-encoding".toList = false) :
    encodedHeaders chosen headers len ≠ headers := by
  intro heq
  have hget : headers.getAll "content-encoding".toList = [⟨Utf8.encode chosen.asStr⟩] := by
    rw [← heq, getAll_encoding]
  rw [HeaderMap.containsKey, HeaderMap.get, hget] at h
  cases h

/-- The compressed response stands for the other one unless a token of `Vary` is lost. -/
theorem encodedAs_iff {resp : FullResponse} {compressed : List UInt8}
    (hchosen : chosen ∈ c.config.algorithms) (hdecode : decode chosen compressed = some resp.body) :
    EncodedAs decode c resp
        ⟨resp.status, encodedHeaders chosen resp.headers compressed.length, compressed⟩ ↔
      ∀ token, VariesOn resp.headers token → lower token = "accept-encoding".toList := by
  constructor
  · intro h token htoken
    exact variesOn_encoded.1 ((h.vary token).2 (.inl htoken))
  · intro h
    exact {
      status := rfl
      body := ⟨chosen, hchosen, getAll_encoding, hdecode⟩
      contentLength := getAll_contentLength
      others := fun _ => getAll_other
      vary := fun token => variesOn_encoded.trans
        ⟨.inr, fun hor => hor.elim (h token) id⟩ }

/-! ### When the middleware is transparent -/

theorem apply_of_passedOver {acceptEncoding : Option Str} {resp : FullResponse}
    (h : PassedOver acceptEncoding resp) : c.apply z disorder acceptEncoding resp = .ok resp := by
  unfold apply
  by_cases hstatus : isCompressibleStatus resp.status = false
  · rw [if_pos hstatus]
  rw [if_neg hstatus]
  by_cases hencoding : resp.headers.containsKey "content-encoding".toList = true
  · rw [if_pos hencoding]
  rw [if_neg hencoding]
  obtain hstatus' | hencoding' | rfl := h
  · exact absurd hstatus' hstatus
  · exact absurd hencoding' hencoding
  · rfl

/-- A response that is not passed over, by the outcome of the negotiation. -/
theorem apply_of_not_passedOver {ae : Str} {resp : FullResponse}
    (h : ¬ PassedOver (some ae) resp) :
    c.apply z disorder (some ae) resp =
      match negotiate disorder ae c.config.algorithms with
      | none => .error .panicked
      | some none => .ok resp
      | some (some chosen) =>
          if resp.body.length < c.config.minSize then .ok resp
          else
            match z.compress chosen resp.body c.config.level with
            | .error e => .error (.failed (.body e))
            | .ok compressed => .ok ⟨resp.status,
                encodedHeaders chosen resp.headers compressed.length, compressed⟩ := by
  rw [PassedOver, not_or, not_or] at h
  simp only [apply, if_neg h.1, if_neg h.2.1, encoded_eq_ok]
  rfl

/-- What comes out of the middleware is the response, or its encoding by one of the algorithms. -/
theorem apply_cases {acceptEncoding : Option Str} {resp sent : FullResponse}
    (h : c.apply z disorder acceptEncoding resp = .ok sent) :
    sent = resp ∨ ∃ ae algo compressed, acceptEncoding = some ae ∧
      negotiate disorder ae c.config.algorithms = some (some algo) ∧
      z.compress algo resp.body c.config.level = .ok compressed ∧
      sent = ⟨resp.status, encodedHeaders algo resp.headers compressed.length, compressed⟩ := by
  by_cases hover : PassedOver acceptEncoding resp
  · rw [apply_of_passedOver hover] at h
    exact .inl (Except.ok.inj h).symm
  cases acceptEncoding with
  | none => exact absurd (.inr (.inr rfl)) hover
  | some ae =>
      rw [apply_of_not_passedOver hover] at h
      split at h
      · cases h
      · exact .inl (Except.ok.inj h).symm
      · rename_i algo hnegotiate
        split_ifs at h
        · exact .inl (Except.ok.inj h).symm
        · split at h
          · cases h
          · rename_i compressed hcompress
            exact .inr ⟨ae, algo, compressed, rfl, hnegotiate, hcompress, (Except.ok.inj h).symm⟩

/-- What an algorithm that is chosen makes of a response that is to be compressed. -/
theorem transparent_chosen_iff (hz : z.InvertedBy decode) {resp : FullResponse} {ae : Str}
    (hover : ¬ PassedOver (some ae) resp)
    (hchosen : negotiate disorder ae c.config.algorithms = some (some chosen)) :
    Transparent z decode disorder c (some ae) resp ↔
      (c.config.minSize ≤ resp.body.length → Compresses z c chosen resp) := by
  unfold Transparent Compresses
  rw [apply_of_not_passedOver hover, hchosen]
  dsimp only
  by_cases hshort : resp.body.length < c.config.minSize
  · rw [if_pos hshort]
    exact iff_of_true ⟨resp, rfl, .inl rfl⟩ fun hlong => absurd hlong (not_le.2 hshort)
  rw [if_neg hshort, forall_prop_of_true (not_lt.1 hshort)]
  cases hcompress : z.compress chosen resp.body c.config.level with
  | error e =>
      refine iff_of_false ?_ ?_
      · rintro ⟨r, hr, -⟩
        cases hr
      · rintro ⟨⟨compressed, h⟩, -⟩
        cases h
  | ok compressed =>
      have hdecode := hz chosen resp.body c.config.level compressed c.level_bounds.1
        c.level_bounds.2 hcompress
      have hencoding : resp.headers.containsKey "content-encoding".toList = false :=
        Bool.eq_false_iff.2 fun h => hover (.inr (.inl h))
      rw [← encodedAs_iff (mem_of_negotiate hchosen) hdecode, and_iff_right ⟨compressed, rfl⟩]
      constructor
      · rintro ⟨r, hr, heq | hencoded⟩
        · cases hr
          exact absurd (congrArg FullResponse.headers heq) (encodedHeaders_ne hencoding)
        · cases hr
          exact hencoded
      · exact fun hencoded => ⟨_, rfl, .inr hencoded⟩

/-- The middleware is transparent to a response that it passes over, one for which there is no
algorithm, one that is too short, and one that can be compressed without a loss. -/
theorem transparent_iff (hz : z.InvertedBy decode) (disorder : SortBy.Disorder AcceptEntry)
    (c : Compression) (acceptEncoding : Option Str) (resp : FullResponse) :
    Transparent z decode disorder c acceptEncoding resp ↔
      PassedOver acceptEncoding resp ∨ ∃ ae outcome, acceptEncoding = some ae ∧
        negotiate disorder ae c.config.algorithms = some outcome ∧
        ∀ chosen ∈ outcome, c.config.minSize ≤ resp.body.length → Compresses z c chosen resp := by
  by_cases hover : PassedOver acceptEncoding resp
  · exact iff_of_true ⟨resp, apply_of_passedOver hover, .inl rfl⟩ (.inl hover)
  rw [or_iff_right hover]
  cases acceptEncoding with
  | none => exact absurd (.inr (.inr rfl)) hover
  | some ae =>
      cases houtcome : negotiate disorder ae c.config.algorithms with
      | none =>
          refine iff_of_false ?_ ?_
          · rintro ⟨r, hr, -⟩
            rw [apply_of_not_passedOver hover, houtcome] at hr
            cases hr
          · rintro ⟨ae', outcome, hae, h, -⟩
            cases hae
            rw [houtcome] at h
            cases h
      | some outcome =>
          have hright : (∃ ae' outcome', some ae = some ae' ∧
              negotiate disorder ae' c.config.algorithms = some outcome' ∧
              ∀ chosen ∈ outcome', c.config.minSize ≤ resp.body.length →
                Compresses z c chosen resp) ↔
              ∀ chosen ∈ outcome, c.config.minSize ≤ resp.body.length →
                Compresses z c chosen resp := by
            constructor
            · rintro ⟨ae', outcome', hae, h, hall⟩
              cases hae
              rw [houtcome] at h
              cases h
              exact hall
            · exact fun hall => ⟨ae, outcome, rfl, houtcome, hall⟩
          rw [hright]
          cases outcome with
          | none =>
              refine iff_of_true ⟨resp, ?_, .inl rfl⟩ nofun
              rw [apply_of_not_passedOver hover, houtcome]
          | some chosen =>
              rw [transparent_chosen_iff hz hover houtcome]
              simp

/-! ### Compressors that store -/

/-- Compressors that store short bodies, and report an error for the others. -/
def storing : Compressors where
  gzipCompress data _ :=
    if data.length < 65536 then .ok (Gzip.Member.stored data).encode else .error "body too long"
  zlibCompress data _ :=
    if data.length < 65536 then .ok (Zlib.store data) else .error "body too long"

/-- The content of a gzip member whose header has no optional fields, or of a zlib stream. -/
def unstore : Decoders
  | .gzip, bytes => Deflate.inflate (bytes.drop 10)
  | .deflate, bytes => Zlib.decode bytes

theorem storing_invertedBy : storing.InvertedBy unstore := by
  intro algo data level compressed _ _ h
  by_cases hshort : data.length < 65536
  · cases algo with
    | gzip =>
        obtain rfl := Except.ok.inj ((if_pos hshort).symm.trans h)
        exact Deflate.inflate_store hshort (Gzip.Member.stored data).trailer
    | deflate =>
        obtain rfl := Except.ok.inj ((if_pos hshort).symm.trans h)
        exact Zlib.decode_store hshort
  · cases algo with
    | gzip => cases (if_neg hshort).symm.trans h
    | deflate => cases (if_neg hshort).symm.trans h

/-- A response with one field. -/
def greetingResponse (name text : String) : FullResponse where
  status := 200
  headers := ⟨[(name.toList, ⟨Utf8.encode text.toList⟩)]⟩
  body := Utf8.encode "hello".toList

/-- A body that is compressed while nothing is lost. -/
theorem transparent_storing :
    Transparent storing unstore .panics (new.minSize 0) (some "gzip".toList)
      (greetingResponse "vary" "accept-encoding") := by
  refine (transparent_iff storing_invertedBy .panics (new.minSize 0) _ _).2
    (.inr ⟨_, some .gzip, rfl, negotiate_of_numbers (by decide), fun chosen hchosen _ => ?_⟩)
  cases hchosen
  refine ⟨⟨_, rfl⟩, ?_⟩
  rintro token ⟨v, hv, item, hitem, htoken⟩
  have hvalue : (greetingResponse "vary" "accept-encoding").headers.getAll "vary".toList =
      [⟨Utf8.encode "accept-encoding".toList⟩] := rfl
  have hitems : FieldList.items (HeaderValue.latin1 ⟨Utf8.encode "accept-encoding".toList⟩) =
      ["accept-encoding".toList] := by decide
  rw [hvalue, List.mem_singleton] at hv
  rw [hv, hitems, List.mem_singleton] at hitem
  rw [← htoken, hitem]
  decide

/-- A cache that is told to look at `Origin` is not told so any more. -/
theorem not_transparent_storing :
    ¬ Transparent storing unstore .panics (new.minSize 0) (some "gzip".toList)
      (greetingResponse "vary" "Origin") := by
  have hover : ¬ PassedOver (some "gzip".toList) (greetingResponse "vary" "Origin") := by
    rintro (h | h | h)
    · cases h
    · exact absurd h (by decide)
    · cases h
  have hchosen : negotiate .panics "gzip".toList (new.minSize 0).config.algorithms =
      some (some .gzip) := negotiate_of_numbers (by decide)
  rw [transparent_chosen_iff storing_invertedBy hover hchosen]
  intro h
  have horigin : VariesOn (greetingResponse "vary" "Origin").headers "origin".toList :=
    ⟨⟨Utf8.encode "Origin".toList⟩, List.mem_singleton_self _, "Origin".toList, by decide,
      by decide⟩
  exact absurd ((h (Nat.zero_le _)).2 _ horigin) (by decide)

end Compression

end OxiHttp
