/-
**The body of a response.**

`Response::body_bytes` collects the body within a limit and, when the client decompresses, gives its
content by the encoding that the response names, within the same limit.  The server encodes bodies
in the middleware `Compression`.  What the client makes of such a body is the one the middleware was
given, or an error when the limit is too low, unless the body was encoded with `deflate` and can be
read in two ways, or the limit is so high that a buffer is beyond `isize::MAX`.

The compressors and the decoders are code outside the repository and parameters.

Main definitions:

* `OxiHttp.Response.bodyBytes` — the body of a response, from the frames it comes in;
* `OxiHttp.Compressors.ReadBy` — what is relied on of the compressors and the decoders;
* `OxiHttp.ReadsAlone` — the bodies that are taken for DEFLATE without the zlib format;
* `OxiHttp.inflated` — what is decompressed of a body;
* `OxiHttp.Restored` — the body that the middleware was given, or an error.

Main results:

* `OxiHttp.boundedGzipDecompress_gives_iff`, `OxiHttp.boundedDeflateDecompress_gives_iff` — the two
  encodings;
* `OxiHttp.bodyBytes_restores` — from the middleware of the server to the client.
-/

import OxiHttp.BodyLimit
import OxiHttp.Compression
import OxiHttp.DeflateBody
import OxiHttp.GzipMembers
import OxiHttp.SendInner

set_option relaxedAutoImplicit false
set_option autoImplicit false

namespace OxiHttp

/-! ### The client -/

/-- The decoders: they are given the input and the size of a buffer. -/
structure Inflaters where
  zlibDecompressInto : List UInt8 → ℕ → Except String (List UInt8)
  inflateInto : List UInt8 → ℕ → Except String (List UInt8)

/-- `decompression_feature_missing_error`. -/
def decompressionFeatureMissingError (encoding : String) : OxiHttpError :=
  .body ("response Content-Encoding is '" ++ encoding ++ "' but this build of oxihttp-client " ++
    "does not have the 'decompression' feature enabled, so it cannot decode the body; rebuild " ++
    "with the 'decompression' feature, or call ClientBuilder::with_decompression(false) so " ++
    "Accept-Encoding is not advertised to the server")

namespace Response

/-- What `body_bytes` does with the bytes that have been collected. -/
def decodeBody (feature : Bool) (inflaters : Inflaters) (r : Response) (raw : List UInt8) :
    Except Panic (Except OxiHttpError (List UInt8)) :=
  let ce := ((r.headers.get "content-encoding".toList).bind HeaderValue.toStr).map lower
  if r.decompress then
    if ce = some "gzip".toList then
      if feature then boundedGzipDecompress inflaters.inflateInto raw r.maxBodyBytes
      else .ok (.error (decompressionFeatureMissingError "gzip"))
    else if ce = some "deflate".toList then
      if feature then
        boundedDeflateDecompress inflaters.zlibDecompressInto inflaters.inflateInto raw
          r.maxBodyBytes
      else .ok (.error (decompressionFeatureMissingError "deflate"))
    else .ok (.ok raw)
  else .ok (.ok raw)

/-- `body_bytes`, in a build with or without the feature `decompression`. -/
def bodyBytes (feature : Bool) (inflaters : Inflaters) (r : Response) (frames : List BodyFrame) :
    Except Panic (Except OxiHttpError (List UInt8)) := do
  match ← (Client.collectBodyLimited frames (UInt64.ofNat r.maxBodyBytes)).2 with
  | .error e => return .error e
  | .ok raw => r.decodeBody feature inflaters raw

end Response

/-! ### What arrives -/

/-- The frames carry this body, which has been in memory, and no error. -/
structure Carries (frames : List BodyFrame) (body : List UInt8) : Prop where
  bytes : bodyBytes frames = body
  error : bodyError frames = none
  inMemory : body.length < 2 ^ 63

/-- What is relied on of the compressors: they write a gzip member and a zlib stream that the
decoders read. -/
structure Compressors.ReadBy (z : Compressors) (zlib deflate : List UInt8 → Option (List UInt8)) :
    Prop where
  gzip : ∀ {data level compressed}, 1 ≤ level → level ≤ 9 →
    z.gzipCompress data level = .ok compressed →
      ∃ m : Gzip.Member, m.encode = compressed ∧ m.content = data ∧
        ∀ rest, deflate (m.deflate ++ rest) = some data
  zlib : ∀ {data level compressed}, 1 ≤ level → level ≤ 9 →
    z.zlibCompress data level = .ok compressed → zlib compressed = some data

/-- A content that does not fit the first buffer, while its encoding is also DEFLATE alone, of a
content that fits the last buffer which is tried for it. -/
def ReadsAlone (deflate : List UInt8 → Option (List UInt8)) (raw : List UInt8) (cap : ℕ)
    (content : List UInt8) : Prop :=
  firstTry raw cap < content.length ∧
    ∃ d, deflate raw = some d ∧ d.length ≤ if content.length ≤ cap then firstTry raw cap else cap

/-- What is decompressed of a body: the part behind the header of a gzip member, or all of it. -/
def inflated : CompressionAlgorithm → List UInt8 → List UInt8
  | .gzip, raw => raw.drop ((gzipDeflatePayloadStart raw).toOption.getD 0)
  | .deflate, raw => raw

/-- A result without a panic, that is the content when the cap allows it and an error otherwise. -/
def Gives (allowed : Prop) (content : List UInt8)
    (r : Except Panic (Except OxiHttpError (List UInt8))) : Prop :=
  ∃ result, r = .ok result ∧ Arrives allowed content result

/-! ### The two encodings -/

section

variable {zlib deflate : List UInt8 → Option (List UInt8)}
  {zlibInto inflateInto : List UInt8 → ℕ → Except String (List UInt8)}

/-- A gzip member gives its content exactly when the buffers can be had. -/
theorem boundedGzipDecompress_gives_iff (hi : DecodesInto deflate inflateInto) {m : Gzip.Member}
    (hm : ∀ rest, deflate (m.deflate ++ rest) = some m.content) (cap : ℕ) :
    Gives (m.content.length ≤ cap) m.content (boundedGzipDecompress inflateInto m.encode cap) ↔
      Affords (inflated .gzip m.encode) cap m.content.length := by
  have hencode : m.encode = m.header.encode ++ (m.deflate ++ ([] ++ m.trailer)) :=
    List.append_assoc _ _ _
  obtain ⟨hends, hpanic⟩ := boundedGzipDecompress_ends (inflates_of_decodesInto hi) m m hm [] cap
  rw [inflated, hencode, gzipDeflatePayloadStart_encode, Except.toOption, Option.getD_some,
    List.drop_left]
  refine ⟨fun ⟨result, hresult, _⟩ => hpanic result hresult, fun hafford => ?_⟩
  obtain ⟨r, hr, hiff⟩ := hends hafford
  refine ⟨r, hr, fun hcap => (hiff m.content).2 ⟨rfl, hcap, rfl, rfl⟩, fun hcap => ?_⟩
  cases r with
  | error e => exact ⟨e, rfl⟩
  | ok bs => exact absurd ((hiff bs).1 rfl).2.1 hcap

/-- A zlib stream gives its content exactly when it is not read as DEFLATE alone and the buffers can
be had. -/
theorem boundedDeflateDecompress_gives_iff (hz : DecodesInto zlib zlibInto)
    (hi : DecodesInto deflate inflateInto) {raw c : List UInt8} (hc : zlib raw = some c) (cap : ℕ) :
    Gives (c.length ≤ cap) c (boundedDeflateDecompress zlibInto inflateInto raw cap) ↔
      ¬ ReadsAlone deflate raw cap c ∧ Affords raw cap c.length := by
  have hle := firstTry_le raw cap
  constructor
  · rintro ⟨result, hresult, harrives⟩
    have hsame : ∀ d, result = .ok d → d = c := by
      intro d hd
      by_contra hne
      exact not_arrives_of_ok hd hne harrives
    refine ⟨?_, affords_of_eq_ok hresult fun d hd heq => ?_⟩
    · rintro ⟨hlarge, d, hd, hsmall⟩
      have honly : ∀ n, n < c.length → ∀ c', zlib raw = some c' → n < c'.length := by
        intro n hn c' hc'
        rw [hc, Option.some.injEq] at hc'
        rwa [← hc']
      by_cases hfits : d.length ≤ firstTry raw cap
      · have heq := hsame d (boundedDeflateDecompress_misread hz hi hc hd hlarge hfits hresult)
        rw [heq] at hfits
        omega
      · -- it is the second buffer that the other content fits
        have hcap : cap < c.length := by
          by_contra hcap
          rw [if_pos (Nat.le_of_not_lt hcap)] at hsmall
          exact hfits hsmall
        rw [if_neg (Nat.not_le.2 hcap)] at hsmall
        obtain ⟨e, he⟩ := deflateInflate_error hz hi (honly _ hlarge) fun d' hd' => by
          rw [hd, Option.some.injEq] at hd'
          rw [← hd']
          exact Nat.lt_of_not_le hfits
        have hsecond := eq_of_boundedInflate_failed hresult (boundedInflate_eq_ok hresult).1 he
          (by omega)
        rw [deflateInflate_raw hz hi (honly _ hcap) hd hsmall] at hsecond
        rw [hsame d hsecond] at hsmall
        omega
    · rw [← hsame d heq]
      exact length_le_of_deflateInflate hz hi hd
  · rintro ⟨halone, hafford⟩
    refine boundedInflate_arrives hafford (deflateInflate_arrives hz hi hc fun hlarge d hd => ?_)
      (deflateInflate_arrives hz hi hc fun hlarge d hd => ?_)
    · by_contra hsmall
      refine halone ⟨hlarge, d, hd, ?_⟩
      split_ifs
      · omega
      · omega
    · by_contra hsmall
      refine halone ⟨hle.trans_lt hlarge, d, hd, ?_⟩
      rw [if_neg (Nat.not_le.2 hlarge)]
      omega

end

/-! ### From the server to the client -/

/-- The encoding of a response, as the client reads it. -/
theorem map_lower_encoding (algo : CompressionAlgorithm) {headers : HeaderMap}
    (h : headers.getAll "content-encoding".toList = [⟨Utf8.encode algo.asStr⟩]) :
    ((headers.get "content-encoding".toList).bind HeaderValue.toStr).map lower =
      some algo.asStr := by
  have hlower : lower algo.asStr = algo.asStr := by
    cases algo <;> decide
  rw [HeaderMap.get, h, List.head?_cons, Option.bind_some,
    HeaderValue.toStr_of_isVisible (Compression.isVisible_asStr algo), Option.map_some, hlower]

/-- The frames are collected when the limit allows it. -/
theorem bodyBytes_of_carries (feature : Bool) (inflaters : Inflaters) {r : Response}
    (hcap : r.maxBodyBytes < 2 ^ 64) {frames : List BodyFrame} {body : List UInt8}
    (h : Carries frames body) :
    (body.length ≤ r.maxBodyBytes →
        r.bodyBytes feature inflaters frames = r.decodeBody feature inflaters body) ∧
      (r.maxBodyBytes < body.length →
        ∃ e, r.bodyBytes feature inflaters frames = .ok (.error e)) := by
  have hmax : (UInt64.ofNat r.maxBodyBytes).toNat = r.maxBodyBytes :=
    UInt64.toNat_ofNat_of_lt' hcap
  have hempty : ([] : List UInt8).length ≤ (UInt64.ofNat r.maxBodyBytes).toNat := Nat.zero_le _
  have hmemory : ([] : List UInt8).length < 2 ^ 63 := Nat.two_pow_pos 63
  have hcollect := collectLoop_collectsWithin saturatingAdd_decides
    (tooLarge "response" (UInt64.ofNat r.maxBodyBytes)) (UInt64.ofNat r.maxBodyBytes) frames
    hempty hmemory
  rw [List.nil_append, h.bytes, h.error] at hcollect
  have hresult := hcollect.result.resolve_right fun hpanic =>
    absurd h.inMemory (Nat.not_lt.2 hpanic.2.1)
  unfold Response.bodyBytes Client.collectBodyLimited
  rw [hresult]
  constructor
  · intro hle
    rw [expected_ok (hle.trans hmax.ge)]
    rfl
  · intro hlt
    rw [expected_of_lt (hmax.trans_lt hlt)]
    exact ⟨_, rfl⟩

/-- Of an algorithm, what becomes of a body: it is not taken for DEFLATE alone, and its buffers can
be had. -/
def Readable (deflate : List UInt8 → Option (List UInt8)) (algo : CompressionAlgorithm)
    (raw : List UInt8) (cap : ℕ) (content : List UInt8) : Prop :=
  ¬ (algo = .deflate ∧ ReadsAlone deflate raw cap content) ∧
    Affords (inflated algo raw) cap content.length

theorem decodeBody_encoded {zlib deflate : List UInt8 → Option (List UInt8)} {inflaters : Inflaters}
    (hz : DecodesInto zlib inflaters.zlibDecompressInto)
    (hi : DecodesInto deflate inflaters.inflateInto) {z : Compressors}
    (hread : z.ReadBy zlib deflate) {algo : CompressionAlgorithm} {data raw : List UInt8}
    {level : ℕ} (hlevel : 1 ≤ level ∧ level ≤ 9) (hcompress : z.compress algo data level = .ok raw)
    {r : Response}
    (hencoding : r.headers.getAll "content-encoding".toList = [⟨Utf8.encode algo.asStr⟩])
    (hdecompress : r.decompress = true) :
    Gives (data.length ≤ r.maxBodyBytes) data (r.decodeBody true inflaters raw) ↔
      Readable deflate algo raw r.maxBodyBytes data := by
  have hce := map_lower_encoding algo hencoding
  unfold Response.decodeBody Readable
  dsimp only
  rw [hce, if_pos hdecompress]
  cases algo with
  | gzip =>
      obtain ⟨m, rfl, rfl, hm⟩ := hread.gzip hlevel.1 hlevel.2 hcompress
      have hnot : ¬ (CompressionAlgorithm.gzip = .deflate ∧
          ReadsAlone deflate m.encode r.maxBodyBytes m.content) := fun h => by cases h.1
      have hname : CompressionAlgorithm.gzip.asStr = "gzip".toList := rfl
      rw [hname, if_pos rfl, if_pos rfl, boundedGzipDecompress_gives_iff hi hm, and_iff_right hnot]
  | deflate =>
      have hc := hread.zlib hlevel.1 hlevel.2 hcompress
      have hname : CompressionAlgorithm.deflate.asStr = "deflate".toList := rfl
      rw [if_neg (by decide), hname, if_pos rfl, if_pos rfl,
        boundedDeflateDecompress_gives_iff hz hi hc, and_iff_right rfl, inflated]

/-- The client gets what the middleware was given, when that and its encoding are within the
limit, and an error otherwise. -/
def Restored (cap : ℕ) (sent resp : List UInt8)
    (r : Except Panic (Except OxiHttpError (List UInt8))) : Prop :=
  Gives (sent.length ≤ cap ∧ resp.length ≤ cap) resp r

/-- It does exactly when its body, as it is encoded, is readable. -/
theorem restored_iff {zlib deflate : List UInt8 → Option (List UInt8)}
    {inflaters : Inflaters} (hz : DecodesInto zlib inflaters.zlibDecompressInto)
    (hi : DecodesInto deflate inflaters.inflateInto) {z : Compressors}
    (hread : z.ReadBy zlib deflate) {disorder : SortBy.Disorder AcceptEntry} {c : Compression}
    {acceptEncoding : Option Str} {resp sent : FullResponse}
    (hplain : resp.headers.getAll "content-encoding".toList = [])
    (happly : c.apply z disorder acceptEncoding resp = .ok sent) {frames : List BodyFrame}
    (hframes : Carries frames sent.body) {r : Response}
    (hheaders : r.headers.getAll "content-encoding".toList =
      sent.headers.getAll "content-encoding".toList)
    (hdecompress : r.decompress = true) (hcap : r.maxBodyBytes < 2 ^ 64) :
    Restored r.maxBodyBytes sent.body resp.body (r.bodyBytes true inflaters frames) ↔
      ∀ algo : CompressionAlgorithm,
        sent.headers.getAll "content-encoding".toList = [⟨Utf8.encode algo.asStr⟩] →
          sent.body.length ≤ r.maxBodyBytes →
            Readable deflate algo sent.body r.maxBodyBytes resp.body := by
  obtain ⟨hfits, hexceeds⟩ := bodyBytes_of_carries true inflaters hcap hframes
  by_cases hlong : r.maxBodyBytes < sent.body.length
  · obtain ⟨e, he⟩ := hexceeds hlong
    refine iff_of_true ⟨_, he, ?_, fun _ => ⟨e, rfl⟩⟩
      fun algo _ h => absurd hlong (Nat.not_lt.2 h)
    exact fun h => absurd hlong (Nat.not_lt.2 h.1)
  have hle := Nat.le_of_not_lt hlong
  rw [Restored, hfits hle, and_iff_right hle]
  rcases Compression.apply_cases happly with rfl | ⟨ae, algo, compressed, -, -, hcompress, hsent⟩
  · -- nothing has been encoded
    have hnone : r.headers.get "content-encoding".toList = none := by
      rw [HeaderMap.get, hheaders, hplain]
      rfl
    have hraw : r.decodeBody true inflaters sent.body = .ok (.ok sent.body) := by
      unfold Response.decodeBody
      rw [hnone]
      split_ifs <;> rfl
    rw [hraw, hplain]
    exact iff_of_true ⟨.ok sent.body, rfl, fun _ => rfl, fun h => absurd hle h⟩
      fun algo h => by cases h
  · have hencoding :
        sent.headers.getAll "content-encoding".toList = [⟨Utf8.encode algo.asStr⟩] := by
      rw [hsent]
      exact Compression.getAll_encoding
    have hbody : z.compress algo resp.body c.config.level = .ok sent.body := by
      rw [hcompress, hsent]
    rw [decodeBody_encoded hz hi hread c.level_bounds hbody (hheaders.trans hencoding) hdecompress]
    refine ⟨fun h algo' halgo' _ => ?_, fun h => h algo hencoding hle⟩
    -- the name tells the algorithm
    obtain rfl : algo' = algo := by
      rw [hencoding] at halgo'
      cases algo <;> cases algo' <;> first | rfl | exact absurd halgo' (by decide)
    exact h

/-- What the client asks for of its own accord is `gzip` for a server that prefers it. -/
theorem negotiate_clientEncodings (disorder : SortBy.Disorder AcceptEntry)
    {preferred : List CompressionAlgorithm} (h : preferred.head? = some .gzip) :
    negotiate disorder "gzip, deflate".toList preferred = some (some .gzip) := by
  obtain ⟨others, rfl⟩ := List.head?_eq_some_iff.1 h
  have hallowed : isAllowed (acceptEntries "gzip, deflate".toList) .gzip = true := by decide
  rw [negotiate_of_numbers (by decide), List.find?_cons_of_pos hallowed]

/-- Between such a server and a client that asks so there is no `deflate`. -/
theorem getAll_encoding_clientEncodings {z : Compressors} {disorder : SortBy.Disorder AcceptEntry}
    {c : Compression} {resp sent : FullResponse} (hgzip : c.config.algorithms.head? = some .gzip)
    (hplain : resp.headers.getAll "content-encoding".toList = [])
    (h : c.apply z disorder (some "gzip, deflate".toList) resp = .ok sent) :
    sent.headers.getAll "content-encoding".toList ≠ [⟨Utf8.encode "deflate".toList⟩] := by
  rcases Compression.apply_cases h with rfl | ⟨ae, algo, compressed, hae, hnegotiate, -, rfl⟩
  · rw [hplain]
    exact (List.cons_ne_nil _ _).symm
  · cases hae
    rw [negotiate_clientEncodings disorder hgzip] at hnegotiate
    cases hnegotiate
    rw [Compression.getAll_encoding]
    decide

/-- **The client gets the body that the server has compressed**, or an error when the limit is too
low, if and only if its body is readable: it is not one of `deflate` that is taken for DEFLATE
alone, and no buffer that is tried for the content is beyond `isize::MAX`; and it always does when
it asks of its own accord, the server prefers `gzip` and the limit is no longer than a buffer may
be. -/
theorem bodyBytes_restores {zlib deflate : List UInt8 → Option (List UInt8)}
    {inflaters : Inflaters} (hz : DecodesInto zlib inflaters.zlibDecompressInto)
    (hi : DecodesInto deflate inflaters.inflateInto) {z : Compressors}
    (hread : z.ReadBy zlib deflate) {disorder : SortBy.Disorder AcceptEntry} {c : Compression}
    {acceptEncoding : Option Str} {resp sent : FullResponse}
    (hplain : resp.headers.getAll "content-encoding".toList = [])
    (happly : c.apply z disorder acceptEncoding resp = .ok sent) {frames : List BodyFrame}
    (hframes : Carries frames sent.body) {r : Response}
    (hheaders : r.headers.getAll "content-encoding".toList =
      sent.headers.getAll "content-encoding".toList)
    (hdecompress : r.decompress = true) (hcap : r.maxBodyBytes < 2 ^ 64) :
    (Restored r.maxBodyBytes sent.body resp.body (r.bodyBytes true inflaters frames) ↔
      ∀ algo : CompressionAlgorithm,
        sent.headers.getAll "content-encoding".toList = [⟨Utf8.encode algo.asStr⟩] →
          sent.body.length ≤ r.maxBodyBytes →
            Readable deflate algo sent.body r.maxBodyBytes resp.body) ∧
      (acceptEncoding = some "gzip, deflate".toList → c.config.algorithms.head? = some .gzip →
        r.maxBodyBytes < 2 ^ 63 →
          Restored r.maxBodyBytes sent.body resp.body (r.bodyBytes true inflaters frames)) := by
  have hiff := restored_iff hz hi hread hplain happly hframes hheaders hdecompress hcap
  refine ⟨hiff, ?_⟩
  rintro rfl hgzip hbuffer
  refine hiff.2 fun algo halgo _ => ⟨?_, .inl hbuffer⟩
  rintro ⟨rfl, -⟩
  exact getAll_encoding_clientEncodings hgzip hplain happly halgo

/-- Compressors that store are read by the decoders of the formats. -/
theorem storing_readBy : Compression.storing.ReadBy Zlib.decode Deflate.inflate where
  gzip := by
    intro data level compressed _ _ h
    by_cases hshort : data.length < 65536
    · obtain rfl := Except.ok.inj ((if_pos hshort).symm.trans h)
      exact ⟨.stored data, rfl, rfl, Deflate.inflate_store hshort⟩
    · cases (if_neg hshort).symm.trans h
  zlib := by
    intro data level compressed _ _ h
    by_cases hshort : data.length < 65536
    · obtain rfl := Except.ok.inj ((if_pos hshort).symm.trans h)
      exact Zlib.decode_store hshort
    · cases (if_neg hshort).symm.trans h

/-- The decoders, with buffers. -/
def bufferedInflaters : Inflaters where
  zlibDecompressInto := intoBuffer Zlib.decode
  inflateInto := intoBuffer Deflate.inflate

/-- A greeting that is sent with this encoding. -/
def sentGreeting (algo : CompressionAlgorithm) (body : List UInt8) : FullResponse where
  status := 200
  headers := Compression.encodedHeaders algo {} body.length
  body := body

theorem carries_singleton {body : List UInt8} (hne : body ≠ []) (h : body.length < 2 ^ 63) :
    Carries [.data ⟨[body], List.forall_mem_singleton.2 hne, by simpa using h⟩, .trailers] body
    where
  bytes := by simp [bodyBytes, FrameData.bytes]
  error := rfl
  inMemory := h

/-- A server that compresses any body with `gzip`, and a client that asks for it. -/
theorem bodyBytes_restores_greeting :
    Restored 1024 (Gzip.Member.stored (Utf8.encode "hello".toList)).encode
      (Utf8.encode "hello".toList)
      (Response.bodyBytes true bufferedInflaters
        ⟨200, Compression.encodedHeaders .gzip {} 28, true, 1024⟩
        [.data ⟨[(Gzip.Member.stored (Utf8.encode "hello".toList)).encode], by decide, by decide⟩,
          .trailers]) := by
  have hover : ¬ Compression.PassedOver (some "gzip, deflate".toList)
      ⟨200, {}, Utf8.encode "hello".toList⟩ := by
    rintro (h | h | h) <;> cases h
  have happly : (Compression.new.minSize 0).apply Compression.storing .panics
      (some "gzip, deflate".toList) ⟨200, {}, Utf8.encode "hello".toList⟩ =
        .ok (sentGreeting .gzip (Gzip.Member.stored (Utf8.encode "hello".toList)).encode) := by
    rw [Compression.apply_of_not_passedOver hover, negotiate_clientEncodings .panics rfl]
    rfl
  exact (bodyBytes_restores (intoBuffer_decodesInto _) (intoBuffer_decodesInto _)
    storing_readBy rfl happly (carries_singleton (by decide) (by decide)) rfl rfl
    (by decide)).2 rfl rfl (by decide)

end OxiHttp
