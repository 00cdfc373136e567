/-
**Responses behind a shared cache.**

A handler that compresses its responses, behind the CORS layer of the server, gives different
responses for the same target: they depend on `Accept-Encoding` and on `Origin`.  A cache between the
clients and the server only sees what `Vary` says about this.  `Compression::apply` names
`Accept-Encoding` in the responses that it changes, and `add_vary_origin` names `Origin`, so that a
client that is given the response to the request of another one can read it, and is allowed to if it
would have been allowed by the server.

The handler says itself what its responses vary on; of those that are compressed nothing but
`Accept-Encoding` is kept.

Main definitions:

* `OxiHttp.Site`, `OxiHttp.Site.serve` — a handler behind the two layers;
* `OxiHttp.varyCovers` — a response may be given to another request;
* `OxiHttp.Site.Proper` — what a client is to get.

Main results:

* `OxiHttp.MiddlewarePipeline.postHandle_cases` — what the CORS layer does;
* `OxiHttp.Site.sharedCache_proper` — every client gets what it is to get.
-/

import OxiHttp.Compression
import OxiHttp.CorsVary
import OxiHttp.Middleware
import OxiHttp.SharedCache

set_option relaxedAutoImplicit false
set_option autoImplicit false

namespace OxiHttp

/-! ### The server -/

/-- A response may be given to another request when the header fields that `Vary` names are the same
in both; with `*` in it never. -/
def varyCovers (vary headers headers' : HeaderMap) : Bool :=
  (varyTokens vary).all fun token =>
    token ≠ "*".toList && headers.getAll (lower token) = headers'.getAll (lower token)

theorem varyCovers_iff {vary headers headers' : HeaderMap} :
    varyCovers vary headers headers' = true ↔ ∀ token ∈ varyTokens vary,
      token ≠ "*".toList ∧ headers.getAll (lower token) = headers'.getAll (lower token) := by
  simp only [varyCovers, List.all_eq_true, Bool.and_eq_true, decide_eq_true_eq]

theorem varyCovers_trans {vary a b c : HeaderMap} (hab : varyCovers vary a b = true)
    (hbc : varyCovers vary b c = true) : varyCovers vary a c = true := by
  rw [varyCovers_iff] at hab hbc ⊢
  exact fun token htoken => ⟨(hab token htoken).1, (hab token htoken).2.trans (hbc token htoken).2⟩

/-- A handler for some targets, which compresses its responses, and the layers of the server. -/
structure Site (κ : Type) where
  base : κ → HeaderMap → FullResponse
  compression : Compression
  pipeline : MiddlewarePipeline

/-- What belongs to the surroundings: the compressors, how a sort fails, and the build. -/
structure SiteEnv where
  z : Compressors
  disorder : SortBy.Disorder AcceptEntry
  debugAssertions : Bool

namespace Site

variable {κ : Type} (site : Site κ) (env : SiteEnv)

/-- The response of the handler. -/
def handled (target : κ) (headers : HeaderMap) : Except CompressionStop FullResponse :=
  site.compression.apply env.z env.disorder (headerText headers "accept-encoding")
    (site.base target headers)

/-- The response to a request for a target, unless the handler fails. -/
def serve (r : κ × HeaderMap) : Option HttpResponse :=
  match site.handled env r.1 r.2 with
  | .ok resp => site.pipeline.postHandle env.debugAssertions
      ⟨resp.status, resp.headers, resp.body⟩ (originOf r.2)
  | .error _ => none

/-- The server with what its responses say. -/
def origin [DecidableEq κ] : SharedCache.Origin (κ × HeaderMap) HttpResponse where
  serve := site.serve env
  covers resp r r' := r.1 = r'.1 && varyCovers resp.headers r.2 r'.2

/-- The origin that the response to a request names. -/
def allowedOrigin (headers : HeaderMap) : Option Str :=
  site.pipeline.cors.bind fun config => config.originValue (originOf headers)

/-- What a client is to get: the status and the body of the handler's response to its own request,
the body as it is or compressed as its own `Accept-Encoding` asks for, and its own origin if that is
allowed. -/
structure Proper (decode : Decoders) (r : κ × HeaderMap) (resp : HttpResponse) : Prop where
  status : resp.status = (site.base r.1 r.2).status
  body : (resp.headers.getAll "content-encoding".toList =
      (site.base r.1 r.2).headers.getAll "content-encoding".toList ∧
      resp.body = (site.base r.1 r.2).body) ∨
    ∃ ae algo, headerText r.2 "accept-encoding" = some ae ∧
      negotiate env.disorder ae site.compression.config.algorithms = some (some algo) ∧
      resp.headers.getAll "content-encoding".toList = [⟨Utf8.encode algo.asStr⟩] ∧
      decode algo resp.body = some (site.base r.1 r.2).body
  origin : resp.headers.getAll "access-control-allow-origin".toList =
    (site.allowedOrigin r.2).elim
      ((site.base r.1 r.2).headers.getAll "access-control-allow-origin".toList)
      fun o => [⟨Utf8.encode o⟩]

/-- The handler says what its responses vary on, in readable lines, and a response that is
compressed varies on nothing but `Accept-Encoding`. -/
structure Honest : Prop where
  varies : ∀ target headers headers',
    varyCovers (site.base target headers).headers headers headers' = true →
      site.base target headers' = site.base target headers
  readable : ∀ target headers, ReadableVary (site.base target headers).headers
  kept : ∀ target headers resp, site.handled env target headers = .ok resp →
    resp = site.base target headers ∨ ∀ token ∈ varyTokens (site.base target headers).headers,
      lower token = "accept-encoding".toList

end Site

/-! ### Compression -/

namespace Compression

/-- `Vary` of a compressed response. -/
theorem varyTokens_encodedHeaders (algo : CompressionAlgorithm) (headers : HeaderMap) (len : ℕ) :
    varyTokens (encodedHeaders algo headers len) = ["Accept-Encoding".toList] := by
  have hitems : FieldList.items (HeaderValue.latin1 ⟨Utf8.encode "Accept-Encoding".toList⟩) =
      ["Accept-Encoding".toList] := by decide
  rw [varyTokens, encodedHeaders, HeaderMap.getAll_insert, if_pos rfl, List.flatMap_singleton,
    hitems]

theorem readableVary_encodedHeaders (algo : CompressionAlgorithm) (headers : HeaderMap) (len : ℕ) :
    ReadableVary (encodedHeaders algo headers len) := by
  intro v hv
  rw [encodedHeaders, HeaderMap.getAll_insert, if_pos rfl, List.mem_singleton] at hv
  rw [hv]
  decide

end Compression

/-! ### The CORS layer -/

/-- What the layer does to a response: the origin that is allowed is named in it, `Vary` and the
encoding stay, and `Vary` says so when another origin can be treated in another way. -/
structure NamesOrigin (cors : Option CorsConfig) (origin : Option Str)
    (resp resp' : HttpResponse) : Prop where
  status : resp'.status = resp.status
  body : resp'.body = resp.body
  encoding : resp'.headers.getAll "content-encoding".toList =
    resp.headers.getAll "content-encoding".toList
  named : resp'.headers.getAll "access-control-allow-origin".toList =
    (cors.bind fun config => config.originValue origin).elim
      (resp.headers.getAll "access-control-allow-origin".toList) fun o => [⟨Utf8.encode o⟩]
  vary : ∀ token ∈ varyTokens resp.headers, token ∈ varyTokens resp'.headers
  varies : (∃ token ∈ varyTokens resp'.headers, lower token = "origin".toList) ∨
    ∀ origin', (cors.bind fun config => config.originValue origin') =
      cors.bind fun config => config.originValue origin

/-- The layer with a list of origins. -/
theorem namesOrigin_of_addsCors {config : CorsConfig} (hlist : "*".toList ∉ config.allowedOrigins)
    {origin : Option Str} (horigin : ∀ o ∈ origin, HeaderValue.fromStr o = some ⟨Utf8.encode o⟩)
    {resp resp' : HttpResponse} (h : AddsCors config origin resp.headers resp'.headers)
    (hstatus : resp'.status = resp.status) (hbody : resp'.body = resp.body) :
    NamesOrigin (some config) origin resp resp' where
  status := hstatus
  body := hbody
  encoding := h.other _ (by decide) (by decide)
  named := by
    rw [Option.bind_some, CorsConfig.originValue, CorsConfig.isWildcardOnly_eq_false hlist,
      if_neg Bool.false_ne_true]
    by_cases hallowed : ∃ o ∈ origin, o ∈ config.allowedOrigins
    · obtain ⟨o, ho, hmem⟩ := hallowed
      obtain ⟨v, hv, hall⟩ := h.allowed o ho hmem
      cases ho
      rw [horigin o rfl] at hv
      cases hv
      rw [hall, Option.filter_some, if_pos (by simpa using hmem), Option.elim_some]
    · have hdenied : ∀ o ∈ origin, o ∉ config.allowedOrigins := fun o ho hmem =>
        hallowed ⟨o, ho, hmem⟩
      have hnone : origin.filter (fun o => config.allowedOrigins.any fun a => a = o) = none := by
        rw [Option.filter_eq_none_iff]
        intro o ho
        simpa using hdenied o ho
      rw [hnone, h.denied hdenied _ (by decide), Option.elim_none]
  vary token htoken := by
    rw [h.vary]
    exact List.mem_append_left _ htoken
  varies := by
    refine .inl ?_
    rw [h.vary]
    cases hvaries : variesOnOrigin resp.headers with
    | false => exact ⟨"Origin".toList, List.mem_append_right _ List.mem_cons_self, by decide⟩
    | true =>
        obtain ⟨token, htoken, heq⟩ := List.any_eq_true.1 hvaries
        refine ⟨token, List.mem_append_left _ htoken, ?_⟩
        rw [← eqIgnoreAsciiCase_iff.1 heq]
        decide

/-- The layer with `*` in its list treats every origin in the same way. -/
theorem namesOrigin_of_wildcard {config : CorsConfig} (hlist : "*".toList ∈ config.allowedOrigins)
    {debugAssertions : Bool} {origin : Option Str} {resp : HttpResponse} {headers : HeaderMap}
    (h : config.applyHeaders debugAssertions resp.headers origin = some headers) :
    NamesOrigin (some config) origin resp { resp with headers := headers } := by
  have hwildcard : config.isWildcardOnly = true := List.contains_iff_mem.2 hlist
  have hvalue : ∀ origin', config.originValue origin' = some "*".toList := fun origin' => by
    rw [CorsConfig.originValue, hwildcard, if_pos rfl]
  rw [CorsConfig.applyHeaders, hwildcard, hvalue] at h
  rw [if_pos rfl] at h
  dsimp only at h
  split_ifs at h
  cases h
  have hstar : HeaderValue.fromStr "*".toList = some ⟨Utf8.encode "*".toList⟩ := by decide
  have hvary := varyTokens_congr (config.getAll_vary_allowHeaders resp.headers "*".toList)
  exact {
    status := rfl
    body := rfl
    encoding := config.getAll_allowHeaders_of_notMem resp.headers "*".toList (by decide)
    named := by
      rw [Option.bind_some, hvalue]
      exact CorsConfig.getAll_allowHeaders_of_fromStr hstar
    vary := fun token htoken => hvary ▸ htoken
    varies := .inr fun origin' => by rw [Option.bind_some, Option.bind_some, hvalue, hvalue] }

/-- **The layer** names the origin. -/
theorem MiddlewarePipeline.postHandle_cases {p : MiddlewarePipeline} {debugAssertions : Bool}
    {origin : Option Str} (horigin : ∀ o ∈ origin, HeaderValue.fromStr o = some ⟨Utf8.encode o⟩)
    {resp resp' : HttpResponse} (hvary : ReadableVary resp.headers)
    (h : p.postHandle debugAssertions resp origin = some resp') :
    NamesOrigin p.cors origin resp resp' := by
  unfold postHandle at h
  cases hcors : p.cors with
  | none =>
      rw [hcors] at h
      cases h
      exact ⟨rfl, rfl, rfl, rfl, fun _ htoken => htoken, .inr fun _ => rfl⟩
  | some config =>
      rw [hcors] at h
      obtain ⟨headers, happly, rfl⟩ := Option.map_eq_some_iff.1 h
      by_cases hlist : "*".toList ∈ config.allowedOrigins
      · exact namesOrigin_of_wildcard hlist happly
      · obtain ⟨headers', happly', hadds, -⟩ := config.applyHeaders_addsCors hlist debugAssertions
          origin (fun o ho => by rw [horigin o ho]; rfl) resp.headers hvary
        cases happly.symm.trans happly'
        exact namesOrigin_of_addsCors hlist horigin hadds rfl rfl

/-! ### Behind the cache -/

/-- The value of `Origin` that the server reads is a header value. -/
theorem fromStr_of_mem_originOf {headers : HeaderMap} :
    ∀ o ∈ originOf headers, HeaderValue.fromStr o = some ⟨Utf8.encode o⟩ := by
  intro o ho
  obtain ⟨v, -, hv⟩ := Option.bind_eq_some_iff.1 ho
  rw [HeaderValue.fromStr_of_toStr hv, HeaderValue.encode_of_toStr hv]

namespace Site

variable {κ : Type} {site : Site κ} {env : SiteEnv} {decode : Decoders}

/-- A response of the server comes from one of the handler. -/
theorem serve_cases {r : κ × HeaderMap} {resp : HttpResponse} (h : site.serve env r = some resp) :
    ∃ full, site.handled env r.1 r.2 = .ok full ∧ site.pipeline.postHandle env.debugAssertions
      ⟨full.status, full.headers, full.body⟩ (originOf r.2) = some resp := by
  unfold serve at h
  cases hhandled : site.handled env r.1 r.2 with
  | error e =>
      rw [hhandled] at h
      cases h
  | ok full =>
      rw [hhandled] at h
      exact ⟨full, rfl, h⟩

/-- Requests that agree on what the response varies on name the same origin. -/
theorem allowedOrigin_congr {r r' : κ × HeaderMap} {full resp : HttpResponse}
    (hnames : NamesOrigin site.pipeline.cors (originOf r.2) full resp)
    (hcovers : varyCovers resp.headers r.2 r'.2 = true) :
    site.allowedOrigin r'.2 = site.allowedOrigin r.2 := by
  rcases hnames.varies with ⟨token, htoken, heq⟩ | hall
  · have hsame := (varyCovers_iff.1 hcovers token htoken).2
    rw [heq] at hsame
    unfold allowedOrigin originOf HeaderMap.get
    rw [hsame]
  · exact hall _

/-- A response is as it should be for every request that the handler, the compression and the CORS
layer cannot tell from the one that it was given to. -/
theorem proper_of_same (hz : env.z.InvertedBy decode) {r r' : κ × HeaderMap} {full : FullResponse}
    {resp : HttpResponse} (hhandled : site.handled env r.1 r.2 = .ok full)
    (hnames : NamesOrigin site.pipeline.cors (originOf r.2)
      ⟨full.status, full.headers, full.body⟩ resp)
    (hbase : site.base r'.1 r'.2 = site.base r.1 r.2)
    (horigin : site.allowedOrigin r'.2 = site.allowedOrigin r.2)
    (haccept : full = site.base r.1 r.2 ∨
      headerText r'.2 "accept-encoding" = headerText r.2 "accept-encoding") :
    site.Proper env decode r' resp := by
  have hnamed : resp.headers.getAll "access-control-allow-origin".toList =
      (site.allowedOrigin r.2).elim (full.headers.getAll "access-control-allow-origin".toList)
        fun o => [⟨Utf8.encode o⟩] := hnames.named
  rw [← horigin] at hnamed
  rcases Compression.apply_cases hhandled with heq | ⟨ae, algo, compressed, hae, hchosen, hcompress,
    heq⟩
  · exact {
      status := by rw [hnames.status, hbase, heq]
      body := .inl ⟨by rw [hnames.encoding, hbase, heq], by rw [hnames.body, hbase, heq]⟩
      origin := by rw [hnamed, hbase, heq] }
  · have hother : full.headers.getAll "access-control-allow-origin".toList =
        (site.base r.1 r.2).headers.getAll "access-control-allow-origin".toList := by
      rw [heq]
      exact Compression.getAll_other (by decide) (by decide) (by decide)
    have hlevel := site.compression.level_bounds
    refine {
      status := by rw [hnames.status, hbase, heq]
      body := ?_
      origin := by rw [hnamed, hbase, hother] }
    rw [hbase, hnames.encoding, hnames.body]
    rcases haccept with hsame | hsame
    · exact .inl ⟨by rw [hsame], by rw [hsame]⟩
    · refine .inr ⟨ae, algo, hsame.trans hae, hchosen, ?_, ?_⟩
      · rw [heq]
        exact Compression.getAll_encoding
      · rw [heq]
        exact hz algo _ _ _ hlevel.1 hlevel.2 hcompress

/-- A response of the server and the requests that it may be given to. -/
def ServedFor (site : Site κ) (env : SiteEnv) (r : κ × HeaderMap) (resp : HttpResponse) : Prop :=
  ∃ r₀, site.serve env r₀ = some resp ∧
    (r₀ = r ∨ r₀.1 = r.1 ∧ varyCovers resp.headers r₀.2 r.2 = true)

/-- The layers keep what the response of the handler varies on, as far as it is needed. -/
theorem varyCovers_base (hhonest : site.Honest env) {r : κ × HeaderMap} {headers : HeaderMap}
    {full : FullResponse} {resp : HttpResponse} (hhandled : site.handled env r.1 r.2 = .ok full)
    (hnames : NamesOrigin site.pipeline.cors (originOf r.2)
      ⟨full.status, full.headers, full.body⟩ resp)
    (hcovers : varyCovers resp.headers r.2 headers = true) :
    varyCovers (site.base r.1 r.2).headers r.2 headers = true ∧
      (full = site.base r.1 r.2 ∨
        headerText headers "accept-encoding" = headerText r.2 "accept-encoding") := by
  have hfull : varyCovers full.headers r.2 headers = true :=
    varyCovers_iff.2 fun token htoken => varyCovers_iff.1 hcovers token (hnames.vary token htoken)
  have hkept := hhonest.kept r.1 r.2 full hhandled
  rcases Compression.apply_cases hhandled with heq | ⟨ae, algo, compressed, -, -, -, heq⟩
  · exact ⟨heq ▸ hfull, .inl heq⟩
  · -- only `Accept-Encoding` is left
    have hsame := (varyCovers_iff.1 hfull "Accept-Encoding".toList (by
      rw [heq, Compression.varyTokens_encodedHeaders]
      exact List.mem_singleton_self _)).2
    have hlower : lower "Accept-Encoding".toList = "accept-encoding".toList := by decide
    rw [hlower] at hsame
    rcases hkept with hbase | hkept
    · exact ⟨hbase ▸ hfull, .inl hbase⟩
    · refine ⟨varyCovers_iff.2 fun token htoken => ?_, .inr ?_⟩
      · refine ⟨?_, by rw [hkept token htoken, hsame]⟩
        rintro rfl
        exact absurd (hkept _ htoken) (by decide)
      · rw [headerText, headerText, HeaderMap.get, HeaderMap.get, hsame]

/-- What the server answers is as it should be for every request that it may be given to. -/
theorem ServedFor.proper (hz : env.z.InvertedBy decode) (hhonest : site.Honest env)
    {r : κ × HeaderMap} {resp : HttpResponse} (h : site.ServedFor env r resp) :
    site.Proper env decode r resp := by
  obtain ⟨r₀, hserve, hfor⟩ := h
  obtain ⟨full, hhandled, hpost⟩ := serve_cases hserve
  have hreadable : ReadableVary full.headers := by
    rcases Compression.apply_cases hhandled with heq | ⟨_, algo, compressed, -, -, -, heq⟩
    · rw [heq]
      exact hhonest.readable r₀.1 r₀.2
    · rw [heq]
      exact Compression.readableVary_encodedHeaders algo _ _
  have hnames := MiddlewarePipeline.postHandle_cases fromStr_of_mem_originOf hreadable hpost
  rcases hfor with rfl | ⟨htarget, hcovers⟩
  · exact proper_of_same hz hhandled hnames rfl rfl (.inr rfl)
  · obtain ⟨hbase, haccept⟩ := varyCovers_base hhonest hhandled hnames hcovers
    have hsame := hhonest.varies r₀.1 r₀.2 r.2 hbase
    rw [htarget] at hsame
    exact proper_of_same hz hhandled hnames (by rw [htarget, hsame])
      (allowedOrigin_congr hnames hcovers) haccept

/-- The cache gives a response to such requests only. -/
theorem servedFor_stable [DecidableEq κ] : (site.origin env).Stable (site.ServedFor env) where
  served r resp hserve := ⟨r, hserve, .inl rfl⟩
  covered r resp r' := by
    rintro ⟨r₀, hserve, hfor⟩ hcovers
    obtain ⟨htarget, hcovers⟩ := (Bool.and_eq_true_iff.1 hcovers).imp_left of_decide_eq_true
    refine ⟨r₀, hserve, .inr ?_⟩
    rcases hfor with rfl | ⟨htarget₀, hcovers₀⟩
    · exact ⟨htarget, hcovers⟩
    · exact ⟨htarget₀.trans htarget, varyCovers_trans hcovers₀ hcovers⟩

/-- **Every client gets what it is to get**, whatever the cache keeps, forgets and gives to whom, as
long as it follows `Vary`. -/
theorem sharedCache_proper [DecidableEq κ] (site : Site κ) (env : SiteEnv)
    (hz : env.z.InvertedBy decode) (hhonest : site.Honest env)
    (actions : List (SharedCache.Action (κ × HeaderMap))) :
    ∀ e ∈ (site.origin env).run [] actions, site.Proper env decode e.1 e.2 :=
  fun e he => (SharedCache.Origin.answers_run servedFor_stable actions e he).proper hz hhonest

/-- One response for everyone, compressed for those who want it, and two origins. -/
def greeting : Site Unit where
  base _ _ := Compression.greetingResponse "vary" "accept-encoding"
  compression := Compression.new.minSize 0
  pipeline := { cors := some (CorsConfig.withOrigins ["https://a".toList, "https://b".toList]) }

/-- The fields of a request. -/
def requestFields (acceptEncoding origin : String) : HeaderMap :=
  ⟨[("accept-encoding".toList, ⟨Utf8.encode acceptEncoding.toList⟩),
    ("origin".toList, ⟨Utf8.encode origin.toList⟩)]⟩

theorem greeting_honest (env : SiteEnv) : greeting.Honest env where
  varies _ _ _ _ := rfl
  readable _ _ v hv := by
    have hvalue : v = ⟨Utf8.encode "accept-encoding".toList⟩ := List.mem_singleton.1 hv
    rw [hvalue]
    decide
  kept _ _ _ _ := .inr fun token htoken => by
    have htokens : varyTokens (Compression.greetingResponse "vary" "accept-encoding").headers =
        ["accept-encoding".toList] := by decide
    have htoken' := List.mem_singleton.1 (htokens ▸ htoken)
    rw [htoken']
    decide

/-- The second client asks for the same, and the third one from elsewhere. -/
theorem sharedCache_proper_greeting :
    ((greeting.origin ⟨Compression.storing, .panics, true⟩).run []
      [.ask ((), requestFields "gzip" "https://a") none true,
        .ask ((), requestFields "gzip" "https://a") (some 0) true,
        .ask ((), requestFields "gzip" "https://b") (some 0) true]).Forall fun e =>
      greeting.Proper ⟨Compression.storing, .panics, true⟩ Compression.unstore e.1 e.2 :=
  List.forall_iff_forall_mem.2 (sharedCache_proper greeting ⟨Compression.storing, .panics, true⟩
    Compression.storing_invertedBy (greeting_honest _) _)

end Site

end OxiHttp
