/-
**Requests with a multipart body.**

`RequestBuilder::multipart` and `multipart_stream` take the body from a builder and, unless the
caller has set one, the content type.

Main definitions:

* `OxiHttp.Body`, `OxiHttp.RequestBuilder` — a body and a request under construction;
* `OxiHttp.RequestBuilder.multipart`, `OxiHttp.RequestBuilder.multipartStream` — the two setters.

Main results:

* `OxiHttp.contentTypeOf_isVisible` — a content type with a generated boundary is a header value;
* `OxiHttp.multipart_announces_iff` — when the boundary that is announced is that of the body.
-/

import OxiHttp.Http
import OxiHttp.MultipartStream

set_option relaxedAutoImplicit false
set_option autoImplicit false

namespace OxiHttp

/-- `Body`; its streams are those of multipart bodies. -/
inductive Body where
  | empty
  | full (data : List UInt8)
  | stream (queue : List PendingChunk)
deriving DecidableEq

/-- `Body::from(bytes)`. -/
def Body.fromBytes (data : List UInt8) : Body := if data.isEmpty then .empty else .full data

/-- `RequestBuilder`: the request that is built. -/
structure RequestBuilder where
  method : Method
  uri : Uri
  headers : HeaderMap := {}
  body : List UInt8 := []
  streamBody : Option Body := none
deriving DecidableEq

namespace RequestBuilder

/-- The part of `multipart` and `multipart_stream` that sets the content type, unless the caller has
already provided one. -/
def withContentType (request : RequestBuilder) (contentType : Str) : RequestBuilder :=
  if request.headers.containsKey "content-type".toList then request
  else
    match HeaderValue.fromStr contentType with
    | some v => { request with headers := request.headers.insert "content-type".toList v }
    | none => request

/-- `multipart`. -/
def multipart (request : RequestBuilder) (builder : MultipartBuilder) : Option RequestBuilder :=
  builder.build.map fun body =>
    -- the content type is that of the stored boundary, not of the one the body was built with
    { request with body, streamBody := none }.withContentType builder.contentType

/-- `multipart_stream`. -/
def multipartStream (request : RequestBuilder) (streaming : StreamingMultipart) :
    Option RequestBuilder :=
  streaming.buildStream.map fun queue =>
    { request with body := [], streamBody := some (.stream queue) }.withContentType
      streaming.contentType

/-- The content type the request is sent with. -/
def contentType (request : RequestBuilder) : Option Str :=
  (request.headers.get "content-type".toList).bind HeaderValue.toStr

end RequestBuilder

/-! ### The content type -/

theorem generateBoundary_isVisible (nanos : UInt32) (counter : UInt64) :
    HeaderValue.IsVisible (generateBoundary nanos counter) := by
  have hhex : ∀ d < 16, 0x20 ≤ (hexLower d).val.toNat ∧ (hexLower d).val.toNat < 0x7F := by decide
  have hstart : HeaderValue.IsVisible "----OxiHTTPBoundary".toList := by decide +kernel
  intro c hc
  rcases List.mem_append.1 hc with hc | hc
  · rcases List.mem_append.1 hc with hc | hc
    · exact hstart c hc
    · obtain ⟨d, hd, rfl⟩ := mem_formatHex hc
      exact hhex d hd
  · obtain ⟨d, hd, rfl⟩ := mem_formatHex hc
    exact hhex d hd

/-- A content type with a generated boundary is a header value. -/
theorem contentTypeOf_isVisible {boundary : Str}
    (h : ∃ nanos counter, boundary = generateBoundary nanos counter) :
    HeaderValue.IsVisible (contentTypeOf boundary) := by
  obtain ⟨nanos, counter, rfl⟩ := h
  have hstart : HeaderValue.IsVisible "multipart/form-data; boundary=".toList := by decide +kernel
  intro c hc
  rcases List.mem_append.1 hc with hc | hc
  · exact hstart c hc
  · exact generateBoundary_isVisible nanos counter c hc

/-- The content type of a request whose caller has provided none. -/
theorem RequestBuilder.contentType_withContentType {request : RequestBuilder} {contentType : Str}
    (hnone : request.headers.containsKey "content-type".toList = false)
    (hvisible : HeaderValue.IsVisible contentType) :
    (request.withContentType contentType).contentType = some contentType := by
  rw [withContentType, hnone, if_neg (by simp), HeaderValue.fromStr_of_isVisible hvisible]
  simp only [RequestBuilder.contentType, HeaderMap.get, HeaderMap.getAll_insert, if_pos,
    List.head?_cons, Option.bind_some, HeaderValue.toStr_of_isVisible hvisible]

theorem RequestBuilder.body_withContentType (request : RequestBuilder) (contentType : Str) :
    (request.withContentType contentType).body = request.body ∧
      (request.withContentType contentType).streamBody = request.streamBody := by
  unfold withContentType
  split
  · exact ⟨rfl, rfl⟩
  · split <;> exact ⟨rfl, rfl⟩

/-! ### Requests -/

/-- The request has the parts of the builder under the boundary its content type announces. -/
def RequestBuilder.Carries (request : RequestBuilder) (builder : MultipartBuilder) : Prop :=
  request.streamBody = none ∧ ∃ contentType, request.contentType = some contentType ∧
    Announces contentType (builder.parts.map Part.toBodyPart) request.body

/-- The request streams the parts of the builder under the boundary its content type announces. -/
def RequestBuilder.Streams (request : RequestBuilder) (streaming : StreamingMultipart) : Prop :=
  ∃ queue contentType, request.streamBody = some (.stream queue) ∧
    request.contentType = some contentType ∧
      StreamAnnounces contentType (streaming.parts.map PartOrStream.toBodyPart) queue

theorem RequestBuilder.carries_withContentType {request : RequestBuilder}
    (hnone : request.headers.containsKey "content-type".toList = false)
    (builder : MultipartBuilder) (body : List UInt8) :
    ({ request with body, streamBody := none }.withContentType builder.contentType).Carries builder
      ↔ Announces builder.contentType (builder.parts.map Part.toBodyPart) body := by
  have hct := @contentType_withContentType { request with body, streamBody := none }
    builder.contentType hnone (contentTypeOf_isVisible builder.generated)
  obtain ⟨hbody, hstream⟩ := body_withContentType { request with body, streamBody := none }
    builder.contentType
  rw [Carries, hct, hbody, hstream]
  simp

theorem RequestBuilder.streams_withContentType {request : RequestBuilder}
    (hnone : request.headers.containsKey "content-type".toList = false)
    (streaming : StreamingMultipart) (queue : List PendingChunk) :
    ({ request with body := [], streamBody := some (.stream queue) }.withContentType
        streaming.contentType).Streams streaming
      ↔ StreamAnnounces streaming.contentType (streaming.parts.map PartOrStream.toBodyPart)
        queue := by
  have hct := @contentType_withContentType
    { request with body := [], streamBody := some (.stream queue) } streaming.contentType hnone
    (contentTypeOf_isVisible streaming.generated)
  obtain ⟨-, hstream⟩ := body_withContentType
    { request with body := [], streamBody := some (.stream queue) } streaming.contentType
  rw [Streams, hct, hstream]
  simp

/-- A request carries a builder's parts as the builder announces them. -/
theorem multipart_carries_iff {request : RequestBuilder}
    (hnone : request.headers.containsKey "content-type".toList = false)
    (builder : MultipartBuilder) :
    (∃ sent, request.multipart builder = some sent ∧ sent.Carries builder)
      ↔ ∃ body, builder.build = some body ∧
        Announces builder.contentType (builder.parts.map Part.toBodyPart) body := by
  simp only [RequestBuilder.multipart, Option.map_eq_some_iff]
  constructor
  · rintro ⟨_, ⟨body, hbuild, rfl⟩, hcarries⟩
    exact ⟨body, hbuild, (RequestBuilder.carries_withContentType hnone builder body).1 hcarries⟩
  · rintro ⟨body, hbuild, hann⟩
    exact ⟨_, ⟨body, hbuild, rfl⟩,
      (RequestBuilder.carries_withContentType hnone builder body).2 hann⟩

theorem multipartStream_streams_iff {request : RequestBuilder}
    (hnone : request.headers.containsKey "content-type".toList = false)
    (streaming : StreamingMultipart) :
    (∃ sent, request.multipartStream streaming = some sent ∧ sent.Streams streaming)
      ↔ ∃ queue, streaming.buildStream = some queue ∧ StreamAnnounces streaming.contentType
        (streaming.parts.map PartOrStream.toBodyPart) queue := by
  simp only [RequestBuilder.multipartStream, Option.map_eq_some_iff]
  constructor
  · rintro ⟨_, ⟨queue, hbuild, rfl⟩, hstreams⟩
    exact ⟨queue, hbuild,
      (RequestBuilder.streams_withContentType hnone streaming queue).1 hstreams⟩
  · rintro ⟨queue, hbuild, hann⟩
    exact ⟨_, ⟨queue, hbuild, rfl⟩,
      (RequestBuilder.streams_withContentType hnone streaming queue).2 hann⟩

/-- The boundary that is announced is the one the body is written with exactly when no buffered part
contains it: for both builders, and for the requests they are given to, unless the caller has set a
content type. -/
theorem multipart_announces_iff (builder : MultipartBuilder) (streaming : StreamingMultipart)
    (request : RequestBuilder)
    (hnone : request.headers.containsKey "content-type".toList = false) :
    ((∃ body, builder.build = some body ∧
        Announces builder.contentType (builder.parts.map Part.toBodyPart) body)
      ↔ ∀ part ∈ builder.parts, ¬ Utf8.encode builder.boundary <:+: part.body) ∧
    ((∃ sent, request.multipart builder = some sent ∧ sent.Carries builder)
      ↔ ∀ part ∈ builder.parts, ¬ Utf8.encode builder.boundary <:+: part.body) ∧
    ((∃ queue, streaming.buildStream = some queue ∧ StreamAnnounces streaming.contentType
        (streaming.parts.map PartOrStream.toBodyPart) queue)
      ↔ ∀ part, .buffered part ∈ streaming.parts →
        ¬ Utf8.encode streaming.boundary <:+: part.body) ∧
    ((∃ sent, request.multipartStream streaming = some sent ∧ sent.Streams streaming)
      ↔ ∀ part, .buffered part ∈ streaming.parts →
        ¬ Utf8.encode streaming.boundary <:+: part.body) :=
  ⟨builder.announces_iff, (multipart_carries_iff hnone builder).trans builder.announces_iff,
    streaming.announces_iff,
    (multipartStream_streams_iff hnone streaming).trans streaming.announces_iff⟩

/-- A request without headers. -/
def plainRequest : RequestBuilder where
  method := .post
  uri :=
    { path := "/".toList, path_delimited := root_delimited, query_delimited := noQuery_delimited }

/-- A builder with one text that does not contain the boundary. -/
def harmlessBuilder : MultipartBuilder :=
  (MultipartBuilder.new 0 0).addText "field".toList "value".toList

theorem multipart_announces_harmlessBuilder :
    ∃ sent, plainRequest.multipart harmlessBuilder = some sent ∧ sent.Carries harmlessBuilder := by
  have hannounces := multipart_announces_iff harmlessBuilder
    (harmlessBuilder.addStreamPart [] []) plainRequest (by decide)
  refine hannounces.2.1.2 ?_
  decide +kernel

/-- A builder with one text that is the boundary. -/
def collidingBuilder : MultipartBuilder :=
  (MultipartBuilder.new 0 0).addText "field".toList (generateBoundary 0 0)

/-- Its body is written with a longer boundary than the one its content type announces. -/
theorem not_announces_collidingBuilder :
    collidingBuilder.findUniqueBoundary
        = some (collidingBuilder.boundary ++ "0001".toList) ∧
      ¬ ∃ body, collidingBuilder.build = some body ∧ Announces collidingBuilder.contentType
        (collidingBuilder.parts.map Part.toBodyPart) body := by
  refine ⟨by decide +kernel, ?_⟩
  rw [MultipartBuilder.announces_iff]
  intro h
  exact h _ List.mem_cons_self (List.infix_refl _)

end OxiHttp
