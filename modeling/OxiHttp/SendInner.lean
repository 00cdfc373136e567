/-
**Following redirects.**

`send_inner` sends a request and, as long as the response is a redirect and the policy allows it,
another one to where the redirect leads.  Once a redirect leaves the origin of the first request the
caller's credentials are dropped, and they are not taken up again.

A run is given by what becomes of each request: the response or the failure of the transport, the
times it is sent and answered at, and what the other requests of the client make of the cookie jar
they share.  A jar that is not there, or whose lock is poisoned, is `none`.

Main definitions:

* `OxiHttp.OutgoingBody` — a body that can be sent again, or once only;
* `OxiHttp.SendState`, `OxiHttp.sendHop`, `OxiHttp.sendLoop` — the loop;
* `OxiHttp.sendInner` — the requests of a run, and how it ends.

Main results:

* `OxiHttp.sendLoop_rule` — what one hop keeps holds of every request of a run;
* `OxiHttp.credentials_contained` — no credentials after the origin has been left, and the caller's
  until then.
-/

import OxiHttp.CookieRuns
import OxiHttp.Positions
import OxiHttp.RedirectTarget
import OxiHttp.RequestBuilder

set_option relaxedAutoImplicit false
set_option autoImplicit false

namespace OxiHttp

/-! ### The body -/

/-- `OutgoingBody`. -/
inductive OutgoingBody where
  | reusable (data : List UInt8)
  | oneShot (slot : Option Body)
deriving DecidableEq

namespace OutgoingBody

/-- `take_for_hop`. -/
def takeForHop : OutgoingBody → Except OxiHttpError Body × OutgoingBody
  | .reusable data => (.ok (Body.fromBytes data), .reusable data)
  | .oneShot (some body) => (.ok body, .oneShot none)
  | .oneShot none =>
      (.error (.body ("streaming request body (multipart_stream) was already sent once and " ++
        "cannot be sent again — it cannot be retried and cannot follow a " ++
        "body-preserving (307/308) redirect")), .oneShot none)

/-- `clear`. -/
def clear (_ : OutgoingBody) : OutgoingBody := .reusable []

end OutgoingBody

/-! ### One hop -/

/-- What the loop is called with and does not change. -/
structure SendConfig where
  redirectPolicy : RedirectPolicy := .default
  decompression : Bool := true
  /-- The crate is built with the feature `decompression`. -/
  decompressionFeature : Bool := true
  maxResponseBody : ℕ
  /-- The largest point in time. -/
  clockMax : ℕ
deriving DecidableEq

/-- The variables of the loop. -/
structure SendState where
  method : Method
  uri : Uri
  body : OutgoingBody
  headers : HeaderMap
  jar : Option CookieJar
  redirectCount : ℕ := 0
deriving DecidableEq

/-- What comes back for a request. -/
inductive Answer where
  | failed (e : String)
  | response (status : ℕ) (headers : HeaderMap)
deriving DecidableEq

/-- What becomes of a request. -/
structure Hop where
  /-- What other requests have made of the jar when it is read. -/
  before : CookieJar → Option CookieJar := some
  sentAt : ℕ
  answer : Answer
  /-- What other requests have made of the jar when it is written. -/
  during : CookieJar → Option CookieJar := some
  /-- What the clock reads as the cookies of the answer are stored, one after the other. -/
  clock : ℕ → ℕ

/-- A request that is handed to the transport, with the time and the jar its cookies are from. -/
structure SentRequest where
  method : Method
  uri : Uri
  headers : HeaderMap
  body : Body
  sentAt : ℕ
  jar : Option CookieJar
deriving DecidableEq

/-- `Response`, without its body. -/
structure Response where
  status : ℕ
  headers : HeaderMap
  decompress : Bool
  maxBodyBytes : ℕ
deriving DecidableEq

/-- How a hop ends. -/
inductive HopResult where
  | next (s : SendState)
  | done (r : Except OxiHttpError Response)
  | panicked

/-- The `Cookie` header the jar has for a URI. -/
def jarCookie (now : ℕ) (jar : Option CookieJar) (uri : Uri) : Option HeaderValue :=
  jar.bind fun jar => (jar.toCookieHeaderForUrl now uri).bind HeaderValue.fromStr

/-- The headers of a request: those of the loop, the accepted encodings unless they are among them,
and the cookies of the jar. -/
def requestHeaders (config : SendConfig) (headers : HeaderMap) (cookie : Option HeaderValue) :
    HeaderMap :=
  let headers :=
    if config.decompressionFeature && config.decompression &&
        !headers.containsKey "accept-encoding".toList then
      headers.append "accept-encoding".toList ⟨Utf8.encode "gzip, deflate".toList⟩
    else headers
  match cookie with
  | some v => headers.insert "cookie".toList v
  | none => headers

/-- The jar after a response; the outer `none` is a panic. -/
def storeCookies (clockMax : ℕ) (clock : ℕ → ℕ) (jar : Option CookieJar) (headers : HeaderMap)
    (uri : Uri) : Option (Option CookieJar) :=
  match jar with
  | none => some none
  | some jar =>
      let left := jar.addFromResponse lower clockMax clock headers uri
      if left.panicked then none else some (some left.jar)

/-- The headers that are left when the new URI is another origin than the original one. -/
def stripCredentials (originalUri newUri : Uri) (headers : HeaderMap) : HeaderMap :=
  -- compared with the first URI of the run, not with the one before
  if !sameOrigin originalUri newUri then
    (headers.remove "authorization".toList).remove "cookie".toList
  else headers

/-- The part of the redirect branch that goes on to the next request. -/
def followRedirect (fromStr : Str → Except String Uri) (originalUri : Uri) (s : SendState)
    (status : ℕ) (headers : HeaderMap) : HopResult :=
  let redirectCount := s.redirectCount + 1
  match (headers.get "location".toList).bind HeaderValue.toStr with
  | none => .done (.error (.redirect "redirect response missing Location header"))
  | some location =>
      match resolveRedirectUri fromStr s.uri location with
      | .error e => .done (.error e)
      | .ok newUri =>
          .next { s with
            method := redirectMethod status s.method
            uri := newUri
            body := if !shouldPreserveBody status then s.body.clear else s.body
            headers := stripCredentials originalUri newUri s.headers
            redirectCount }

/-- What the loop does with a response. -/
def handleResponse (config : SendConfig) (fromStr : Str → Except String Uri) (originalUri : Uri)
    (s : SendState) (status : ℕ) (headers : HeaderMap) : HopResult :=
  let response : Response :=
    { status, headers, decompress := config.decompression
      maxBodyBytes := config.maxResponseBody }
  if isRedirectStatus status then
    match config.redirectPolicy.maxRedirects with
    | some max =>
        -- a policy of no redirects hands the redirect to the caller
        if max = 0 || s.redirectCount ≥ max then
          if max = 0 then .done (.ok response)
          else .done (.error (.redirect ("too many redirects (max: " ++ toString max ++ ")")))
        else followRedirect fromStr originalUri s status headers
    | none => followRedirect fromStr originalUri s status headers
  else .done (.ok response)

/-- One round of the loop: the request that is sent, if there is one, and how the round ends. -/
def sendHop (config : SendConfig) (fromStr : Str → Except String Uri) (originalUri : Uri)
    (s : SendState) (hop : Hop) : Option SentRequest × HopResult :=
  match s.body.takeForHop with
  | (.error e, _) => (none, .done (.error e))
  | (.ok pinned, body) =>
      let jar := s.jar.bind hop.before
      let cookie := jarCookie hop.sentAt jar s.uri
      let request : SentRequest :=
        { method := s.method, uri := s.uri, headers := requestHeaders config s.headers cookie
          body := pinned, sentAt := hop.sentAt, jar }
      match hop.answer with
      | .failed e => (some request, .done (.error (.hyper e)))
      | .response status headers =>
          match storeCookies config.clockMax hop.clock (jar.bind hop.during) headers s.uri with
          | none => (some request, .panicked)
          | some jar =>
              (some request, handleResponse config fromStr originalUri { s with body, jar } status
                headers)

/-! ### Runs -/

/-- How a run ends, or that it still waits for an answer. -/
inductive SendOutcome where
  | waiting
  | done (r : Except OxiHttpError Response)
  | panicked

/-- The loop, as far as the hops go: the requests that are sent, and the outcome. -/
def sendLoop (config : SendConfig) (fromStr : Str → Except String Uri) (originalUri : Uri) :
    SendState → List Hop → List SentRequest × SendOutcome
  | _, [] => ([], .waiting)
  | s, hop :: hops =>
      match sendHop config fromStr originalUri s hop with
      | (request, .next s') =>
          (request.toList ++ (sendLoop config fromStr originalUri s' hops).1,
            (sendLoop config fromStr originalUri s' hops).2)
      | (request, .done r) => (request.toList, .done r)
      | (request, .panicked) => (request.toList, .panicked)

/-- `send_inner`. -/
def sendInner (config : SendConfig) (fromStr : Str → Except String Uri) (method : Method)
    (uri : Uri) (body : OutgoingBody) (headers : HeaderMap) (jar : Option CookieJar)
    (hops : List Hop) : List SentRequest × SendOutcome :=
  sendLoop config fromStr uri { method, uri, body, headers, jar } hops

section

variable {config : SendConfig} {fromStr : Str → Except String Uri} {originalUri : Uri}

/-! ### What a hop does to the headers -/

theorem getAll_authorization_requestHeaders (headers : HeaderMap) (cookie : Option HeaderValue) :
    (requestHeaders config headers cookie).getAll "authorization".toList
      = headers.getAll "authorization".toList := by
  have hencoding : "accept-encoding".toList ≠ "authorization".toList := by decide
  have hcookie : "cookie".toList ≠ "authorization".toList := by decide
  unfold requestHeaders
  split_ifs <;> cases cookie <;>
    simp only [HeaderMap.getAll_insert, HeaderMap.getAll_append, if_neg hencoding, if_neg hcookie,
      List.append_nil]

/-- A cookie of the jar takes the place of those of the caller. -/
theorem getAll_cookie_requestHeaders (headers : HeaderMap) (cookie : Option HeaderValue) :
    (requestHeaders config headers cookie).getAll "cookie".toList
      = (cookie.map fun v => [v]).getD (headers.getAll "cookie".toList) := by
  have hencoding : "accept-encoding".toList ≠ "cookie".toList := by decide
  unfold requestHeaders
  split_ifs <;> cases cookie <;>
    simp only [HeaderMap.getAll_insert, HeaderMap.getAll_append, if_neg hencoding, if_pos,
      List.append_nil, Option.map_some, Option.map_none, Option.getD_some, Option.getD_none]

theorem stripCredentials_of_sameOrigin {newUri : Uri} (h : SameOrigin originalUri newUri)
    (headers : HeaderMap) : stripCredentials originalUri newUri headers = headers := by
  rw [stripCredentials, sameOrigin_iff.2 h]
  rfl

/-- Another origin gets no credentials. -/
theorem getAll_stripCredentials {newUri : Uri} (h : ¬ SameOrigin originalUri newUri)
    (headers : HeaderMap) :
    (stripCredentials originalUri newUri headers).getAll "authorization".toList = [] ∧
      (stripCredentials originalUri newUri headers).getAll "cookie".toList = [] := by
  rw [← sameOrigin_iff, Bool.not_eq_true] at h
  rw [stripCredentials, h]
  simp only [Bool.not_false, if_pos, HeaderMap.getAll_remove, ite_self, and_self]

/-- Stripping does not add credentials. -/
theorem getAll_stripCredentials_of_nil {newUri : Uri} {headers : HeaderMap}
    (h : headers.getAll "authorization".toList = [] ∧ headers.getAll "cookie".toList = []) :
    (stripCredentials originalUri newUri headers).getAll "authorization".toList = [] ∧
      (stripCredentials originalUri newUri headers).getAll "cookie".toList = [] := by
  by_cases hsame : SameOrigin originalUri newUri
  · rw [stripCredentials_of_sameOrigin hsame]
    exact h
  · exact getAll_stripCredentials hsame headers

theorem followRedirect_next {s s' : SendState} {status : ℕ} {headers : HeaderMap}
    (h : followRedirect fromStr originalUri s status headers = .next s') :
    s'.headers = stripCredentials originalUri s'.uri s.headers := by
  unfold followRedirect at h
  split at h
  · cases h
  · split at h <;> cases h
    rfl

theorem handleResponse_next {s s' : SendState} {status : ℕ} {headers : HeaderMap}
    (h : handleResponse config fromStr originalUri s status headers = .next s') :
    s'.headers = stripCredentials originalUri s'.uri s.headers := by
  unfold handleResponse at h
  split_ifs at h with hredirect
  split at h
  · split_ifs at h
    exact followRedirect_next h
  · exact followRedirect_next h

/-- The request of a hop is made from the state, and the next state has its headers, stripped. -/
theorem sendHop_cases {s : SendState} {hop : Hop} {request : Option SentRequest} {r : HopResult}
    (h : sendHop config fromStr originalUri s hop = (request, r)) :
    (request = none ∧ ∃ e, r = .done (.error e)) ∨
      ∃ sent, request = some sent ∧ sent.uri = s.uri ∧
        sent.headers = requestHeaders config s.headers (jarCookie sent.sentAt sent.jar sent.uri) ∧
        ∀ s', r = .next s' → s'.headers = stripCredentials originalUri s'.uri s.headers := by
  unfold sendHop at h
  split at h
  case h_1 e _ _ =>
      cases h
      exact .inl ⟨rfl, e, rfl⟩
  case h_2 pinned body _ =>
      refine .inr ?_
      cases hans : hop.answer with
      | failed e =>
          rw [hans] at h
          cases h
          exact ⟨_, rfl, rfl, rfl, fun s' h => by cases h⟩
      | response status headers =>
          rw [hans] at h
          dsimp only at h
          split at h
          · cases h
            exact ⟨_, rfl, rfl, rfl, fun s' h => by cases h⟩
          · cases h
            -- the state has a new body and jar; its headers are those the request was made from
            refine ⟨_, rfl, rfl, rfl, fun s' h => ?_⟩
            have := handleResponse_next h
            exact this

/-- The rule for a run: what holds of the requests so far and the state, and is kept by a hop, says
something about every request. -/
theorem sendLoop_rule {I : List SentRequest → SendState → Prop}
    {Q : List SentRequest → SentRequest → Prop}
    (hsent : ∀ log s hop sent r, I log s →
      sendHop config fromStr originalUri s hop = (some sent, r) → Q log sent)
    (hnext : ∀ log s hop sent s', I log s →
      sendHop config fromStr originalUri s hop = (some sent, .next s') → I (log ++ [sent]) s')
    {log : List SentRequest} {s : SendState} (h : I log s) (hops : List Hop) :
    ∀ before sent after, (sendLoop config fromStr originalUri s hops).1 = before ++ sent :: after →
      Q (log ++ before) sent := by
  -- induction on the hops; the request in question is that of the first one or of a later one
  induction hops generalizing log s with
  | nil =>
      intro before sent after heq
      simp [sendLoop] at heq
  | cons hop hops ih =>
      intro before sent after heq
      rcases hhop : sendHop config fromStr originalUri s hop with ⟨request, r⟩
      rw [sendLoop, hhop] at heq
      rcases sendHop_cases hhop with ⟨rfl, e, rfl⟩ | ⟨first, rfl, -⟩
      · simp at heq
      · obtain ⟨rest, hrest⟩ : ∃ rest, first :: rest = before ++ sent :: after := by
          cases r with
          | next s' => exact ⟨_, heq⟩
          | done r => exact ⟨_, heq⟩
          | panicked => exact ⟨_, heq⟩
        cases before with
        | nil =>
            cases hrest
            rw [List.append_nil]
            exact hsent log s hop sent r h hhop
        | cons b before =>
            obtain rfl : first = b := (List.cons.inj hrest).1
            cases r with
            | next s' =>
                have := ih (hnext log s hop first s' h hhop) before sent after
                  (List.cons.inj heq).2
                rwa [List.append_assoc] at this
            | done r => simp at heq
            | panicked => simp at heq

end

/-! ### Credentials -/

/-- Every URI so far has the origin of the first one. -/
def Stayed (uri : Uri) (uris : List Uri) : Prop := ∀ u ∈ uris, SameOrigin uri u

/-- What the loop keeps of the caller's credentials: all of the authorization as long as the origin
is not left, and nothing afterwards. -/
structure Guarded (uri : Uri) (headers : HeaderMap) (log : List SentRequest) (s : SendState) :
    Prop where
  left : ¬ Stayed uri (log.map SentRequest.uri ++ [s.uri]) →
    s.headers.getAll "authorization".toList = [] ∧ s.headers.getAll "cookie".toList = []
  stayed : Stayed uri (log.map SentRequest.uri ++ [s.uri]) →
    s.headers.getAll "authorization".toList = headers.getAll "authorization".toList

theorem Guarded.next {config : SendConfig} {fromStr : Str → Except String Uri} {uri : Uri}
    {headers : HeaderMap} {log : List SentRequest} {s s' : SendState} {hop : Hop}
    {sent : SentRequest} (h : Guarded uri headers log s)
    (hhop : sendHop config fromStr uri s hop = (some sent, .next s')) :
    Guarded uri headers (log ++ [sent]) s' := by
  rcases sendHop_cases hhop with ⟨hnone, -⟩ | ⟨sent', heq, huri, -, hheaders⟩
  · cases hnone
  · cases heq
    have hs' := hheaders s' rfl
    have huris : (log ++ [sent]).map SentRequest.uri ++ [s'.uri]
        = (log.map SentRequest.uri ++ [s.uri]) ++ [s'.uri] := by
      rw [List.map_append, List.map_singleton, huri]
    constructor
    · rw [huris, hs']
      intro hleft
      -- back at the origin, the credentials were stripped when it was left
      by_cases hnew : SameOrigin uri s'.uri
      · refine getAll_stripCredentials_of_nil (h.left fun hstayed => hleft ?_)
        intro u hu
        rcases List.mem_append.1 hu with hu | hu
        · exact hstayed u hu
        · rwa [List.mem_singleton.1 hu]
      · exact getAll_stripCredentials hnew s.headers
    · rw [huris, hs']
      intro hstayed
      rw [stripCredentials_of_sameOrigin (hstayed s'.uri (by simp))]
      exact h.stayed fun u hu => hstayed u (List.mem_append_left _ hu)

/-- The credentials of a request that was sent after others: the caller's authorization if all of
them, and it, have the scheme and the host of the first URI; otherwise none, and no cookies but
those of the jar. -/
structure Contained (uri : Uri) (headers : HeaderMap) (before : List SentRequest)
    (sent : SentRequest) : Prop where
  left : (∃ r ∈ before ++ [sent], ¬ SameOrigin uri r.uri) →
    sent.headers.getAll "authorization".toList = [] ∧
      sent.headers.getAll "cookie".toList = (jarCookie sent.sentAt sent.jar sent.uri).toList
  stayed : (∀ r ∈ before ++ [sent], SameOrigin uri r.uri) →
    sent.headers.getAll "authorization".toList = headers.getAll "authorization".toList

theorem Guarded.contained {config : SendConfig} {fromStr : Str → Except String Uri} {uri : Uri}
    {headers : HeaderMap} {log : List SentRequest} {s : SendState} {hop : Hop}
    {sent : SentRequest} {r : HopResult} (h : Guarded uri headers log s)
    (hhop : sendHop config fromStr uri s hop = (some sent, r)) :
    Contained uri headers log sent := by
  rcases sendHop_cases hhop with ⟨hnone, -⟩ | ⟨sent', heq, huri, hheaders, -⟩
  · cases hnone
  · cases heq
    have hiff : Stayed uri (log.map SentRequest.uri ++ [s.uri])
        ↔ ∀ r ∈ log ++ [sent], SameOrigin uri r.uri := by
      rw [← huri, ← List.map_singleton, ← List.map_append, Stayed, List.forall_mem_map]
    constructor
    · rintro ⟨r, hr, hother⟩
      obtain ⟨hauth, hcookie⟩ := h.left fun hstayed => hother (hiff.1 hstayed r hr)
      rw [hheaders, getAll_authorization_requestHeaders, getAll_cookie_requestHeaders, hcookie]
      refine ⟨hauth, ?_⟩
      cases jarCookie sent.sentAt sent.jar sent.uri <;> rfl
    · intro hstayed
      rw [hheaders, getAll_authorization_requestHeaders]
      exact h.stayed (hiff.2 hstayed)

/-- Before the first request nothing has been left. -/
theorem guarded_initial (s : SendState) : Guarded s.uri s.headers [] s where
  left hleft := by
    refine absurd (fun u hu => ?_) hleft
    rw [List.mem_singleton.1 hu]
    exact ⟨rfl, rfl⟩
  stayed _ := rfl

/-- Credentials do not leave the origin, in any run. -/
theorem credentials_contained (config : SendConfig) (fromStr : Str → Except String Uri)
    (method : Method) (uri : Uri) (body : OutgoingBody) (headers : HeaderMap)
    (jar : Option CookieJar) (hops : List Hop) :
    ∀ before sent after,
      (sendInner config fromStr method uri body headers jar hops).1 = before ++ sent :: after →
        Contained uri headers before sent := by
  have hinit := guarded_initial { method, uri, body, headers, jar }
  intro before sent after heq
  exact sendLoop_rule (I := Guarded uri headers) (fun _ _ _ _ _ h hhop => h.contained hhop)
    (fun _ _ _ _ _ h hhop => h.next hhop) hinit hops before sent after heq

/-- The caller's headers. -/
def bearerHeaders : HeaderMap := ⟨[("authorization".toList, ⟨Utf8.encode "Bearer t".toList⟩)]⟩

/-- The requests that are sent when `http://h.test/x` redirects to a location. -/
def redirectedTo (location : Str) : List SentRequest :=
  (sendInner { maxResponseBody := 0, clockMax := 0 } readUri .get exampleBase (.reusable [])
    bearerHeaders none
    [{ sentAt := 0
       answer := .response 302 ⟨[("location".toList, ⟨Utf8.encode location⟩)]⟩
       clock := fun _ => 0 },
      { sentAt := 0, answer := .response 200 {}, clock := fun _ => 0 }]).1

/-- Another host gets no credentials. -/
theorem credentials_contained_otherHost :
    ∃ first second, redirectedTo "http://evil.test/".toList = [first, second] ∧
      first.headers.getAll "authorization".toList
        = bearerHeaders.getAll "authorization".toList ∧
      second.headers.getAll "authorization".toList = [] := by
  have hlen : (redirectedTo "http://evil.test/".toList).length = 2 := by decide +kernel
  have horigins : (redirectedTo "http://evil.test/".toList).map
      (fun r => decide (SameOrigin exampleBase r.uri)) = [true, false] := by decide +kernel
  obtain ⟨first, second, hlog⟩ := List.length_eq_two.1 hlen
  have hfirst := credentials_contained _ _ _ _ _ _ _ _ [] first [second] hlog
  have hsecond := credentials_contained _ _ _ _ _ _ _ _ [first] second [] hlog
  simp only [hlog, List.map_cons, List.map_nil, List.cons.injEq, decide_eq_true_eq,
    decide_eq_false_iff_not, and_true] at horigins
  refine ⟨first, second, hlog, hfirst.stayed ?_, (hsecond.left ⟨second, by simp, ?_⟩).1⟩
  · intro r hr
    rw [List.mem_singleton.1 hr]
    exact horigins.1
  · exact horigins.2

/-- The port a URI leads to. -/
def effectivePort (uri : Uri) : ℕ :=
  uri.port.getD (if uri.scheme = some "https".toList then 443 else 80)

/-- Another port of the same host is sent the credentials. -/
theorem not_contained_otherPort :
    ¬ ∀ before sent after,
      redirectedTo "http://h.test:8080/y".toList = before ++ sent :: after →
        (∃ r ∈ before ++ [sent], ¬ (SameOrigin exampleBase r.uri ∧
          effectivePort exampleBase = effectivePort r.uri)) →
        sent.headers.getAll "authorization".toList = [] := by
  rw [Positions.forall_split_iff (P := fun (before : List SentRequest) sent =>
    (∃ r ∈ before ++ [sent], ¬ (SameOrigin exampleBase r.uri ∧
      effectivePort exampleBase = effectivePort r.uri)) →
    sent.headers.getAll "authorization".toList = [])]
  decide +kernel

end OxiHttp
