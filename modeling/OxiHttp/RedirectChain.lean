/-
**Chains of redirects.**

What a server does to a call of `send_inner` is a list of answers.  An answer leads on when it is a
redirect whose location resolves against the URI of the request; the answers that lead on form a
chain, and a run of the loop is such a chain and one more request.

Main definitions:

* `OxiHttp.Answer.leadsTo`, `OxiHttp.chainEnd` — where an answer, and a chain of them, leads;
* `OxiHttp.storesAll` — the cookies of every response are stored without a panic;
* `OxiHttp.FollowedHop` — a hop whose redirect is followed;
* `OxiHttp.Follows` — the part of a run whose redirects were followed.

Main results:

* `OxiHttp.handleResponse_eq` — what becomes of a response;
* `OxiHttp.sendHop_next`, `OxiHttp.FollowedHop.sendHop` — everything a hop that goes on does;
* `OxiHttp.sendLoop_append`, `OxiHttp.follows_of_sent` — runs are chains and what comes after them.
-/

import OxiHttp.SendInner

set_option relaxedAutoImplicit false
set_option autoImplicit false

namespace OxiHttp

/-! ### Answers -/

/-- The answer is a redirect. -/
def Answer.isRedirect : Answer → Bool
  | .response status _ => isRedirectStatus status
  | .failed _ => false

/-- The URI that the location of a response resolves to. -/
def locationUri (fromStr : Str → Except String Uri) (base : Uri) (headers : HeaderMap) :
    Option Uri :=
  ((headers.get "location".toList).bind HeaderValue.toStr).bind fun location =>
    (resolveRedirectUri fromStr base location).toOption

/-- The URI a redirect leads to, when its location resolves. -/
def Answer.leadsTo (fromStr : Str → Except String Uri) (base : Uri) : Answer → Option Uri
  | .response status headers =>
      if isRedirectStatus status then locationUri fromStr base headers else none
  | .failed _ => none

/-- Where a chain of redirects leads. -/
def chainEnd (fromStr : Str → Except String Uri) : Uri → List Answer → Option Uri
  | uri, [] => some uri
  | uri, a :: answers => (a.leadsTo fromStr uri).bind fun uri' => chainEnd fromStr uri' answers

theorem Answer.isRedirect_of_leadsTo {fromStr : Str → Except String Uri} {base uri : Uri}
    {a : Answer} (h : a.leadsTo fromStr base = some uri) : a.isRedirect = true := by
  cases a with
  | failed e => cases h
  | response status headers =>
      rw [leadsTo] at h
      split at h
      · assumption
      · cases h

/-- The response that is handed to the caller. -/
def SendConfig.response (config : SendConfig) (status : ℕ) (headers : HeaderMap) : Response where
  status := status
  headers := headers
  decompress := config.decompression
  maxBodyBytes := config.maxResponseBody

/-- The error that ends a chain that is too long. -/
def tooManyRedirects (max : ℕ) : OxiHttpError :=
  .redirect ("too many redirects (max: " ++ toString max ++ ")")

/-- The policy allows one more redirect. -/
def SendConfig.mayFollow (config : SendConfig) (redirectCount : ℕ) : Bool :=
  config.redirectPolicy.maxRedirects.all fun max => redirectCount < max

/-- As far as a chain goes, the cookies of every response are stored without a panic. -/
def storesAll (config : SendConfig) (fromStr : Str → Except String Uri) :
    Option CookieJar → Uri → List Hop → Bool
  | _, _, [] => true
  | jar, uri, hop :: hops =>
      match hop.answer with
      | .failed _ => true
      | .response _ headers =>
          match storeCookies config.clockMax hop.clock ((jar.bind hop.before).bind hop.during)
              headers uri with
          | none => false
          | some jar => (hop.answer.leadsTo fromStr uri).all fun uri =>
              storesAll config fromStr jar uri hops

section

variable {config : SendConfig} {fromStr : Str → Except String Uri} {originalUri : Uri}

/-! ### One hop -/

/-- The state after a redirect has been followed. -/
def SendState.redirected (s : SendState) (originalUri : Uri) (status : ℕ) (uri : Uri) :
    SendState where
  method := redirectMethod status s.method
  uri := uri
  body := if !shouldPreserveBody status then s.body.clear else s.body
  headers := stripCredentials originalUri uri s.headers
  jar := s.jar
  redirectCount := s.redirectCount + 1

variable (fromStr originalUri) in
/-- A redirect is followed to where it leads; otherwise the call fails, and not for too many
redirects. -/
theorem followRedirect_eq (s : SendState) (status : ℕ) (headers : HeaderMap) :
    match locationUri fromStr s.uri headers with
    | some uri => followRedirect fromStr originalUri s status headers
        = .next (s.redirected originalUri status uri)
    | none => ∃ e, followRedirect fromStr originalUri s status headers = .done (.error e) ∧
        ∀ max, e ≠ tooManyRedirects max := by
  have hne : ∀ max : ℕ, ("redirect response missing Location header" : String)
      ≠ "too many redirects (max: " ++ toString max ++ ")" := by
    intro max h
    have hhead := congrArg (fun s : String => s.toList.head?) h
    simp at hhead
  unfold followRedirect locationUri
  cases (headers.get "location".toList).bind HeaderValue.toStr with
  | none => exact ⟨_, rfl, fun max h => hne max (OxiHttpError.redirect.inj h)⟩
  | some location =>
      simp only [Option.bind_some]
      cases hr : resolveRedirectUri fromStr s.uri location with
      | ok uri => rfl
      | error e =>
          refine ⟨e, rfl, ?_⟩
          -- the only error of a location is that of a URI
          rintro max rfl
          unfold resolveRedirectUri at hr
          dsimp only at hr
          split at hr
          · split at hr
            · cases hr
            · split at hr <;> cases hr
          · split at hr <;> cases hr

/-- What becomes of a response. -/
theorem handleResponse_eq (s : SendState) (status : ℕ) (headers : HeaderMap) :
    handleResponse config fromStr originalUri s status headers =
      if isRedirectStatus status = false ∨ config.redirectPolicy.maxRedirects = some 0 then
        .done (.ok (config.response status headers))
      else if config.mayFollow s.redirectCount then
        followRedirect fromStr originalUri s status headers
      else .done (.error (tooManyRedirects (config.redirectPolicy.maxRedirects.getD 0))) := by
  unfold handleResponse SendConfig.mayFollow
  cases hstatus : isRedirectStatus status with
  | false => simp [SendConfig.response]
  | true =>
      cases config.redirectPolicy.maxRedirects with
      | none => simp
      | some max =>
          rcases Nat.eq_zero_or_pos max with rfl | hmax
          · simp [SendConfig.response]
          · by_cases hcount : s.redirectCount < max
            · simp [hcount, Nat.not_le.2 hcount, hmax.ne']
            · simp [hcount, Nat.le_of_not_lt hcount, hmax.ne', tooManyRedirects]

/-- The request of a hop. -/
def SendState.request (s : SendState) (config : SendConfig) (hop : Hop) (pinned : Body) :
    SentRequest where
  method := s.method
  uri := s.uri
  body := pinned
  sentAt := hop.sentAt
  jar := s.jar.bind hop.before
  headers := requestHeaders config s.headers
    (jarCookie hop.sentAt (s.jar.bind hop.before) s.uri)

variable (config fromStr originalUri) in
/-- A hop with a body that can be sent. -/
theorem sendHop_of_take {s : SendState} {pinned : Body} {body : OutgoingBody}
    (take : s.body.takeForHop = (.ok pinned, body)) (hop : Hop) :
    sendHop config fromStr originalUri s hop = (some (s.request config hop pinned),
      match hop.answer with
      | .failed e => .done (.error (.hyper e))
      | .response status headers =>
          match storeCookies config.clockMax hop.clock
              ((s.jar.bind hop.before).bind hop.during) headers s.uri with
          | none => .panicked
          | some jar => handleResponse config fromStr originalUri { s with body, jar } status
              headers) := by
  rw [sendHop, take]
  dsimp only
  cases hop.answer with
  | failed e => rfl
  | response status headers =>
      dsimp only
      cases storeCookies config.clockMax hop.clock ((s.jar.bind hop.before).bind hop.during)
        headers s.uri <;> rfl

/-- A hop whose response is a redirect that is followed. -/
structure FollowedHop (config : SendConfig) (fromStr : Str → Except String Uri) (s : SendState)
    (hop : Hop) where
  pinned : Body
  body : OutgoingBody
  status : ℕ
  headers : HeaderMap
  jar : Option CookieJar
  uri : Uri
  take : s.body.takeForHop = (.ok pinned, body)
  answer : hop.answer = .response status headers
  store : storeCookies config.clockMax hop.clock ((s.jar.bind hop.before).bind hop.during)
    headers s.uri = some jar
  redirect : isRedirectStatus status = true
  follow : config.mayFollow s.redirectCount = true
  location : locationUri fromStr s.uri headers = some uri

namespace FollowedHop

variable {s : SendState} {hop : Hop} (f : FollowedHop config fromStr s hop)

/-- Its request. -/
def request : SentRequest := s.request config hop f.pinned

/-- The state after it. -/
def state (originalUri : Uri) : SendState :=
  SendState.redirected { s with body := f.body, jar := f.jar } originalUri f.status f.uri

theorem leadsTo : hop.answer.leadsTo fromStr s.uri = some f.uri := by
  rw [f.answer, Answer.leadsTo, if_pos f.redirect, f.location]

/-- A body that was kept is what was left of it, and otherwise nothing is. -/
theorem state_body (originalUri : Uri) : (f.state originalUri).body
    = if shouldPreserveBody f.status then f.body else .reusable [] := by
  simp only [state, SendState.redirected, OutgoingBody.clear]
  cases shouldPreserveBody f.status <;> rfl

/-- A redirect of a request whose body can be sent again. -/
def ofReusable {data : List UInt8} {status : ℕ} {headers : HeaderMap} {jar : Option CookieJar}
    {uri : Uri} (hbody : s.body = .reusable data) (answer : hop.answer = .response status headers)
    (store : storeCookies config.clockMax hop.clock ((s.jar.bind hop.before).bind hop.during)
      headers s.uri = some jar)
    (redirect : isRedirectStatus status = true) (follow : config.mayFollow s.redirectCount = true)
    (location : locationUri fromStr s.uri headers = some uri) :
    FollowedHop config fromStr s hop where
  pinned := Body.fromBytes data
  body := .reusable data
  status := status
  headers := headers
  jar := jar
  uri := uri
  take := by rw [hbody]; rfl
  answer := answer
  store := store
  redirect := redirect
  follow := follow
  location := location

end FollowedHop

/-- A hop that neither fails nor panics hands its response on. -/
theorem sendHop_response {s : SendState} {hop : Hop} {request : Option SentRequest} {r : HopResult}
    (h : sendHop config fromStr originalUri s hop = (request, r))
    (herror : ∀ e, r ≠ .done (.error e)) (hpanicked : r ≠ .panicked) :
    ∃ pinned body status headers jar, s.body.takeForHop = (.ok pinned, body) ∧
      hop.answer = .response status headers ∧
      storeCookies config.clockMax hop.clock ((s.jar.bind hop.before).bind hop.during)
        headers s.uri = some jar ∧
      request = some (s.request config hop pinned) ∧
      handleResponse config fromStr originalUri { s with body, jar } status headers = r := by
  rcases take : s.body.takeForHop with ⟨taken, body⟩
  cases taken with
  | error e =>
      rw [sendHop, take] at h
      exact absurd (Prod.mk.inj h).2.symm (herror e)
  | ok pinned =>
      obtain ⟨hrequest, hresult⟩ :=
        Prod.mk.inj ((sendHop_of_take config fromStr originalUri take hop).symm.trans h)
      cases answer : hop.answer with
      | failed e =>
          rw [answer] at hresult
          exact absurd hresult.symm (herror _)
      | response status headers =>
          rw [answer] at hresult
          dsimp only at hresult
          split at hresult
          case h_1 => exact absurd hresult.symm hpanicked
          case h_2 jar store =>
              exact ⟨pinned, body, status, headers, jar, rfl, rfl, store, hrequest.symm, hresult⟩

/-- Everything a hop that goes on does. -/
theorem sendHop_next {s s' : SendState} {hop : Hop} {request : Option SentRequest}
    (h : sendHop config fromStr originalUri s hop = (request, .next s')) :
    ∃ f : FollowedHop config fromStr s hop, request = some f.request ∧
      s' = f.state originalUri := by
  obtain ⟨pinned, body, status, headers, jar, take, answer, store, rfl, hresult⟩ :=
    sendHop_response h (fun e he => by cases he) (fun he => by cases he)
  rw [handleResponse_eq] at hresult
  split_ifs at hresult with hfinal follow
  rw [not_or, Bool.not_eq_false] at hfinal
  have hloc := followRedirect_eq fromStr originalUri { s with body, jar } status headers
  split at hloc
  case h_1 uri location =>
      rw [hloc] at hresult
      cases hresult
      let f : FollowedHop config fromStr s hop :=
        { redirect := hfinal.1
          pinned, body, status, headers, jar, uri, take, answer, store, follow, location }
      exact ⟨f, rfl, rfl⟩
  case h_2 =>
      obtain ⟨e, he, -⟩ := hloc
      rw [he] at hresult
      cases hresult

/-- And a hop that does all this goes on. -/
theorem FollowedHop.sendHop {s : SendState} {hop : Hop} (f : FollowedHop config fromStr s hop)
    (originalUri : Uri) : OxiHttp.sendHop config fromStr originalUri s hop
      = (some f.request, .next (f.state originalUri)) := by
  have hzero : config.redirectPolicy.maxRedirects ≠ some 0 := by
    intro hzero
    simpa [SendConfig.mayFollow, hzero] using f.follow
  have hloc := followRedirect_eq fromStr originalUri
    { s with body := f.body, jar := f.jar } f.status f.headers
  rw [f.location] at hloc
  rw [sendHop_of_take config fromStr originalUri f.take]
  simp only [f.answer, f.store, handleResponse_eq, f.redirect, f.follow, hzero, hloc]
  rfl

/-! ### Runs -/

/-- The hops whose redirects were followed, with their requests, and the state they lead to. -/
inductive Follows (config : SendConfig) (fromStr : Str → Except String Uri) (originalUri : Uri) :
    SendState → List Hop → List SentRequest → SendState → Prop where
  | nil (s : SendState) : Follows config fromStr originalUri s [] [] s
  | cons {s s' s'' : SendState} {hop : Hop} {hops : List Hop} {sent : SentRequest}
      {log : List SentRequest} :
      sendHop config fromStr originalUri s hop = (some sent, .next s') →
      Follows config fromStr originalUri s' hops log s'' →
      Follows config fromStr originalUri s (hop :: hops) (sent :: log) s''

theorem sendLoop_cons_of_followed {s : SendState} {hop : Hop}
    (f : FollowedHop config fromStr s hop) (hops : List Hop) :
    sendLoop config fromStr originalUri s (hop :: hops) =
      (f.request :: (sendLoop config fromStr originalUri (f.state originalUri) hops).1,
        (sendLoop config fromStr originalUri (f.state originalUri) hops).2) := by
  rw [sendLoop, f.sendHop]
  rfl

theorem sendLoop_cons_of_done {s : SendState} {hop : Hop} {request : Option SentRequest}
    {r : Except OxiHttpError Response}
    (h : sendHop config fromStr originalUri s hop = (request, .done r)) (hops : List Hop) :
    sendLoop config fromStr originalUri s (hop :: hops) = (request.toList, .done r) := by
  rw [sendLoop, h]

theorem sendLoop_cons_of_panicked {s : SendState} {hop : Hop} {request : Option SentRequest}
    (h : sendHop config fromStr originalUri s hop = (request, .panicked)) (hops : List Hop) :
    sendLoop config fromStr originalUri s (hop :: hops) = (request.toList, .panicked) := by
  rw [sendLoop, h]

/-- A chain that was followed comes before the rest of a run. -/
theorem sendLoop_append {s s' : SendState} {chain : List Hop} {log : List SentRequest}
    (h : Follows config fromStr originalUri s chain log s') (hops : List Hop) :
    sendLoop config fromStr originalUri s (chain ++ hops) =
      (log ++ (sendLoop config fromStr originalUri s' hops).1,
        (sendLoop config fromStr originalUri s' hops).2) := by
  induction h with
  | nil s => rfl
  | cons hhop _ ih =>
      obtain ⟨f, hsent, rfl⟩ := sendHop_next hhop
      cases hsent
      rw [List.cons_append, sendLoop_cons_of_followed f, ih]
      rfl

/-- Every request of a run is that of a hop after a chain that was followed. -/
theorem follows_of_sent {s : SendState} {hops : List Hop} {before after : List SentRequest}
    {sent : SentRequest}
    (h : (sendLoop config fromStr originalUri s hops).1 = before ++ sent :: after) :
    ∃ chain hop rest s' r, hops = chain ++ hop :: rest ∧
      Follows config fromStr originalUri s chain before s' ∧
      sendHop config fromStr originalUri s' hop = (some sent, r) := by
  induction hops generalizing s before with
  | nil => simp [sendLoop] at h
  | cons hop hops ih =>
      rcases hhop : sendHop config fromStr originalUri s hop with ⟨request, r⟩
      rw [sendLoop, hhop] at h
      cases before with
      | nil =>
          -- the request is that of the first hop
          refine ⟨[], hop, hops, s, r, rfl, .nil s, ?_⟩
          rcases sendHop_cases hhop with ⟨rfl, e, rfl⟩ | ⟨first, rfl, -⟩
          · cases h
          · cases r <;> cases h <;> exact hhop
      | cons b before =>
          cases r with
          | next s' =>
              obtain ⟨f, rfl, -⟩ := sendHop_next hhop
              replace h : f.request :: (sendLoop config fromStr originalUri s' hops).1
                  = b :: (before ++ sent :: after) := h
              obtain ⟨rfl, hrest⟩ := List.cons.inj h
              obtain ⟨chain, hop', rest, s'', r, rfl, hchain, hsent⟩ := ih hrest
              exact ⟨hop :: chain, hop', rest, s'', r, rfl, .cons hhop hchain, hsent⟩
          | done r => cases request <;> simp at h
          | panicked => cases request <;> simp at h

end

end OxiHttp
