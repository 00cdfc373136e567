/-
**The calls of a client.**

The calls of a client run at the same time and share its cookie jar, which they lock for as long as
it takes to read the cookies for a request or to store those of a response.  In whatever order they
do this, each call is a run of `send_inner`, for which the others change the jar in between; and a
request carries the cookies that the responses of all the calls have left, as long as none of them
had a cookie whose expiry time the clock cannot hold.  Such a cookie makes one call panic, and the
others go on without cookies.

Main definitions:

* `OxiHttp.ClientCall.resume`, `OxiHttp.clientTasks` — the steps of the calls;
* `OxiHttp.RunsAlone` — a call is a run of `send_inner`;
* `OxiHttp.CarriesCookies` — the cookies of a request, after the responses that have come;
* `OxiHttp.SessionSound` — what is expected of the calls of a client.

Main results:

* `OxiHttp.jarCookie_jarFrom` — the cookies of a jar that responses have filled become a header
  value;
* `OxiHttp.sessionSound_run` — every session is sound.
-/

import OxiHttp.CookieHeader
import OxiHttp.Interleaving
import OxiHttp.RedirectChain
import OxiHttp.Retry

set_option relaxedAutoImplicit false
set_option autoImplicit false

namespace OxiHttp

open Interleaving

/-! ### Cookies as a header value -/

/-- The name and the value of a cookie that is parsed can stand in a header value. -/
theorem Cookie.isReadable_parseSetCookie {header : Str} {c : Cookie}
    (h : parseSetCookie header = some c) (hheader : HeaderValue.IsReadable header) :
    HeaderValue.IsReadable c.toCookieHeader := by
  unfold parseSetCookie at h
  split at h
  case h_1 => cases h
  case h_2 first parts hsplit =>
      obtain ⟨⟨name, value⟩, honce, h⟩ := Option.bind_eq_some_iff.1 h
      dsimp only at h
      split at h
      case isTrue => cases h
      case isFalse =>
          cases h
          obtain ⟨hfirst, -⟩ := splitOnce_eq_some honce
          have hmem : ∀ {t : Str}, (∀ x ∈ t, x ∈ trim first) → HeaderValue.IsReadable (trim t) := by
            intro t ht x hx
            refine hheader x (Pieces.mem_of_mem_splitOn (hsplit ▸ List.mem_cons_self) ?_)
            exact mem_of_mem_trim (ht _ (mem_of_mem_trim hx))
          obtain ⟨hn, hv⟩ := foldl_withPart_pair { name := trim name, value := trim value } parts
          rw [toCookieHeader, hn, hv]
          refine HeaderValue.isReadable_append (hmem fun x hx => ?_) ?_
          · exact hfirst ▸ List.mem_append_left _ hx
          · intro x hx
            rcases List.mem_cons.1 hx with rfl | hx
            · exact .inl (by decide)
            · exact hmem (fun y hy => hfirst ▸ List.mem_append_right _ (List.mem_cons_of_mem _ hy))
                x hx

/-- What is stored has come with the response. -/
theorem exists_of_mem_storings {clockMax : ℕ} {url : Uri} {clock : ℕ → ℕ} {cookies : List Cookie}
    {c : Cookie} (h : c ∈ storings clockMax url clock cookies) :
    ∃ sent ∈ cookies, ∃ now, sent.normalize lower clockMax now url = some c := by
  induction cookies generalizing clock with
  | nil => cases h
  | cons cookie cookies ih =>
      rw [storings] at h
      split at h
      case h_1 stored hstored =>
          rcases List.mem_cons.1 h with rfl | h
          · exact ⟨cookie, List.mem_cons_self, clock 0, hstored⟩
          · obtain ⟨sent, hsent, hnow⟩ := ih h
            exact ⟨sent, List.mem_cons_of_mem _ hsent, hnow⟩
      case h_2 => cases h

section

variable {clockMax : ℕ} {responses : List SetCookieResponse}

/-- What a response stores is what one of its headers sets, as it is due to the URL. -/
theorem exists_of_mem_responseStorings {r : SetCookieResponse} {c : Cookie}
    (h : c ∈ r.storings clockMax) :
    ∃ v text sent now, v ∈ r.headers.getAll "set-cookie".toList ∧ v.toStr = some text ∧
      parseSetCookie text = some sent ∧ sent.normalize lower clockMax now r.url = some c := by
  obtain ⟨sent, hsent, now, hnow⟩ := exists_of_mem_storings h
  obtain ⟨v, hv, hparsed⟩ := List.mem_filterMap.1 hsent
  obtain ⟨text, htext, hset⟩ := Option.bind_eq_some_iff.1 hparsed
  exact ⟨v, text, sent, now, hv, htext, hset, hnow⟩

/-- The cookies that responses have left can stand in a header value. -/
theorem isReadable_of_mem_jarFrom {c : Cookie} (h : c ∈ (jarFrom clockMax responses).cookies) :
    HeaderValue.IsReadable c.toCookieHeader := by
  rw [jarFrom_cookies] at h
  obtain ⟨r, -, hc⟩ := List.mem_flatMap.1 (KeyedList.mem_of_mem_putAll h)
  obtain ⟨v, text, sent, now, -, htext, hset, hnow⟩ := exists_of_mem_responseStorings hc
  obtain ⟨-, -, hname, hvalue, -⟩ := Cookie.normalize_eq_some hnow
  have hreadable := Cookie.isReadable_parseSetCookie hset (HeaderValue.isReadable_of_toStr htext)
  rwa [Cookie.toCookieHeader, hname, hvalue, ← Cookie.toCookieHeader]

theorem isReadable_intercalate {sep : Str} (hsep : HeaderValue.IsReadable sep) {pieces : List Str}
    (h : ∀ p ∈ pieces, HeaderValue.IsReadable p) :
    HeaderValue.IsReadable (sep.intercalate pieces) := by
  induction pieces with
  | nil => exact fun c hc => by cases hc
  | cons p pieces ih =>
      rw [List.forall_mem_cons] at h
      by_cases hnil : pieces = []
      · rw [hnil, List.intercalate_singleton]
        exact h.1
      · rw [List.intercalate_cons_of_ne_nil hnil]
        exact HeaderValue.isReadable_append (HeaderValue.isReadable_append h.1 hsep) (ih h.2)

/-- The header value of a jar that responses have filled: there is none without a cookie for the
URL, and otherwise it can be taken apart into these cookies. -/
theorem jarCookie_jarFrom (clockMax : ℕ) (responses : List SetCookieResponse) (now : ℕ)
    (url : Uri) :
    let cookies := (jarFrom clockMax responses).cookiesForUrl now url
    (cookies = [] → jarCookie now (some (jarFrom clockMax responses)) url = none) ∧
      (cookies ≠ [] → ∃ v text, jarCookie now (some (jarFrom clockMax responses)) url = some v ∧
        v.toStr = some text ∧
        (splitPairs text).map (splitOnce '=') = cookies.map fun c => some (c.name, c.value)) := by
  dsimp only
  rw [jarCookie, Option.bind_some]
  constructor
  · intro hnil
    rw [CookieJar.toCookieHeaderForUrl, hnil]
    rfl
  · intro hne
    have hheader : (jarFrom clockMax responses).toCookieHeaderForUrl now url =
        some ("; ".toList.intercalate
          (((jarFrom clockMax responses).cookiesForUrl now url).map Cookie.toCookieHeader)) := by
      rw [CookieJar.toCookieHeaderForUrl]
      exact if_neg (by simpa using hne)
    have hreadable : HeaderValue.IsReadable ("; ".toList.intercalate
        (((jarFrom clockMax responses).cookiesForUrl now url).map Cookie.toCookieHeader)) := by
      refine isReadable_intercalate (by decide) fun p hp => ?_
      obtain ⟨c, hc, rfl⟩ := List.mem_map.1 hp
      exact isReadable_of_mem_jarFrom (CookieJar.mem_cookiesForUrl.1 hc).1
    refine ⟨_, _, ?_, HeaderValue.toStr_of_isReadable hreadable, ?_⟩
    · rw [hheader, Option.bind_some, HeaderValue.fromStr_of_isReadable hreadable]
    · exact splitPairs_toCookieHeaderForUrl (fun c hc => plain_of_mem_jarFrom hc) hheader

end

/-! ### The jar of a client -/

/-- The jar as a request can read it. -/
def JarMutex.view (mutex : JarMutex) : Option CookieJar :=
  if mutex.poisoned then none else some mutex.jar

/-- The jar of a client after these responses. -/
def mutexAfter (clockMax : ℕ) (responses : List SetCookieResponse) : JarMutex :=
  responses.foldl (fun mutex r => (mutex.persist clockMax r).1) { jar := {} }

section

variable {clockMax : ℕ} {responses : List SetCookieResponse}

theorem mutexAfter_concat (r : SetCookieResponse) :
    mutexAfter clockMax (responses ++ [r]) =
      ((mutexAfter clockMax responses).persist clockMax r).1 := by
  rw [mutexAfter, List.foldl_concat, mutexAfter]

theorem jarFrom_concat (r : SetCookieResponse) : jarFrom clockMax (responses ++ [r]) =
    ((jarFrom clockMax responses).addFromResponse lower clockMax r.clock r.headers r.url).jar := by
  rw [jarFrom, List.map_append, jarAfter, List.foldl_append]
  rfl

/-- As long as the cookies fit, the jar is that of the responses; one that does not fit poisons the
mutex. -/
theorem view_mutexAfter (clockMax : ℕ) (responses : List SetCookieResponse) :
    ((∀ r ∈ responses, r.Fits clockMax) →
      (mutexAfter clockMax responses).view = some (jarFrom clockMax responses)) ∧
    ((∃ r ∈ responses, ¬ r.Fits clockMax) → (mutexAfter clockMax responses).view = none) := by
  induction responses using List.reverseRecOn with
  | nil => exact ⟨fun _ => rfl, fun ⟨r, hr, _⟩ => by cases hr⟩
  | append_singleton responses r ih =>
      obtain ⟨ihfits, ihnot⟩ := ih
      rw [mutexAfter_concat]
      by_cases hall : ∀ r ∈ responses, r.Fits clockMax
      · have hview := ihfits hall
        unfold JarMutex.view at hview
        split at hview
        case isTrue => cases hview
        case isFalse hfree =>
            have hfree := Bool.not_eq_true _ ▸ hfree
            have hjar := Option.some.inj hview
            have hfirst := JarMutex.persist_fits_iff hfree clockMax r
            have hpoisoned := JarMutex.persist_poisoned hfree clockMax r
            constructor
            · intro hfits
              have hr := hfirst.2 (hfits r (List.mem_append_right _ (List.mem_singleton_self r)))
              rw [JarMutex.view, hpoisoned, hr, jarFrom_concat, ← hjar, JarMutex.persist, hfree]
              rfl
            · rintro ⟨r', hr', hunfit⟩
              rcases List.mem_append.1 hr' with hr' | hr'
              · exact absurd (hall r' hr') hunfit
              · rw [List.mem_singleton.1 hr'] at hunfit
                have hr := Bool.eq_true_of_not_eq_false (mt hfirst.1 hunfit)
                rw [JarMutex.view, hpoisoned, hr]
                rfl
      · have hsome : ∃ r ∈ responses, ¬ r.Fits clockMax := by
          simpa using hall
        have hview := ihnot hsome
        unfold JarMutex.view at hview
        split at hview
        case isFalse => cases hview
        case isTrue hpoisoned =>
            refine ⟨fun hfits => ?_, fun _ => ?_⟩
            · exact absurd (fun r hr => hfits r (List.mem_append_left _ hr)) hall
            · rw [JarMutex.persist, if_pos hpoisoned, JarMutex.view, if_pos hpoisoned]

end

/-! ### The calls -/

/-- The call on this machine, whose instants end with `clockMax`. -/
def SendCall.withClock (clockMax : ℕ) (c : SendCall) : SendCall :=
  { c with config := { c.config with clockMax } }

/-- How far a call of `send_inner` has come: it sends its next request, or waits for the answer. -/
inductive ClientPhase where
  | sending (s : SendState)
  | waiting (s : SendState)
  | ended

/-- A call of `send_inner`, and how far it has come. -/
structure ClientCall where
  call : SendCall
  phase : ClientPhase

/-- What a call goes on with. -/
inductive ClientInput where
  | send (now : ℕ)
  | answer (clock : ℕ → ℕ) (answer : Answer)

/-- What is seen of a call. -/
inductive ClientEvent where
  | sent (request : SentRequest)
  | answered (clock : ℕ → ℕ) (uri : Uri) (answer : Answer)
  | ended (outcome : SendOutcome)

/-- A step of a call: what is seen of it, the jar and the call after it. -/
def ClientCall.resume (fromStr : Str → Except String Uri) (input : ClientInput) (mutex : JarMutex)
    (c : ClientCall) : List ClientEvent × JarMutex × ClientCall :=
  match c.phase, input with
  | .sending s, .send now =>
      match s.body.takeForHop with
      | (.error e, _) => ([.ended (.done (.error e))], mutex, { c with phase := .ended })
      | (.ok pinned, body) =>
          -- the jar is locked while the cookies are read, and released before the request is sent
          let jar := mutex.view
          let request : SentRequest :=
            { method := s.method, uri := s.uri
              headers := requestHeaders c.call.config s.headers (jarCookie now jar s.uri)
              body := pinned, sentAt := now, jar }
          ([.sent request], mutex, { c with phase := .waiting { s with body, jar } })
  | .waiting s, .answer clock (.failed e) =>
      ([.answered clock s.uri (.failed e), .ended (.done (.error (.hyper e)))], mutex,
        { c with phase := .ended })
  | .waiting s, .answer clock (.response status headers) =>
      let (mutex, panicked) :=
        mutex.persist c.call.config.clockMax { clock, headers, url := s.uri }
      let answered : ClientEvent := .answered clock s.uri (.response status headers)
      if panicked then ([answered, .ended .panicked], mutex, { c with phase := .ended })
      else
        match handleResponse c.call.config fromStr c.call.uri { s with jar := mutex.view } status
            headers with
        | .next s' => ([answered], mutex, { c with phase := .sending s' })
        | .done r => ([answered, .ended (.done r)], mutex, { c with phase := .ended })
        | .panicked => ([answered, .ended .panicked], mutex, { c with phase := .ended })
  | _, _ => ([], mutex, c)

/-- The calls of a client: they share its jar. -/
def clientTasks (clockMax : ℕ) (fromStr : Str → Except String Uri) :
    Program SendCall ClientInput JarMutex ClientCall ClientEvent where
  start mutex c :=
    { call := c.withClock clockMax
      phase := .sending
        { method := c.method, uri := c.uri, body := c.body, headers := c.headers
          jar := mutex.view } }
  resume := ClientCall.resume fromStr

/-- A client with a new jar. -/
def newClient : Process JarMutex ClientCall := ⟨{ jar := {} }, []⟩

/-! ### What is seen of the calls -/

/-- The requests of a call. -/
def requestsOf (events : List ClientEvent) : List SentRequest :=
  events.filterMap fun
    | .sent request => some request
    | _ => none

/-- What has come back for them. -/
def answersOf (events : List ClientEvent) : List Answer :=
  events.filterMap fun
    | .answered _ _ answer => some answer
    | _ => none

/-- A response, when there is one. -/
def ClientEvent.response? : ClientEvent → Option SetCookieResponse
  | .answered clock uri (.response _ headers) => some { clock, headers, url := uri }
  | _ => none

/-- The responses that have come. -/
def responsesOf (log : List (ℕ × ClientEvent)) : List SetCookieResponse :=
  log.filterMap fun e => e.2.response?

/-- The call is a run of `send_inner`, in which what the other calls make of the jar comes before a
request and before its answer: the requests are those of the run, to the answers that have come, and
it ends as the run does. -/
structure RunsAlone (fromStr : Str → Except String Uri) (c : SendCall) (events : List ClientEvent)
    (jar : Option CookieJar) (hops : List Hop) : Prop where
  requests : requestsOf events =
    (sendInner c.config fromStr c.method c.uri c.body c.headers jar hops).1
  answers : answersOf events <+: hops.map Hop.answer
  -- the last request may be without an answer
  length : hops.length ≤ (answersOf events).length + 1
  outcome : ∀ outcome, .ended outcome ∈ events → outcome = c.outcome fromStr jar hops

/-- The cookies of a request, after these responses: those that were put last under their name,
domain and path and that are for the URL, longer paths first and what was put earlier first among
equal ones; none if a response had a cookie that does not fit. -/
structure CarriesCookies (clockMax : ℕ) (responses : List SetCookieResponse)
    (request : SentRequest) : Prop where
  fits : (∀ r ∈ responses, r.Fits clockMax) → ∃ cookies : List Cookie,
    (∀ c, c ∈ cookies ↔
      KeyedList.PutLast Cookie.key (responses.flatMap (·.storings clockMax)) c ∧
        c.sentTo request.sentAt request.uri = true) ∧
    cookies.Pairwise (fun a b => b.pathLen < a.pathLen ∨ a.pathLen = b.pathLen ∧
      KeyedList.LastBefore (responses.flatMap (·.storings clockMax)) a b) ∧
    (cookies = [] → jarCookie request.sentAt request.jar request.uri = none) ∧
    (cookies ≠ [] → ∃ v text, request.headers.getAll "cookie".toList = [v] ∧
      v.toStr = some text ∧
      (splitPairs text).map (splitOnce '=') = cookies.map fun c => some (c.name, c.value))
  unfit : (∃ r ∈ responses, ¬ r.Fits clockMax) →
    jarCookie request.sentAt request.jar request.uri = none

/-! ### One step -/

/-- A response is never a panic. -/
theorem handleResponse_ne_panicked (config : SendConfig) (fromStr : Str → Except String Uri)
    (originalUri : Uri) (s : SendState) (status : ℕ) (headers : HeaderMap) :
    handleResponse config fromStr originalUri s status headers ≠ .panicked := by
  have hloc := followRedirect_eq fromStr originalUri s status headers
  rw [handleResponse_eq]
  split_ifs
  · exact fun h => by cases h
  · split at hloc
    · rw [hloc]
      exact fun h => by cases h
    · obtain ⟨e, he, -⟩ := hloc
      rw [he]
      exact fun h => by cases h
  · exact fun h => by cases h

/-- The jar is not changed by following a redirect. -/
theorem handleResponse_next_jar {config : SendConfig} {fromStr : Str → Except String Uri}
    {originalUri : Uri} {s s' : SendState} {status : ℕ} {headers : HeaderMap}
    (h : handleResponse config fromStr originalUri s status headers = .next s') :
    s'.jar = s.jar := by
  rw [handleResponse_eq] at h
  split_ifs at h
  have hloc := followRedirect_eq fromStr originalUri s status headers
  split at hloc
  · rw [hloc] at h
    cases h
    rfl
  · obtain ⟨e, he, -⟩ := hloc
    rw [he] at h
    cases h

/-- Everything a step of a call can be. -/
inductive ClientStep (fromStr : Str → Except String Uri) (mutex : JarMutex) :
    ClientCall → List ClientEvent × JarMutex × ClientCall → Prop where
  | idle (c : ClientCall) : ClientStep fromStr mutex c ([], mutex, c)
  | unsendable {call : SendCall} {s : SendState} {e : OxiHttpError} {body : OutgoingBody}
      (take : s.body.takeForHop = (.error e, body)) :
      ClientStep fromStr mutex ⟨call, .sending s⟩
        ([.ended (.done (.error e))], mutex, ⟨call, .ended⟩)
  | send {call : SendCall} {s : SendState} {pinned : Body} {body : OutgoingBody} (now : ℕ)
      (take : s.body.takeForHop = (.ok pinned, body)) :
      ClientStep fromStr mutex ⟨call, .sending s⟩
        ([.sent
          { method := s.method, uri := s.uri
            headers := requestHeaders call.config s.headers (jarCookie now mutex.view s.uri)
            body := pinned, sentAt := now, jar := mutex.view }], mutex,
          ⟨call, .waiting { s with body, jar := mutex.view }⟩)
  | failed {call : SendCall} {s : SendState} (clock : ℕ → ℕ) (e : String) :
      ClientStep fromStr mutex ⟨call, .waiting s⟩
        ([.answered clock s.uri (.failed e), .ended (.done (.error (.hyper e)))], mutex,
          ⟨call, .ended⟩)
  | panicked {call : SendCall} {s : SendState} {clock : ℕ → ℕ} {status : ℕ}
      {headers : HeaderMap} {mutex' : JarMutex}
      (persist : mutex.persist call.config.clockMax ⟨clock, headers, s.uri⟩
        = (mutex', true)) :
      ClientStep fromStr mutex ⟨call, .waiting s⟩
        ([.answered clock s.uri (.response status headers), .ended .panicked], mutex',
          ⟨call, .ended⟩)
  | next {call : SendCall} {s s' : SendState} {clock : ℕ → ℕ} {status : ℕ}
      {headers : HeaderMap} {mutex' : JarMutex}
      (persist : mutex.persist call.config.clockMax ⟨clock, headers, s.uri⟩
        = (mutex', false))
      (handle : handleResponse call.config fromStr call.uri { s with jar := mutex'.view } status
        headers = .next s') :
      ClientStep fromStr mutex ⟨call, .waiting s⟩
        ([.answered clock s.uri (.response status headers)], mutex', ⟨call, .sending s'⟩)
  | done {call : SendCall} {s : SendState} {clock : ℕ → ℕ} {status : ℕ}
      {headers : HeaderMap} {mutex' : JarMutex} {r : Except OxiHttpError Response}
      (persist : mutex.persist call.config.clockMax ⟨clock, headers, s.uri⟩
        = (mutex', false))
      (handle : handleResponse call.config fromStr call.uri { s with jar := mutex'.view } status
        headers = .done r) :
      ClientStep fromStr mutex ⟨call, .waiting s⟩
        ([.answered clock s.uri (.response status headers), .ended (.done r)], mutex',
          ⟨call, .ended⟩)

theorem ClientCall.resume_step (fromStr : Str → Except String Uri) (input : ClientInput)
    (mutex : JarMutex) (c : ClientCall) :
    ClientStep fromStr mutex c (c.resume fromStr input mutex) := by
  obtain ⟨call, phase⟩ := c
  cases phase with
  | sending s =>
      cases input with
      | send now =>
          rcases take : s.body.takeForHop with ⟨taken, body⟩
          cases taken with
          | error e =>
              simp only [resume, take]
              exact .unsendable take
          | ok pinned =>
              simp only [resume, take]
              exact .send now take
      | answer clock answer => exact .idle _
  | waiting s =>
      cases input with
      | send now => exact .idle _
      | answer clock answer =>
          cases answer with
          | failed e => exact .failed clock e
          | response status headers =>
              rcases persist : mutex.persist call.config.clockMax ⟨clock, headers, s.uri⟩ with
                ⟨mutex', panicked⟩
              cases panicked with
              | true =>
                  simp only [resume, persist, if_true]
                  exact .panicked persist
              | false =>
                  cases handle : handleResponse call.config fromStr call.uri
                      { s with jar := mutex'.view } status headers with
                  | next s' =>
                      simp only [resume, persist, Bool.false_eq_true, if_false, handle]
                      exact .next persist handle
                  | done r =>
                      simp only [resume, persist, Bool.false_eq_true, if_false, handle]
                      exact .done persist handle
                  | panicked => exact (handleResponse_ne_panicked _ _ _ _ _ _ handle).elim
  | ended => cases input <;> exact .idle _

/-! ### The jar as a hop sees it -/

section

variable {clockMax : ℕ} {mutex : JarMutex}

theorem JarMutex.view_of_poisoned (h : mutex.poisoned = true) : mutex.view = none := if_pos h

theorem JarMutex.poisoned_of_view (h : mutex.view = none) : mutex.poisoned = true := by
  unfold view at h
  split at h
  · assumption
  · cases h

/-- A poisoned mutex stays as it is. -/
theorem JarMutex.persist_of_poisoned (h : mutex.poisoned = true) (clockMax : ℕ)
    (r : SetCookieResponse) : mutex.persist clockMax r = (mutex, false) := if_pos h

/-- What a hop stores is what is left in the jar. -/
theorem storeCookies_view (clockMax : ℕ) (clock : ℕ → ℕ) (mutex : JarMutex) (headers : HeaderMap)
    (uri : Uri) :
    storeCookies clockMax clock mutex.view headers uri =
      let stored := mutex.persist clockMax { clock, headers, url := uri }
      if stored.2 then none else some stored.1.view := by
  dsimp only
  cases hpoisoned : mutex.poisoned with
  | true =>
      rw [JarMutex.persist_of_poisoned hpoisoned, JarMutex.view_of_poisoned hpoisoned]
      rfl
  | false =>
      rw [JarMutex.persist, JarMutex.view, hpoisoned]
      simp only [Bool.false_eq_true, if_false, storeCookies]
      split_ifs with hpanicked
      · rfl
      · simp [JarMutex.view, hpanicked]

/-- A hop that has seen the jar sees it again as it is. -/
theorem bind_view {jar : Option CookieJar} (h : jar = none → mutex.poisoned = true) :
    (jar.bind fun _ => mutex.view) = mutex.view := by
  cases jar with
  | none => exact (JarMutex.view_of_poisoned (h rfl)).symm
  | some jar => rfl

/-- A step leaves a poisoned mutex poisoned. -/
theorem ClientStep.poisoned {fromStr : Str → Except String Uri} {c : ClientCall}
    {result : List ClientEvent × JarMutex × ClientCall} (h : ClientStep fromStr mutex c result)
    (hpoisoned : mutex.poisoned = true) : result.2.1.poisoned = true := by
  have hkept : ∀ {mutex' : JarMutex} {clockMax : ℕ} {r : SetCookieResponse} {panicked : Bool},
      mutex.persist clockMax r = (mutex', panicked) → mutex'.poisoned = true := by
    intro mutex' clockMax r panicked hpersist
    rw [JarMutex.persist_of_poisoned hpoisoned] at hpersist
    cases hpersist
    exact hpoisoned
  cases h with
  | idle => exact hpoisoned
  | unsendable => exact hpoisoned
  | send => exact hpoisoned
  | failed => exact hpoisoned
  | panicked persist => exact hkept persist
  | next persist => exact hkept persist
  | done persist => exact hkept persist

end

/-! ### A call as a run -/

section

variable {config : SendConfig} {fromStr : Str → Except String Uri} {originalUri : Uri}

theorem Follows.concat {s s' s'' : SendState} {hops : List Hop} {hop : Hop}
    {log : List SentRequest} {sent : SentRequest}
    (h : Follows config fromStr originalUri s hops log s')
    (hhop : sendHop config fromStr originalUri s' hop = (some sent, .next s'')) :
    Follows config fromStr originalUri s (hops ++ [hop]) (log ++ [sent]) s'' := by
  induction h with
  | nil s => exact .cons hhop (.nil s'')
  | cons hfirst _ ih => exact .cons hfirst (ih hhop)

/-- What a run comes to with its last hop. -/
def HopResult.outcome : HopResult → SendOutcome
  | next _ => .waiting
  | done r => .done r
  | panicked => .panicked

/-- A run with one more hop. -/
theorem sendLoop_concat {s s' : SendState} {hops : List Hop} {log : List SentRequest}
    (h : Follows config fromStr originalUri s hops log s') (hop : Hop) :
    sendLoop config fromStr originalUri s (hops ++ [hop]) =
      (log ++ (sendHop config fromStr originalUri s' hop).1.toList,
        (sendHop config fromStr originalUri s' hop).2.outcome) := by
  rw [sendLoop_append h]
  rcases hhop : sendHop config fromStr originalUri s' hop with ⟨request, r⟩
  cases r with
  | next s'' => simp [sendLoop, hhop, HopResult.outcome]
  | done r => simp [sendLoop, hhop, HopResult.outcome]
  | panicked => simp [sendLoop, hhop, HopResult.outcome]

/-- The state a call begins with. -/
def SendCall.initial (c : SendCall) (jar : Option CookieJar) : SendState :=
  { method := c.method, uri := c.uri, body := c.body, headers := c.headers, jar }

/-- A call that has followed redirects: these hops and requests have led it to this state. -/
structure HasFollowed (fromStr : Str → Except String Uri) (c : SendCall)
    (events : List ClientEvent) (jar : Option CookieJar) (hops : List Hop)
    (sent : List SentRequest) (s : SendState) : Prop where
  follows : Follows c.config fromStr c.uri (c.initial jar) hops sent s
  answers : answersOf events = hops.map Hop.answer
  unended : ∀ outcome, .ended outcome ∉ events

/-- A call that waits for the answer of a request: it has followed redirects and sent it. -/
structure HasSent (fromStr : Str → Except String Uri) (c : SendCall) (events : List ClientEvent)
    (jar : Option CookieJar) (hops : List Hop) (sent : List SentRequest) (s₀ : SendState)
    (hop : Hop) (pinned : Body) (s : SendState) : Prop where
  followed : HasFollowed fromStr c events jar hops sent s₀
  take : s₀.body.takeForHop = (.ok pinned, s.body)
  requests : requestsOf events = sent ++ [s₀.request c.config hop pinned]
  state : s = { s₀ with body := s.body, jar := s₀.jar.bind hop.before }

/-- A call, whatever has been seen of it. -/
def CallInv (fromStr : Str → Except String Uri) (c : SendCall) (mutex : JarMutex)
    (events : List ClientEvent) (t : ClientCall) : Prop :=
  t.call = c ∧ match t.phase with
    | .sending s => (s.jar = none → mutex.poisoned = true) ∧
        ∃ jar hops, HasFollowed fromStr c events jar hops (requestsOf events) s
    | .waiting s => (s.jar = none → mutex.poisoned = true) ∧
        ∃ jar hops sent s₀ hop pinned, HasSent fromStr c events jar hops sent s₀ hop pinned s
    | .ended => ∃ jar hops, RunsAlone fromStr c events jar hops

variable {c : SendCall} {events : List ClientEvent} {jar : Option CookieJar} {hops : List Hop}
  {sent : List SentRequest} {s s₀ : SendState} {hop : Hop} {pinned : Body} {mutex : JarMutex}

theorem requestsOf_append (events events' : List ClientEvent) :
    requestsOf (events ++ events') = requestsOf events ++ requestsOf events' :=
  List.filterMap_append

theorem answersOf_append (events events' : List ClientEvent) :
    answersOf (events ++ events') = answersOf events ++ answersOf events' :=
  List.filterMap_append

/-- A call that has followed redirects is a run so far. -/
theorem HasFollowed.runsAlone
    (h : HasFollowed fromStr c events jar hops (requestsOf events) s) :
    RunsAlone fromStr c events jar hops where
  requests := by
    have hrun := sendLoop_append h.follows []
    rw [List.append_nil] at hrun
    rw [sendInner, ← SendCall.initial, hrun]
    exact (List.append_nil _).symm
  answers := h.answers ▸ List.prefix_rfl
  length := by
    rw [h.answers, List.length_map]
    omega
  outcome := fun outcome hmem => absurd hmem (h.unended outcome)

/-- So is one that waits for an answer, which is not there yet. -/
theorem HasSent.runsAlone (h : HasSent fromStr c events jar hops sent s₀ hop pinned s) :
    RunsAlone fromStr c events jar (hops ++ [hop]) where
  requests := by
    rw [sendInner, ← SendCall.initial, sendLoop_concat h.followed.follows,
      sendHop_of_take c.config fromStr c.uri h.take]
    exact h.requests
  answers := by
    rw [h.followed.answers, List.map_append]
    exact List.prefix_append _ _
  length := by
    rw [h.followed.answers, List.length_map, List.length_append, List.length_singleton]
  outcome := fun outcome hmem => absurd hmem (h.followed.unended outcome)

/-- The hop, with the answer that has come and the jar as it is then. -/
def Hop.answered (hop : Hop) (mutex : JarMutex) (clock : ℕ → ℕ) (answer : Answer) : Hop :=
  { hop with answer, during := fun _ => mutex.view, clock }

/-- With its answer the hop is complete. -/
theorem HasSent.sendHop (h : HasSent fromStr c events jar hops sent s₀ hop pinned s)
    (hjar : s.jar = none → mutex.poisoned = true) (clock : ℕ → ℕ) (answer : Answer) :
    OxiHttp.sendHop c.config fromStr c.uri s₀ (hop.answered mutex clock answer) =
      (some (s₀.request c.config hop pinned),
        match answer with
        | .failed e => .done (.error (.hyper e))
        | .response status headers =>
            match storeCookies c.config.clockMax clock mutex.view headers s.uri with
            | none => .panicked
            | some jar => handleResponse c.config fromStr c.uri { s with jar } status headers) := by
  have hsees : s₀.jar.bind hop.before = s.jar := by rw [h.state]
  have huri : s₀.uri = s.uri := by rw [h.state]
  have hstate : ∀ jar, { s₀ with body := s.body, jar } = { s with jar } := by
    intro jar
    rw [h.state]
  unfold Hop.answered
  rw [sendHop_of_take c.config fromStr c.uri h.take]
  cases answer with
  | failed e => rfl
  | response status headers =>
      have hstore : storeCookies c.config.clockMax clock mutex.view headers s₀.uri =
          storeCookies c.config.clockMax clock mutex.view headers s.uri := by rw [huri]
      dsimp only
      rw [hsees, bind_view hjar, hstore]
      cases storeCookies c.config.clockMax clock mutex.view headers s.uri with
      | none => rfl
      | some jar =>
          dsimp only
          rw [hstate]
          rfl

/-- The call has ended with an answer. -/
theorem HasSent.ended (h : HasSent fromStr c events jar hops sent s₀ hop pinned s) {clock : ℕ → ℕ}
    {answer : Answer} {r : HopResult}
    (hhop : OxiHttp.sendHop c.config fromStr c.uri s₀ (hop.answered mutex clock answer) =
      (some (s₀.request c.config hop pinned), r)) :
    RunsAlone fromStr c (events ++ [.answered clock s.uri answer, .ended r.outcome]) jar
      (hops ++ [hop.answered mutex clock answer]) := by
  have hrun := sendLoop_concat h.followed.follows (hop.answered mutex clock answer)
  rw [hhop] at hrun
  have hanswers : answersOf (events ++ [.answered clock s.uri answer, .ended r.outcome]) =
      hops.map Hop.answer ++ [answer] := by
    rw [answersOf_append, h.followed.answers]
    rfl
  constructor
  · rw [requestsOf_append, sendInner, ← SendCall.initial, hrun, h.requests]
    exact List.append_nil _
  · rw [hanswers, List.map_append]
    exact List.prefix_rfl
  · rw [hanswers, List.length_append, List.length_append, List.length_map]
    exact Nat.le_succ _
  · intro outcome hmem
    rcases List.mem_append.1 hmem with hmem | hmem
    · exact absurd hmem (h.followed.unended outcome)
    · rcases List.mem_cons.1 hmem with heq | hmem
      · cases heq
      · cases List.mem_singleton.1 hmem
        rw [SendCall.outcome, sendInner, ← SendCall.initial, hrun]

/-- The call has followed the redirect of an answer. -/
theorem HasSent.next (h : HasSent fromStr c events jar hops sent s₀ hop pinned s) {clock : ℕ → ℕ}
    {answer : Answer} {s' : SendState}
    (hhop : OxiHttp.sendHop c.config fromStr c.uri s₀ (hop.answered mutex clock answer) =
      (some (s₀.request c.config hop pinned), .next s')) :
    HasFollowed fromStr c (events ++ [.answered clock s.uri answer]) jar
      (hops ++ [hop.answered mutex clock answer])
      (requestsOf (events ++ [.answered clock s.uri answer])) s' where
  follows := by
    rw [requestsOf_append, h.requests,
      show requestsOf [ClientEvent.answered clock s.uri answer] = [] from rfl, List.append_nil]
    exact h.followed.follows.concat hhop
  answers := by
    rw [answersOf_append, h.followed.answers, List.map_append]
    rfl
  unended := by
    intro outcome hmem
    rcases List.mem_append.1 hmem with hmem | hmem
    · exact h.followed.unended outcome hmem
    · cases List.mem_singleton.1 hmem

/-- **A step keeps a call a run.** -/
theorem CallInv.step {t : ClientCall} {result : List ClientEvent × JarMutex × ClientCall}
    (h : CallInv fromStr c mutex events t) (hstep : ClientStep fromStr mutex t result) :
    CallInv fromStr c result.2.1 (events ++ result.1) result.2.2 := by
  obtain ⟨hcall, h⟩ := h
  cases hstep with
  | idle t =>
      rw [List.append_nil]
      exact ⟨hcall, h⟩
  | @unsendable call s e body take =>
      obtain rfl : call = c := hcall
      obtain ⟨-, jar, hops, hfollowed⟩ := h
      -- the run has a hop without a request
      let hop : Hop := { sentAt := 0, answer := .failed "", clock := fun _ => 0 }
      have hhop : sendHop call.config fromStr call.uri s hop = (none, .done (.error e)) := by
        rw [OxiHttp.sendHop, take]
      have hrun := sendLoop_concat hfollowed.follows hop
      rw [hhop] at hrun
      have hanswers : answersOf (events ++ [.ended (.done (.error e))]) = hops.map Hop.answer := by
        rw [answersOf_append, hfollowed.answers]
        exact List.append_nil _
      refine ⟨rfl, jar, hops ++ [hop], ?_⟩
      constructor
      · rw [requestsOf_append, sendInner, ← SendCall.initial, hrun]
        rfl
      · rw [hanswers, List.map_append]
        exact List.prefix_append _ _
      · rw [hanswers, List.length_append, List.length_map, List.length_singleton]
      · intro outcome hmem
        rcases List.mem_append.1 hmem with hmem | hmem
        · exact absurd hmem (hfollowed.unended outcome)
        · cases List.mem_singleton.1 hmem
          rw [SendCall.outcome, sendInner, ← SendCall.initial, hrun]
          rfl
  | @send call s pinned body now take =>
      obtain rfl : call = c := hcall
      obtain ⟨hjar, jar, hops, hfollowed⟩ := h
      -- what the others have made of the jar since the last hop
      let hop : Hop :=
        { before := fun _ => mutex.view, sentAt := now, answer := .failed "", clock := fun _ => 0 }
      have hsees : s.jar.bind hop.before = mutex.view := bind_view hjar
      refine ⟨rfl, JarMutex.poisoned_of_view, jar, hops, requestsOf events, s, hop, pinned, ?_⟩
      constructor
      · refine ⟨hfollowed.follows, ?_, ?_⟩
        · rw [answersOf_append, hfollowed.answers]
          exact List.append_nil _
        · intro outcome hmem
          rcases List.mem_append.1 hmem with hmem | hmem
          · exact hfollowed.unended outcome hmem
          · cases List.mem_singleton.1 hmem
      · exact take
      · rw [requestsOf_append, SendState.request, hsees]
        rfl
      · rw [hsees]
  | @failed call s clock e =>
      obtain rfl : call = c := hcall
      obtain ⟨hjar, jar, hops, sent, s₀, hop, pinned, hsent⟩ := h
      exact ⟨rfl, jar, _, hsent.ended (hsent.sendHop hjar clock (.failed e))⟩
  | @panicked call s clock status headers mutex' persist =>
      obtain rfl : call = c := hcall
      obtain ⟨hjar, jar, hops, sent, s₀, hop, pinned, hsent⟩ := h
      have hhop := hsent.sendHop hjar clock (.response status headers)
      simp only [storeCookies_view, persist, if_true] at hhop
      exact ⟨rfl, jar, _, hsent.ended hhop⟩
  | @next call s s' clock status headers mutex' persist handle =>
      obtain rfl : call = c := hcall
      obtain ⟨hjar, jar, hops, sent, s₀, hop, pinned, hsent⟩ := h
      have hhop := hsent.sendHop hjar clock (.response status headers)
      simp only [storeCookies_view, persist, Bool.false_eq_true, if_false, handle] at hhop
      refine ⟨rfl, fun hnone => ?_, jar, _, hsent.next hhop⟩
      rw [handleResponse_next_jar handle] at hnone
      exact JarMutex.poisoned_of_view hnone
  | @done call s clock status headers mutex' r persist handle =>
      obtain rfl : call = c := hcall
      obtain ⟨hjar, jar, hops, sent, s₀, hop, pinned, hsent⟩ := h
      have hhop := hsent.sendHop hjar clock (.response status headers)
      simp only [storeCookies_view, persist, Bool.false_eq_true, if_false, handle] at hhop
      exact ⟨rfl, jar, _, hsent.ended hhop⟩

/-- Another call leaves it what it is. -/
theorem CallInv.others {t t' : ClientCall} {result : List ClientEvent × JarMutex × ClientCall}
    (h : CallInv fromStr c mutex events t) (hstep : ClientStep fromStr mutex t' result) :
    CallInv fromStr c result.2.1 events t := by
  obtain ⟨call, phase⟩ := t
  obtain ⟨hcall, h⟩ := h
  refine ⟨hcall, ?_⟩
  cases phase with
  | sending s => exact ⟨fun hnone => hstep.poisoned (h.1 hnone), h.2⟩
  | waiting s => exact ⟨fun hnone => hstep.poisoned (h.1 hnone), h.2⟩
  | ended => exact h

/-- A call is a run, however far it has come. -/
theorem CallInv.runsAlone {t : ClientCall} (h : CallInv fromStr c mutex events t) :
    ∃ jar hops, RunsAlone fromStr c events jar hops := by
  obtain ⟨call, phase⟩ := t
  obtain ⟨-, h⟩ := h
  cases phase with
  | sending s =>
      obtain ⟨-, jar, hops, hfollowed⟩ := h
      exact ⟨jar, hops, hfollowed.runsAlone⟩
  | waiting s =>
      obtain ⟨-, jar, hops, sent, s₀, hop, pinned, hsent⟩ := h
      exact ⟨jar, _, hsent.runsAlone⟩
  | ended => exact h

end

/-! ### All calls -/

section

variable {clockMax : ℕ} {fromStr : Str → Except String Uri} {mutex : JarMutex} {c : ClientCall}
  {result : List ClientEvent × JarMutex × ClientCall}

/-- The call panics here. -/
def ClientEvent.isPanic : ClientEvent → Bool
  | ended .panicked => true
  | _ => false

/-- A step stores the cookies of the response that is seen of it. -/
theorem ClientStep.stores (h : ClientStep fromStr mutex c result)
    (hclock : c.call.config.clockMax = clockMax) :
    result.2.1 = (result.1.filterMap ClientEvent.response?).foldl
      (fun mutex r => (mutex.persist clockMax r).1) mutex := by
  subst hclock
  cases h with
  | idle => rfl
  | unsendable => rfl
  | send => rfl
  | failed => rfl
  | panicked persist => exact (congrArg Prod.fst persist).symm
  | next persist => exact (congrArg Prod.fst persist).symm
  | done persist => exact (congrArg Prod.fst persist).symm

/-- The request has what the jar has for it, if it has anything. -/
def SeesJar (mutex : JarMutex) (request : SentRequest) : Prop :=
  request.jar = mutex.view ∧ ∃ config headers, request.headers =
    requestHeaders config headers (jarCookie request.sentAt request.jar request.uri)

/-- A request is all that is seen of the step that sends it. -/
theorem ClientStep.seesJar (h : ClientStep fromStr mutex c result) {request : SentRequest}
    (hsent : .sent request ∈ result.1) :
    result.1 = [.sent request] ∧ SeesJar mutex request := by
  cases h with
  | idle => cases hsent
  | unsendable => simp at hsent
  | @send call s _ _ _ _ =>
      cases List.mem_singleton.1 hsent
      exact ⟨rfl, rfl, call.config, s.headers, rfl⟩
  | failed => simp at hsent
  | panicked => simp at hsent
  | next => simp at hsent
  | done => simp at hsent

/-- A call that panics poisons the mutex, which has not been poisoned before. -/
theorem ClientStep.panics (h : ClientStep fromStr mutex c result) :
    result.1.countP ClientEvent.isPanic + mutex.poisoned.toNat ≤ result.2.1.poisoned.toNat := by
  have hkept : 0 + mutex.poisoned.toNat ≤ result.2.1.poisoned.toNat := by
    rw [Nat.zero_add]
    cases hpoisoned : mutex.poisoned with
    | false => exact Nat.zero_le _
    | true => rw [h.poisoned hpoisoned]
  cases h with
  | idle => exact hkept
  | unsendable => exact hkept
  | send => exact hkept
  | failed => exact hkept
  | @panicked call s clock status headers mutex' persist =>
      have hfree : mutex.poisoned = false := by
        by_contra hpoisoned
        rw [JarMutex.persist_of_poisoned (Bool.eq_true_of_not_eq_false hpoisoned)] at persist
        cases persist
      have hpoisoned := JarMutex.persist_poisoned hfree call.config.clockMax
        ⟨clock, headers, s.uri⟩
      rw [persist] at hpoisoned
      dsimp only at hpoisoned ⊢
      rw [hfree, hpoisoned]
      exact Nat.le_refl 1
  | next => exact hkept
  | done => exact hkept

/-- What all the calls keep: the jar is what the responses have left in it, every request has seen
it as it was, and there has been no panic unless the mutex is poisoned. -/
structure JarInv (clockMax : ℕ) (log : List (ℕ × ClientEvent)) (mutex : JarMutex) : Prop where
  jar : mutex = mutexAfter clockMax (responsesOf log)
  requests : ∀ before e after, log = before ++ e :: after → ∀ request, e.2 = .sent request →
    SeesJar (mutexAfter clockMax (responsesOf before)) request
  panics : log.countP (fun e => e.2.isPanic) ≤ mutex.poisoned.toNat

theorem responsesOf_append (log log' : List (ℕ × ClientEvent)) :
    responsesOf (log ++ log') = responsesOf log ++ responsesOf log' := List.filterMap_append

theorem responsesOf_map (task : ℕ) (events : List ClientEvent) :
    responsesOf (events.map (Prod.mk task)) = events.filterMap ClientEvent.response? :=
  List.filterMap_map

/-- A step of any call. -/
theorem JarInv.step {log : List (ℕ × ClientEvent)} (h : JarInv clockMax log mutex)
    (hstep : ClientStep fromStr mutex c result) (hclock : c.call.config.clockMax = clockMax)
    (task : ℕ) : JarInv clockMax (log ++ result.1.map (Prod.mk task)) result.2.1 where
  jar := by
    rw [responsesOf_append, responsesOf_map, mutexAfter, List.foldl_append, ← mutexAfter, ← h.jar]
    exact hstep.stores hclock
  requests := by
    refine Positions.forall_split_append h.requests fun before e after heq request hsent => ?_
    have hmem : e ∈ result.1.map (Prod.mk task) := by
      rw [heq]
      exact List.mem_append_right _ List.mem_cons_self
    obtain ⟨e', he', rfl⟩ := List.mem_map.1 hmem
    obtain rfl : e' = .sent request := hsent
    obtain ⟨honly, hsees⟩ := hstep.seesJar he'
    rw [honly] at heq
    -- nothing of this step comes before the request
    obtain rfl : before = [] := by
      cases before with
      | nil => rfl
      | cons b before => simp at heq
    rw [List.append_nil, ← h.jar]
    exact hsees
  panics := by
    have hpanics := hstep.panics
    have hbefore := h.panics
    have hnew : (result.1.map (Prod.mk task)).countP (fun e => e.2.isPanic) =
        result.1.countP ClientEvent.isPanic := List.countP_map
    rw [List.countP_append, hnew]
    omega

/-! ### Sessions -/

/-- A request that has seen the jar carries its cookies. -/
theorem SeesJar.carriesCookies {responses : List SetCookieResponse} {request : SentRequest}
    (h : SeesJar (mutexAfter clockMax responses) request) :
    CarriesCookies clockMax responses request := by
  obtain ⟨hjar, config, headers, hheaders⟩ := h
  obtain ⟨hfits, hunfit⟩ := view_mutexAfter clockMax responses
  constructor
  · intro hall
    rw [hfits hall] at hjar
    obtain ⟨hnone, hsome⟩ := jarCookie_jarFrom clockMax responses request.sentAt request.uri
    have hstored := KeyedList.pairwise_putAll Cookie.key (responses.flatMap (·.storings clockMax))
    rw [← jarFrom_cookies] at hstored
    refine ⟨(jarFrom clockMax responses).cookiesForUrl request.sentAt request.uri, fun c => ?_,
      pairwise_cookiesForUrl hstored request.sentAt request.uri, fun hnil => ?_, fun hne => ?_⟩
    · rw [CookieJar.mem_cookiesForUrl, jarFrom_cookies, KeyedList.mem_putAll_iff]
    · rw [hjar]
      exact hnone hnil
    · obtain ⟨v, text, hv, htext, hpairs⟩ := hsome hne
      refine ⟨v, text, ?_, htext, hpairs⟩
      rw [hheaders, getAll_cookie_requestHeaders, hjar, hv]
      rfl
  · intro hsome
    rw [hjar, hunfit hsome]
    rfl

/-- What is expected of the calls of a client: each of them is a run of `send_inner`, and does not
take the credentials of its caller to another origin; each request carries the cookies that the
responses of all the calls have left; and there is one panic at most. -/
structure SessionSound (clockMax : ℕ) (fromStr : Str → Except String Uri)
    (actions : List (Action SendCall ClientInput)) (log : List (ℕ × ClientEvent)) : Prop where
  runs : ∀ (i : ℕ) c, (startedAt actions)[i]? = some c →
    ∃ jar hops, RunsAlone fromStr (c.withClock clockMax) (eventsOf i log) jar hops
  credentials : ∀ (i : ℕ) c, (startedAt actions)[i]? = some c → ∀ before request after,
    requestsOf (eventsOf i log) = before ++ request :: after →
      Contained c.uri c.headers before request
  cookies : ∀ before i request after, log = before ++ (i, .sent request) :: after →
    CarriesCookies clockMax (responsesOf before) request
  panics : log.countP (fun e => e.2.isPanic) ≤ 1

/-- What the calls keep, of the jar and of each of them. -/
theorem clientTasks_keeps (clockMax : ℕ) (fromStr : Str → Except String Uri) :
    (clientTasks clockMax fromStr).Keeps (JarInv clockMax)
      (fun mutex c => CallInv fromStr (c.withClock clockMax) mutex) where
  start mutex c :=
    ⟨rfl, JarMutex.poisoned_of_view, mutex.view, [], .nil _, rfl, fun _ h => by cases h⟩
  shared log mutex c events t task input hjar hcall := by
    refine hjar.step (t.resume_step fromStr input mutex) ?_ task
    rw [hcall.1]
    rfl
  own mutex c events t input hcall := hcall.step (t.resume_step fromStr input mutex)
  others mutex c events t c' events' t' input _ hcall :=
    hcall.others (t.resume_step fromStr input mutex)

/-- **Every session of a client is sound**, in whatever order its calls take their steps. -/
theorem sessionSound_run (clockMax : ℕ) (fromStr : Str → Except String Uri)
    (actions : List (Action SendCall ClientInput)) :
    SessionSound clockMax fromStr actions
      ((clientTasks clockMax fromStr).run newClient actions).1 := by
  have hinit : JarInv clockMax [] { jar := {} } := {
    jar := rfl
    requests := fun before e after heq => by simp at heq
    panics := Nat.zero_le _ }
  have hkept := (clientTasks_keeps clockMax fromStr).run hinit actions
  have hruns : ∀ (i : ℕ) c, (startedAt actions)[i]? = some c → ∃ jar hops,
      RunsAlone fromStr (c.withClock clockMax)
        (eventsOf i ((clientTasks clockMax fromStr).run newClient actions).1) jar hops := by
    intro i c hi
    obtain ⟨t, -, hcall⟩ := hkept.tasks i c hi
    exact hcall.runsAlone
  refine ⟨hruns, ?_, ?_, ?_⟩
  · intro i c hi before request after hsplit
    obtain ⟨jar, hops, hrun⟩ := hruns i c hi
    rw [hrun.requests] at hsplit
    have hguarded := guarded_initial ((c.withClock clockMax).initial jar)
    exact sendLoop_rule (I := Guarded c.uri c.headers) (fun _ _ _ _ _ h hhop => h.contained hhop)
      (fun _ _ _ _ _ h hhop => h.next hhop) hguarded hops before request after hsplit
  · intro before i request after hsplit
    exact (hkept.shared.requests before (i, .sent request) after hsplit request rfl).carriesCookies
  · exact hkept.shared.panics.trans (Bool.toNat_le _)

end

end OxiHttp
