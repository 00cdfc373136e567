/-
**A body that streams.**

A request with a streaming body is handed to `send_inner` once, and the first request of that run
takes the body with it.  A redirect that keeps the body cannot be followed, and after one that drops
it there is nothing left to send.

Main definitions:

* `OxiHttp.RequestBuilder.sendRequests` — the requests of all attempts, and what `send` comes to;
* `OxiHttp.StreamRun` — what a run that begins with a streaming body sends;
* `OxiHttp.RequestBuilder.KeepsStream` — what becomes of the body over all attempts.

Main results:

* `OxiHttp.streamRun_sendLoop` — every run that begins with a streaming body;
* `OxiHttp.RequestBuilder.keepsStream` — every request with a streaming body.
-/

import OxiHttp.RedirectMethod
import OxiHttp.Retry

set_option relaxedAutoImplicit false
set_option autoImplicit false

namespace OxiHttp

/-- The body is a stream. -/
def Body.isStream : Body → Bool
  | .stream _ => true
  | .empty | .full _ => false

/-- The answer is a redirect that keeps the body. -/
def Answer.preservesBody (a : Answer) : Bool := a.status.any shouldPreserveBody

/-- The answer is a redirect that drops the body. -/
def Answer.dropsBody (a : Answer) : Bool :=
  a.status.any fun status => isRedirectStatus status && !shouldPreserveBody status

section

variable {config : SendConfig} {fromStr : Str → Except String Uri} {originalUri : Uri}

/-! ### Runs of the loop -/

/-- A response for the caller is no redirect, or none are allowed. -/
theorem sendHop_done_ok {s : SendState} {hop : Hop} {request : Option SentRequest}
    {response : Response}
    (h : sendHop config fromStr originalUri s hop = (request, .done (.ok response))) :
    ∃ status headers, hop.answer = .response status headers ∧
      response = config.response status headers ∧
        (isRedirectStatus status = false ∨ config.redirectPolicy.maxRedirects = some 0) := by
  obtain ⟨pinned, body, status, headers, jar, -, answer, -, -, hresult⟩ :=
    sendHop_response h (fun e he => by cases he) (fun he => by cases he)
  rw [handleResponse_eq] at hresult
  split_ifs at hresult with hfinal follow
  · cases hresult
    exact ⟨status, headers, answer, rfl, hfinal⟩
  · have hloc := followRedirect_eq fromStr originalUri { s with body, jar } status headers
    split at hloc
    · rw [hloc] at hresult
      cases hresult
    · obtain ⟨e, he, -⟩ := hloc
      rw [he] at hresult
      cases hresult
  · cases hresult

/-- What a run sends whose first request takes the stream with it. -/
structure StreamRun (config : SendConfig) (method : Method) (queue : List PendingChunk) (hop : Hop)
    (hops : List Hop) (log : List SentRequest) (outcome : SendOutcome) where
  first : SentRequest
  later : List SentRequest
  log_eq : log = first :: later
  method_eq : first.method = method
  body : first.body = .stream queue
  /-- Other requests are sent only when the body was dropped. -/
  dropped : ∀ sent ∈ later, hop.answer.dropsBody = true ∧ sent.body = .empty ∧
    sent.method = method.withoutBody
  /-- A redirect that keeps the body is an error, or it is handed to the caller. -/
  refused : hop.answer.preservesBody = true → hops ≠ [] →
    outcome = .panicked ∨ (∃ e, outcome = .done (.error e)) ∨
      config.redirectPolicy.maxRedirects = some 0 ∧ ∃ status headers,
        hop.answer = .response status headers ∧
          outcome = .done (.ok (config.response status headers))

/-- A run of one request. -/
def StreamRun.single {method : Method} {queue : List PendingChunk} {hop : Hop} {hops : List Hop}
    {first : SentRequest} {outcome : SendOutcome}
    (hfirst : (first.method, first.body) = (method, .stream queue))
    (refused : hop.answer.preservesBody = true → hops ≠ [] →
      outcome = .panicked ∨ (∃ e, outcome = .done (.error e)) ∨
        config.redirectPolicy.maxRedirects = some 0 ∧ ∃ status headers,
          hop.answer = .response status headers ∧
            outcome = .done (.ok (config.response status headers))) :
    StreamRun config method queue hop hops [first] outcome where
  first := first
  later := []
  log_eq := rfl
  method_eq := (Prod.mk.inj hfirst).1
  body := (Prod.mk.inj hfirst).2
  dropped := fun _ h => absurd h List.not_mem_nil
  refused := refused

/-- A redirect that keeps the body does not drop it. -/
theorem Answer.not_dropsBody {a : Answer} (h : a.preservesBody = true) : a.dropsBody = false := by
  cases a with
  | failed e => rfl
  | response status headers =>
      have hkept : shouldPreserveBody status = true := h
      change (isRedirectStatus status && !shouldPreserveBody status) = false
      rw [hkept, Bool.not_true, Bool.and_false]

variable (config fromStr originalUri) in
/-- Every run that begins with a streaming body. -/
theorem streamRun_sendLoop {s : SendState} {queue : List PendingChunk}
    (hbody : s.body = .oneShot (some (.stream queue))) (hop : Hop) (hops : List Hop) :
    Nonempty (StreamRun config s.method queue hop hops
      (sendLoop config fromStr originalUri s (hop :: hops)).1
      (sendLoop config fromStr originalUri s (hop :: hops)).2) := by
  have htake : s.body.takeForHop = (.ok (.stream queue), .oneShot none) := by
    rw [hbody]
    rfl
  rcases hhop : sendHop config fromStr originalUri s hop with ⟨request, r⟩
  obtain rfl : some (s.request config hop (.stream queue)) = request :=
    congrArg Prod.fst ((sendHop_of_take config fromStr originalUri htake hop).symm.trans hhop)
  cases r with
  | panicked =>
      rw [sendLoop_cons_of_panicked hhop]
      exact ⟨.single rfl fun _ _ => .inl rfl⟩
  | done r =>
      rw [sendLoop_cons_of_done hhop]
      refine ⟨.single rfl fun hkept _ => .inr ?_⟩
      cases r with
      | error e => exact .inl ⟨e, rfl⟩
      | ok response =>
          obtain ⟨status, headers, hans, rfl, hfinal⟩ := sendHop_done_ok hhop
          rw [hans] at hkept
          refine .inr ⟨hfinal.resolve_left ?_, status, headers, hans, rfl⟩
          rcases shouldPreserveBody_iff.1 hkept with rfl | rfl <;> decide
  | next s' =>
      obtain ⟨f, hsent, rfl⟩ := sendHop_next hhop
      have hleft : f.body = .oneShot none := by
        have htook := f.take
        rw [htake] at htook
        exact (Prod.mk.inj htook).2.symm
      have hstate := f.state_body originalUri
      rw [hleft] at hstate
      rw [sendLoop_cons_of_followed f, ← Option.some.inj hsent]
      cases hkept : shouldPreserveBody f.status with
      | true =>
          -- the body is gone, and the next round ends with an error
          rw [hkept, if_pos rfl] at hstate
          have hnone : (sendLoop config fromStr originalUri (f.state originalUri) hops).1 = [] := by
            cases hops with
            | nil => rfl
            | cons hop' hops => simp [sendLoop, sendHop, hstate, OutgoingBody.takeForHop]
          rw [hnone]
          refine ⟨.single rfl fun _ hne => .inr (.inl ?_)⟩
          cases hops with
          | nil => exact absurd rfl hne
          | cons hop' hops =>
              exact ⟨_, by simp only [sendLoop, sendHop, hstate, OutgoingBody.takeForHop]; rfl⟩
      | false =>
          rw [hkept, if_neg Bool.false_ne_true] at hstate
          have hdrops : hop.answer.dropsBody = true := by
            rw [f.answer]
            change (isRedirectStatus f.status && !shouldPreserveBody f.status) = true
            rw [f.redirect, hkept]
            rfl
          have hmethod : (f.state originalUri).method = s.method.withoutBody := by
            change redirectMethod f.status s.method = _
            rw [redirectMethod_of_redirect f.redirect, hkept]
            rfl
          exact ⟨{
            first := s.request config hop (.stream queue)
            later := (sendLoop config fromStr originalUri (f.state originalUri) hops).1
            log_eq := rfl
            method_eq := rfl
            body := rfl
            dropped := fun sent hsent => by
              obtain ⟨before, after, hlog⟩ := List.append_of_mem hsent
              obtain ⟨-, -, hm, hb, -⟩ := traces_of_sent hstate hlog
              rw [hmethod, methodAfter_withoutBody] at hm
              rw [ite_self] at hb
              exact ⟨hdrops, hb, hm⟩
            refused := fun hkeeps => by
              rw [Answer.not_dropsBody hkeeps] at hdrops
              cases hdrops }⟩

end

/-! ### What becomes of the body -/

/-- A streaming body is sent at most once; a redirect that keeps the body is an error; and no
request with the method of the first has another body. -/
structure SendsStreamOnce (queue : List PendingChunk) (method : Method) (hops : List Hop)
    (r : List SentRequest × SendOutcome) : Prop where
  once : (r.1.filter fun sent => sent.body.isStream).length ≤ 1
  refused : ∀ i hop, hops[i]? = some hop → i < r.1.length → hop.answer.preservesBody = true →
    r.1.length = i + 1 ∧ (i + 1 < hops.length → r.2 ≠ .panicked → ∃ e, r.2 = .done (.error e))
  notReplaced : ∀ sent ∈ r.1, sent.method = method → sent.body = .stream queue

/-- A streaming body is sent at most once; a redirect that would keep it is an error, or is handed
to the caller when no redirects are allowed; and a request has another body only after a redirect
that drops the body, and is then a GET, or a HEAD if it was one. -/
structure KeepsStream (queue : List PendingChunk) (method : Method) (config : SendConfig)
    (hops : List Hop) (r : List SentRequest × SendOutcome) : Prop where
  once : (r.1.filter fun sent => sent.body.isStream).length ≤ 1
  refused : ∀ i sent hop, r.1[i]? = some sent → hops[i]? = some hop → sent.body.isStream = true →
    hop.answer.preservesBody = true → r.1.length = i + 1 ∧
      (i + 1 < hops.length → r.2 ≠ .panicked → (∃ e, r.2 = .done (.error e)) ∨
        config.redirectPolicy.maxRedirects = some 0 ∧ ∃ status headers,
          hop.answer = .response status headers ∧
            r.2 = .done (.ok (config.response status headers)))
  replaced : ∀ sent ∈ r.1, (sent.method = method ∧ sent.body = .stream queue) ∨
    (sent.method = method.withoutBody ∧ sent.body = .empty ∧
      ∃ hop ∈ hops.head?, hop.answer.dropsBody = true)

section

variable {config : SendConfig} {method : Method} {queue : List PendingChunk} {hop : Hop}
  {hops : List Hop} {log : List SentRequest} {outcome outcome' : SendOutcome}

/-- Only the first request of a run takes the stream with it. -/
theorem StreamRun.eq_first (run : StreamRun config method queue hop hops log outcome) {i : ℕ}
    {sent : SentRequest} (hsent : log[i]? = some sent) (hstream : sent.body.isStream = true) :
    i = 0 := by
  cases i with
  | zero => rfl
  | succ i =>
      rw [run.log_eq, List.getElem?_cons_succ] at hsent
      obtain ⟨-, hempty, -⟩ := run.dropped sent (List.mem_of_getElem? hsent)
      rw [hempty] at hstream
      cases hstream

/-- What a run keeps, also when it takes longer than the timeout. -/
theorem StreamRun.keeps (run : StreamRun config method queue hop hops log outcome)
    (hawaited : outcome' = outcome ∨ ∃ e, outcome' = .done (.error e)) :
    KeepsStream queue method config (hop :: hops) (log, outcome') where
  once := by
    have hlater : run.later.filter (fun sent => sent.body.isStream) = [] := by
      rw [List.filter_eq_nil_iff]
      intro sent hsent
      rw [(run.dropped sent hsent).2.1]
      exact Bool.false_ne_true
    change (log.filter _).length ≤ 1
    rw [run.log_eq, List.filter_cons, hlater]
    split <;> simp
  refused i sent hop' hsent hhop hstream hkept := by
    obtain rfl := run.eq_first hsent hstream
    cases hhop
    have hnone : run.later = [] := by
      rw [List.eq_nil_iff_forall_not_mem]
      intro sent hsent
      have hdrops := (run.dropped sent hsent).1
      rw [Answer.not_dropsBody hkept] at hdrops
      cases hdrops
    refine ⟨by simp [run.log_eq, hnone], fun hlen hpanic => ?_⟩
    rcases hawaited with rfl | herror
    · have hne : hops ≠ [] := by
        rintro rfl
        simp at hlen
      exact (run.refused hkept hne).resolve_left hpanic
    · exact .inl herror
  replaced sent hsent := by
    change sent ∈ log at hsent
    rw [run.log_eq, List.mem_cons] at hsent
    rcases hsent with rfl | hsent
    · exact .inl ⟨run.method_eq, run.body⟩
    · obtain ⟨hdrops, hempty, hmethod⟩ := run.dropped sent hsent
      exact .inr ⟨hmethod, hempty, hop, rfl, hdrops⟩

end

/-! ### Attempts -/

/-- What becomes of an attempt: the jar it starts with, what becomes of its requests, and whether it
takes longer than the timeout. -/
structure SendAttempt where
  jar : Option CookieJar := none
  hops : List Hop
  late : Bool := false

/-- The requests of a call. -/
def SendCall.requests (fromStr : Str → Except String Uri) (c : SendCall) (attempt : SendAttempt) :
    List SentRequest :=
  (sendInner c.config fromStr c.method c.uri c.body c.headers attempt.jar attempt.hops).1

/-- The caller has an answer. -/
def SendOutcome.isOk : SendOutcome → Bool
  | .done (.ok _) => true
  | _ => false

namespace RequestBuilder

section

variable (request : RequestBuilder) (options : SendOptions) (fromStr : Str → Except String Uri)
  (attempts : ℕ → SendAttempt) (overflowChecks : Bool)

/-- The outcomes of the attempts. -/
def outcomes (i : ℕ) : AttemptOutcome where
  outcome := (request.sendCall options (if i = 0 then request.streamBody else none)).outcome fromStr
    (attempts i).jar (attempts i).hops
  late := (attempts i).late

/-- `send`, with the requests of all its calls. -/
def sendRequests : List SentRequest × SendOutcome :=
  let r := request.send options (request.outcomes options fromStr attempts) overflowChecks
  ((callsOf r.1).zipIdx.flatMap fun (c, i) => c.requests fromStr (attempts i), r.2)

variable {request options fromStr attempts overflowChecks}

/-- A request with a streaming body has one attempt. -/
theorem sendRequests_of_stream (hstream : request.streamBody.isSome = true) :
    request.sendRequests options fromStr attempts overflowChecks =
      ((request.sendCall options request.streamBody).requests fromStr (attempts 0),
        awaited options.timeout (request.outcomes options fromStr attempts 0)) := by
  have hno : request.overflows options = false := by simp [overflows, hstream]
  have hone : (request.maxAttempts options).toNat = 1 := by simp [maxAttempts, hstream]
  rw [sendRequests, send, hno, Bool.and_false, if_neg Bool.false_ne_true, hone]
  simp only [RequestBuilder.attempts]
  cases awaited options.timeout (request.outcomes options fromStr attempts 0) with
  | waiting => simp [callsOf]
  | panicked => simp [callsOf]
  | done r =>
      cases options.retryPolicy with
      | none => simp [callsOf]
      | some policy => simp [callsOf]

end

/-- What is awaited is what comes, or an error. -/
theorem awaited_cases (timeout : Option ℕ) (o : AttemptOutcome) :
    awaited timeout o = o.outcome ∨ ∃ e, awaited timeout o = .done (.error e) := by
  unfold awaited
  cases timeout with
  | none => exact .inl rfl
  | some dur =>
      dsimp only
      split_ifs
      · exact .inr ⟨_, rfl⟩
      · exact .inl rfl

/-- What becomes of a streaming body, over all attempts and redirects. -/
theorem keepsStream (request : RequestBuilder) (options : SendOptions)
    (fromStr : Str → Except String Uri) (attempts : ℕ → SendAttempt) (overflowChecks : Bool)
    {queue : List PendingChunk} (h : request.streamBody = some (.stream queue)) :
    KeepsStream queue request.method options.config (attempts 0).hops
      (request.sendRequests options fromStr attempts overflowChecks) := by
  have hawaited := awaited_cases options.timeout (request.outcomes options fromStr attempts 0)
  rw [sendRequests_of_stream (by rw [h]; rfl)]
  simp only [outcomes, SendCall.outcome, SendCall.requests, sendCall, h, if_pos, Option.isSome_some,
    sendInner] at hawaited ⊢
  cases hhops : (attempts 0).hops with
  | nil =>
      refine ⟨Nat.zero_le 1, fun i sent hop hnone => ?_, fun sent h => ?_⟩
      · simp [sendLoop] at hnone
      · simp [sendLoop] at h
  | cons hop rest =>
      rw [hhops] at hawaited
      let s : SendState :=
        { method := request.method
          uri := request.uri
          body := .oneShot (some (.stream queue))
          headers := request.headers
          jar := (attempts 0).jar }
      have hbody : s.body = .oneShot (some (.stream queue)) := rfl
      obtain ⟨run⟩ := streamRun_sendLoop options.config fromStr request.uri hbody hop rest
      exact run.keeps hawaited

/-- A request whose body is a stream. -/
def streamRequest (method : Method) : RequestBuilder where
  method := method
  uri := exampleBase
  streamBody := some (.stream [.ready [1, 2]])

/-- A server that answers with these statuses, and always with a location. -/
def locatedAnswers (statuses : List ℕ) : List Hop :=
  statuses.map fun status =>
    { sentAt := 0
      answer := .response status ⟨[("location".toList, ⟨Utf8.encode "/y".toList⟩)]⟩
      clock := fun _ => 0 }

/-- What becomes of the request at this server. -/
def streamedTo (policy : RedirectPolicy) (method : Method) (statuses : List ℕ) :
    List SentRequest × SendOutcome :=
  (streamRequest method).sendRequests
    { config := { redirectPolicy := policy, maxResponseBody := 0, clockMax := 0 }
      timeout := none
      retryPolicy := none }
    readUri (fun _ => { hops := locatedAnswers statuses }) true

/-- A 307 ends the call with its first request. -/
theorem keepsStream_temporaryRedirect : (streamedTo .default .post [307, 200]).1.length = 1 := by
  have hsent : ((streamedTo .default .post [307, 200]).1[0]?.map fun sent => sent.body.isStream)
      = some true := by decide +kernel
  obtain ⟨first, hfirst, hstream⟩ := Option.map_eq_some_iff.1 hsent
  exact ((keepsStream (streamRequest .post) _ readUri _ true rfl).refused 0 first _ hfirst rfl
    hstream rfl).1

/-- A 307 that may not be followed is handed to the caller; one that answers the GET after a 302 is
followed; and a GET whose body is dropped stays a GET. -/
theorem not_sendsStreamOnce :
    (¬ SendsStreamOnce [.ready [1, 2]] .post (locatedAnswers [307, 200])
      (streamedTo .none .post [307, 200])) ∧
    (¬ SendsStreamOnce [.ready [1, 2]] .post (locatedAnswers [302, 307, 200])
      (streamedTo .default .post [302, 307, 200])) ∧
    ¬ SendsStreamOnce [.ready [1, 2]] .get (locatedAnswers [302, 200])
      (streamedTo .default .get [302, 200]) := by
  refine ⟨fun h => ?_, fun h => ?_, fun h => ?_⟩
  · have hok : (streamedTo .none .post [307, 200]).2.isOk = true := by decide +kernel
    obtain ⟨e, he⟩ := (h.refused 0 _ rfl (by decide +kernel) rfl).2 (by decide)
      fun hpanic => by
        rw [hpanic] at hok
        cases hok
    rw [he] at hok
    cases hok
  · have hlen := (h.refused 1 _ rfl (by decide +kernel) rfl).1
    exact absurd hlen (by decide +kernel)
  · have hsecond : (streamedTo .default .get [302, 200]).1[1]?.map
        (fun sent => (sent.method, sent.body)) = some (.get, .empty) := by decide +kernel
    obtain ⟨second, hmem, heq⟩ := Option.map_eq_some_iff.1 hsecond
    obtain ⟨hmethod, hempty⟩ := Prod.mk.inj heq
    have hstream := h.notReplaced second (List.mem_of_getElem? hmem) hmethod
    rw [hempty] at hstream
    cases hstream

end RequestBuilder

end OxiHttp
