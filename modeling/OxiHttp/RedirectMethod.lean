/-
**The method and the body along a chain of redirects.**

What the statuses of a chain make of a request.  A 307 or 308 keeps it; a 303, or a 301 or 302 that
answers a POST, turns it into a GET without a body, or a HEAD if it was one; and any other request
keeps its method at a 301 or 302.  The code drops the body of such a request and not the headers
that describe it, and a 301 or 302 makes a GET of a PUT as well.

Main definitions:

* `OxiHttp.methodAfter`, `OxiHttp.exchangesFrom` — the methods of a chain, by its statuses;
* `OxiHttp.FollowsRedirects` — what the redirects so far make of a request;
* `OxiHttp.Drops` — the statuses drop the body.

Main results:

* `OxiHttp.Follows.traces` — the loop along a chain: method, body and body headers;
* `OxiHttp.followsRedirects_iff` — when a request of a run is what the redirects make of it.
-/

import OxiHttp.RedirectChain

set_option relaxedAutoImplicit false
set_option autoImplicit false

namespace OxiHttp

/-! ### Methods along a chain -/

/-- The method after these statuses. -/
def methodAfter : Method → List ℕ → Method
  | m, [] => m
  | m, status :: statuses => methodAfter (redirectMethod status m) statuses

/-- The methods that these statuses answer. -/
def exchangesFrom : Method → List ℕ → List (Method × ℕ)
  | _, [] => []
  | m, status :: statuses => (m, status) :: exchangesFrom (redirectMethod status m) statuses

/-- The method of a request whose body was dropped. -/
def Method.withoutBody (m : Method) : Method := if m = .head then .head else .get

@[simp] theorem methodAfter_append (m : Method) (l l' : List ℕ) :
    methodAfter m (l ++ l') = methodAfter (methodAfter m l) l' := by
  induction l generalizing m with
  | nil => rfl
  | cons status l ih => exact ih _

theorem redirectMethod_withoutBody (status : ℕ) (m : Method) :
    redirectMethod status m.withoutBody = m.withoutBody := by
  unfold redirectMethod Method.withoutBody
  split_ifs <;> simp_all

/-- Without a body nothing changes any more. -/
theorem methodAfter_withoutBody (m : Method) (l : List ℕ) :
    methodAfter m.withoutBody l = m.withoutBody := by
  induction l with
  | nil => rfl
  | cons status l ih => rw [methodAfter, redirectMethod_withoutBody, ih]

/-- A redirect keeps the request or drops its body. -/
theorem redirectMethod_of_redirect {status : ℕ} (h : isRedirectStatus status = true) (m : Method) :
    redirectMethod status m = if shouldPreserveBody status then m else m.withoutBody := by
  simp only [isRedirectStatus, Bool.or_eq_true, beq_iff_eq] at h
  rcases h with (((rfl | rfl) | rfl) | rfl) | rfl <;> rfl

/-- The method after a chain of redirects. -/
theorem methodAfter_of_redirects {l : List ℕ} (h : ∀ status ∈ l, isRedirectStatus status = true)
    (m : Method) :
    methodAfter m l = if l.all shouldPreserveBody then m else m.withoutBody := by
  induction l with
  | nil => rfl
  | cons status l ih =>
      rw [List.forall_mem_cons] at h
      rw [methodAfter, redirectMethod_of_redirect h.1, List.all_cons]
      cases shouldPreserveBody status with
      | true => exact ih h.2
      | false => exact methodAfter_withoutBody m l

/-- A status answers the method that the ones before it leave. -/
theorem mem_exchangesFrom {m : Method} {l : List ℕ} {r : Method × ℕ} :
    r ∈ exchangesFrom m l ↔ ∃ l₁ l₂, l = l₁ ++ r.2 :: l₂ ∧ r.1 = methodAfter m l₁ := by
  induction l generalizing m with
  | nil => simp [exchangesFrom]
  | cons status l ih =>
      rw [exchangesFrom, List.mem_cons, ih]
      constructor
      · rintro (rfl | ⟨l₁, l₂, rfl, h⟩)
        · exact ⟨[], l, rfl, rfl⟩
        · exact ⟨status :: l₁, l₂, rfl, h⟩
      · rintro ⟨l₁, l₂, heq, h⟩
        cases l₁ with
        | nil =>
            obtain ⟨rfl, rfl⟩ := List.cons.inj heq
            exact .inl (Prod.ext h rfl)
        | cons _ l₁ =>
            obtain ⟨rfl, rfl⟩ := List.cons.inj heq
            exact .inr ⟨l₁, l₂, rfl, h⟩

theorem map_snd_exchangesFrom (m : Method) (l : List ℕ) :
    (exchangesFrom m l).map Prod.snd = l := by
  induction l generalizing m with
  | nil => rfl
  | cons status l ih => exact congrArg _ (ih _)

theorem exchangesFrom_concat (m : Method) (l : List ℕ) (status : ℕ) :
    exchangesFrom m (l ++ [status]) = exchangesFrom m l ++ [(methodAfter m l, status)] := by
  induction l generalizing m with
  | nil => rfl
  | cons first l ih => exact congrArg _ (ih _)

/-! ### What the redirects make of a request -/

/-- The headers that describe a body. -/
def bodyHeaders : List Str :=
  ["content-type".toList, "content-length".toList, "transfer-encoding".toList]

/-- A redirect that turns a request with this method into one without a body. -/
def DropsBody (r : Method × ℕ) : Prop := r.2 = 303 ∨ (r.2 = 301 ∨ r.2 = 302) ∧ r.1 = .post

/-- What the redirects so far, each with the method it answers, make of a request.  A 301 or 302
that drops no body leaves the method as it is, and so does a 307 or 308 that comes later. -/
structure FollowsRedirects (method : Method) (data : List UInt8) (headers : HeaderMap)
    (redirects : List (Method × ℕ)) (sent : SentRequest) : Prop where
  kept : (∀ r ∈ redirects, r.2 = 307 ∨ r.2 = 308) →
    sent.method = method ∧ sent.body = Body.fromBytes data ∧
      sent.headers.getAll "content-type".toList = headers.getAll "content-type".toList
  dropped : ∀ r ∈ redirects, DropsBody r →
    sent.method = r.1.withoutBody ∧ sent.body = .empty ∧
      ∀ name ∈ bodyHeaders, sent.headers.getAll name = []
  unchanged : ∀ r ∈ redirects.getLast?, r.2 = 301 ∨ r.2 = 302 → r.1 ≠ .post → sent.method = r.1
  stays : (∀ r ∈ redirects, ¬ DropsBody r) → sent.method = method

/-- These statuses drop the body of a request with this method. -/
def Drops (method : Method) (statuses : List ℕ) : Prop :=
  303 ∈ statuses ∨ method = .post ∧ (301 ∈ statuses ∨ 302 ∈ statuses)

theorem shouldPreserveBody_iff {status : ℕ} :
    shouldPreserveBody status = true ↔ status = 307 ∨ status = 308 := by
  simp [shouldPreserveBody]

theorem DropsBody.redirectMethod {r : Method × ℕ} (h : DropsBody r) :
    OxiHttp.redirectMethod r.2 r.1 = r.1.withoutBody := by
  rcases h with h | ⟨h | h, -⟩ <;> rw [h] <;> rfl

theorem DropsBody.not_preserve {r : Method × ℕ} (h : DropsBody r) :
    ¬ shouldPreserveBody r.2 = true := by
  rcases h with h | ⟨h | h, -⟩ <;> rw [h] <;> decide

/-- Only the first status of a chain that is not a 307 or 308 can answer a POST. -/
theorem exists_dropsBody_iff {method : Method} {statuses : List ℕ}
    (h : ∀ status ∈ statuses, isRedirectStatus status = true) :
    (∃ r ∈ exchangesFrom method statuses, DropsBody r) ↔ Drops method statuses := by
  constructor
  · rintro ⟨r, hr, hdrop⟩
    obtain ⟨l₁, l₂, rfl, hmethod⟩ := mem_exchangesFrom.1 hr
    rcases hdrop with h303 | ⟨hstatus, hpost⟩
    · exact .inl (by simp [h303])
    · rw [hpost, methodAfter_of_redirects fun s hs => h s (List.mem_append_left _ hs)] at hmethod
      refine .inr ⟨?_, ?_⟩
      · unfold Method.withoutBody at hmethod
        split_ifs at hmethod
        exact hmethod.symm
      · rcases hstatus with hstatus | hstatus <;> simp [hstatus]
  · rintro (h303 | ⟨rfl, hstatus⟩)
    · obtain ⟨l₁, l₂, rfl⟩ := List.append_of_mem h303
      exact ⟨(methodAfter method l₁, 303), mem_exchangesFrom.2 ⟨l₁, l₂, rfl, rfl⟩, .inl rfl⟩
    · -- the first status that does not keep the body answers the POST
      induction statuses with
      | nil => simp at hstatus
      | cons status statuses ih =>
          rw [List.forall_mem_cons] at h
          cases hkept : shouldPreserveBody status with
          | true =>
              have hne : status ≠ 301 ∧ status ≠ 302 := by
                rcases shouldPreserveBody_iff.1 hkept with rfl | rfl <;> decide
              have hmethod : redirectMethod status .post = .post := by
                rw [redirectMethod_of_redirect h.1, hkept]
                rfl
              obtain ⟨r, hr, hdrop⟩ := ih h.2 (by simpa [hne.1.symm, hne.2.symm] using hstatus)
              refine ⟨r, ?_, hdrop⟩
              rw [exchangesFrom, hmethod]
              exact List.mem_cons_of_mem _ hr
          | false =>
              refine ⟨(.post, status), List.mem_cons_self, ?_⟩
              have hredirect := h.1
              simp only [shouldPreserveBody, Bool.or_eq_false_iff, beq_eq_false_iff_ne] at hkept
              simp only [isRedirectStatus, Bool.or_eq_true, beq_iff_eq] at hredirect
              unfold DropsBody
              tauto

section

variable {config : SendConfig} {fromStr : Str → Except String Uri} {originalUri : Uri}

/-! ### The loop along a chain -/

/-- The status of a response. -/
def Answer.status : Answer → Option ℕ
  | .response status _ => some status
  | .failed _ => none

/-- The statuses of the responses. -/
def statuses (hops : List Hop) : List ℕ := hops.filterMap fun hop => hop.answer.status

/-- The requests that were answered: the method of each, and the status of its response. -/
def exchanges (log : List SentRequest) (hops : List Hop) : List (Method × ℕ) :=
  (log.zip hops).filterMap fun (sent, hop) => hop.answer.status.map fun status =>
    (sent.method, status)

/-- No header of a body is one that the loop adds or takes away. -/
theorem ne_of_mem_bodyHeaders {name : Str} (h : name ∈ bodyHeaders) :
    "accept-encoding".toList ≠ name ∧ "cookie".toList ≠ name ∧ "authorization".toList ≠ name := by
  unfold bodyHeaders at h
  simp only [List.mem_cons, List.not_mem_nil, or_false] at h
  rcases h with rfl | rfl | rfl <;> decide

theorem getAll_bodyHeader_requestHeaders {name : Str} (h : name ∈ bodyHeaders)
    (headers : HeaderMap) (cookie : Option HeaderValue) :
    (requestHeaders config headers cookie).getAll name = headers.getAll name := by
  obtain ⟨hencoding, hcookie, -⟩ := ne_of_mem_bodyHeaders h
  unfold requestHeaders
  split_ifs <;> cases cookie <;>
    simp only [HeaderMap.getAll_insert, HeaderMap.getAll_append, if_neg hencoding, if_neg hcookie,
      List.append_nil]

theorem getAll_bodyHeader_stripCredentials {name : Str} (h : name ∈ bodyHeaders) (newUri : Uri)
    (headers : HeaderMap) :
    (stripCredentials originalUri newUri headers).getAll name = headers.getAll name := by
  obtain ⟨-, hcookie, hauth⟩ := ne_of_mem_bodyHeaders h
  unfold stripCredentials
  split_ifs
  · simp only [HeaderMap.getAll_remove, if_neg hcookie, if_neg hauth]
  · rfl

/-- What a chain that was followed has made of the state. -/
structure Traces (s : SendState) (data : List UInt8) (chain : List Hop) (log : List SentRequest)
    (s' : SendState) : Prop where
  length : log.length = chain.length
  redirects : ∀ status ∈ statuses chain, isRedirectStatus status = true
  exchanges : exchanges log chain = exchangesFrom s.method (statuses chain)
  method : s'.method = methodAfter s.method (statuses chain)
  body : s'.body = .reusable (if (statuses chain).all shouldPreserveBody then data else [])
  headers : ∀ name ∈ bodyHeaders, s'.headers.getAll name = s.headers.getAll name

/-- The method, the body and its headers along a chain. -/
theorem Follows.traces {s s' : SendState} {chain : List Hop} {log : List SentRequest}
    (h : Follows config fromStr originalUri s chain log s') {data : List UInt8}
    (hbody : s.body = .reusable data) : Traces s data chain log s' := by
  induction h generalizing data with
  | nil s =>
      refine ⟨rfl, by simp [statuses], rfl, rfl, ?_, fun _ _ => rfl⟩
      simp [statuses, hbody]
  | cons hhop _ ih =>
      rename_i s _ s'' hop hops sent log _
      obtain ⟨f, hsent, rfl⟩ := sendHop_next hhop
      cases hsent
      have hleft : f.body = .reusable data := by
        have htake := f.take
        rw [hbody] at htake
        exact (Prod.mk.inj htake).2.symm
      have hstate : (f.state originalUri).body
          = .reusable (if shouldPreserveBody f.status then data else []) := by
        rw [f.state_body, hleft]
        split <;> rfl
      have hstatuses : statuses (hop :: hops) = f.status :: statuses hops := by
        simp [statuses, f.answer, Answer.status]
      have hrest := ih hstate
      refine ⟨?_, ?_, ?_, ?_, ?_, fun name hname => ?_⟩
      · rw [List.length_cons, List.length_cons, hrest.length]
      · rw [hstatuses, List.forall_mem_cons]
        exact ⟨f.redirect, hrest.redirects⟩
      · have hfirst : exchanges (f.request :: log) (hop :: hops)
            = (s.method, f.status) :: exchanges log hops := by
          simp [exchanges, f.answer, Answer.status, FollowedHop.request, SendState.request]
        rw [hstatuses, exchangesFrom, hfirst]
        exact congrArg _ hrest.exchanges
      · rw [hstatuses, hrest.method]
        rfl
      · rw [hstatuses, hrest.body, List.all_cons]
        cases shouldPreserveBody f.status <;> simp
      · rw [hrest.headers name hname]
        exact getAll_bodyHeader_stripCredentials hname _ _

/-- A request is made from the state of its hop. -/
theorem sendHop_sent {s : SendState} {hop : Hop} {sent : SentRequest} {r : HopResult}
    {data : List UInt8} (hbody : s.body = .reusable data)
    (h : sendHop config fromStr originalUri s hop = (some sent, r)) :
    sent.method = s.method ∧ sent.body = Body.fromBytes data ∧
      ∀ name ∈ bodyHeaders, sent.headers.getAll name = s.headers.getAll name := by
  have htake : s.body.takeForHop = (.ok (Body.fromBytes data), .reusable data) := by
    rw [hbody]
    rfl
  rw [sendHop_of_take config fromStr originalUri htake] at h
  obtain ⟨hsent, -⟩ := Prod.mk.inj h
  cases hsent
  exact ⟨rfl, rfl, fun name hname => getAll_bodyHeader_requestHeaders hname _ _⟩

/-- Every request of a run is made from what the chain before it has left of the first one. -/
theorem traces_of_sent {s : SendState} {data : List UInt8} (hbody : s.body = .reusable data)
    {hops : List Hop} {before after : List SentRequest} {sent : SentRequest}
    (h : (sendLoop config fromStr originalUri s hops).1 = before ++ sent :: after) :
    (∀ status ∈ statuses (hops.take before.length), isRedirectStatus status = true) ∧
      exchanges before hops = exchangesFrom s.method (statuses (hops.take before.length)) ∧
      sent.method = methodAfter s.method (statuses (hops.take before.length)) ∧
      sent.body = Body.fromBytes
        (if (statuses (hops.take before.length)).all shouldPreserveBody then data else []) ∧
      ∀ name ∈ bodyHeaders, sent.headers.getAll name = s.headers.getAll name := by
  obtain ⟨chain, hop, rest, s', r, rfl, hchain, hsent⟩ := follows_of_sent h
  have htraces := hchain.traces hbody
  obtain ⟨hmethod, hbody, hheaders⟩ := sendHop_sent htraces.body hsent
  have hzip : before.zip (chain ++ hop :: rest) = before.zip chain := by
    simpa using @List.zip_append _ _ before [] chain (hop :: rest) htraces.length
  rw [List.take_left' htraces.length.symm, exchanges, hzip]
  refine ⟨htraces.redirects, htraces.exchanges, hmethod.trans htraces.method, hbody,
    fun name hname => ?_⟩
  rw [hheaders name hname, htraces.headers name hname]

end

/-! ### When a request is what the redirects make of it -/

theorem all_shouldPreserveBody_iff {l : List ℕ}
    (h : ∀ status ∈ l, isRedirectStatus status = true) :
    l.all shouldPreserveBody = true ↔ 303 ∉ l ∧ ¬ (301 ∈ l ∨ 302 ∈ l) := by
  rw [List.all_eq_true]
  constructor
  · intro hall
    have hne : ∀ status ∈ l, status = 307 ∨ status = 308 := fun status hmem =>
      shouldPreserveBody_iff.1 (hall status hmem)
    refine ⟨fun hmem => ?_, ?_⟩
    · exact absurd (hne _ hmem) (by decide)
    · rintro (hmem | hmem)
      · exact absurd (hne _ hmem) (by decide)
      · exact absurd (hne _ hmem) (by decide)
  · rintro ⟨h303, hmoved⟩ status hmem
    have hredirect := h status hmem
    simp only [isRedirectStatus, Bool.or_eq_true, beq_iff_eq] at hredirect
    rcases hredirect with (((rfl | rfl) | rfl) | rfl) | rfl
    · exact absurd (.inl hmem) hmoved
    · exact absurd (.inr hmem) hmoved
    · exact absurd hmem h303
    · rfl
    · rfl

theorem withoutBody_eq_self_iff {m : Method} : m.withoutBody = m ↔ m = .get ∨ m = .head := by
  cases m <;> simp [Method.withoutBody]

/-- The method that a chain leaves when it drops no body. -/
theorem stays_iff {method : Method} {l : List ℕ}
    (h : ∀ status ∈ l, isRedirectStatus status = true) :
    ((∀ r ∈ exchangesFrom method l, ¬ DropsBody r) → methodAfter method l = method) ↔
      (303 ∉ l → 301 ∈ l ∨ 302 ∈ l → method = .get ∨ method = .head ∨ method = .post) := by
  have hdrops : (∀ r ∈ exchangesFrom method l, ¬ DropsBody r) ↔ ¬ Drops method l := by
    rw [← exists_dropsBody_iff h]
    simp
  rw [hdrops, methodAfter_of_redirects h]
  by_cases hall : l.all shouldPreserveBody = true
  · rw [if_pos hall]
    exact iff_of_true (fun _ => rfl) fun _ hmoved =>
      absurd hmoved ((all_shouldPreserveBody_iff h).1 hall).2
  · rw [if_neg hall, withoutBody_eq_self_iff]
    rw [all_shouldPreserveBody_iff h] at hall
    unfold Drops
    tauto

/-- The method a 301 or 302 leaves, as the last of a chain. -/
theorem unchanged_of_stays {method : Method} {l : List ℕ}
    (h : ∀ status ∈ l, isRedirectStatus status = true)
    (hstays : 303 ∉ l → 301 ∈ l ∨ 302 ∈ l → method = .get ∨ method = .head ∨ method = .post) :
    ∀ r ∈ (exchangesFrom method l).getLast?, r.2 = 301 ∨ r.2 = 302 → r.1 ≠ .post →
      methodAfter method l = r.1 := by
  rcases List.eq_nil_or_concat l with rfl | ⟨first, last, rfl⟩
  · simp [exchangesFrom]
  rw [List.concat_eq_append] at h hstays ⊢
  rw [exchangesFrom_concat, List.getLast?_concat, methodAfter_append, methodAfter, methodAfter]
  rintro _ ⟨⟩ hlast hpost
  have hfirst := fun s hs => h s (List.mem_append_left [last] hs)
  have hdrops : redirectMethod last (methodAfter method first)
      = (methodAfter method first).withoutBody := by
    rcases hlast with rfl | rfl <;> rfl
  dsimp only at hpost ⊢
  rw [hdrops]
  rw [methodAfter_of_redirects hfirst] at hpost ⊢
  by_cases hall : first.all shouldPreserveBody = true
  · rw [if_pos hall] at hpost ⊢
    have h303 : 303 ∉ first ++ [last] := by
      have hnot := ((all_shouldPreserveBody_iff hfirst).1 hall).1
      rcases hlast with rfl | rfl <;> simpa using hnot
    have hmoved : 301 ∈ first ++ [last] ∨ 302 ∈ first ++ [last] := by
      rcases hlast with rfl | rfl <;> simp
    refine withoutBody_eq_self_iff.2 ?_
    rcases hstays h303 hmoved with hget | hhead | heq
    · exact .inl hget
    · exact .inr hhead
    · exact absurd heq hpost
  · rw [if_neg hall]
    exact redirectMethod_withoutBody 301 method

/-- A request of a run is what the redirects so far make of it exactly when there are no headers of
a body that was dropped and, where a 301 or 302 is among them and no 303, the first request is a
GET, a HEAD or a POST. -/
theorem followsRedirects_iff (config : SendConfig) (fromStr : Str → Except String Uri)
    (method : Method) (uri : Uri) (data : List UInt8) (headers : HeaderMap)
    (jar : Option CookieJar) (hops : List Hop) {before after : List SentRequest}
    {sent : SentRequest}
    (h : (sendInner config fromStr method uri (.reusable data) headers jar hops).1
      = before ++ sent :: after) :
    FollowsRedirects method data headers (exchanges before hops) sent ↔
      (Drops method (statuses (hops.take before.length)) →
        ∀ name ∈ bodyHeaders, headers.getAll name = []) ∧
      (303 ∉ statuses (hops.take before.length) →
        301 ∈ statuses (hops.take before.length) ∨ 302 ∈ statuses (hops.take before.length) →
          method = .get ∨ method = .head ∨ method = .post) := by
  obtain ⟨hredirects, hexchanges, hmethod, hbody, hheaders⟩ := traces_of_sent rfl h
  rw [hexchanges, ← exists_dropsBody_iff hredirects]
  constructor
  · intro hfollows
    refine ⟨?_, (stays_iff hredirects).1 fun hnone => hmethod ▸ hfollows.stays hnone⟩
    rintro ⟨r, hr, hdrop⟩ name hname
    rw [← hheaders name hname]
    exact (hfollows.dropped r hr hdrop).2.2 name hname
  · rintro ⟨hdropped, hstays⟩
    refine ⟨fun hkept => ?_, fun r hr hdrop => ?_,
      fun r hr hstatus hpost =>
        hmethod.trans (unchanged_of_stays hredirects hstays r hr hstatus hpost),
      fun hnone => hmethod.trans ((stays_iff hredirects).2 hstays hnone)⟩
    · have hall : (statuses (hops.take before.length)).all shouldPreserveBody = true := by
        rw [← map_snd_exchangesFrom method (statuses (hops.take before.length)), List.all_map,
          List.all_eq_true]
        exact fun r hr => shouldPreserveBody_iff.2 (hkept r hr)
      rw [methodAfter_of_redirects hredirects, if_pos hall] at hmethod
      rw [if_pos hall] at hbody
      exact ⟨hmethod, hbody, hheaders _ List.mem_cons_self⟩
    · obtain ⟨l₁, l₂, heq, hanswered⟩ := mem_exchangesFrom.1 hr
      have hdrops : ¬ (statuses (hops.take before.length)).all shouldPreserveBody = true := by
        rw [heq, List.all_eq_true]
        exact fun hall => hdrop.not_preserve (hall r.2 (by simp))
      rw [heq, methodAfter_append, ← hanswered, methodAfter, hdrop.redirectMethod,
        methodAfter_withoutBody] at hmethod
      rw [if_neg hdrops] at hbody
      refine ⟨hmethod, hbody, fun name hname => ?_⟩
      rw [hheaders name hname]
      exact hdropped ⟨r, hr, hdrop⟩ name hname

/-- A server that redirects once. -/
def redirectedOnce : List Hop :=
  [{ sentAt := 0
     answer := .response 302 ⟨[("location".toList, ⟨Utf8.encode "/y".toList⟩)]⟩
     clock := fun _ => 0 },
    { sentAt := 0, answer := .response 200 {}, clock := fun _ => 0 }]

/-- The requests of a run against it. -/
def redirectedRun (method : Method) (headers : HeaderMap) : List SentRequest :=
  (sendInner { maxResponseBody := 0, clockMax := 0 } readUri method exampleBase (.reusable [1])
    headers none redirectedOnce).1

/-- A POST becomes a GET without a body. -/
theorem followsRedirects_post :
    ∃ first second, redirectedRun .post {} = [first, second] ∧ second.method = .get ∧
      second.body = .empty := by
  have hlen : (redirectedRun .post {}).length = 2 := by decide +kernel
  obtain ⟨first, second, hlog⟩ := List.length_eq_two.1 hlen
  have hfollows := (followsRedirects_iff _ _ _ _ _ _ _ _
    (show redirectedRun .post {} = [first] ++ second :: [] from hlog)).2
    ⟨fun _ _ _ => rfl, fun _ _ => .inr (.inr rfl)⟩
  have hfirst : ((redirectedRun .post {}).map SentRequest.method).head? = some .post := by
    decide +kernel
  rw [hlog] at hfirst
  have hmethod : first.method = .post := Option.some.inj hfirst
  have hredirect : (.post, 302) ∈ exchanges [first] redirectedOnce := by
    rw [← hmethod]
    exact List.mem_cons_self
  obtain ⟨hget, hempty, -⟩ := hfollows.dropped _ hredirect (.inr ⟨.inr rfl, rfl⟩)
  exact ⟨first, second, hlog, hget, hempty⟩

/-- The headers of a body of JSON. -/
def jsonHeaders : HeaderMap :=
  ⟨[("content-type".toList, ⟨Utf8.encode "application/json".toList⟩)]⟩

/-- A POST whose body is dropped still says what it is, and a PUT becomes a GET. -/
theorem not_followsRedirects_redirectedOnce :
    (¬ ∀ before sent after, redirectedRun .post jsonHeaders = before ++ sent :: after →
      FollowsRedirects .post [1] jsonHeaders (exchanges before redirectedOnce) sent) ∧
    ¬ ∀ before sent after, redirectedRun .put {} = before ++ sent :: after →
      FollowsRedirects .put [1] {} (exchanges before redirectedOnce) sent := by
  constructor
  · intro h
    have hlen : (redirectedRun .post jsonHeaders).length = 2 := by decide +kernel
    obtain ⟨first, second, hlog⟩ := List.length_eq_two.1 hlen
    obtain ⟨-, hexchanges, -, -, hheaders⟩ := traces_of_sent rfl
      (show redirectedRun .post jsonHeaders = [first] ++ second :: [] from hlog)
    have hnone := ((h [first] second [] hlog).dropped (.post, 302)
      (hexchanges ▸ List.mem_cons_self) (.inr ⟨.inr rfl, rfl⟩)).2.2 _ List.mem_cons_self
    rw [hheaders _ List.mem_cons_self] at hnone
    exact absurd hnone (by decide)
  · intro h
    have hlen : (redirectedRun .put {}).length = 2 := by decide +kernel
    obtain ⟨first, second, hlog⟩ := List.length_eq_two.1 hlen
    obtain ⟨-, hexchanges, hmethod, -⟩ := traces_of_sent rfl
      (show redirectedRun .put {} = [first] ++ second :: [] from hlog)
    have hkept := (h [first] second [] hlog).unchanged (.put, 302) (hexchanges ▸ rfl)
      (.inr rfl) (by decide)
    rw [hmethod] at hkept
    cases hkept

end OxiHttp
