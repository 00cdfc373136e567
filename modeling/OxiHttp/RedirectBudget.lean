/-
**The budget of redirects.**

A policy allows a call so many redirects.  A response that is no redirect, behind redirects that can
be followed, is the caller's; one redirect more than are allowed is an error; and a policy without
any redirects hands out the first response as it is.  The code keeps to this against every server,
unless the cookies of a response cannot be stored: then the call panics.

Main definitions:

* `OxiHttp.Settles`, `OxiHttp.Exhausts` — what the answers of a server come to, for a budget;
* `OxiHttp.EndsAs` — how a run ends, by the answers;
* `OxiHttp.KeepsBudget` — what is due to the caller in each case.

Main results:

* `OxiHttp.length_sendLoop_le` — no more requests than the budget and one;
* `OxiHttp.sendLoop_ends` — a run from any state ends so;
* `OxiHttp.keepsBudget_iff` — when a run keeps to its budget.
-/

import OxiHttp.RedirectChain

set_option relaxedAutoImplicit false
set_option autoImplicit false

namespace OxiHttp

/-! ### What a server does -/

/-- One of the first answers, as many as there are redirects and one more, is a response and no
redirect, and the answers before it lead on. -/
def Settles (fromStr : Str → Except String Uri) (uri : Uri) (n : ℕ) (answers : List Answer)
    (status : ℕ) (headers : HeaderMap) : Prop :=
  ∃ i ≤ n, answers[i]? = some (.response status headers) ∧ isRedirectStatus status = false ∧
    (chainEnd fromStr uri (answers.take i)).isSome = true

/-- All of these answers are redirects, and all but the last lead on. -/
def Exhausts (fromStr : Str → Except String Uri) (uri : Uri) (n : ℕ) (answers : List Answer) :
    Prop :=
  n < answers.length ∧ (∀ a ∈ answers.take (n + 1), a.isRedirect = true) ∧
    (chainEnd fromStr uri (answers.take n)).isSome = true

/-- What is due to the caller when a policy allows `n` redirects. -/
structure KeepsBudget (config : SendConfig) (fromStr : Str → Except String Uri) (method : Method)
    (uri : Uri) (headers : HeaderMap) (jar : Option CookieJar) (hops : List Hop) (n : ℕ) :
    Prop where
  /-- At most one request more than there are redirects. -/
  sent : ∀ body, (sendInner config fromStr method uri body headers jar hops).1.length ≤ n + 1
  /-- A response exactly when the answers settle in one. -/
  settles : 1 ≤ n → ∀ data r,
    (sendInner config fromStr method uri (.reusable data) headers jar hops).2 = .done (.ok r) ↔
      ∃ status headers, Settles fromStr uri n (hops.map Hop.answer) status headers ∧
        r = config.response status headers
  /-- The error exactly when they are redirects to the end. -/
  exhausts : ∀ data,
    (sendInner config fromStr method uri (.reusable data) headers jar hops).2
        = .done (.error (tooManyRedirects n)) ↔
      1 ≤ n ∧ Exhausts fromStr uri n (hops.map Hop.answer)
  /-- Without redirects, one request, whose response is the caller's. -/
  single : n = 0 → ∀ data hop rest, hops = hop :: rest →
    (sendInner config fromStr method uri (.reusable data) headers jar hops).1.length = 1 ∧
      ∀ status headers', hop.answer = .response status headers' →
        (sendInner config fromStr method uri (.reusable data) headers jar hops).2
          = .done (.ok (config.response status headers'))

section

variable {config : SendConfig} {fromStr : Str → Except String Uri} {originalUri uri : Uri} {n : ℕ}

theorem settles_nil {status : ℕ} {headers : HeaderMap} :
    ¬ Settles fromStr uri n [] status headers := by
  rintro ⟨i, -, h, -⟩
  simp at h

/-- The first answer settles, or it leads on and those after it settle. -/
theorem settles_cons {a : Answer} {answers : List Answer} {status : ℕ} {headers : HeaderMap} :
    Settles fromStr uri n (a :: answers) status headers ↔
      (a = .response status headers ∧ isRedirectStatus status = false) ∨
        ∃ m uri', n = m + 1 ∧ a.leadsTo fromStr uri = some uri' ∧
          Settles fromStr uri' m answers status headers := by
  constructor
  · rintro ⟨i, hi, hans, hstatus, hchain⟩
    cases i with
    | zero => exact .inl ⟨by simpa using hans, hstatus⟩
    | succ i =>
        rw [List.take_succ_cons, chainEnd, Option.isSome_bind, Option.any_eq_true] at hchain
        obtain ⟨uri', hlead, hrest⟩ := hchain
        exact .inr ⟨n - 1, uri', by omega, hlead, i, by omega, by simpa using hans, hstatus, hrest⟩
  · rintro (⟨rfl, hstatus⟩ | ⟨m, uri', rfl, hlead, i, hi, hans, hstatus, hchain⟩)
    · exact ⟨0, Nat.zero_le _, rfl, hstatus, rfl⟩
    · refine ⟨i + 1, by omega, by simpa using hans, hstatus, ?_⟩
      rwa [List.take_succ_cons, chainEnd, hlead, Option.bind_some]

/-- Behind a redirect that is followed, it is up to the answers after it. -/
theorem settles_cons_of_leadsTo {a : Answer} {answers : List Answer} {uri' : Uri}
    (hlead : a.leadsTo fromStr uri = some uri') {status : ℕ} {headers : HeaderMap} :
    Settles fromStr uri (n + 1) (a :: answers) status headers ↔
      Settles fromStr uri' n answers status headers := by
  rw [settles_cons, or_iff_right]
  · constructor
    · rintro ⟨m, uri'', hm, hlead', h⟩
      cases hlead.symm.trans hlead'
      cases hm
      exact h
    · exact fun h => ⟨n, uri', rfl, hlead, h⟩
  · rintro ⟨rfl, hstatus⟩
    exact absurd (Answer.isRedirect_of_leadsTo hlead) (by simp [Answer.isRedirect, hstatus])

theorem exhausts_nil : ¬ Exhausts fromStr uri n [] := by
  rintro ⟨h, -⟩
  simp at h

theorem exhausts_zero_cons {a : Answer} {answers : List Answer} :
    Exhausts fromStr uri 0 (a :: answers) ↔ a.isRedirect = true := by
  simp [Exhausts, chainEnd]

/-- With redirects left the first answer leads on. -/
theorem exhausts_succ_cons {a : Answer} {answers : List Answer} :
    Exhausts fromStr uri (n + 1) (a :: answers) ↔
      ∃ uri', a.leadsTo fromStr uri = some uri' ∧ Exhausts fromStr uri' n answers := by
  constructor
  · rintro ⟨hlen, hall, hchain⟩
    rw [List.take_succ_cons, chainEnd, Option.isSome_bind, Option.any_eq_true] at hchain
    obtain ⟨uri', hlead, hrest⟩ := hchain
    rw [List.take_succ_cons, List.forall_mem_cons] at hall
    exact ⟨uri', hlead, by simpa using hlen, hall.2, hrest⟩
  · rintro ⟨uri', hlead, hlen, hall, hchain⟩
    refine ⟨by simpa using hlen, ?_, ?_⟩
    · rw [List.take_succ_cons, List.forall_mem_cons]
      exact ⟨Answer.isRedirect_of_leadsTo hlead, hall⟩
    · rwa [List.take_succ_cons, chainEnd, hlead, Option.bind_some]

/-! ### How many requests are sent -/

/-- A request is sent for a hop only when the redirects before it were allowed. -/
theorem length_sendLoop_le (hpolicy : config.redirectPolicy.maxRedirects = some n)
    (hops : List Hop) (s : SendState) (hcount : s.redirectCount ≤ n) :
    (sendLoop config fromStr originalUri s hops).1.length ≤ n - s.redirectCount + 1 := by
  induction hops generalizing s with
  | nil => simp [sendLoop]
  | cons hop hops ih =>
      rcases hhop : sendHop config fromStr originalUri s hop with ⟨request, r⟩
      cases r with
      | next s' =>
          obtain ⟨f, -, -⟩ := sendHop_next hhop
          have hlt : s.redirectCount < n := by simpa [SendConfig.mayFollow, hpolicy] using f.follow
          have hrest := ih (f.state originalUri) hlt
          have hone : (f.state originalUri).redirectCount = s.redirectCount + 1 := rfl
          rw [sendLoop_cons_of_followed f, List.length_cons]
          omega
      | done r =>
          rw [sendLoop_cons_of_done hhop]
          cases request <;> simp
      | panicked =>
          rw [sendLoop_cons_of_panicked hhop]
          cases request <;> simp

/-! ### How a run ends -/

variable (fromStr originalUri) in
/-- A response whose cookies can be stored: it is the caller's, or it is followed as long as there
are redirects left. -/
theorem sendHop_limited (hpolicy : config.redirectPolicy.maxRedirects = some n) (hn : 0 < n)
    {s : SendState} {hop : Hop} {data : List UInt8} {status : ℕ} {headers : HeaderMap}
    {jar : Option CookieJar} (hbody : s.body = .reusable data)
    (hans : hop.answer = .response status headers)
    (hstore : storeCookies config.clockMax hop.clock ((s.jar.bind hop.before).bind hop.during)
      headers s.uri = some jar) :
    (sendHop config fromStr originalUri s hop).2 =
      if isRedirectStatus status = false then .done (.ok (config.response status headers))
      else if s.redirectCount < n then
        followRedirect fromStr originalUri { s with jar } status headers
      else .done (.error (tooManyRedirects n)) := by
  rw [sendHop_of_take config fromStr originalUri (by rw [hbody]; rfl), hans]
  dsimp only
  rw [hstore]
  dsimp only
  rw [handleResponse_eq, ← hbody]
  simp [hpolicy, hn.ne', SendConfig.mayFollow]

/-- A run ends as the answers have it, when `k` of `n` redirects are left, unless the cookies of one
of the answers cannot be stored. -/
structure EndsAs (config : SendConfig) (fromStr : Str → Except String Uri) (n k : ℕ)
    (jar : Option CookieJar) (uri : Uri) (hops : List Hop) (outcome : SendOutcome) : Prop where
  ok : ∀ r, outcome = .done (.ok r) ↔
    storesAll config fromStr jar uri (hops.take (k + 1)) = true ∧
      ∃ status headers, Settles fromStr uri k (hops.map Hop.answer) status headers ∧
        r = config.response status headers
  tooMany : outcome = .done (.error (tooManyRedirects n)) ↔
    storesAll config fromStr jar uri (hops.take (k + 1)) = true ∧
      Exhausts fromStr uri k (hops.map Hop.answer)

namespace EndsAs

variable {k : ℕ} {jar : Option CookieJar} {hop : Hop} {hops : List Hop} {status : ℕ}
  {headers : HeaderMap}

theorem nil : EndsAs config fromStr n k jar uri [] .waiting where
  ok r := by simp [settles_nil]
  tooMany := by simp [exhausts_nil]

/-- There is no response. -/
theorem failed {e : String} (hans : hop.answer = .failed e) :
    EndsAs config fromStr n k jar uri (hop :: hops) (.done (.error (.hyper e))) where
  ok r := by simp [hans, settles_cons, Answer.leadsTo]
  tooMany := by
    have hexhausts : ¬ Exhausts fromStr uri k (Answer.failed e :: hops.map Hop.answer) := by
      cases k <;> simp [exhausts_zero_cons, exhausts_succ_cons, Answer.isRedirect, Answer.leadsTo]
    simp [hans, hexhausts, tooManyRedirects]

/-- Its cookies cannot be stored. -/
theorem panicked (hans : hop.answer = .response status headers)
    (hstore : storeCookies config.clockMax hop.clock ((jar.bind hop.before).bind hop.during)
      headers uri = none) :
    EndsAs config fromStr n k jar uri (hop :: hops) .panicked where
  ok r := by simp [storesAll, hans, hstore]
  tooMany := by simp [storesAll, hans, hstore]

/-- There is nowhere to go. -/
theorem unresolved (hans : hop.answer = .response status headers)
    (hstatus : isRedirectStatus status = true)
    (location : locationUri fromStr uri headers = none) {e : OxiHttpError}
    (hne : e ≠ tooManyRedirects n) :
    EndsAs config fromStr n (k + 1) jar uri (hop :: hops) (.done (.error e)) where
  ok r := by simp [hans, settles_cons, Answer.leadsTo, location, hstatus]
  tooMany := by simp [hans, exhausts_succ_cons, Answer.leadsTo, location, hne]

section

variable (hans : hop.answer = .response status headers) {jar' : Option CookieJar}
  (hstore : storeCookies config.clockMax hop.clock ((jar.bind hop.before).bind hop.during)
    headers uri = some jar')

include hans hstore

/-- The response is the caller's. -/
theorem final (hstatus : isRedirectStatus status = false) :
    EndsAs config fromStr n k jar uri (hop :: hops)
      (.done (.ok (config.response status headers))) where
  ok r := by
    simp [storesAll, hans, hstore, settles_cons, Answer.leadsTo, hstatus, @eq_comm _ r]
  tooMany := by
    have hexhausts : ¬ Exhausts fromStr uri k
        (Answer.response status headers :: hops.map Hop.answer) := by
      cases k <;> simp [exhausts_zero_cons, exhausts_succ_cons, Answer.isRedirect, Answer.leadsTo,
        hstatus]
    simp [hans, hexhausts, tooManyRedirects]

/-- The last redirect is one too many. -/
theorem exhausted (hstatus : isRedirectStatus status = true) :
    EndsAs config fromStr n 0 jar uri (hop :: hops) (.done (.error (tooManyRedirects n))) where
  ok r := by simp [hans, settles_cons, hstatus]
  tooMany := by
    simp [storesAll, hans, hstore, exhausts_zero_cons, Answer.isRedirect, hstatus]

/-- The redirect is followed, and the rest is up to the answers after it. -/
theorem followed (hstatus : isRedirectStatus status = true) {uri' : Uri}
    (location : locationUri fromStr uri headers = some uri') {outcome : SendOutcome}
    (hrest : EndsAs config fromStr n k jar' uri' hops outcome) :
    EndsAs config fromStr n (k + 1) jar uri (hop :: hops) outcome := by
  have hlead : (Answer.response status headers).leadsTo fromStr uri = some uri' :=
    (if_pos hstatus).trans location
  have hstores : storesAll config fromStr jar uri ((hop :: hops).take (k + 1 + 1))
      = storesAll config fromStr jar' uri' (hops.take (k + 1)) := by
    simp [storesAll, hans, hstore, hlead]
  constructor
  · intro r
    rw [hstores, List.map_cons, hans]
    simpa only [settles_cons_of_leadsTo hlead] using hrest.ok r
  · rw [hstores, List.map_cons, hans]
    simpa [exhausts_succ_cons, hlead] using hrest.tooMany

end

end EndsAs

variable (fromStr originalUri) in
/-- How the run from a state ends, when `k` redirects are left. -/
theorem sendLoop_ends (hpolicy : config.redirectPolicy.maxRedirects = some n) (hn : 0 < n)
    (hops : List Hop) {s : SendState} {data : List UInt8} {k : ℕ} (hbody : s.body = .reusable data)
    (hcount : s.redirectCount + k = n) :
    EndsAs config fromStr n k s.jar s.uri hops
      (sendLoop config fromStr originalUri s hops).2 := by
  induction hops generalizing s data k with
  | nil => exact .nil
  | cons hop hops ih =>
      have htake : s.body.takeForHop = (.ok (Body.fromBytes data), .reusable data) := by
        rw [hbody]
        rfl
      cases hans : hop.answer with
      | failed e =>
          have hhop : (sendHop config fromStr originalUri s hop).2 = .done (.error (.hyper e)) := by
            rw [sendHop_of_take config fromStr originalUri htake, hans]
          rw [sendLoop_cons_of_done (Prod.ext rfl hhop)]
          exact .failed hans
      | response status headers =>
          cases hstore : storeCookies config.clockMax hop.clock
              ((s.jar.bind hop.before).bind hop.during) headers s.uri with
          | none =>
              have hhop : (sendHop config fromStr originalUri s hop).2 = .panicked := by
                rw [sendHop_of_take config fromStr originalUri htake, hans]
                simp only [hstore]
              rw [sendLoop_cons_of_panicked (Prod.ext rfl hhop)]
              exact .panicked hans hstore
          | some jar =>
              have hhop := sendHop_limited fromStr originalUri hpolicy hn hbody hans hstore
              cases hstatus : isRedirectStatus status with
              | false =>
                  rw [if_pos hstatus] at hhop
                  rw [sendLoop_cons_of_done (Prod.ext rfl hhop)]
                  exact .final hans hstore hstatus
              | true =>
                  rw [if_neg (by simp [hstatus])] at hhop
                  cases k with
                  | zero =>
                      rw [if_neg (by omega)] at hhop
                      rw [sendLoop_cons_of_done (Prod.ext rfl hhop)]
                      exact .exhausted hans hstore hstatus
                  | succ m =>
                      have hlt : s.redirectCount < n := by omega
                      rw [if_pos hlt] at hhop
                      have hloc :=
                        followRedirect_eq fromStr originalUri { s with jar } status headers
                      cases location : locationUri fromStr s.uri headers with
                      | none =>
                          rw [location] at hloc
                          obtain ⟨e, he, hne⟩ := hloc
                          rw [he] at hhop
                          rw [sendLoop_cons_of_done (Prod.ext rfl hhop)]
                          exact .unresolved hans hstatus location (hne n)
                      | some uri' =>
                          let f : FollowedHop config fromStr s hop :=
                            .ofReusable hbody hans hstore hstatus
                              (by simpa [SendConfig.mayFollow, hpolicy] using hlt) location
                          have hkept : (f.state originalUri).body = .reusable
                              (if shouldPreserveBody status then data else []) := by
                            rw [f.state_body, apply_ite OutgoingBody.reusable]
                            rfl
                          have hone : (f.state originalUri).redirectCount + m = n := by
                            change s.redirectCount + 1 + m = n
                            omega
                          rw [sendLoop_cons_of_followed f]
                          exact .followed hans hstore hstatus location (ih hkept hone)

variable (fromStr originalUri) in
/-- Without redirects a run is its first hop. -/
theorem sendLoop_unfollowed (hpolicy : config.redirectPolicy.maxRedirects = some 0) (hop : Hop)
    (hops : List Hop) {s : SendState} {data : List UInt8} (hbody : s.body = .reusable data) :
    (sendLoop config fromStr originalUri s (hop :: hops)).1.length = 1 ∧
      (sendLoop config fromStr originalUri s (hop :: hops)).2 =
        match hop.answer with
        | .failed e => .done (.error (.hyper e))
        | .response status headers =>
            if storesAll config fromStr s.jar s.uri [hop] then
              .done (.ok (config.response status headers))
            else .panicked := by
  have htake : s.body.takeForHop = (.ok (Body.fromBytes data), .reusable data) := by
    rw [hbody]
    rfl
  have hhop := sendHop_of_take config fromStr originalUri htake hop
  cases hans : hop.answer with
  | failed e =>
      rw [hans] at hhop
      rw [sendLoop_cons_of_done hhop]
      exact ⟨rfl, rfl⟩
  | response status headers =>
      rw [hans] at hhop
      dsimp only at hhop ⊢
      cases hstore : storeCookies config.clockMax hop.clock
          ((s.jar.bind hop.before).bind hop.during) headers s.uri with
      | none =>
          rw [hstore] at hhop
          have hnot : storesAll config fromStr s.jar s.uri [hop] = false := by
            simp only [storesAll, hans, hstore]
          rw [sendLoop_cons_of_panicked hhop, hnot]
          exact ⟨rfl, rfl⟩
      | some jar =>
          rw [hstore] at hhop
          dsimp only at hhop
          rw [handleResponse_eq, if_pos (.inr hpolicy)] at hhop
          have hstores : storesAll config fromStr s.jar s.uri [hop] = true := by
            simp [storesAll, hans, hstore]
          rw [sendLoop_cons_of_done hhop, hstores]
          exact ⟨rfl, rfl⟩

end

/-- The answers come to something that is due to the caller. -/
def Owes (fromStr : Str → Except String Uri) (uri : Uri) (n : ℕ) (answers : List Answer) : Prop :=
  if n = 0 then ∃ status headers rest, answers = .response status headers :: rest
  else (∃ status headers, Settles fromStr uri n answers status headers) ∨
    Exhausts fromStr uri n answers

/-- A call keeps to its budget exactly when nothing is due to the caller, or the cookies of the
responses can be stored. -/
theorem keepsBudget_iff (config : SendConfig) (fromStr : Str → Except String Uri) (method : Method)
    (uri : Uri) (headers : HeaderMap) (jar : Option CookieJar) (hops : List Hop) {n : ℕ}
    (hpolicy : config.redirectPolicy.maxRedirects = some n) :
    KeepsBudget config fromStr method uri headers jar hops n ↔
      (Owes fromStr uri n (hops.map Hop.answer) →
        storesAll config fromStr jar uri (hops.take (n + 1)) = true) := by
  have hsent : ∀ body, (sendInner config fromStr method uri body headers jar hops).1.length
      ≤ n + 1 := fun body => length_sendLoop_le hpolicy hops _ (Nat.zero_le _)
  unfold Owes
  split_ifs with hzero
  · subst hzero
    have hends := fun data hop rest => sendLoop_unfollowed fromStr uri
      hpolicy hop rest (s := { method, uri, body := .reusable data, headers, jar }) rfl
    constructor
    · rintro h ⟨status, headers', answers, hanswers⟩
      obtain ⟨hop, rest, rfl, hans, -⟩ := List.map_eq_cons_iff.1 hanswers
      have hresponse := (h.single rfl [] hop rest rfl).2 status headers' hans
      rw [sendInner, (hends [] hop rest).2, hans] at hresponse
      dsimp only at hresponse
      rw [List.take_succ_cons, List.take_zero]
      by_contra hstore
      rw [if_neg hstore] at hresponse
      cases hresponse
    · intro h
      refine ⟨hsent, fun h => absurd h (by decide), fun data => ?_, fun _ data hop rest heq => ?_⟩
      · rw [iff_false_intro (fun h : 1 ≤ 0 ∧ _ => absurd h.1 (by decide)), iff_false, sendInner]
        cases hops with
        | nil => exact fun h => by cases h
        | cons hop rest =>
            rw [(hends data hop rest).2]
            cases hop.answer with
            | failed e => simp [tooManyRedirects]
            | response status headers' =>
                dsimp only
                split_ifs <;> simp
      · subst heq
        refine ⟨(hends data hop rest).1, fun status headers' hans => ?_⟩
        have hstore := h ⟨status, headers', rest.map Hop.answer, by rw [List.map_cons, hans]⟩
        rw [List.take_succ_cons, List.take_zero] at hstore
        rw [sendInner, (hends data hop rest).2, hans]
        exact if_pos hstore
  · have hn : 0 < n := Nat.pos_of_ne_zero hzero
    have hends := fun data => sendLoop_ends fromStr uri hpolicy hn hops
      (s := { method, uri, body := .reusable data, headers, jar }) rfl (Nat.zero_add n)
    constructor
    · rintro h (⟨status, headers', hsettles⟩ | hexhausts)
      · exact (((hends []).ok _).1 ((h.settles hn [] _).2 ⟨status, headers', hsettles, rfl⟩)).1
      · exact ((hends []).tooMany.1 ((h.exhausts []).2 ⟨hn, hexhausts⟩)).1
    · intro h
      refine ⟨hsent, fun _ data r => ?_, fun data => ?_, fun h => absurd h hzero⟩
      · rw [sendInner, (hends data).ok r, and_iff_right_iff_imp]
        rintro ⟨status, headers', hsettles, -⟩
        exact h (.inl ⟨status, headers', hsettles⟩)
      · rw [sendInner, (hends data).tooMany, and_iff_right (Nat.succ_le_of_lt hn),
          and_iff_right_iff_imp]
        exact fun hexhausts => h (.inr hexhausts)

/-- A hop at the beginning of time whose response has this status and one header. -/
def answeredBy (status : ℕ) (name value : String) : Hop where
  sentAt := 0
  answer := .response status ⟨[(name.toList, ⟨Utf8.encode value.toList⟩)]⟩
  clock := fun _ => 0

/-- One redirect is allowed, instants end after 63 bits of seconds. -/
def oneRedirect : SendConfig where
  redirectPolicy := .limited 1
  maxResponseBody := 0
  clockMax := (2 ^ 63 - 1) * 10 ^ 9 + 999999999

/-- A server that always redirects. -/
def endlessServer : List Hop := List.replicate 5 (answeredBy 302 "location" "/y")

/-- The second redirect is one too many. -/
theorem keepsBudget_endlessServer :
    (sendInner oneRedirect readUri .get exampleBase (.reusable []) {} none endlessServer).2
      = .done (.error (.redirect "too many redirects (max: 1)")) := by
  have hkeeps := (keepsBudget_iff oneRedirect readUri .get exampleBase {} none endlessServer
    rfl).2 fun _ => by decide +kernel
  refine (hkeeps.exhausts []).2 ⟨le_rfl, ?_, ?_, ?_⟩ <;> decide +kernel

/-- A response that is no redirect, with a cookie that lives for `u64::MAX` seconds. -/
def hostileServer : List Hop :=
  [answeredBy 200 "set-cookie" "a=b; Max-Age=18446744073709551615"]

/-- The response is the caller's, but a client with a jar panics. -/
theorem not_keepsBudget_hostileServer :
    ¬ KeepsBudget oneRedirect readUri .get exampleBase {} (some ⟨[]⟩) hostileServer 1 := by
  intro h
  have hdone := (h.settles le_rfl [] _).2 ⟨200, _, ⟨0, by decide, rfl, rfl, rfl⟩, rfl⟩
  have hends := ((sendLoop_ends readUri exampleBase (n := 1) (k := 1) rfl Nat.one_pos hostileServer
    rfl rfl).ok _).1 hdone
  have hpanics : storesAll oneRedirect readUri (some ⟨[]⟩) exampleBase hostileServer = false := by
    decide +kernel
  exact Bool.false_ne_true (hpanics.symm.trans hends.1)

end OxiHttp
