/-
**Who gets a cookie.**

RFC 6265 keeps a cookie within the scope its response may set: a `Domain` attribute must cover the
host that sets it, and without one the cookie stays on that very host.  The jar keeps one domain per
cookie, taken from the attribute without a check or from the host up to its first colon, and
compares that with the host of a later request.  This module follows cookies from the responses that
set them to the URLs they are sent to, over whole histories, and says when the scope is kept.

Main definitions:

* `OxiHttp.ResponseEvent`, `OxiHttp.addAll` — responses, and the jar after them;
* `OxiHttp.Stored`, `OxiHttp.history` — the cookies in the jar, each with the `Set-Cookie` and the
  URL it came from;
* `OxiHttp.DomainMatches` — the domain match of RFC 6265 §5.1.3;
* `OxiHttp.Covered`, `OxiHttp.NoPartialDomain` — the conditions on responses and lookups for cookies
  with a domain;
* `OxiHttp.HostOnlySet`, `OxiHttp.NoPartialHost` — those for cookies without one.

Main results:

* `OxiHttp.history_cookies` — the history is the jar;
* `OxiHttp.mem_history` — where the cookies in it come from.
-/

import OxiHttp.CookieJar

set_option relaxedAutoImplicit false
set_option autoImplicit false

namespace OxiHttp

/-! ### Histories -/

/-- A response: the time it comes at, the URL of its request and its headers. -/
structure ResponseEvent where
  now : ℕ
  url : Uri
  headers : HeaderMap
deriving DecidableEq

/-- The jar after a series of responses; `none` when storing one of their cookies panicked. -/
def addAll (clockMax : ℕ) (events : List ResponseEvent) : Option CookieJar :=
  events.foldlM (fun jar e => jar.addFromResponseHeaders lower clockMax e.now e.headers e.url) {}

/-- A cookie that comes with a response. -/
structure Delivery where
  now : ℕ
  url : Uri
  cookie : Cookie
deriving DecidableEq

/-- The cookies that come with a series of responses, in order. -/
def deliveries (events : List ResponseEvent) : List Delivery :=
  events.flatMap fun e => (CookieJar.setCookies e.headers).map fun c => ⟨e.now, e.url, c⟩

/-- A cookie in the jar, with the cookie its `Set-Cookie` carried and the URL of the request. -/
structure Stored where
  cookie : Cookie
  sent : Cookie
  url : Uri
deriving DecidableEq

/-- `insert_for_url`, on cookies with their origin. -/
def storeDelivery (clockMax : ℕ) (stored : List Stored) (d : Delivery) : Option (List Stored) :=
  (d.cookie.normalize lower clockMax d.now d.url).map fun c =>
    stored.filter (fun s => !s.cookie.sameKey c) ++ [⟨c, d.cookie, d.url⟩]

/-- The cookies in the jar after a series of deliveries, with their origin. -/
def history (clockMax : ℕ) (ds : List Delivery) : Option (List Stored) :=
  ds.foldlM (storeDelivery clockMax) []

/-- The jar with these cookies. -/
def jarOf (stored : List Stored) : CookieJar := ⟨stored.map Stored.cookie⟩

theorem storeDelivery_jarOf (clockMax : ℕ) (stored : List Stored) (d : Delivery) :
    (storeDelivery clockMax stored d).map jarOf
      = (jarOf stored).insertForUrl lower clockMax d.now d.cookie d.url := by
  rw [storeDelivery, CookieJar.insertForUrl, Option.map_map]
  congr 1
  funext c
  simp [jarOf, CookieJar.store, List.filter_map, Function.comp_def]

/-- Storing deliveries one by one with their origin, and without it. -/
theorem foldlM_jarOf (clockMax : ℕ) (ds : List Delivery) (stored : List Stored) :
    (ds.foldlM (storeDelivery clockMax) stored).map jarOf
      = ds.foldlM (fun jar d => jar.insertForUrl lower clockMax d.now d.cookie d.url)
          (jarOf stored) := by
  induction ds generalizing stored with
  | nil => rfl
  | cons d ds ih =>
      rw [List.foldlM_cons, List.foldlM_cons, ← storeDelivery_jarOf]
      cases storeDelivery clockMax stored d with
      | none => rfl
      | some stored' => exact ih stored'

/-- The deliveries of a response are stored one by one. -/
theorem foldlM_deliveries (clockMax : ℕ) (events : List ResponseEvent) (jar : CookieJar) :
    (deliveries events).foldlM
        (fun jar d => jar.insertForUrl lower clockMax d.now d.cookie d.url) jar
      = events.foldlM
          (fun jar e => jar.addFromResponseHeaders lower clockMax e.now e.headers e.url) jar := by
  induction events generalizing jar with
  | nil => rfl
  | cons e events ih =>
      rw [deliveries, List.flatMap_cons, List.foldlM_append, List.foldlM_map, List.foldlM_cons]
      exact congrArg _ (funext fun jar' => ih jar')

/-- The history of a series of responses is the jar after them. -/
theorem history_cookies {clockMax : ℕ} {events : List ResponseEvent} {jar : CookieJar}
    (h : addAll clockMax events = some jar) :
    ∃ stored, history clockMax (deliveries events) = some stored ∧ jarOf stored = jar := by
  have hjar : (history clockMax (deliveries events)).map jarOf = some jar := by
    rw [history, foldlM_jarOf]
    exact (foldlM_deliveries clockMax events _).trans h
  exact Option.map_eq_some_iff.1 hjar

/-- Every cookie in the history is what became of a cookie that was delivered. -/
theorem mem_history {clockMax : ℕ} {ds : List Delivery} {stored : List Stored}
    (h : history clockMax ds = some stored) {s : Stored} (hs : s ∈ stored) :
    ∃ d ∈ ds, d.cookie = s.sent ∧ d.url = s.url ∧
      d.cookie.normalize lower clockMax d.now d.url = some s.cookie := by
  -- induction on the deliveries, the last one split off: what it replaces is gone, the rest stays
  induction ds using List.reverseRecOn generalizing stored with
  | nil =>
      cases h
      cases hs
  | append_singleton ds d ih =>
      rw [history, List.foldlM_append] at h
      obtain ⟨stored₀, h₀, h₁⟩ := Option.bind_eq_some_iff.1 h
      rw [List.foldlM_cons] at h₁
      obtain ⟨stored₁, h₁, h₂⟩ := Option.bind_eq_some_iff.1 h₁
      cases h₂
      obtain ⟨c, hc, rfl⟩ := Option.map_eq_some_iff.1 h₁
      rcases List.mem_append.1 hs with hs | hs
      · obtain ⟨d', hd', hfacts⟩ := ih h₀ (List.mem_filter.1 hs).1
        exact ⟨d', List.mem_append_left _ hd', hfacts⟩
      · rw [List.mem_singleton.1 hs]
        exact ⟨d, by simp, rfl, rfl, hc⟩

/-! ### Cookies with a domain -/

/-- The host of a URL. -/
def hostOf (url : Uri) : Str := url.host.getD []

theorem hostOf_delimited (url : Uri) (h : ':' ∈ hostOf url) : (hostOf url).head? = some '[' := by
  unfold hostOf Uri.host at h ⊢
  cases ha : url.authority with
  | none => simp [ha] at h
  | some a =>
      rw [ha] at h
      exact a.host_delimited h

/-- A host that is an IP address: an IPv4 address, or a literal in brackets. -/
def isIpHost (host : Str) : Bool := host.head? = some '[' || IpAddr.isIpv4 host

/-- A `Domain` attribute without its leading dot (RFC 6265 §5.2.3). -/
def domainAttr (d : Str) : Str := (stripPfx ['.'] d).getD d

/-- The host domain-matches the attribute (RFC 6265 §5.1.3). -/
def DomainMatches (host d : Str) : Prop :=
  lower host = lower (domainAttr d) ∨
    '.' :: lower (domainAttr d) <:+ lower host ∧ isIpHost host = false

instance (host d : Str) : Decidable (DomainMatches host d) :=
  inferInstanceAs (Decidable (_ ∨ _))

/-- A `Domain` attribute that is not empty covers the host that sends it, and is a name after at
most one dot. -/
def Covered (d : Delivery) : Prop :=
  ∀ attr ∈ d.cookie.domain, attr ≠ [] → DomainMatches (hostOf d.url) attr ∧
    domainAttr attr ≠ [] ∧ (domainAttr attr).head? ≠ some '.'

instance (d : Delivery) : Decidable (Covered d) :=
  inferInstanceAs (Decidable (∀ attr ∈ d.cookie.domain, _))

/-- If the host of the URL is an IP address then the part of it before its first colon is no
attribute of a stored cookie other than the host, nor does it end in one after a dot. -/
def NoPartialDomain (stored : List Stored) (url : Uri) : Prop :=
  isIpHost (hostOf url) = true → ∀ s ∈ stored, ∀ attr ∈ s.sent.domain, attr ≠ [] →
    lower (domainAttr attr) ≠ lower (hostOf url) →
      beforeColon (lower (hostOf url)) ≠ lower (domainAttr attr) ∧
        ¬ '.' :: lower (domainAttr attr) <:+ beforeColon (lower (hostOf url))

instance (stored : List Stored) (url : Uri) : Decidable (NoPartialDomain stored url) :=
  inferInstanceAs (Decidable (_ → ∀ s ∈ stored, ∀ attr ∈ s.sent.domain, _))

/-- Where at most one dot leads, dropping all of them is dropping one. -/
theorem dropWhile_dots {attr : Str} (h : (domainAttr attr).head? ≠ some '.') :
    attr.dropWhile (· = '.') = domainAttr attr := by
  have hself : ∀ t : Str, t.head? ≠ some '.' → t.dropWhile (· = '.') = t := by
    intro t ht
    cases t with
    | nil => rfl
    | cons c t => simp_all
  unfold domainAttr at h ⊢
  cases hs : stripPfx ['.'] attr with
  | none =>
      rw [hs] at h
      exact hself attr h
  | some t =>
      rw [hs] at h
      rw [stripPfx_eq_some_iff.1 hs]
      exact hself t h

theorem head?_lower_ne_dot {t : Str} (h : t.head? ≠ some '.') : (lower t).head? ≠ some '.' := by
  cases t with
  | nil => simp [lower]
  | cons c t =>
      have hc : c ≠ '.' := by simpa using h
      simpa [lower, toLower_eq_iff (c := c) (d := '.') (by decide)] using hc

/-- The host of a URL that is no IP address has no colon. -/
theorem beforeColon_of_not_isIpHost {url : Uri} (h : isIpHost (hostOf url) = false) :
    beforeColon (lower (hostOf url)) = lower (hostOf url) := by
  refine beforeColon_of_notMem fun hc => ?_
  rw [mem_lower_iff (by decide)] at hc
  simp [isIpHost, hostOf_delimited url hc] at h

/-- A cookie with a domain goes to hosts that match the domain. -/
theorem domainMatches_of_sentTo {clockMax now now' : ℕ} {d : Delivery} {c : Cookie} {url : Uri}
    (hc : d.cookie.normalize lower clockMax now' d.url = some c) {attr : Str}
    (hattr : d.cookie.domain = some attr) (hne : domainAttr attr ≠ [])
    (hdot : (domainAttr attr).head? ≠ some '.') (hsent : c.sentTo now url = true)
    (hwhole : isIpHost (hostOf url) = true → lower (domainAttr attr) ≠ lower (hostOf url) →
      beforeColon (lower (hostOf url)) ≠ lower (domainAttr attr) ∧
        ¬ '.' :: lower (domainAttr attr) <:+ beforeColon (lower (hostOf url))) :
    DomainMatches (hostOf url) attr := by
  have hdomain : c.domain = some (lower (domainAttr attr)) := by
    rw [(Cookie.normalize_eq_some hc).1, hattr, storedDomain, dropWhile_dots hdot]
  have hmatch := Cookie.domainMatch_of_sentTo hsent hdomain (by simpa [lower] using hne)
  rw [domainMatch_iff (lower_lower _) (head?_lower_ne_dot hdot)] at hmatch
  -- the jar looks at the host up to its first colon, which is all of it but for an IP address
  cases hip : isIpHost (hostOf url) with
  | true =>
      by_cases heq : lower (domainAttr attr) = lower (hostOf url)
      · exact .inl heq.symm
      · obtain ⟨h₁, h₂⟩ := hwhole hip heq
        rcases hmatch with h | ⟨h, -⟩
        · exact absurd h h₁
        · exact absurd h h₂
  | false =>
      rw [show url.host.getD [] = hostOf url from rfl, beforeColon_of_not_isIpHost hip] at hmatch
      rcases hmatch with h | ⟨h, -⟩
      · exact .inl h
      · exact .inr ⟨h, hip⟩

/-- If every `Domain` attribute covers the host that sends it, then a cookie with one was set by a
host that matches it, and goes to such hosts only: to every URL whose host is not an IP address that
merely contains the attribute of a stored cookie. -/
theorem domain_contained {clockMax : ℕ} {events : List ResponseEvent} {jar : CookieJar}
    (hrun : addAll clockMax events = some jar) (hcov : ∀ d ∈ deliveries events, Covered d) :
    ∃ stored, history clockMax (deliveries events) = some stored ∧ jarOf stored = jar ∧
      ∀ s ∈ stored, (∃ d ∈ deliveries events, d.cookie = s.sent ∧ d.url = s.url) ∧
        ∀ now url, NoPartialDomain stored url → s.cookie ∈ jar.cookiesForUrl now url →
          ∀ attr ∈ s.sent.domain, attr ≠ [] →
            DomainMatches (hostOf s.url) attr ∧ DomainMatches (hostOf url) attr := by
  obtain ⟨stored, hhist, hjar⟩ := history_cookies hrun
  refine ⟨stored, hhist, hjar, fun s hs => ?_⟩
  obtain ⟨d, hd, hcookie, hurl, hnorm⟩ := mem_history hhist hs
  refine ⟨⟨d, hd, hcookie, hurl⟩, fun now url hwhole hmem attr hattr hne => ?_⟩
  obtain ⟨hmatch, hne', hdot⟩ := hcov d hd attr (by rw [hcookie]; exact hattr) hne
  rw [hurl] at hmatch
  refine ⟨hmatch, domainMatches_of_sentTo hnorm (by rw [hcookie]; exact hattr) hne' hdot
    (CookieJar.mem_cookiesForUrl.1 hmem).2 fun hip => ?_⟩
  exact hwhole hip s hs attr hattr hne

/-- The URL `http://host/` of a registered name. -/
def httpUrl (host : Str) (h : ':' ∉ host) : Uri where
  scheme := some "http".toList
  authority := some { text := host, host, host_delimited := fun hc => absurd hc h }
  path := "/".toList
  path_delimited := root_delimited
  query_delimited := noQuery_delimited

/-- A response from a host with one `Set-Cookie` header. -/
def setCookieFrom (url : Uri) (header : Str) : ResponseEvent :=
  { now := 0, url, headers := ⟨[("set-cookie".toList, ⟨Utf8.encode header⟩)]⟩ }

/-- `a.example.com` sets a cookie for `example.com`. -/
def coveredEvents : List ResponseEvent :=
  [setCookieFrom (httpUrl "a.example.com".toList (by decide)) "sid=1; Domain=.Example.com".toList]

/-- The cookie it sets. -/
def coveredStored : Stored where
  cookie :=
    { name := "sid".toList, value := "1".toList, domain := some "example.com".toList,
      path := some "/".toList }
  sent := { name := "sid".toList, value := "1".toList, domain := some ".Example.com".toList }
  url := httpUrl "a.example.com".toList (by decide)

theorem domain_contained_coveredEvents :
    DomainMatches "a.example.com".toList ".Example.com".toList ∧
      DomainMatches "b.example.com".toList ".Example.com".toList := by
  obtain ⟨stored, hhist, -, hall⟩ := @domain_contained 0 coveredEvents (jarOf [coveredStored])
    (by decide +kernel) (by decide +kernel)
  have hstored : history 0 (deliveries coveredEvents) = some [coveredStored] := by decide +kernel
  rw [hstored] at hhist
  cases hhist
  exact (hall coveredStored (by simp)).2 0 (httpUrl "b.example.com".toList (by decide))
    (by decide +kernel) (by decide +kernel) _ rfl (by decide)

/-- `evil.test` sets a cookie for `bank.test`. -/
def foreignEvents : List ResponseEvent :=
  [setCookieFrom (httpUrl "evil.test".toList (by decide)) "sid=1; Domain=bank.test".toList]

/-- It is stored, and sent to `bank.test`. -/
theorem not_domain_contained_foreignEvents :
    ∃ s, history 0 (deliveries foreignEvents) = some [s] ∧
      s.cookie ∈ (jarOf [s]).cookiesForUrl 0 (httpUrl "bank.test".toList (by decide)) ∧
      s.sent.domain = some "bank.test".toList ∧
      ¬ DomainMatches (hostOf s.url) "bank.test".toList := by
  let sent : Cookie :=
    { name := "sid".toList, value := "1".toList, domain := some "bank.test".toList }
  exact ⟨⟨{ sent with path := some "/".toList }, sent, httpUrl "evil.test".toList (by decide)⟩,
    by decide +kernel, by decide +kernel, rfl, by decide +kernel⟩

/-! ### Cookies without a domain -/

/-- A cookie without a `Domain` attribute, or with an empty one. -/
def Cookie.isHostOnly (sent : Cookie) : Bool := sent.domain.all List.isEmpty

/-- A cookie without a domain has no empty `Domain` attribute, and its URL has a host, which does
not begin with a dot. -/
def HostOnlySet (d : Delivery) : Prop :=
  d.cookie.isHostOnly = true →
    d.cookie.domain = none ∧ ∃ host ∈ d.url.host, host ≠ [] ∧ host.head? ≠ some '.'

instance (d : Delivery) : Decidable (HostOnlySet d) :=
  inferInstanceAs (Decidable (_ → _ ∧ ∃ host ∈ d.url.host, _))

/-- For every stored cookie without a domain whose host is another one than that of the URL: the
part of the URL's host before its first colon is not that part of the other host, and does not end
in it after a dot, unless that part is an IP address. -/
def NoPartialHost (stored : List Stored) (url : Uri) : Prop :=
  ∀ s ∈ stored, s.sent.isHostOnly = true → lower (hostOf s.url) ≠ lower (hostOf url) →
    beforeColon (lower (hostOf url)) ≠ beforeColon (lower (hostOf s.url)) ∧
      ('.' :: beforeColon (lower (hostOf s.url)) <:+ beforeColon (lower (hostOf url)) →
        IpAddr.isIpAddr (beforeColon (lower (hostOf s.url))) = true)

instance (stored : List Stored) (url : Uri) : Decidable (NoPartialHost stored url) :=
  inferInstanceAs (Decidable (∀ s ∈ stored, _ → _ → _))

theorem lower_beforeColon (s : Str) : lower (beforeColon s) = beforeColon (lower s) := by
  induction s with
  | nil => rfl
  | cons c s ih =>
      have hc : c.toLower = ':' ↔ c = ':' := toLower_eq_iff (by decide)
      by_cases h : c = ':'
      · simp [beforeColon, lower, h]
      · have hlower : c.toLower ≠ ':' := fun h' => h (hc.1 h')
        simp only [beforeColon, lower, List.map_cons, List.takeWhile_cons, ne_eq, h, hlower,
          not_false_eq_true, decide_true, if_true] at ih ⊢
        rw [ih]

/-- A host that begins neither with a colon nor with a dot has such a part before its first
colon. -/
theorem beforeColon_ne_nil {host : Str} (hne : host ≠ []) (hcolon : host.head? ≠ some ':')
    (hdot : host.head? ≠ some '.') :
    beforeColon host ≠ [] ∧ (beforeColon host).head? ≠ some '.' := by
  cases host with
  | nil => exact absurd rfl hne
  | cons c host =>
      have hc : c ≠ ':' := by simpa using hcolon
      have hd : c ≠ '.' := by simpa using hdot
      simp [beforeColon, hc, hd]

/-- A cookie without a domain goes to the host that set it. -/
theorem host_eq_of_sentTo {clockMax now now' : ℕ} {d : Delivery} {c : Cookie} {url : Uri}
    (hc : d.cookie.normalize lower clockMax now' d.url = some c) (hdomain : d.cookie.domain = none)
    {host : Str} (hhost : d.url.host = some host) (hne : host ≠ []) (hdot : host.head? ≠ some '.')
    (hsent : c.sentTo now url = true)
    (hwhole : lower host ≠ lower (hostOf url) →
      beforeColon (lower (hostOf url)) ≠ beforeColon (lower host) ∧
        ('.' :: beforeColon (lower host) <:+ beforeColon (lower (hostOf url)) →
          IpAddr.isIpAddr (beforeColon (lower host)) = true)) :
    lower host = lower (hostOf url) := by
  have hcd : c.domain = some (lower (beforeColon host)) := by
    rw [(Cookie.normalize_eq_some hc).1, hdomain, storedDomain, hhost, Option.map_some]
  have hcolon : host.head? ≠ some ':' := by
    intro h
    have hmem : ':' ∈ hostOf d.url := by
      rw [hostOf, hhost]
      exact List.mem_of_head? h
    have := hostOf_delimited d.url hmem
    rw [hostOf, hhost, Option.getD_some, h] at this
    cases this
  obtain ⟨hne', hdot'⟩ := beforeColon_ne_nil hne hcolon hdot
  have hmatch := Cookie.domainMatch_of_sentTo hsent hcd (by simpa [lower] using hne')
  rw [domainMatch_iff (lower_lower _) (head?_lower_ne_dot hdot'), lower_beforeColon] at hmatch
  -- the stored domain is the host up to its first colon; another host must not look like it
  by_contra hother
  obtain ⟨h₁, h₂⟩ := hwhole hother
  rcases hmatch with h | ⟨h, hip⟩
  · exact h₁ h
  · have := h₂ h
    rw [hip] at this
    cases this

/-- If no `Domain` attribute is empty and every URL has a host, then a cookie without a domain goes
to the host that set it only: to no URL but those whose host merely contains, before its first
colon, that part of the host of a stored cookie. -/
theorem hostOnly_contained {clockMax : ℕ} {events : List ResponseEvent} {jar : CookieJar}
    (hrun : addAll clockMax events = some jar) (hset : ∀ d ∈ deliveries events, HostOnlySet d) :
    ∃ stored, history clockMax (deliveries events) = some stored ∧ jarOf stored = jar ∧
      ∀ s ∈ stored, (∃ d ∈ deliveries events, d.cookie = s.sent ∧ d.url = s.url) ∧
        ∀ now url, NoPartialHost stored url → s.cookie ∈ jar.cookiesForUrl now url →
          s.sent.isHostOnly = true → eqIgnoreAsciiCase (hostOf s.url) (hostOf url) = true := by
  obtain ⟨stored, hhist, hjar⟩ := history_cookies hrun
  refine ⟨stored, hhist, hjar, fun s hs => ?_⟩
  obtain ⟨d, hd, hcookie, hurl, hnorm⟩ := mem_history hhist hs
  refine ⟨⟨d, hd, hcookie, hurl⟩, fun now url hwhole hmem honly => ?_⟩
  obtain ⟨hdomain, host, hhost, hne, hdot⟩ := hset d hd (by rw [hcookie]; exact honly)
  have hhostOf : hostOf s.url = host := by rw [← hurl, hostOf, hhost, Option.getD_some]
  have := hwhole s hs honly
  rw [hhostOf] at this ⊢
  rw [eqIgnoreAsciiCase_iff]
  exact host_eq_of_sentTo hnorm hdomain hhost hne hdot (CookieJar.mem_cookiesForUrl.1 hmem).2 this

/-- `example.com` sets a cookie without a domain. -/
def hostOnlyEvents : List ResponseEvent :=
  [setCookieFrom (httpUrl "example.com".toList (by decide)) "sid=1".toList]

/-- The cookie it sets. -/
def hostOnlyStored : Stored where
  cookie :=
    { name := "sid".toList, value := "1".toList, domain := some "example.com".toList,
      path := some "/".toList }
  sent := { name := "sid".toList, value := "1".toList }
  url := httpUrl "example.com".toList (by decide)

theorem hostOnly_contained_hostOnlyEvents :
    eqIgnoreAsciiCase "example.com".toList "EXAMPLE.com".toList = true := by
  obtain ⟨stored, hhist, -, hall⟩ := @hostOnly_contained 0 hostOnlyEvents (jarOf [hostOnlyStored])
    (by decide +kernel) (by decide +kernel)
  have hstored : history 0 (deliveries hostOnlyEvents) = some [hostOnlyStored] := by
    decide +kernel
  rw [hstored] at hhist
  cases hhist
  exact (hall hostOnlyStored (by simp)).2 0 (httpUrl "EXAMPLE.com".toList (by decide))
    (by decide +kernel) (by decide +kernel) rfl

/-- It is sent to `sub.example.com`. -/
theorem not_hostOnly_contained_subdomain :
    history 0 (deliveries hostOnlyEvents) = some [hostOnlyStored] ∧
      hostOnlyStored.sent.isHostOnly = true ∧
      hostOnlyStored.cookie ∈ (jarOf [hostOnlyStored]).cookiesForUrl 0
        (httpUrl "sub.example.com".toList (by decide)) ∧
      eqIgnoreAsciiCase (hostOf hostOnlyStored.url) "sub.example.com".toList = false := by
  refine ⟨?_, ?_, ?_, ?_⟩ <;> decide +kernel

end OxiHttp
