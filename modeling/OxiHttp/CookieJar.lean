/-
**The cookie jar.**

The `CookieJar` of the client: `Set-Cookie` headers of a response go in under the URL of its
request, and the cookies for a URL come out by domain, path, scheme and time.

`Instant + Duration` panics when the clock type cannot hold the sum; `clockMax` is the largest point
in time it can hold, and `none` stands for the panic.

The domain that `insert_for_url` stores is in lower case, which for cookies of any text is that of
Unicode: `to_lowercase` is a parameter there, and in `domain_match`.  The domains that come in
headers and the hosts of URLs are ASCII, where it is `OxiHttp.lower`; the cookies for a URL are found
with that one.

Main definitions:

* `OxiHttp.domainMatchIn`, `OxiHttp.pathMatch` — the two matching functions;
* `OxiHttp.CookieJar`, with the operations of the source;
* `OxiHttp.Cookie.normalize` — what `insert_for_url` makes of a cookie.

Main results:

* `OxiHttp.CookieJar.mem_cookiesForUrl` — the cookies for a URL;
* `OxiHttp.Cookie.normalize_eq_some` — the fields of a stored cookie.
-/

import OxiHttp.Cookie
import OxiHttp.Http
import OxiHttp.IpAddr
import Mathlib.Data.List.Sort

set_option relaxedAutoImplicit false
set_option autoImplicit false

namespace OxiHttp

/-! ### Matching -/

/-- `domain_match`. -/
def domainMatchIn (toLowercase : Str → Str) (cookieDomain requestHost : Str) : Bool :=
  let rh := beforeColon (toLowercase requestHost)
  let cd := (stripPfx ['.'] (toLowercase cookieDomain)).getD (toLowercase cookieDomain)
  rh = cd || (('.' :: cd).isSuffixOf rh && !IpAddr.isIpAddr cd)

/-- `domain_match` for texts in ASCII, as the hosts of URLs are and the domains that come in
headers. -/
def domainMatch (cookieDomain requestHost : Str) : Bool :=
  domainMatchIn lower cookieDomain requestHost

/-- `path_match`. -/
def pathMatch (cookiePath requestPath : Str) : Bool :=
  requestPath = cookiePath ||
    (stripPfx cookiePath requestPath).any fun remaining =>
      remaining.head? = some '/' || cookiePath.getLast? = some '/'

/-! ### The jar -/

/-- A jar of cookies. -/
structure CookieJar where
  cookies : List Cookie := []
deriving DecidableEq, Repr

/-- The two cookies have one name, domain and path. -/
def Cookie.sameKey (a b : Cookie) : Bool :=
  a.name = b.name && a.domain = b.domain && a.path = b.path

/-- The path up to its last slash; `/` when that is nothing. -/
def defaultPath (path : Str) : Str :=
  let dir := (path.rdropWhile (· ≠ '/')).dropLast
  if dir.isEmpty then "/".toList else dir

/-- The domain of a stored cookie. -/
def storedDomain (toLowercase : Str → Str) (domain : Option Str) (host : Option Str) : Option Str :=
  match domain with
  | none => host.map fun h => toLowercase (beforeColon h)
  -- the attribute is taken as it is, whatever the host is
  | some d => some (toLowercase (d.dropWhile (· = '.')))

/-- `Instant::now() + dur`. -/
def addDuration (clockMax now dur : ℕ) : Option ℕ :=
  if now + dur ≤ clockMax then some (now + dur) else none

/-- The part of `insert_for_url` that completes the cookie: default domain, default path and
expiry time. -/
def Cookie.normalize (toLowercase : Str → Str) (clockMax now : ℕ) (cookie : Cookie) (url : Uri) :
    Option Cookie :=
  let stored (expiresAt : Option ℕ) : Cookie :=
    { cookie with
      domain := storedDomain toLowercase cookie.domain url.host
      path := some (cookie.path.getD (defaultPath url.path))
      expiresAt }
  match cookie.maxAge with
  | none => some (stored none)
  | some dur => (addDuration clockMax now dur).map fun t => stored (some t)

/-- The cookie is sent with a request for this URL at this time: the filter of
`cookies_for_url`. -/
def Cookie.sentTo (now : ℕ) (url : Uri) (c : Cookie) : Bool :=
  !(c.expiresAt.any (· ≤ now)) &&
    (!c.secure || url.scheme = some "https".toList) &&
    -- a cookie with an empty domain goes everywhere
    ((c.domain.getD []).isEmpty || domainMatch (c.domain.getD []) (url.host.getD [])) &&
    pathMatch (c.path.getD "/".toList) url.path

/-- The number of bytes of the path of a cookie. -/
def Cookie.pathLen (c : Cookie) : ℕ := (Utf8.encode (c.path.getD "/".toList)).length

namespace CookieJar

/-- `insert`. -/
def insert (jar : CookieJar) (cookie : Cookie) : CookieJar :=
  ⟨jar.cookies.filter (fun c => c.name ≠ cookie.name) ++ [cookie]⟩

/-- `get`. -/
def get (jar : CookieJar) (name : Str) : Option Cookie := jar.cookies.find? fun c => c.name = name

/-- `remove`: the first cookie of that name, and the jar without it. -/
def remove (jar : CookieJar) (name : Str) : Option Cookie × CookieJar :=
  (jar.get name, ⟨jar.cookies.eraseP fun c => c.name = name⟩)

/-- `add_from_set_cookie_headers`. -/
def addFromSetCookieHeaders (jar : CookieJar) (headers : List Str) : CookieJar :=
  (headers.filterMap parseSetCookie).foldl insert jar

/-- The part of `insert_for_url` that stores the cookie. -/
def store (jar : CookieJar) (cookie : Cookie) : CookieJar :=
  ⟨jar.cookies.filter (fun c => !c.sameKey cookie) ++ [cookie]⟩

/-- `insert_for_url`. -/
def insertForUrl (toLowercase : Str → Str) (clockMax now : ℕ) (jar : CookieJar) (cookie : Cookie)
    (url : Uri) : Option CookieJar :=
  (cookie.normalize toLowercase clockMax now url).map jar.store

/-- `cookies_for_url`. -/
def cookiesForUrl (now : ℕ) (jar : CookieJar) (url : Uri) : List Cookie :=
  (jar.cookies.filter (Cookie.sentTo now url)).insertionSort fun a b => b.pathLen ≤ a.pathLen

/-- `to_cookie_header_for_url`. -/
def toCookieHeaderForUrl (now : ℕ) (jar : CookieJar) (url : Uri) : Option Str :=
  let matched := jar.cookiesForUrl now url
  if matched.isEmpty then none
  else some ("; ".toList.intercalate (matched.map Cookie.toCookieHeader))

/-- The cookies the `Set-Cookie` headers of a response carry. -/
def setCookies (headers : HeaderMap) : List Cookie :=
  (headers.getAll "set-cookie".toList).filterMap fun v => v.toStr.bind parseSetCookie

/-- `add_from_response_headers`. -/
def addFromResponseHeaders (toLowercase : Str → Str) (clockMax now : ℕ) (jar : CookieJar)
    (headers : HeaderMap) (url : Uri) : Option CookieJar :=
  (setCookies headers).foldlM
    (fun jar cookie => jar.insertForUrl toLowercase clockMax now cookie url) jar

/-- The cookies for a URL are those in the jar that are sent to it. -/
theorem mem_cookiesForUrl {now : ℕ} {jar : CookieJar} {url : Uri} {c : Cookie} :
    c ∈ jar.cookiesForUrl now url ↔ c ∈ jar.cookies ∧ c.sentTo now url = true := by
  rw [cookiesForUrl, List.mem_insertionSort, List.mem_filter]

end CookieJar

/-! ### Stored cookies -/

/-- A stored cookie has the domain and path that are due to it, and the rest as it came. -/
theorem Cookie.normalize_eq_some {toLowercase : Str → Str} {clockMax now : ℕ}
    {cookie stored : Cookie} {url : Uri}
    (h : cookie.normalize toLowercase clockMax now url = some stored) :
    stored.domain = storedDomain toLowercase cookie.domain url.host ∧
      stored.path = some (cookie.path.getD (defaultPath url.path)) ∧
      stored.name = cookie.name ∧ stored.value = cookie.value ∧ stored.secure = cookie.secure := by
  unfold normalize at h
  cases hm : cookie.maxAge with
  | none =>
      rw [hm] at h
      cases h
      exact ⟨rfl, rfl, rfl, rfl, rfl⟩
  | some dur =>
      rw [hm] at h
      obtain ⟨t, -, rfl⟩ := Option.map_eq_some_iff.1 h
      exact ⟨rfl, rfl, rfl, rfl, rfl⟩

/-- What is sent to a URL passes the domain test, unless its domain is empty. -/
theorem Cookie.domainMatch_of_sentTo {now : ℕ} {url : Uri} {c : Cookie} {d : Str}
    (h : c.sentTo now url = true) (hd : c.domain = some d) (hne : d ≠ []) :
    domainMatch d (url.host.getD []) = true := by
  simp only [sentTo, hd, Option.getD_some, Bool.and_eq_true, Bool.or_eq_true,
    List.isEmpty_iff] at h
  exact h.1.2.resolve_left hne

/-- The domain test, for a domain in lower case without a leading dot. -/
theorem domainMatch_iff {cd host : Str} (hlower : lower cd = cd) (hdot : cd.head? ≠ some '.') :
    domainMatch cd host = true ↔ beforeColon (lower host) = cd ∨
      '.' :: cd <:+ beforeColon (lower host) ∧ IpAddr.isIpAddr cd = false := by
  have hstrip : stripPfx ['.'] cd = none := by
    rw [Option.eq_none_iff_forall_ne_some]
    intro t ht
    rw [stripPfx_eq_some_iff] at ht
    subst ht
    exact hdot rfl
  simp only [domainMatch, domainMatchIn, hlower, hstrip, Option.getD_none, Bool.or_eq_true,
    decide_eq_true_eq, Bool.and_eq_true, List.isSuffixOf_iff_suffix, Bool.not_eq_true']

end OxiHttp
