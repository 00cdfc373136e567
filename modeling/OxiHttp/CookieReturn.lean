/-
**How a cookie comes back.**

A cookie that a response sets without a domain is for the host of the request, and without a path of
its own for what stands before the last slash of its path; a request for the same URL should then
carry it.  The jar takes any `Path` attribute as it is, also one that does not begin with a slash
and is to be ignored (RFC 6265 §5.2.4), and such a cookie is never seen again.

Main definitions:

* `OxiHttp.ComesBack` — the cookie is sent with a request for the URL that set it, whatever the jar;
* `OxiHttp.PathReturns`, `OxiHttp.HostReturns` — the conditions on the path and on the host.

Main results:

* `OxiHttp.pathMatch_defaultPath` — the default path matches the path it was made from;
* `OxiHttp.domainMatch_host_iff` — when a host matches the domain that was made from it.
-/

import OxiHttp.CookieLifetime

set_option relaxedAutoImplicit false
set_option autoImplicit false

namespace OxiHttp

/-! ### Paths -/

/-- What stands before the last slash of a path, and what stands behind it. -/
theorem eq_dir_append {path : Str} (h : '/' ∈ path) :
    ∃ rest, path = (path.rdropWhile (· ≠ '/')).dropLast ++ '/' :: rest := by
  have hne : path.rdropWhile (· ≠ '/') ≠ [] := by
    rw [Ne, List.rdropWhile_eq_nil_iff]
    intro hall
    simpa using hall '/' h
  have hlast : (path.rdropWhile (· ≠ '/')).getLast hne = '/' := by
    simpa using List.rdropWhile_last_not (fun c : Char => decide (c ≠ '/')) path hne
  have hdir := List.dropLast_append_getLast hne
  rw [hlast] at hdir
  refine ⟨path.rtakeWhile (· ≠ '/'), ?_⟩
  calc path = path.rdropWhile (· ≠ '/') ++ path.rtakeWhile (· ≠ '/') :=
        List.rdropWhile_append_rtakeWhile.symm
    _ = _ := by rw [← hdir]; simp

/-- The default path matches the path it was made from. -/
theorem pathMatch_defaultPath {path : Str} (h : path.head? = some '/') :
    pathMatch (defaultPath path) path = true := by
  obtain ⟨rest, hrest⟩ := eq_dir_append (List.mem_of_head? h)
  unfold defaultPath
  dsimp only
  generalize (path.rdropWhile (· ≠ '/')).dropLast = dir at hrest ⊢
  subst hrest
  split
  case isTrue hnil =>
      have hstrip : stripPfx "/".toList (dir ++ '/' :: rest) = some rest := by
        rw [stripPfx_eq_some_iff, List.isEmpty_iff.1 hnil]
        rfl
      rw [pathMatch, hstrip]
      simp
  case isFalse =>
      have hstrip : stripPfx dir (dir ++ '/' :: rest) = some ('/' :: rest) :=
        stripPfx_eq_some_iff.2 rfl
      simp [pathMatch, hstrip]

/-- The empty path matches every path. -/
theorem pathMatch_nil {path : Str} (h : path.head? = some '/') : pathMatch [] path = true := by
  have hstrip : stripPfx [] path = some path := stripPfx_eq_some_iff.2 rfl
  simp [pathMatch, hstrip, h]

/-- A path without a slash in front matches none that has one. -/
theorem pathMatch_relative {cookiePath path : Str} (hne : cookiePath ≠ [])
    (hrelative : cookiePath.head? ≠ some '/') (h : path.head? = some '/') :
    pathMatch cookiePath path = false := by
  obtain ⟨c, t, rfl⟩ := List.exists_cons_of_ne_nil hne
  have hno : ∀ rest, path ≠ c :: t ++ rest := by
    rintro rest rfl
    exact hrelative h
  have hstrip : stripPfx (c :: t) path = none := by
    rw [Option.eq_none_iff_forall_ne_some]
    exact fun rest hrest => hno rest (stripPfx_eq_some_iff.1 hrest)
  have hself : path ≠ c :: t := by simpa using hno []
  simp [pathMatch, hstrip, hself]

/-- A `Path` attribute that brings the cookie back to a path: for one that begins with a slash, an
attribute that is not there or is empty. -/
def PathReturns (attr : Option Str) (path : Str) : Prop :=
  if path.head? = some '/' then attr.getD [] = []
  else pathMatch (attr.getD (defaultPath path)) path = true

theorem pathMatch_iff {attr : Option Str} (h : ∀ p ∈ attr, p.head? ≠ some '/') (path : Str) :
    pathMatch (attr.getD (defaultPath path)) path = true ↔ PathReturns attr path := by
  unfold PathReturns
  split
  case isTrue hslash =>
      cases attr with
      | none => exact iff_of_true (pathMatch_defaultPath hslash) rfl
      | some p =>
          by_cases hne : p = []
          · subst hne
            exact iff_of_true (pathMatch_nil hslash) rfl
          · rw [Option.getD_some, Option.getD_some, pathMatch_relative hne (h p rfl) hslash]
            exact iff_of_false Bool.false_ne_true hne
  case isFalse => rfl

/-! ### Hosts -/

/-- A host that a cookie comes back to: it is no IP address behind a dot. -/
def HostReturns (host : Str) : Prop :=
  ∀ t, lower (beforeColon host) = '.' :: t → IpAddr.isIpAddr t = false

/-- A host matches the domain that was made from it, unless this begins with a dot. -/
theorem domainMatch_host_iff (host : Str) :
    ((lower (beforeColon host)).isEmpty = true ∨
      domainMatch (lower (beforeColon host)) host = true) ↔ HostReturns host := by
  unfold domainMatch domainMatchIn HostReturns
  rw [lower_lower, ← lower_beforeColon]
  generalize lower (beforeColon host) = d
  dsimp only
  cases hstrip : stripPfx ['.'] d with
  | none =>
      refine iff_of_true (.inr (by simp)) fun t ht => ?_
      rw [stripPfx_eq_some_iff.2 ht] at hstrip
      cases hstrip
  | some t =>
      obtain rfl : d = '.' :: t := stripPfx_eq_some_iff.1 hstrip
      have hne : '.' :: t ≠ t := fun h => by simpa using congrArg List.length h
      simp [hne]

/-! ### Coming back -/

/-- Whatever is in the jar, after the response the cookie is sent with a request for the URL. -/
def ComesBack (clockMax : ℕ) (clock : ℕ → ℕ) (headers : HeaderMap) (now : ℕ) (url : Uri)
    (name value : Str) : Prop :=
  ∀ jar : CookieJar,
    ∃ c ∈ (jar.addFromResponse lower clockMax clock headers url).jar.cookiesForUrl now url,
      c.name = name ∧ c.value = value

variable {clockMax now : ℕ} {clock : ℕ → ℕ} {url : Uri} {headers : HeaderMap} {v : HeaderValue}
  {c : Cookie}

/-- It comes back when it is stored and sent. -/
theorem comesBack_iff_sentTo (hv : headers.getAll "set-cookie".toList = [v])
    (hc : parseSetCookie v.latin1 = some c) :
    ComesBack clockMax clock headers now url c.name c.value ↔
      v.toStr.isSome = true ∧ ∃ stored, c.normalize lower clockMax (clock 0) url = some stored ∧
        stored.sentTo now url = true := by
  constructor
  · intro h
    obtain ⟨d, hd, -⟩ := h {}
    obtain ⟨hmem, hsent⟩ := CookieJar.mem_cookiesForUrl.1 hd
    rw [addFromResponse_single hv hc] at hmem
    split at hmem
    case isTrue htext =>
        split at hmem
        case h_1 stored hstored =>
            have hd' : d = stored := by simpa [CookieJar.store] using hmem
            exact ⟨htext, stored, hstored, hd' ▸ hsent⟩
        case h_2 => cases hmem
    case isFalse => cases hmem
  · rintro ⟨htext, stored, hstored, hsent⟩ jar
    obtain ⟨-, -, hname, hvalue, -⟩ := Cookie.normalize_eq_some hstored
    refine ⟨stored, CookieJar.mem_cookiesForUrl.2 ⟨?_, hsent⟩, hname, hvalue⟩
    rw [addFromResponse_single hv hc, if_pos htext, hstored]
    simp [CookieJar.store]

/-- The clock can hold the time at which a cookie with this `Max-Age` expires, unless the number is
so large that it is not read. -/
def LifetimeFits (clockMax now : ℕ) (maxAge : Option Str) : Prop :=
  ∀ val ∈ maxAge, Decimal.value val < 2 ^ 64 → now + fromSecs (Decimal.value val) ≤ clockMax

/-- A cookie whose `Max-Age` has not elapsed is stored when the clock can hold the time at which it
expires, and it has not expired then. -/
theorem normalize_of_maxAge (url : Uri) (hc : parseSetCookie v.latin1 = some c)
    (hlife : ∀ val ∈ maxAgeAttr v.latin1, Decimal.IsNumeral val ∧
      now < clock 0 + fromSecs (Decimal.value val)) :
    (∃ stored, c.normalize lower clockMax (clock 0) url = some stored ∧
        stored.expiresAt.any (· ≤ now) = false) ↔
      LifetimeFits clockMax (clock 0) (maxAgeAttr v.latin1) := by
  have hmax := maxAge_parseSetCookie hc
  unfold LifetimeFits
  cases hattr : maxAgeAttr v.latin1 with
  | none =>
      rw [hattr, Option.bind_none] at hmax
      refine iff_of_true ?_ nofun
      simp [Cookie.normalize, hmax]
  | some val =>
      obtain ⟨hnum, hlater⟩ := hlife val hattr
      rw [hattr, Option.bind_some] at hmax
      simp only [Option.mem_def, Option.some.injEq, forall_eq']
      rw [parseU64_of_isNumeral hnum] at hmax
      by_cases hlt : Decimal.value val < 2 ^ 64
      · rw [if_pos hlt, Option.map_some] at hmax
        by_cases hfits : clock 0 + fromSecs (Decimal.value val) ≤ clockMax
        · refine iff_of_true ?_ fun _ => hfits
          rw [Cookie.normalize, hmax]
          dsimp only
          rw [addDuration, if_pos hfits]
          refine ⟨_, rfl, ?_⟩
          rw [Option.any_some, decide_eq_false_iff_not]
          exact not_le.2 hlater
        · refine iff_of_false ?_ fun h => hfits (h hlt)
          simp [Cookie.normalize, hmax, addDuration, hfits]
      · -- the number does not fit, and there is no `Max-Age`
        rw [if_neg hlt, Option.map_none] at hmax
        refine iff_of_true ?_ fun h => absurd h hlt
        simp [Cookie.normalize, hmax]

/-- **A cookie comes back to the URL that set it exactly when** its header is text, the clock can
hold the time at which it expires, its `Path` attribute is not there or empty, and the host is no IP
address behind a dot. -/
theorem comesBack_iff (clockMax : ℕ) (clock : ℕ → ℕ) (url : Uri) {host : Str}
    (hhost : url.host = some host) (headers : HeaderMap) {v : HeaderValue}
    (hv : headers.getAll "set-cookie".toList = [v]) {c : Cookie}
    (hc : parseSetCookie v.latin1 = some c) (hdomain : c.domain = none)
    (hpath : ∀ p ∈ c.path, p.head? ≠ some '/') {now : ℕ}
    (hlife : ∀ val ∈ maxAgeAttr v.latin1, Decimal.IsNumeral val ∧
      now < clock 0 + fromSecs (Decimal.value val))
    (hsecure : c.secure = true → url.scheme = some "https".toList) :
    ComesBack clockMax clock headers now url c.name c.value ↔
      v.toStr.isSome = true ∧ LifetimeFits clockMax (clock 0) (maxAgeAttr v.latin1) ∧
        PathReturns c.path url.path ∧ HostReturns host := by
  rw [comesBack_iff_sentTo hv hc, ← normalize_of_maxAge url hc hlife]
  refine and_congr_right fun _ => ?_
  -- of what is sent, the domain and the path of the stored cookie are left to be looked at
  have hsent : ∀ stored, c.normalize lower clockMax (clock 0) url = some stored →
      (stored.sentTo now url = true ↔ stored.expiresAt.any (· ≤ now) = false ∧
        PathReturns c.path url.path ∧ HostReturns host) := by
    intro stored hstored
    obtain ⟨hd, hp, -, -, hs⟩ := Cookie.normalize_eq_some hstored
    have hscheme : (!stored.secure || decide (url.scheme = some "https".toList)) = true := by
      rw [hs]
      cases hsec : c.secure with
      | false => rfl
      | true => simp [hsecure hsec]
    rw [hdomain, storedDomain, hhost, Option.map_some] at hd
    rw [← pathMatch_iff hpath, ← domainMatch_host_iff host]
    simp only [Cookie.sentTo, hscheme, hd, hp, hhost, Option.getD_some, Bool.and_eq_true,
      Bool.or_eq_true, Bool.not_eq_true', and_true]
    tauto
  constructor
  · rintro ⟨stored, hstored, h⟩
    obtain ⟨hexpires, hrest⟩ := (hsent stored hstored).1 h
    exact ⟨⟨stored, hstored, hexpires⟩, hrest⟩
  · rintro ⟨⟨stored, hstored, hexpires⟩, hrest⟩
    exact ⟨stored, hstored, (hsent stored hstored).2 ⟨hexpires, hrest⟩⟩

/-- A cookie for a minute, with an empty `Path` attribute. -/
def minuteCookie : Cookie :=
  { name := "sid".toList, value := "x".toList, path := some [], maxAge := some (fromSecs 60) }

theorem maxAgeAttr_minuteCookie :
    maxAgeAttr (HeaderValue.latin1 ⟨Utf8.encode "sid=x; Max-Age=60; Path=".toList⟩)
      = some "60".toList := by decide +kernel

theorem comesBack_minuteCookie :
    ComesBack (100 * 10 ^ 9) (fun _ => 5) (answering "sid=x; Max-Age=60; Path=".toList) 7
      (httpUrl "example.com".toList (by decide)) "sid".toList "x".toList := by
  refine (@comesBack_iff (100 * 10 ^ 9) (fun _ => 5) (httpUrl "example.com".toList (by decide)) _
    rfl _ ⟨Utf8.encode "sid=x; Max-Age=60; Path=".toList⟩ rfl minuteCookie (by decide +kernel) rfl
    (by simp [minuteCookie]) 7 ?_ (by decide)).2 ⟨by decide +kernel, ?_, rfl, ?_⟩
  · rw [maxAgeAttr_minuteCookie]
    simp only [Option.mem_def, Option.some.injEq, forall_eq']
    decide
  · rw [maxAgeAttr_minuteCookie]
    simp only [LifetimeFits, Option.mem_def, Option.some.injEq, forall_eq']
    decide
  · intro t ht
    cases ht

/-- A `Path` attribute that does not begin with a slash. -/
theorem not_comesBack_relativePath :
    ¬ ComesBack 100 (fun _ => 5) (answering "sid=x; Path=app".toList) 5
      (httpUrl "example.com".toList (by decide)) "sid".toList "x".toList := by
  intro h
  obtain ⟨c, hc, -⟩ := h {}
  have hnone : ((CookieJar.mk []).addFromResponse lower 100 (fun _ => 5)
      (answering "sid=x; Path=app".toList)
      (httpUrl "example.com".toList (by decide))).jar.cookiesForUrl 5
        (httpUrl "example.com".toList (by decide)) = [] := by decide +kernel
  rw [show ({} : CookieJar) = CookieJar.mk [] from rfl, hnone] at hc
  cases hc

end OxiHttp
