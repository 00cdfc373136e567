/-
**How a cookie is deleted.**

A server deletes a cookie by setting it again with a `Max-Age` that is not positive.  RFC 6265
§5.2.2 allows a minus sign there; `parse_set_cookie` reads an unsigned number, and what it cannot
read is no `Max-Age` at all, so that a cookie with `Max-Age=-1` is kept for good.

Main definitions:

* `OxiHttp.maxAgeAttr` — the `Max-Age` of a `Set-Cookie`, as it is written;
* `OxiHttp.NonPositive` — an integer that is not positive;
* `OxiHttp.Deleted` — no URL gets a cookie with this key any more;
* `OxiHttp.OutOfReach` — no URL is one that the cookie is for.

Main results:

* `OxiHttp.maxAge_parseSetCookie` — what becomes of the `Max-Age`;
* `OxiHttp.deleted_store_iff` — when a cookie that was stored deletes the others of its key.
-/

import OxiHttp.CookieRuns
import OxiHttp.CookieScope
import OxiHttp.TextParse

set_option relaxedAutoImplicit false
set_option autoImplicit false

namespace OxiHttp

/-! ### The `Max-Age` of a header -/

/-- The value of a `Max-Age` attribute. -/
def maxAgeOf (part : Str) : Option Str :=
  (splitOnce '=' (trim part)).bind fun p =>
    if lower (trim p.1) = "max-age".toList then some (trim p.2) else none

/-- The `Max-Age` of a `Set-Cookie`, as it is written; the last one counts. -/
def maxAgeAttr (header : Str) : Option Str :=
  ((header.splitOn ';').tail.filterMap maxAgeOf).getLast?

/-- An integer that is not positive: zeros, or digits after a minus sign. -/
def NonPositive (s : Str) : Prop :=
  (Decimal.IsNumeral s ∧ Decimal.value s = 0) ∨ ∃ digits, s = '-' :: digits ∧
    Decimal.IsNumeral digits

theorem withPart_maxAge (c : Cookie) (part : Str) :
    (c.withPart part).maxAge
      = (maxAgeOf part).elim c.maxAge fun val => (parseU64 val).map fromSecs := by
  unfold Cookie.withPart maxAgeOf
  dsimp only
  split
  case isTrue hempty =>
      rw [List.isEmpty_iff.1 hempty]
      rfl
  case isFalse =>
      cases splitOnce '=' (trim part) with
      | none =>
          rw [Option.bind_none, Option.elim_none]
          unfold Cookie.withFlag
          split_ifs <;> rfl
      | some p =>
          dsimp only [Option.bind_some]
          unfold Cookie.withAttribute
          by_cases hkey : lower (trim p.1) = "max-age".toList
          · rw [hkey]
            rfl
          · rw [if_neg hkey, if_neg hkey]
            split_ifs <;> rfl

/-- The last `Max-Age` counts. -/
theorem foldl_withPart_maxAge (c : Cookie) (parts : List Str) :
    (parts.foldl Cookie.withPart c).maxAge
      = (parts.filterMap maxAgeOf).getLast?.elim c.maxAge fun val =>
          (parseU64 val).map fromSecs := by
  induction parts using List.reverseRecOn with
  | nil => rfl
  | append_singleton parts part ih =>
      rw [List.foldl_concat, withPart_maxAge, ih, List.filterMap_append]
      cases hpart : maxAgeOf part with
      | none => rw [List.filterMap_cons_none hpart, List.filterMap_nil, List.append_nil]; rfl
      | some val =>
          rw [List.filterMap_cons_some hpart, List.filterMap_nil, List.getLast?_concat]
          rfl

/-- A `Max-Age` that is no unsigned number is none. -/
theorem maxAge_parseSetCookie {header : Str} {c : Cookie} (h : parseSetCookie header = some c) :
    c.maxAge = (maxAgeAttr header).bind fun val => (parseU64 val).map fromSecs := by
  unfold parseSetCookie at h
  unfold maxAgeAttr
  split at h
  case h_1 => cases h
  case h_2 first parts hsplit =>
      obtain ⟨⟨name, value⟩, -, h⟩ := Option.bind_eq_some_iff.1 h
      dsimp only at h
      split at h
      case isTrue => cases h
      case isFalse =>
          cases h
          rw [foldl_withPart_maxAge, hsplit, List.tail_cons]
          cases (parts.filterMap maxAgeOf).getLast? <;> rfl

/-- Zeros are read, and a minus sign is not. -/
theorem parseU64_of_nonPositive {s : Str} (h : NonPositive s) :
    parseU64 s = if s.head? = some '-' then none else some 0 := by
  rcases h with ⟨hnum, hvalue⟩ | ⟨digits, rfl, -⟩
  · have hhead : s.head? ≠ some '-' := fun h => hnum.notMem (by decide) (List.mem_of_head? h)
    rw [if_neg hhead, parseU64_of_isNumeral hnum, hvalue]
    rfl
  · rw [List.head?_cons, if_pos rfl, Option.eq_none_iff_forall_ne_some]
    intro n hn
    have hnum := (parseU64_eq_some_iff.1 hn).1
    exact hnum.notMem (c := '-') (by decide) (mem_of_mem_dropPlus List.mem_cons_self (by decide))

/-! ### Deleting -/

/-- From this time on no URL gets a cookie with this key from the jar. -/
def Deleted (now : ℕ) (jar : CookieJar) (key : Str × Option Str × Option Str) : Prop :=
  ∀ now' ≥ now, ∀ url, ∀ c ∈ jar.cookiesForUrl now' url, c.key ≠ key

/-- No URL is one that a cookie with this domain and path is for. -/
def OutOfReach (domain path : Option Str) : Prop :=
  ∀ url : Uri, ((domain.getD []).isEmpty = true ∨
    domainMatch (domain.getD []) (url.host.getD []) = true) →
      pathMatch (path.getD "/".toList) url.path = false

/-- The key under which a cookie of a response is kept. -/
def Cookie.keyFor (c : Cookie) (url : Uri) : Str × Option Str × Option Str :=
  (c.name, storedDomain lower c.domain url.host, some (c.path.getD (defaultPath url.path)))

variable {clockMax now : ℕ} {url : Uri}

theorem Cookie.key_of_normalize {c stored : Cookie}
    (h : c.normalize lower clockMax now url = some stored) : stored.key = c.keyFor url := by
  obtain ⟨hdomain, hpath, hname, -⟩ := Cookie.normalize_eq_some h
  rw [key, keyFor, hdomain, hpath, hname]

/-- A cookie that never expires is sent to some URL when one is within its reach. -/
theorem outOfReach_iff {c : Cookie} (h : c.expiresAt = none) :
    OutOfReach c.domain c.path ↔ ∀ now' url, c.sentTo now' url = false := by
  constructor
  · intro hreach now' url
    by_contra hsent
    simp only [Cookie.sentTo, Bool.not_eq_false, Bool.and_eq_true, Bool.or_eq_true] at hsent
    have hpath := hreach url hsent.1.2
    rw [hsent.2] at hpath
    cases hpath
  · intro hsent url hdomain
    -- the same URL with a scheme that suits every cookie
    have hunsent := hsent 0 { url with scheme := some "https".toList }
    simp only [Cookie.sentTo, h, Option.any_none, Bool.not_false, Bool.true_and, decide_true,
      Bool.or_true] at hunsent
    rw [Bool.and_eq_false_iff] at hunsent
    rcases hunsent with hno | hpath
    · rw [← Bool.not_eq_true, Bool.or_eq_true] at hno
      exact absurd hdomain hno
    · exact hpath

/-- After a cookie was stored no other of its key is left. -/
theorem deleted_store_iff {jar : CookieJar} {c : Cookie} :
    Deleted now (jar.store c) c.key ↔ ∀ now' ≥ now, ∀ url, c.sentTo now' url = false := by
  constructor
  · intro h now' hle url
    by_contra hsent
    refine h now' hle url c (CookieJar.mem_cookiesForUrl.2 ⟨?_, by simpa using hsent⟩) rfl
    rw [CookieJar.store_cookies]
    exact List.mem_append_right _ (List.mem_singleton.2 rfl)
  · intro h now' hle url d hd hkey
    obtain ⟨hmem, hsent⟩ := CookieJar.mem_cookiesForUrl.1 hd
    rw [CookieJar.store_cookies] at hmem
    rcases List.mem_append.1 hmem with hmem | hmem
    · have := (List.mem_filter.1 hmem).2
      simp [hkey] at this
    · rw [List.mem_singleton.1 hmem, h now' hle url] at hsent
      cases hsent

/-- What a response with one `Set-Cookie` does: the header is passed over unless it is text. -/
theorem addFromResponse_single {clock : ℕ → ℕ} {jar : CookieJar} {headers : HeaderMap}
    {v : HeaderValue} (hv : headers.getAll "set-cookie".toList = [v]) {c : Cookie}
    (hc : parseSetCookie v.latin1 = some c) :
    jar.addFromResponse lower clockMax clock headers url
      = if v.toStr.isSome then
          match c.normalize lower clockMax (clock 0) url with
          | some stored => { jar := jar.store stored }
          | none => { jar, panicked := true }
        else { jar } := by
  have hcookies : CookieJar.setCookies headers = if v.toStr.isSome then [c] else [] := by
    rw [CookieJar.setCookies, hv, List.filterMap_cons, List.filterMap_nil]
    cases htext : v.toStr with
    | none => rfl
    | some s =>
        rw [HeaderValue.latin1_of_toStr htext] at hc
        rw [Option.bind_some, hc]
        rfl
  rw [CookieJar.addFromResponse, hcookies]
  split
  · rw [CookieJar.storeAll, CookieJar.insertForUrl]
    cases c.normalize lower clockMax (clock 0) url <;> rfl
  · rfl

/-- **A `Set-Cookie` with a `Max-Age` that is not positive deletes its cookie exactly when** it is
text, and has no minus sign there or is for no URL at all; or when there was nothing to delete. -/
theorem nonPositive_deletes_iff (clockMax : ℕ) (clock : ℕ → ℕ) (hclock : clock 0 ≤ clockMax)
    (jar : CookieJar) (url : Uri) (headers : HeaderMap) {v : HeaderValue}
    (hv : headers.getAll "set-cookie".toList = [v]) {c : Cookie}
    (hc : parseSetCookie v.latin1 = some c) {val : Str} (hval : maxAgeAttr v.latin1 = some val)
    (hint : NonPositive val) :
    Deleted (clock 0) (jar.addFromResponse lower clockMax clock headers url).jar (c.keyFor url) ↔
      if v.toStr.isSome then
        val.head? ≠ some '-' ∨ OutOfReach (c.keyFor url).2.1 (c.keyFor url).2.2
      else Deleted (clock 0) jar (c.keyFor url) := by
  have hmax := maxAge_parseSetCookie hc
  rw [hval, Option.bind_some, parseU64_of_nonPositive hint] at hmax
  rw [addFromResponse_single hv hc]
  split
  case isFalse => rfl
  case isTrue =>
      by_cases hminus : val.head? = some '-'
      · -- there is no `Max-Age`, so the cookie stays
        rw [if_pos hminus, Option.map_none] at hmax
        obtain ⟨stored, hstored⟩ : ∃ stored,
            c.normalize lower clockMax (clock 0) url = some stored := by
          rw [Cookie.normalize, hmax]
          exact ⟨_, rfl⟩
        have hexpires : stored.expiresAt = none := by
          rw [Cookie.normalize, hmax] at hstored
          cases hstored
          rfl
        have hkey := Cookie.key_of_normalize hstored
        rw [hstored, ← hkey, deleted_store_iff]
        change _ ↔ _ ∨ OutOfReach stored.domain stored.path
        rw [outOfReach_iff hexpires]
        constructor
        · intro h
          refine .inr fun now' url => ?_
          have hlater := h (max now' (clock 0)) (le_max_right _ _) url
          simpa only [Cookie.sentTo, hexpires, Option.any_none] using hlater
        · rintro (h | h) now' - url
          · exact absurd hminus h
          · exact h now' url
      · -- it expires at the time it is stored
        rw [if_neg hminus, Option.map_some] at hmax
        obtain ⟨stored, hstored, hexpires⟩ : ∃ stored,
            c.normalize lower clockMax (clock 0) url = some stored ∧
              stored.expiresAt = some (clock 0) := by
          simp [Cookie.normalize, hmax, addDuration, fromSecs, hclock]
        have hkey := Cookie.key_of_normalize hstored
        rw [hstored, ← hkey, deleted_store_iff]
        refine iff_of_true (fun now' hle url => ?_) (.inl hminus)
        simp [Cookie.sentTo, hexpires, hle]

/-- A response with this `Set-Cookie`. -/
def answering (header : Str) : HeaderMap := ⟨[("set-cookie".toList, ⟨Utf8.encode header⟩)]⟩

/-- A cookie `sid` that is deleted. -/
def sidCookie : Cookie := { name := "sid".toList, value := [], maxAge := some 0 }

/-- A jar with a cookie `sid` of `example.com`. -/
def sidJar : CookieJar :=
  ⟨[{ name := "sid".toList, value := "1".toList, domain := some "example.com".toList,
      path := some "/".toList }]⟩

theorem nonPositive_deletes_sid :
    Deleted 5 (sidJar.addFromResponse lower 100 (fun _ => 5) (answering "sid=; Max-Age=00".toList)
      (httpUrl "example.com".toList (by decide))).jar
      (sidCookie.keyFor (httpUrl "example.com".toList (by decide))) := by
  refine (@nonPositive_deletes_iff 100 (fun _ => 5) (by decide) sidJar _ _
    ⟨Utf8.encode "sid=; Max-Age=00".toList⟩ rfl sidCookie (by decide +kernel) "00".toList
    (by decide +kernel) (.inl (by decide))).2 ?_
  rw [if_pos (by decide +kernel)]
  exact .inl (by decide)

theorem colon_notMem_exampleHost : ':' ∉ "example.com".toList := by decide

/-- A jar with a cookie `sid` that was to be deleted with a minus sign. -/
def keptJar : CookieJar :=
  ((CookieJar.mk []).addFromResponse lower 100 (fun _ => 5) (answering "sid=x; Max-Age=-1".toList)
    (httpUrl "example.com".toList colon_notMem_exampleHost)).jar

/-- It is sent to the host that set it. -/
theorem not_nonPositive_deletes_minus :
    NonPositive "-1".toList ∧ maxAgeAttr "sid=x; Max-Age=-1".toList = some "-1".toList ∧
      ¬ Deleted 5 keptJar (sidCookie.keyFor (httpUrl "example.com".toList (by decide))) := by
  refine ⟨.inr ⟨"1".toList, rfl, by decide⟩, by decide +kernel, fun h => ?_⟩
  exact h 5 le_rfl (httpUrl "example.com".toList (by decide))
    { name := "sid".toList, value := "x".toList, domain := some "example.com".toList,
      path := some "/".toList } (by decide +kernel) (by decide +kernel)

end OxiHttp
