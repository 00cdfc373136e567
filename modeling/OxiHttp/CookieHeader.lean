/-
**The `Cookie` header.**

The cookies for a URL are joined with semicolons and nothing in them is escaped.  The header can
still be taken apart, because `parse_set_cookie` cuts at every semicolon and at the first `=`: what
it leaves in a name or a value cannot be mistaken for a separator.  The order of the cookies is that
of a stable sort of the jar, and the jar has them in the order in which they were stored last.

Main definitions:

* `OxiHttp.splitPairs` — a header cut at its separators;
* `OxiHttp.Cookie.Plain` — there is no separator in the name and the value;
* `OxiHttp.SetCookieResponse.storings`, `OxiHttp.jarFrom` — what a response stores, and the jar
  after a series of responses.

Main results:

* `OxiHttp.Cookie.plain_parseSetCookie` — what is parsed is plain;
* `OxiHttp.CookieJar.addFromResponse_lower` — the lower case that responses need is that of ASCII;
* `OxiHttp.jarFrom_cookies` — the jar is the table of all that was stored;
* `OxiHttp.splitPairs_toCookieHeaderForUrl`, `OxiHttp.pairwise_cookiesForUrl`,
  `OxiHttp.toCookieHeaderForUrl_eq_none_iff` — what is in a header, in which order, and when there
  is one.
-/

import OxiHttp.CookieRuns
import OxiHttp.SortBy
import OxiHttp.TextParse

set_option relaxedAutoImplicit false
set_option autoImplicit false

namespace OxiHttp

/-! ### Taking the header apart -/

/-- `split("; ")`. -/
def splitPairs : Str → List Str
  | [] => [[]]
  | ';' :: ' ' :: s => [] :: splitPairs s
  | c :: s => (splitPairs s).modifyHead (c :: ·)

theorem splitPairs_cons {c : Char} (hc : c ≠ ';') (s : Str) :
    splitPairs (c :: s) = (splitPairs s).modifyHead (c :: ·) := by
  rw [splitPairs]
  rintro s rfl
  exact absurd rfl hc

/-- A text without a semicolon is one piece, and so is what stands before a separator. -/
theorem splitPairs_append {p : Str} (h : ';' ∉ p) (s : Str) :
    splitPairs p = [p] ∧ splitPairs (p ++ ("; ".toList ++ s)) = p :: splitPairs s := by
  induction p with
  | nil => exact ⟨rfl, rfl⟩
  | cons c p ih =>
      rw [List.mem_cons, not_or] at h
      obtain ⟨h₁, h₂⟩ := ih h.2
      rw [List.cons_append, splitPairs_cons (Ne.symm h.1), splitPairs_cons (Ne.symm h.1), h₁, h₂]
      exact ⟨rfl, rfl⟩

/-- Pieces without a semicolon are found again. -/
theorem splitPairs_intercalate {pieces : List Str} (hne : pieces ≠ [])
    (h : ∀ p ∈ pieces, ';' ∉ p) : splitPairs ("; ".toList.intercalate pieces) = pieces := by
  induction pieces with
  | nil => exact absurd rfl hne
  | cons p pieces ih =>
      rw [List.forall_mem_cons] at h
      by_cases hnil : pieces = []
      · rw [hnil, List.intercalate_singleton, (splitPairs_append h.1 []).1]
      · rw [List.intercalate_cons_of_ne_nil hnil, List.append_assoc, (splitPairs_append h.1 _).2,
          ih hnil h.2]

/-! ### What is parsed -/

namespace Cookie

/-- No separator stands in the name or the value. -/
structure Plain (c : Cookie) : Prop where
  name_semicolon : ';' ∉ c.name
  name_eq : '=' ∉ c.name
  value_semicolon : ';' ∉ c.value

/-- An attribute leaves the name and the value alone. -/
theorem withPart_pair (c : Cookie) (part : Str) :
    (c.withPart part).name = c.name ∧ (c.withPart part).value = c.value := by
  unfold withPart
  dsimp only
  split
  · exact ⟨rfl, rfl⟩
  · split
    · unfold withAttribute
      split_ifs <;> exact ⟨rfl, rfl⟩
    · unfold withFlag
      split_ifs <;> exact ⟨rfl, rfl⟩

theorem foldl_withPart_pair (c : Cookie) (parts : List Str) :
    (parts.foldl withPart c).name = c.name ∧ (parts.foldl withPart c).value = c.value := by
  induction parts generalizing c with
  | nil => exact ⟨rfl, rfl⟩
  | cons part parts ih =>
      obtain ⟨hname, hvalue⟩ := ih (c.withPart part)
      rw [List.foldl_cons, hname, hvalue]
      exact c.withPart_pair part

/-- What `parse_set_cookie` gives is plain. -/
theorem plain_parseSetCookie {header : Str} {c : Cookie} (h : parseSetCookie header = some c) :
    c.Plain := by
  unfold parseSetCookie at h
  split at h
  case h_1 => cases h
  case h_2 first parts hsplit =>
      obtain ⟨⟨name, value⟩, honce, h⟩ := Option.bind_eq_some_iff.1 h
      dsimp only at h
      split at h
      case isTrue => cases h
      case isFalse =>
          cases h
          obtain ⟨hfirst, hname⟩ := splitOnce_eq_some honce
          have hsemicolon : ∀ {t : Str}, (∀ x ∈ t, x ∈ trim first) → ';' ∉ trim t := by
            intro t ht hmem
            refine Pieces.sep_notMem_of_mem_splitOn (hsplit ▸ List.mem_cons_self) ?_
            exact mem_of_mem_trim (ht _ (mem_of_mem_trim hmem))
          obtain ⟨hn, hv⟩ := foldl_withPart_pair { name := trim name, value := trim value } parts
          refine ⟨?_, ?_, ?_⟩
          · rw [hn]
            exact hsemicolon fun x hx => hfirst ▸ List.mem_append_left _ hx
          · rw [hn]
            exact fun hmem => hname (mem_of_mem_trim hmem)
          · rw [hv]
            exact hsemicolon fun x hx =>
              hfirst ▸ List.mem_append_right _ (List.mem_cons_of_mem _ hx)

/-- The item of a plain cookie is cut into its name and its value. -/
theorem Plain.splitOnce_toCookieHeader {c : Cookie} (h : c.Plain) :
    splitOnce '=' c.toCookieHeader = some (c.name, c.value) := splitOnce_append h.name_eq _

theorem Plain.semicolon_notMem {c : Cookie} (h : c.Plain) : ';' ∉ c.toCookieHeader := by
  intro hmem
  rcases List.mem_append.1 hmem with hmem | hmem
  · exact h.name_semicolon hmem
  · rcases List.mem_cons.1 hmem with hmem | hmem
    · cases hmem
    · exact h.value_semicolon hmem

end Cookie

/-! ### Lower case -/

/-- What stands in the domain of a cookie that is parsed stands in its header. -/
theorem Cookie.mem_of_mem_domain {header : Str} {c : Cookie} (h : parseSetCookie header = some c)
    {d : Str} (hd : c.domain = some d) {x : Char} (hx : x ∈ d) : x ∈ header := by
  have hpart : ∀ (c : Cookie) (part : Str), (∀ d, c.domain = some d → ∀ x ∈ d, x ∈ header) →
      (∀ x ∈ part, x ∈ header) →
        ∀ d, (c.withPart part).domain = some d → ∀ x ∈ d, x ∈ header := by
    intro c part hc hmem
    unfold withPart
    dsimp only
    split
    · exact hc
    · split
      case h_1 key val honce =>
          unfold withAttribute
          split_ifs
          · -- only this attribute sets the domain
            intro d hd x hx
            cases hd
            refine hmem x (mem_of_mem_trim ?_)
            rw [(splitOnce_eq_some honce).1]
            exact List.mem_append_right _ (List.mem_cons_of_mem _ (mem_of_mem_trim hx))
          · exact hc
          · exact hc
          · exact hc
          · exact hc
      case h_2 =>
          unfold withFlag
          split_ifs
          · exact hc
          · exact hc
          · exact hc
  have hparts : ∀ (parts : List Str) (c : Cookie), (∀ part ∈ parts, ∀ x ∈ part, x ∈ header) →
      (∀ d, c.domain = some d → ∀ x ∈ d, x ∈ header) →
        ∀ d, (parts.foldl withPart c).domain = some d → ∀ x ∈ d, x ∈ header := by
    intro parts
    induction parts with
    | nil => exact fun c _ hc => hc
    | cons part parts ih =>
        intro c hmem hc
        rw [List.forall_mem_cons] at hmem
        exact ih (c.withPart part) hmem.2 (hpart c part hc hmem.1)
  unfold parseSetCookie at h
  split at h
  case h_1 => cases h
  case h_2 first parts hsplit =>
      obtain ⟨⟨name, value⟩, -, h⟩ := Option.bind_eq_some_iff.1 h
      dsimp only at h
      split at h
      case isTrue => cases h
      case isFalse =>
          cases h
          refine hparts parts _ (fun part hmem y hy => ?_) (fun d hd => by cases hd) d hd x hx
          exact Pieces.mem_of_mem_splitOn (hsplit ▸ List.mem_cons_of_mem _ hmem) hy

/-- The domain is the same in lower case, when it and the host are ASCII. -/
theorem storedDomain_lower (table : UnicodeText.CaseTable) {domain host : Option Str}
    (hdomain : ∀ d ∈ domain, ∀ c ∈ d, Utf8.IsAscii c)
    (hhost : ∀ h ∈ host, ∀ c ∈ h, Utf8.IsAscii c) :
    storedDomain table.lower domain host = storedDomain lower domain host := by
  cases domain with
  | some d =>
      have hascii : ∀ c ∈ d.dropWhile (· = '.'), Utf8.IsAscii c := fun c hc =>
        hdomain d rfl c ((List.dropWhile_suffix _).subset hc)
      exact congrArg some (table.lowerFrom_of_isAscii hascii [] [])
  | none =>
      cases host with
      | none => rfl
      | some h =>
          have hascii : ∀ c ∈ beforeColon h, Utf8.IsAscii c := fun c hc =>
            hhost h rfl c ((List.takeWhile_prefix _).subset hc)
          exact congrArg some (table.lowerFrom_of_isAscii hascii [] [])

/-- And the domain test says the same. -/
theorem domainMatchIn_lower (table : UnicodeText.CaseTable) {cookieDomain requestHost : Str}
    (hdomain : ∀ c ∈ cookieDomain, Utf8.IsAscii c) (hhost : ∀ c ∈ requestHost, Utf8.IsAscii c) :
    domainMatchIn table.lower cookieDomain requestHost = domainMatch cookieDomain requestHost := by
  have hcd : table.lower cookieDomain = lower cookieDomain :=
    table.lowerFrom_of_isAscii hdomain [] []
  have hrh : table.lower requestHost = lower requestHost := table.lowerFrom_of_isAscii hhost [] []
  rw [domainMatch, domainMatchIn, domainMatchIn, hcd, hrh]

theorem CookieJar.storeAll_lower (table : UnicodeText.CaseTable) {clockMax : ℕ} {url : Uri}
    {cookies : List Cookie}
    (h : ∀ cookie ∈ cookies, storedDomain table.lower cookie.domain url.host =
      storedDomain lower cookie.domain url.host) (clock : ℕ → ℕ) (jar : CookieJar) :
    jar.storeAll table.lower clockMax url clock cookies =
      jar.storeAll lower clockMax url clock cookies := by
  induction cookies generalizing jar clock with
  | nil => rfl
  | cons cookie cookies ih =>
      rw [List.forall_mem_cons] at h
      have hnormalize : cookie.normalize table.lower clockMax (clock 0) url =
          cookie.normalize lower clockMax (clock 0) url := by
        unfold Cookie.normalize
        rw [h.1]
      rw [storeAll, storeAll, insertForUrl, insertForUrl, hnormalize]
      cases cookie.normalize lower clockMax (clock 0) url with
      | none => rfl
      | some stored => exact ih h.2 _ _

/-- **When a response comes from a host in ASCII, as those of URIs are, the lower case that is taken
is that of ASCII.** -/
theorem CookieJar.addFromResponse_lower (table : UnicodeText.CaseTable) {url : Uri}
    (hhost : ∀ host ∈ url.host, ∀ c ∈ host, Utf8.IsAscii c) (clockMax : ℕ) (clock : ℕ → ℕ)
    (jar : CookieJar) (headers : HeaderMap) :
    jar.addFromResponse table.lower clockMax clock headers url =
      jar.addFromResponse lower clockMax clock headers url := by
  refine storeAll_lower table (fun cookie hcookie => storedDomain_lower table ?_ hhost) clock jar
  intro d hd c hc
  obtain ⟨v, -, hv⟩ := List.mem_filterMap.1 hcookie
  obtain ⟨text, htext, hparse⟩ := Option.bind_eq_some_iff.1 hv
  exact (HeaderValue.isReadable_of_toStr htext).isAscii c (Cookie.mem_of_mem_domain hparse hd hc)

/-! ### What is stored -/

/-- The cookies that are stored before one panics, as the jar keeps them. -/
def storings (clockMax : ℕ) (url : Uri) : (clock : ℕ → ℕ) → List Cookie → List Cookie
  | _, [] => []
  | clock, cookie :: cookies =>
      match cookie.normalize lower clockMax (clock 0) url with
      | some stored => stored :: storings clockMax url (fun i => clock (i + 1)) cookies
      | none => []

/-- The cookies that a response stores. -/
def SetCookieResponse.storings (clockMax : ℕ) (r : SetCookieResponse) : List Cookie :=
  OxiHttp.storings clockMax r.url r.clock (CookieJar.setCookies r.headers)

/-- The jar that a series of responses has filled. -/
def jarFrom (clockMax : ℕ) (responses : List SetCookieResponse) : CookieJar :=
  jarAfter lower clockMax (responses.map fun r => .addFromResponseHeaders r.clock r.headers r.url)

variable {clockMax : ℕ} {url : Uri}

/-- The stored cookies are put into the jar one by one. -/
theorem storeAll_cookies (clock : ℕ → ℕ) (jar : CookieJar) (cookies : List Cookie) :
    (jar.storeAll lower clockMax url clock cookies).jar.cookies
      = (storings clockMax url clock cookies).foldl (fun l c => KeyedList.put Cookie.key c l)
          jar.cookies := by
  induction cookies generalizing clock jar with
  | nil => rfl
  | cons cookie cookies ih =>
      rw [CookieJar.storeAll, CookieJar.insertForUrl, storings]
      cases cookie.normalize lower clockMax (clock 0) url with
      | none => rfl
      | some stored =>
          rw [Option.map_some, List.foldl_cons, ← CookieJar.store_cookies]
          exact ih _ _

/-- The jar is the table of all that the responses store. -/
theorem jarFrom_cookies (clockMax : ℕ) (responses : List SetCookieResponse) :
    (jarFrom clockMax responses).cookies
      = KeyedList.putAll Cookie.key (responses.flatMap (·.storings clockMax)) := by
  induction responses using List.reverseRecOn with
  | nil => rfl
  | append_singleton responses r ih =>
      have hlast : jarFrom clockMax (responses ++ [r])
          = ((jarFrom clockMax responses).storeAll lower clockMax r.url r.clock
              (CookieJar.setCookies r.headers)).jar := by
        rw [jarFrom, List.map_append, jarAfter, List.foldl_append]
        rfl
      rw [hlast, storeAll_cookies, ih, List.flatMap_append, List.flatMap_singleton,
        KeyedList.putAll, KeyedList.putAll, List.foldl_append]
      rfl

theorem plain_of_mem_storings {clock : ℕ → ℕ} {cookies : List Cookie}
    (h : ∀ c ∈ cookies, c.Plain) {c : Cookie} (hc : c ∈ storings clockMax url clock cookies) :
    c.Plain := by
  induction cookies generalizing clock with
  | nil => cases hc
  | cons cookie cookies ih =>
      rw [List.forall_mem_cons] at h
      rw [storings] at hc
      split at hc
      case h_1 stored hstored =>
          rcases List.mem_cons.1 hc with rfl | hc
          · obtain ⟨-, -, hname, hvalue, -⟩ := Cookie.normalize_eq_some hstored
            refine ⟨?_, ?_, ?_⟩
            · rw [hname]
              exact h.1.name_semicolon
            · rw [hname]
              exact h.1.name_eq
            · rw [hvalue]
              exact h.1.value_semicolon
          · exact ih h.2 hc
      case h_2 => cases hc

/-- Every cookie of such a jar is plain. -/
theorem plain_of_mem_jarFrom {responses : List SetCookieResponse} {c : Cookie}
    (h : c ∈ (jarFrom clockMax responses).cookies) : c.Plain := by
  rw [jarFrom_cookies] at h
  obtain ⟨r, -, hc⟩ := List.mem_flatMap.1 (KeyedList.mem_of_mem_putAll h)
  refine plain_of_mem_storings (fun sent hsent => ?_) hc
  obtain ⟨v, -, hv⟩ := List.mem_filterMap.1 hsent
  obtain ⟨header, -, hheader⟩ := Option.bind_eq_some_iff.1 hv
  exact Cookie.plain_parseSetCookie hheader

/-! ### The header of a jar -/

/-- Between the separators of the header stand the cookies for the URL. -/
theorem splitPairs_toCookieHeaderForUrl {jar : CookieJar} (hplain : ∀ c ∈ jar.cookies, c.Plain)
    {now : ℕ} {url : Uri} {header : Str} (h : jar.toCookieHeaderForUrl now url = some header) :
    (splitPairs header).map (splitOnce '=')
      = (jar.cookiesForUrl now url).map fun c => some (c.name, c.value) := by
  have hsent : ∀ c ∈ jar.cookiesForUrl now url, c.Plain :=
    fun c hc => hplain c (CookieJar.mem_cookiesForUrl.1 hc).1
  rw [CookieJar.toCookieHeaderForUrl] at h
  split at h
  case isTrue => cases h
  case isFalse hne =>
      cases h
      rw [splitPairs_intercalate (by simpa using hne), List.map_map]
      · exact List.map_congr_left fun c hc => (hsent c hc).splitOnce_toCookieHeader
      · intro p hp
        obtain ⟨c, hc, rfl⟩ := List.mem_map.1 hp
        exact (hsent c hc).semicolon_notMem

/-- Longer paths come first, and among equal ones what comes first in the jar. -/
theorem pairwise_cookiesForUrl {jar : CookieJar} {r : Cookie → Cookie → Prop}
    (hjar : jar.cookies.Pairwise r) (now : ℕ) (url : Uri) :
    (jar.cookiesForUrl now url).Pairwise fun a b =>
      b.pathLen < a.pathLen ∨ a.pathLen = b.pathLen ∧ r a b := by
  have hsorted := List.pairwise_insertionSort (fun a b : Cookie => b.pathLen ≤ a.pathLen)
    (jar.cookies.filter (Cookie.sentTo now url))
  have hstable := SortBy.pairwise_insertionSort (r := fun a b : Cookie => b.pathLen ≤ a.pathLen)
    (hjar.sublist (List.filter_sublist (p := Cookie.sentTo now url)))
  refine (hsorted.and hstable).imp fun h => ?_
  rcases h with ⟨hle, hlt | hbefore⟩
  · exact .inl (not_le.1 hlt)
  · rcases Nat.lt_or_eq_of_le hle with hlt | heq
    · exact .inl hlt
    · exact .inr ⟨heq.symm, hbefore⟩

/-- There is no header when no cookie is for the URL. -/
theorem toCookieHeaderForUrl_eq_none_iff {jar : CookieJar} {now : ℕ} {url : Uri} :
    jar.toCookieHeaderForUrl now url = none ↔ ∀ c ∈ jar.cookies, c.sentTo now url = false := by
  rw [CookieJar.toCookieHeaderForUrl]
  split
  case isTrue hnil =>
      refine iff_of_true rfl fun c hc => ?_
      by_contra hsent
      have := CookieJar.mem_cookiesForUrl.2 ⟨hc, by simpa using hsent⟩
      rw [List.isEmpty_iff.1 hnil] at this
      cases this
  case isFalse hne =>
      refine iff_of_false (Option.some_ne_none _) fun h => ?_
      obtain ⟨c, hc⟩ := List.exists_mem_of_ne_nil _ (by simpa using hne)
      obtain ⟨hmem, hsent⟩ := CookieJar.mem_cookiesForUrl.1 hc
      rw [h c hmem] at hsent
      cases hsent

/-- **The header can be taken apart again**: between its separators stand the names and values of
the cookies for the URL.  Longer paths come first, and among equal ones the cookie that was stored
earlier.  There is no header when there is no such cookie. -/
theorem cookieHeader_unambiguous (clockMax : ℕ) (responses : List SetCookieResponse) (now : ℕ)
    (url : Uri) :
    (∀ header ∈ (jarFrom clockMax responses).toCookieHeaderForUrl now url,
      (splitPairs header).map (splitOnce '=')
        = ((jarFrom clockMax responses).cookiesForUrl now url).map fun c =>
            some (c.name, c.value)) ∧
    ((jarFrom clockMax responses).cookiesForUrl now url).Pairwise (fun a b =>
      b.pathLen < a.pathLen ∨ a.pathLen = b.pathLen ∧
        KeyedList.LastBefore (responses.flatMap (·.storings clockMax)) a b) ∧
    ((jarFrom clockMax responses).toCookieHeaderForUrl now url = none ↔
      ∀ c ∈ (jarFrom clockMax responses).cookies, c.sentTo now url = false) := by
  refine ⟨fun header hheader => ?_, ?_, toCookieHeaderForUrl_eq_none_iff⟩
  · exact splitPairs_toCookieHeaderForUrl (fun c hc => plain_of_mem_jarFrom hc) hheader
  · have hstored := KeyedList.pairwise_putAll Cookie.key (responses.flatMap (·.storings clockMax))
    rw [← jarFrom_cookies] at hstored
    exact pairwise_cookiesForUrl hstored now url

end OxiHttp
