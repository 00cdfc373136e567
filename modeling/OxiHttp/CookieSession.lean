/-
**Cookies as variables.**

A site that answers with `Set-Cookie` headers for all its paths uses the client as a store: it sets
variables, sets them again and deletes them with `Max-Age=0`, and reads them in the next request.
The client has one jar for all sites, in which a cookie is found by its name, domain and path, and
it sends what the domains, the paths and the times in it allow.

However the answers of the sites follow each other, a request for a URL has in it the variables of
the sites whose domain goes with its host, each of them once and with the value it was given last.

Main definitions:

* `OxiHttp.setCookieHeader`, `OxiHttp.cookieHeader` — the two accessors of a header map;
* `OxiHttp.Assignment`, `OxiHttp.SiteAnswer` — what a site assigns to its variables, and says of it;
* `OxiHttp.assigned` — what the variables of all sites are after a series of answers.

Main results:

* `OxiHttp.storings_settings` — what an answer stores in the jar;
* `OxiHttp.Setting.sentTo_stored` — what of it is sent;
* `OxiHttp.cookies_are_variables` — the `Cookie` header has the variables in it.
-/

import OxiHttp.ClientSession
import OxiHttp.CookieScope
import OxiHttp.SetCookieText

set_option relaxedAutoImplicit false
set_option autoImplicit false

namespace OxiHttp

open HeaderValue (IsVisible)

/-! ### Headers -/

/-- `HeaderMapExt::set_cookie_header`. -/
def setCookieHeader (headers : HeaderMap) (value : Str) : Except OxiHttpError HeaderMap :=
  match HeaderValue.fromStr value with
  | some hv => .ok (headers.append "set-cookie".toList hv)
  | none => .error (.invalidHeader ("invalid Set-Cookie value: " ++ String.ofList value))

/-- `HeaderMapExt::cookie_header`. -/
def cookieHeader (headers : HeaderMap) : Option Str := headerText headers "cookie"

/-! ### What a site says -/

/-- A variable is given a value, or deleted. -/
structure Assignment where
  name : Str
  value : Option Str
deriving DecidableEq, Repr

namespace Assignment

/-- The cookie of an assignment, for all paths of the site. -/
def cookie (a : Assignment) : Cookie :=
  match a.value with
  | some value => { name := a.name, value, path := some "/".toList }
  | none => { name := a.name, value := [], path := some "/".toList, maxAge := some 0 }

/-- The name and the value can stand in a cookie. -/
structure Valid (a : Assignment) : Prop where
  name_ne_nil : a.name ≠ []
  name_eq : '=' ∉ a.name
  name : IsVisible a.name ∧ ';' ∉ a.name ∧ trim a.name = a.name
  value : ∀ v ∈ a.value, IsVisible v ∧ ';' ∉ v ∧ trim v = v

variable {a : Assignment}

@[simp] theorem cookie_name : a.cookie.name = a.name := by
  rw [cookie]
  cases a.value <;> rfl

@[simp] theorem cookie_value : a.cookie.value = a.value.getD [] := by
  rw [cookie]
  cases a.value <;> rfl

@[simp] theorem cookie_path : a.cookie.path = some "/".toList := by
  rw [cookie]
  cases a.value <;> rfl

@[simp] theorem cookie_domain : a.cookie.domain = none := by
  rw [cookie]
  cases a.value <;> rfl

@[simp] theorem cookie_secure : a.cookie.secure = false := by
  rw [cookie]
  cases a.value <;> rfl

theorem cookie_expiresAt : { a.cookie with expiresAt := none } = a.cookie := by
  rw [cookie]
  cases a.value <;> rfl

theorem Valid.getD (h : a.Valid) : IsVisible (a.value.getD []) ∧ ';' ∉ a.value.getD [] ∧
    trim (a.value.getD []) = a.value.getD [] := by
  cases hv : a.value with
  | none => decide
  | some v => exact h.value v hv

theorem Valid.printable (h : a.Valid) : a.cookie.Printable where
  name_ne_nil := by rw [cookie_name]; exact h.name_ne_nil
  name_eq := by rw [cookie_name]; exact h.name_eq
  name := by rw [cookie_name]; exact h.name.2
  value := by rw [cookie_value]; exact h.getD.2
  domain := by
    rw [cookie_domain]
    rintro d ⟨⟩
  path := by
    rw [cookie_path]
    rintro p ⟨⟩
    decide
  maxAge := by
    intro n hn
    rw [cookie] at hn
    cases hv : a.value with
    | none =>
        rw [hv] at hn
        cases hn
        exact ⟨0, by decide, rfl⟩
    | some v =>
        rw [hv] at hn
        cases hn

/-- The text of the cookie is read as the cookie. -/
theorem Valid.parse (h : a.Valid) : parseSetCookie a.cookie.display = some a.cookie := by
  have hsplit : a.cookie.display.splitOn ';' =
      (a.cookie.name ++ '=' :: a.cookie.value) :: a.cookie.attrParts := by
    rw [Cookie.display_eq]
    exact List.splitOn_intercalate ';' h.printable.semicolon_notMem (List.cons_ne_nil _ _)
  have hfirst := trim_pair h.printable.name.2 h.printable.value.2
  have hname : a.cookie.name.isEmpty = false := by simpa using h.printable.name_ne_nil
  simp only [parseSetCookie, hsplit, hfirst, splitOnce_append h.printable.name_eq,
    Option.bind_some, h.printable.name.2, h.printable.value.2, hname, Bool.false_eq_true,
    if_false, h.printable.foldl_attrParts, cookie_expiresAt]

/-- The attributes of an assignment. -/
def attributes (a : Assignment) : Str :=
  match a.value with
  | some _ => "; Path=/".toList
  | none => "; Path=/; Max-Age=0".toList

theorem display_cookie (a : Assignment) :
    a.cookie.display = a.name ++ '=' :: a.value.getD [] ++ a.attributes := by
  rw [Cookie.display, cookie, attributes]
  cases a.value <;> simp

theorem Valid.isVisible_display (h : a.Valid) : IsVisible a.cookie.display := by
  have hattributes : IsVisible a.attributes := by
    rw [attributes]
    split <;> decide
  rw [display_cookie]
  exact isVisible_append (isVisible_append h.name.1 (isVisible_cons (by decide) h.getD.1))
    hattributes

end Assignment

/-- An answer of a site: the URL it is for, what the clock of the client reads while it stores the
cookies, what is assigned, and the other headers. -/
structure SiteAnswer where
  url : Uri
  clock : ℕ → ℕ
  assignments : List Assignment
  base : HeaderMap := {}

/-- The site that answers. -/
def cookieSite (url : Uri) : Str := lower (beforeColon (url.host.getD []))

namespace SiteAnswer

/-- The answer with its `Set-Cookie` headers. -/
def response (answer : SiteAnswer) : Except OxiHttpError SetCookieResponse := do
  let headers ← answer.assignments.foldlM
    (fun headers a => setCookieHeader headers a.cookie.display) answer.base
  return { clock := answer.clock, headers, url := answer.url }

/-- The site has a name, what it assigns can stand in cookies, and the clock reads times that there
are, and not after `now`. -/
structure Valid (clockMax now : ℕ) (answer : SiteAnswer) : Prop where
  host : answer.url.host.isSome
  assignments : ∀ a ∈ answer.assignments, a.Valid
  base : answer.base.getAll "set-cookie".toList = []
  clock : ∀ i, answer.clock i ≤ clockMax ∧ answer.clock i ≤ now

theorem foldlM_setCookieHeader {as : List Assignment} (h : ∀ a ∈ as, a.Valid)
    (headers : HeaderMap) :
    ∃ headers', as.foldlM (fun headers a => setCookieHeader headers a.cookie.display) headers =
        Except.ok headers' ∧
      headers'.getAll "set-cookie".toList = headers.getAll "set-cookie".toList ++
        as.map fun a => ⟨Utf8.encode a.cookie.display⟩ := by
  induction as generalizing headers with
  | nil => exact ⟨headers, rfl, by rw [List.map_nil, List.append_nil]⟩
  | cons a as ih =>
      obtain ⟨ha, has⟩ := List.forall_mem_cons.1 h
      have hset : setCookieHeader headers a.cookie.display = .ok
          (headers.append "set-cookie".toList ⟨Utf8.encode a.cookie.display⟩) := by
        rw [setCookieHeader, HeaderValue.fromStr_of_isVisible ha.isVisible_display]
      obtain ⟨headers', hfold, hall⟩ := ih has
        (headers.append "set-cookie".toList ⟨Utf8.encode a.cookie.display⟩)
      refine ⟨headers', ?_, ?_⟩
      · rw [List.foldlM_cons, hset]
        exact hfold
      · rw [hall, HeaderMap.getAll_append, if_pos rfl, List.map_cons, List.append_assoc]
        rfl

variable {clockMax now : ℕ} {answer : SiteAnswer}

/-- What the client reads off the response. -/
theorem Valid.response (h : answer.Valid clockMax now) :
    ∃ r, answer.response = .ok r ∧ r.clock = answer.clock ∧ r.url = answer.url ∧
      CookieJar.setCookies r.headers = answer.assignments.map Assignment.cookie := by
  obtain ⟨headers, hfold, hall⟩ := foldlM_setCookieHeader h.assignments answer.base
  refine ⟨{ clock := answer.clock, headers, url := answer.url }, ?_, rfl, rfl, ?_⟩
  · rw [SiteAnswer.response, hfold]
    rfl
  · rw [CookieJar.setCookies, hall, h.base, List.nil_append, List.filterMap_map]
    rw [← List.filterMap_eq_map]
    refine List.filterMap_congr fun a ha => ?_
    have hvalid := h.assignments a ha
    have hread := HeaderValue.toStr_of_isVisible hvalid.isVisible_display
    exact (congrArg (fun s => s.bind parseSetCookie) hread).trans hvalid.parse

end SiteAnswer

/-! ### What is stored -/

/-- An assignment that is stored: the site, the time and what is assigned. -/
structure Setting where
  site : Str
  time : ℕ
  assignment : Assignment

/-- The assignments of an answer, with what the clock reads. -/
def settings (site : Str) : (clock : ℕ → ℕ) → List Assignment → List Setting
  | _, [] => []
  | clock, a :: as => ⟨site, clock 0, a⟩ :: settings site (fun i => clock (i + 1)) as

namespace Setting

/-- The variable of a setting. -/
def key (s : Setting) : Str × Str := (s.site, s.assignment.name)

/-- The cookie in the jar. -/
def stored (s : Setting) : Cookie :=
  { s.assignment.cookie with
    domain := some s.site
    expiresAt := s.assignment.value.elim (some s.time) fun _ => none }

/-- A cookie is found by its variable. -/
theorem key_stored_iff (s s' : Setting) : s.stored.key = s'.stored.key ↔ s.key = s'.key := by
  simp [Cookie.key, stored, key, and_comm]

end Setting

/-- The site goes with the host of a URL: the domain test of `cookies_for_url`. -/
def goesWith (site : Str) (url : Uri) : Bool :=
  site.isEmpty || domainMatch site (url.host.getD [])

theorem pathMatch_root {path : Str} (h : path.head? = some '/') :
    pathMatch "/".toList path = true := by
  obtain ⟨rest, rfl⟩ : ∃ rest, path = '/' :: rest := List.head?_eq_some_iff.1 h
  have hstrip : stripPfx "/".toList ('/' :: rest) = some rest := stripPfx_eq_some_iff.2 rfl
  have hslash : "/".toList.getLast? = some '/' := by decide
  rw [pathMatch, hstrip, hslash, Bool.or_eq_true]
  exact .inr (by simp)

/-- **What is sent**: the variables that have a value, of the sites that go with the host. -/
theorem Setting.sentTo_stored {s : Setting} {now : ℕ} (hnow : s.time ≤ now) {url : Uri}
    (hpath : url.path.head? = some '/') :
    s.stored.sentTo now url = (s.assignment.value.isSome && goesWith s.site url) := by
  have hroot : pathMatch (s.stored.path.getD "/".toList) url.path = true := by
    rw [stored, Assignment.cookie_path]
    exact pathMatch_root hpath
  rw [Cookie.sentTo, hroot, goesWith]
  cases hv : s.assignment.value with
  | none => simp [stored, hv, hnow]
  | some v => simp [stored, hv]

variable {clockMax : ℕ}

theorem normalize_cookie {url : Uri} (hhost : url.host.isSome) {t : ℕ} (ht : t ≤ clockMax)
    (a : Assignment) :
    a.cookie.normalize lower clockMax t url = some (Setting.stored ⟨cookieSite url, t, a⟩) := by
  obtain ⟨host, hhost⟩ := Option.isSome_iff_exists.1 hhost
  unfold Cookie.normalize Setting.stored Assignment.cookie cookieSite
  cases a.value with
  | none => simp [storedDomain, hhost, addDuration, ht]
  | some v => simp [storedDomain, hhost]

/-- **What an answer stores.** -/
theorem storings_settings {url : Uri} (hhost : url.host.isSome) {clock : ℕ → ℕ}
    (hclock : ∀ i, clock i ≤ clockMax) (as : List Assignment) :
    storings clockMax url clock (as.map Assignment.cookie) =
      (settings (cookieSite url) clock as).map Setting.stored := by
  induction as generalizing clock with
  | nil => rfl
  | cons a as ih =>
      rw [List.map_cons, storings, normalize_cookie hhost (hclock 0)]
      exact congrArg (_ :: ·) (ih fun i => hclock (i + 1))

theorem mem_settings {site : Str} {clock : ℕ → ℕ} {as : List Assignment} {s : Setting}
    (h : s ∈ settings site clock as) : (∃ i, s.time = clock i) ∧ s.assignment ∈ as := by
  induction as generalizing clock with
  | nil => cases h
  | cons a as ih =>
      rcases List.mem_cons.1 h with rfl | h
      · exact ⟨⟨0, rfl⟩, List.mem_cons_self⟩
      · obtain ⟨⟨i, hi⟩, hmem⟩ := ih h
        exact ⟨⟨i + 1, hi⟩, List.mem_cons_of_mem _ hmem⟩

theorem map_settings (site : Str) (clock : ℕ → ℕ) (as : List Assignment) :
    (settings site clock as).map (fun s => (s.site, s.assignment)) = as.map (Prod.mk site) := by
  induction as generalizing clock with
  | nil => rfl
  | cons a as ih => exact congrArg (_ :: ·) (ih _)

/-! ### The variables -/

/-- The settings of an answer. -/
def SiteAnswer.settings (answer : SiteAnswer) : List Setting :=
  OxiHttp.settings (cookieSite answer.url) answer.clock answer.assignments

/-- The variables of all sites after a series of answers: what was assigned last. -/
def assigned (answers : List SiteAnswer) : Str × Str → Option Str :=
  KeyedList.latest (fun x => (x.1, x.2.name)) (fun x => x.2.value)
    (answers.flatMap fun answer => answer.assignments.map (Prod.mk (cookieSite answer.url)))

/-- The settings that no later one has replaced. -/
def lastSettings (answers : List SiteAnswer) : List Setting :=
  KeyedList.putAll Setting.key (answers.flatMap SiteAnswer.settings)

variable {now : ℕ} {answers : List SiteAnswer}

theorem assigned_eq_some_iff {x : Str × Str} {value : Str} :
    assigned answers x = some value ↔
      ∃ s ∈ lastSettings answers, s.key = x ∧ s.assignment.value = some value := by
  have hsettings : (answers.flatMap fun answer =>
      answer.assignments.map (Prod.mk (cookieSite answer.url))) =
        (answers.flatMap SiteAnswer.settings).map fun s => (s.site, s.assignment) := by
    rw [List.map_flatMap]
    exact List.flatMap_congr fun answer _ => (map_settings _ _ _).symm
  rw [assigned, hsettings, KeyedList.latest, List.foldl_map]
  exact KeyedList.latest_eq_some_iff

theorem time_le_of_mem_lastSettings (h : ∀ answer ∈ answers, answer.Valid clockMax now)
    {s : Setting} (hs : s ∈ lastSettings answers) : s.time ≤ now := by
  obtain ⟨answer, hanswer, hs⟩ := List.mem_flatMap.1 (KeyedList.mem_of_mem_putAll hs)
  obtain ⟨⟨i, hi⟩, -⟩ := mem_settings hs
  rw [hi]
  exact ((h answer hanswer).clock i).2

/-- The client stores the settings of the answers. -/
theorem exists_responses (h : ∀ answer ∈ answers, answer.Valid clockMax now) :
    ∃ responses, answers.mapM SiteAnswer.response = .ok responses ∧
      responses.flatMap (·.storings clockMax) =
        (answers.flatMap SiteAnswer.settings).map Setting.stored := by
  induction answers with
  | nil => exact ⟨[], rfl, rfl⟩
  | cons answer answers ih =>
      obtain ⟨hanswer, hanswers⟩ := List.forall_mem_cons.1 h
      obtain ⟨r, hr, hclock, hurl, hcookies⟩ := hanswer.response
      obtain ⟨responses, hresponses, hstorings⟩ := ih hanswers
      refine ⟨r :: responses, ?_, ?_⟩
      · rw [List.mapM_cons, hr, hresponses]
        rfl
      · have hstored : r.storings clockMax = answer.settings.map Setting.stored := by
          rw [SetCookieResponse.storings, hcookies, hclock, hurl]
          exact storings_settings hanswer.host (fun i => (hanswer.clock i).1) _
        rw [List.flatMap_cons, List.flatMap_cons, List.map_append, hstored, hstorings]

/-- The jar has the last settings in it. -/
theorem jarFrom_settings {responses : List SetCookieResponse}
    (h : responses.flatMap (·.storings clockMax) =
      (answers.flatMap SiteAnswer.settings).map Setting.stored) :
    (jarFrom clockMax responses).cookies = (lastSettings answers).map Setting.stored := by
  rw [jarFrom_cookies, h]
  exact KeyedList.putAll_map Setting.key_stored_iff _

/-! ### What is sent -/

/-- The variable of a stored cookie, and its value. -/
def Cookie.binding (c : Cookie) : Str × Str × Str := (c.domain.getD [], c.name, c.value)

/-- What the cookies for a URL bind. -/
theorem mem_bindings_iff (h : ∀ answer ∈ answers, answer.Valid clockMax now) {jar : CookieJar}
    (hjar : jar.cookies = (lastSettings answers).map Setting.stored) {url : Uri}
    (hpath : url.path.head? = some '/') {site name value : Str} :
    (site, name, value) ∈ (jar.cookiesForUrl now url).map Cookie.binding ↔
      goesWith site url = true ∧ assigned answers (site, name) = some value := by
  rw [List.mem_map, assigned_eq_some_iff]
  constructor
  · rintro ⟨c, hc, hbinding⟩
    obtain ⟨hmem, hsent⟩ := CookieJar.mem_cookiesForUrl.1 hc
    rw [hjar] at hmem
    obtain ⟨s, hs, rfl⟩ := List.mem_map.1 hmem
    rw [s.sentTo_stored (time_le_of_mem_lastSettings h hs) hpath, Bool.and_eq_true] at hsent
    obtain ⟨v, hv⟩ := Option.isSome_iff_exists.1 hsent.1
    obtain ⟨rfl, rfl, rfl⟩ : s.site = site ∧ s.assignment.name = name ∧ v = value := by
      simpa [Cookie.binding, Setting.stored, hv] using hbinding
    exact ⟨hsent.2, s, hs, rfl, hv⟩
  · rintro ⟨hgoes, s, hs, hkey, hv⟩
    obtain ⟨rfl, rfl⟩ := Prod.mk.inj hkey
    refine ⟨s.stored, CookieJar.mem_cookiesForUrl.2 ⟨hjar ▸ List.mem_map_of_mem hs, ?_⟩, ?_⟩
    · rw [s.sentTo_stored (time_le_of_mem_lastSettings h hs) hpath, hv, hgoes]
      rfl
    · simp [Cookie.binding, Setting.stored, hv]

/-- No variable is sent twice. -/
theorem nodup_bindings {jar : CookieJar} (hkeys : jar.KeysDistinct)
    (hjar : jar.cookies = (lastSettings answers).map Setting.stored) (url : Uri) :
    (((jar.cookiesForUrl now url).map Cookie.binding).map fun x => (x.1, x.2.1)).Nodup := by
  have hperm : (jar.cookiesForUrl now url).Perm (jar.cookies.filter (Cookie.sentTo now url)) :=
    List.perm_insertionSort _ _
  have hsettings : ((lastSettings answers).map Setting.key).Nodup := by
    rw [CookieJar.KeysDistinct, KeyedList.Distinct, hjar, List.pairwise_map] at hkeys
    refine List.pairwise_map.2 (hkeys.imp fun hne heq => hne ?_)
    exact (Setting.key_stored_iff _ _).2 heq
  have hjarkeys : jar.cookies.map (fun c => (c.domain.getD [], c.name)) =
      (lastSettings answers).map Setting.key := by
    rw [hjar, List.map_map]
    exact List.map_congr_left fun s _ => by simp [Setting.stored, Setting.key]
  rw [List.map_map]
  refine ((hperm.map _).nodup_iff).2 (List.Nodup.sublist (List.filter_sublist.map _) ?_)
  rw [← hjarkeys] at hsettings
  exact hsettings

/-- **Cookies are variables.**  After the answers of any sites, in any order, the `Cookie` header of
a request has in it each variable that has a value and belongs to a site that goes with the host,
once and with the value that was assigned last, and nothing else. -/
theorem cookies_are_variables (h : ∀ answer ∈ answers, answer.Valid clockMax now)
    (config : SendConfig) {headers : HeaderMap} (hheaders : headers.getAll "cookie".toList = [])
    {url : Uri} (hpath : url.path.head? = some '/') :
    ∃ responses, answers.mapM SiteAnswer.response = .ok responses ∧
      ∃ sent : List (Str × Str × Str), (sent.map fun x => (x.1, x.2.1)).Nodup ∧
        (∀ site name value, (site, name, value) ∈ sent ↔
          goesWith site url = true ∧ assigned answers (site, name) = some value) ∧
        (cookieHeader (requestHeaders config headers
            (jarCookie now (some (jarFrom clockMax responses)) url))).map
          (fun header => (splitPairs header).map (splitOnce '=')) =
            if sent = [] then none else some (sent.map fun x => some x.2) := by
  obtain ⟨responses, hresponses, hstorings⟩ := exists_responses h
  have hjar := jarFrom_settings hstorings
  have hkeys : (jarFrom clockMax responses).KeysDistinct := keysDistinct_jarAfter lower clockMax _
  obtain ⟨hnone, hsome⟩ := jarCookie_jarFrom clockMax responses now url
  refine ⟨responses, hresponses, _, nodup_bindings hkeys hjar url,
    fun site name value => mem_bindings_iff h hjar hpath, ?_⟩
  have hget : ∀ cookie, cookieHeader (requestHeaders config headers cookie) =
      cookie.bind HeaderValue.toStr := by
    intro cookie
    rw [cookieHeader, headerText, HeaderMap.get, getAll_cookie_requestHeaders, hheaders]
    cases cookie <;> rfl
  rw [hget]
  by_cases hnil : (jarFrom clockMax responses).cookiesForUrl now url = []
  · rw [hnone hnil, hnil]
    rfl
  · obtain ⟨v, text, hv, htext, hpairs⟩ := hsome hnil
    rw [hv, Option.bind_some, htext, Option.map_some, hpairs, if_neg (by simpa using hnil),
      List.map_map]
    rfl

/-- Two sites, of which the first one deletes a variable again. -/
def twoSites : List SiteAnswer :=
  [{ url := httpUrl "a.test".toList (by decide), clock := fun _ => 5
     assignments := [⟨"sid".toList, some "1".toList⟩, ⟨"lang".toList, some "en".toList⟩] },
   { url := httpUrl "b.test".toList (by decide), clock := fun _ => 6
     assignments := [⟨"sid".toList, some "2".toList⟩] },
   { url := httpUrl "a.test".toList (by decide), clock := fun _ => 7
     assignments := [⟨"sid".toList, none⟩] }]

theorem valid_twoSites : ∀ answer ∈ twoSites, answer.Valid 1000 10 := by
  have hvalid : ∀ a ∈ twoSites.flatMap SiteAnswer.assignments, a.Valid := by
    intro a ha
    simp only [twoSites, List.flatMap_cons, List.flatMap_nil, List.cons_append, List.nil_append,
      List.mem_cons, List.not_mem_nil, or_false] at ha
    rcases ha with rfl | rfl | rfl | rfl <;>
      exact ⟨by decide, by decide, by decide, by decide⟩
  intro answer hanswer
  have hassignments : ∀ a ∈ answer.assignments, a.Valid := fun a ha =>
    hvalid a (List.mem_flatMap.2 ⟨answer, hanswer, ha⟩)
  simp only [twoSites, List.mem_cons, List.not_mem_nil, or_false] at hanswer
  rcases hanswer with rfl | rfl | rfl <;>
    exact ⟨rfl, hassignments, rfl, fun _ => by dsimp only; decide⟩

theorem cookies_are_variables_twoSites :
    ∃ responses, twoSites.mapM SiteAnswer.response = .ok responses ∧
      ∃ sent : List (Str × Str × Str), (sent.map fun x => (x.1, x.2.1)).Nodup ∧
        (∀ site name value, (site, name, value) ∈ sent ↔
          goesWith site (httpUrl "a.test".toList (by decide)) = true ∧
            assigned twoSites (site, name) = some value) ∧
        (cookieHeader (requestHeaders { maxResponseBody := 0, clockMax := 1000 } {}
            (jarCookie 10 (some (jarFrom 1000 responses))
              (httpUrl "a.test".toList (by decide))))).map
          (fun header => (splitPairs header).map (splitOnce '=')) =
            if sent = [] then none else some (sent.map fun x => some x.2) :=
  cookies_are_variables valid_twoSites _ rfl rfl

end OxiHttp
