/-
**What becomes of a jar.**

A jar that starts empty is changed by four operations, which tell cookies apart in two ways: by the
name alone, and by name, domain and path once these are what they are for the URL.  Whatever the
order of the operations, no two cookies of the jar have one name, domain and path.

The time at which a cookie is stored is read off the clock for each cookie.  When the clock cannot
hold the time a cookie expires at, storing it panics: the cookies of the response that came before
it stay in the jar, and a mutex that is locked at that moment is poisoned.

Main definitions:

* `OxiHttp.CookieJar.storeAll` — the cookies of a response, one after the other, with their panics;
* `OxiHttp.JarOp`, `OxiHttp.jarAfter` — the operations, and the jar after a series of them;
* `OxiHttp.NormalisedFor` — what a URL makes of a cookie;
* `OxiHttp.JarMutex` — the mutex around the jar of a client.

Main results:

* `OxiHttp.jarAfter_keys` — the keys stay distinct, and what a cookie for a URL replaces;
* `OxiHttp.survives_iff` — no response panics exactly when the clock can hold every expiry time.
-/

import OxiHttp.CookieJar
import OxiHttp.KeyedList
import OxiHttp.UnicodeText

set_option relaxedAutoImplicit false
set_option autoImplicit false

namespace OxiHttp

/-! ### Storing the cookies of a response -/

/-- What an operation on a jar leaves, and whether it panicked on the way. -/
structure JarResult where
  jar : CookieJar
  panicked : Bool := false
deriving DecidableEq

namespace CookieJar

/-- The loop of `add_from_response_headers`, when the clock reads `clock i` as the cookie `i` is
stored. -/
def storeAll (toLowercase : Str → Str) (clockMax : ℕ) (url : Uri) :
    (clock : ℕ → ℕ) → CookieJar → List Cookie → JarResult
  | _, jar, [] => { jar }
  | clock, jar, cookie :: cookies =>
      match jar.insertForUrl toLowercase clockMax (clock 0) cookie url with
      | some jar => storeAll toLowercase clockMax url (fun i => clock (i + 1)) jar cookies
      | none => { jar, panicked := true }

/-- `add_from_response_headers`, with a clock that goes on. -/
def addFromResponse (toLowercase : Str → Str) (clockMax : ℕ) (clock : ℕ → ℕ) (jar : CookieJar)
    (headers : HeaderMap) (url : Uri) : JarResult :=
  jar.storeAll toLowercase clockMax url clock (setCookies headers)

end CookieJar

variable {toLowercase : Str → Str} {clockMax : ℕ} {url : Uri} {clock : ℕ → ℕ} {jar : CookieJar}
  {cookies : List Cookie}

/-- When the clock stands still, it is what `addFromResponseHeaders` says. -/
theorem CookieJar.addFromResponseHeaders_eq (now : ℕ) (headers : HeaderMap) :
    jar.addFromResponseHeaders toLowercase clockMax now headers url =
      let r := jar.addFromResponse toLowercase clockMax (fun _ => now) headers url
      if r.panicked then none else some r.jar := by
  unfold addFromResponseHeaders addFromResponse
  induction setCookies headers generalizing jar with
  | nil => rfl
  | cons cookie cookies ih =>
      rw [List.foldlM_cons, storeAll]
      cases jar.insertForUrl toLowercase clockMax now cookie url with
      | none => rfl
      | some jar' => exact ih

/-- A property of jars that storing a cookie keeps is kept by storing several. -/
theorem CookieJar.storeAll_keeps {P : CookieJar → Prop}
    (hstep : ∀ jar jar' cookie now, P jar →
      jar.insertForUrl toLowercase clockMax now cookie url = some jar' → P jar')
    (h : P jar) : P (jar.storeAll toLowercase clockMax url clock cookies).jar := by
  induction cookies generalizing jar clock with
  | nil => exact h
  | cons cookie cookies ih =>
      rw [storeAll]
      cases hins : jar.insertForUrl toLowercase clockMax (clock 0) cookie url with
      | none => exact h
      | some jar' => exact ih (hstep jar jar' cookie (clock 0) h hins)

/-! ### Keys -/

/-- The key of a cookie. -/
def Cookie.key (c : Cookie) : Str × Option Str × Option Str := (c.name, c.domain, c.path)

/-- No two cookies of the jar have one name, domain and path. -/
def CookieJar.KeysDistinct (jar : CookieJar) : Prop := KeyedList.Distinct Cookie.key jar.cookies

theorem Cookie.sameKey_iff {a b : Cookie} : a.sameKey b = true ↔ a.key = b.key := by
  simp [sameKey, key, Prod.ext_iff, and_assoc]

/-- By name only. -/
theorem CookieJar.insert_cookies (cookie : Cookie) :
    (jar.insert cookie).cookies = KeyedList.put Cookie.name cookie jar.cookies := rfl

/-- By the whole key. -/
theorem CookieJar.store_cookies (cookie : Cookie) :
    (jar.store cookie).cookies = KeyedList.put Cookie.key cookie jar.cookies := by
  unfold store KeyedList.put
  dsimp only
  congr 2
  funext c
  rw [Bool.eq_iff_iff, Bool.not_eq_true', ← Bool.not_eq_true, Cookie.sameKey_iff, decide_eq_true_eq]

namespace CookieJar.KeysDistinct

variable (h : jar.KeysDistinct)

include h

theorem insert (cookie : Cookie) : (jar.insert cookie).KeysDistinct := by
  rw [KeysDistinct, insert_cookies]
  exact KeyedList.Distinct.put h (fun _ _ hkey => congrArg Prod.fst hkey) cookie

theorem store (cookie : Cookie) : (jar.store cookie).KeysDistinct := by
  rw [KeysDistinct, store_cookies]
  exact KeyedList.Distinct.put h (fun _ _ hkey => hkey) cookie

theorem insertForUrl {now : ℕ} {cookie : Cookie} {jar' : CookieJar}
    (hins : jar.insertForUrl toLowercase clockMax now cookie url = some jar') :
    jar'.KeysDistinct := by
  obtain ⟨stored, -, rfl⟩ := Option.map_eq_some_iff.1 hins
  exact h.store stored

theorem remove (name : Str) : (jar.remove name).2.KeysDistinct :=
  KeyedList.Distinct.sublist h List.eraseP_sublist

theorem addFromSetCookieHeaders (headers : List Str) :
    (jar.addFromSetCookieHeaders headers).KeysDistinct := by
  unfold CookieJar.addFromSetCookieHeaders
  induction headers.filterMap parseSetCookie generalizing jar with
  | nil => exact h
  | cons cookie cookies ih => exact ih (h.insert cookie)

theorem addFromResponse (headers : HeaderMap) :
    (jar.addFromResponse toLowercase clockMax clock headers url).jar.KeysDistinct :=
  storeAll_keeps (fun _ _ _ _ hkeys hins => hkeys.insertForUrl hins) h

end CookieJar.KeysDistinct

/-! ### Runs -/

/-- An operation on a jar. -/
inductive JarOp where
  | insert (cookie : Cookie)
  | insertForUrl (now : ℕ) (cookie : Cookie) (url : Uri)
  | addFromSetCookieHeaders (headers : List Str)
  | addFromResponseHeaders (clock : ℕ → ℕ) (headers : HeaderMap) (url : Uri)
  | remove (name : Str)

/-- What an operation leaves, also when it panics. -/
def JarOp.apply (toLowercase : Str → Str) (clockMax : ℕ) (jar : CookieJar) : JarOp → CookieJar
  | .insert cookie => jar.insert cookie
  | .insertForUrl now cookie url => (jar.insertForUrl toLowercase clockMax now cookie url).getD jar
  | .addFromSetCookieHeaders headers => jar.addFromSetCookieHeaders headers
  | .addFromResponseHeaders clock headers url =>
      (jar.addFromResponse toLowercase clockMax clock headers url).jar
  | .remove name => (jar.remove name).2

/-- The jar after a series of operations on an empty one. -/
def jarAfter (toLowercase : Str → Str) (clockMax : ℕ) (ops : List JarOp) : CookieJar :=
  ops.foldl (JarOp.apply toLowercase clockMax) {}

/-- An operation keeps the keys distinct. -/
theorem JarOp.keysDistinct_apply (h : jar.KeysDistinct) (op : JarOp) :
    (op.apply toLowercase clockMax jar).KeysDistinct := by
  cases op with
  | insert cookie => exact h.insert cookie
  | insertForUrl now cookie url =>
      rw [apply]
      cases hins : jar.insertForUrl toLowercase clockMax now cookie url with
      | none => exact h
      | some jar' => exact h.insertForUrl hins
  | addFromSetCookieHeaders headers => exact h.addFromSetCookieHeaders headers
  | addFromResponseHeaders clock headers url => exact h.addFromResponse headers
  | remove name => exact h.remove name

/-- So do any number of them. -/
theorem keysDistinct_jarAfter (toLowercase : Str → Str) (clockMax : ℕ) (ops : List JarOp) :
    (jarAfter toLowercase clockMax ops).KeysDistinct := by
  -- induction on the operations, the last one split off
  induction ops using List.reverseRecOn with
  | nil => exact KeyedList.distinct_nil
  | append_singleton ops op ih =>
      rw [jarAfter, List.foldl_append]
      exact op.keysDistinct_apply ih

/-- `stored` is the cookie as it is due to a URL: the domain of the attribute without its leading
dots, or else the host, in lower case; the path of the attribute, or else that of the URL up to its
last slash; and nothing else of it has changed, the expiry time apart. -/
structure NormalisedFor (toLowercase : Str → Str) (url : Uri) (cookie stored : Cookie) : Prop where
  ownDomain : ∀ d, cookie.domain = some d →
    stored.domain = some (toLowercase (d.dropWhile (· = '.')))
  hostDomain : cookie.domain = none →
    stored.domain = url.host.map fun host => toLowercase (beforeColon host)
  path : stored.path = some (cookie.path.getD (defaultPath url.path))
  rest : { stored with domain := none, path := none, expiresAt := none }
    = { cookie with domain := none, path := none, expiresAt := none }

theorem Cookie.normalisedFor_normalize {now : ℕ} {cookie stored : Cookie}
    (h : cookie.normalize toLowercase clockMax now url = some stored) :
    NormalisedFor toLowercase url cookie stored := by
  obtain ⟨hdomain, hpath, -⟩ := Cookie.normalize_eq_some h
  refine ⟨fun d hd => ?_, fun hd => ?_, hpath, ?_⟩
  · rw [hdomain, hd]
    rfl
  · rw [hdomain, hd]
    rfl
  · unfold normalize at h
    cases hmax : cookie.maxAge with
    | none =>
        rw [hmax] at h
        cases h
        rfl
    | some dur =>
        rw [hmax] at h
        obtain ⟨t, -, rfl⟩ := Option.map_eq_some_iff.1 h
        rfl

/-- In every jar the keys are distinct; and after a cookie has been inserted for a URL, the jar
holds the cookies with other keys as they were, and that cookie as it is due to the URL.  The lower
case is the one of Unicode. -/
theorem jarAfter_keys (table : UnicodeText.CaseTable) (clockMax : ℕ) (ops : List JarOp) :
    (jarAfter table.lower clockMax ops).KeysDistinct ∧
      ∀ now cookie url jar',
        (jarAfter table.lower clockMax ops).insertForUrl table.lower clockMax now cookie url =
          some jar' →
        ∃ stored, NormalisedFor table.lower url cookie stored ∧
          jar'.cookies =
            (jarAfter table.lower clockMax ops).cookies.filter (fun c => c.key ≠ stored.key)
              ++ [stored] := by
  refine ⟨keysDistinct_jarAfter table.lower clockMax ops, fun now cookie url jar' h => ?_⟩
  obtain ⟨stored, hstored, rfl⟩ := Option.map_eq_some_iff.1 h
  exact ⟨stored, Cookie.normalisedFor_normalize hstored, CookieJar.store_cookies stored⟩

/-! ### Panics -/

/-- The clock can hold the time at which the cookie expires that is stored at this time. -/
def Cookie.Fits (clockMax now : ℕ) (cookie : Cookie) : Prop :=
  ∀ dur ∈ cookie.maxAge, now + dur ≤ clockMax

theorem Cookie.normalize_eq_none_iff {now : ℕ} {cookie : Cookie} :
    cookie.normalize toLowercase clockMax now url = none ↔ ¬ cookie.Fits clockMax now := by
  unfold normalize Fits addDuration
  cases cookie.maxAge with
  | none => simp
  | some dur => simp

/-- A cookie that does not fit panics. -/
theorem CookieJar.insertForUrl_eq_none_iff {now : ℕ} {cookie : Cookie} :
    jar.insertForUrl toLowercase clockMax now cookie url = none ↔ ¬ cookie.Fits clockMax now := by
  rw [insertForUrl, Option.map_eq_none_iff, Cookie.normalize_eq_none_iff]

/-- A series of cookies panics at the first that does not fit. -/
theorem CookieJar.storeAll_panicked_iff :
    (jar.storeAll toLowercase clockMax url clock cookies).panicked = false ↔
      ∀ i (cookie : Cookie), cookies[i]? = some cookie → cookie.Fits clockMax (clock i) := by
  induction cookies generalizing jar clock with
  | nil => simp [storeAll]
  | cons cookie cookies ih =>
      have hfirst := @insertForUrl_eq_none_iff toLowercase clockMax url jar (clock 0) cookie
      rw [storeAll]
      cases hins : jar.insertForUrl toLowercase clockMax (clock 0) cookie url with
      | none =>
          have hunfit : ¬ cookie.Fits clockMax (clock 0) := hfirst.1 hins
          simp only [Bool.true_eq_false, false_iff, not_forall]
          exact ⟨0, cookie, rfl, hunfit⟩
      | some jar' =>
          have hfits : cookie.Fits clockMax (clock 0) := by
            by_contra hunfit
            rw [hfirst.2 hunfit] at hins
            cases hins
          rw [ih]
          constructor
          · intro h i c hc
            cases i with
            | zero =>
                cases hc
                exact hfits
            | succ i => exact h i c hc
          · exact fun h i c hc => h (i + 1) c hc

/-- A jar behind a mutex, as the client keeps it. -/
structure JarMutex where
  jar : CookieJar
  poisoned : Bool := false
deriving DecidableEq

/-- A response with `Set-Cookie` headers: what the clock reads while its cookies are stored, its
headers and the URL of the request. -/
structure SetCookieResponse where
  clock : ℕ → ℕ
  headers : HeaderMap
  url : Uri

/-- The jar is locked and the cookies are stored: a panic poisons the mutex, and a poisoned one is
passed over. -/
def JarMutex.persist (clockMax : ℕ) (mutex : JarMutex) (r : SetCookieResponse) :
    JarMutex × Bool :=
  if mutex.poisoned then (mutex, false)
  else
    let left := mutex.jar.addFromResponse lower clockMax r.clock r.headers r.url
    ({ jar := left.jar, poisoned := left.panicked }, left.panicked)

/-- The mutex after a series of responses, and which of them panicked. -/
def JarMutex.persistAll (clockMax : ℕ) : JarMutex → List SetCookieResponse → JarMutex × List Bool
  | mutex, [] => (mutex, [])
  | mutex, r :: rs =>
      let stored := mutex.persist clockMax r
      let rest := persistAll clockMax stored.1 rs
      (rest.1, stored.2 :: rest.2)

/-- The cookies of a response fit. -/
def SetCookieResponse.Fits (clockMax : ℕ) (r : SetCookieResponse) : Prop :=
  ∀ i (cookie : Cookie), (CookieJar.setCookies r.headers)[i]? = some cookie →
    cookie.Fits clockMax (r.clock i)

theorem JarMutex.persist_fits_iff {mutex : JarMutex} (hfree : mutex.poisoned = false)
    (clockMax : ℕ) (r : SetCookieResponse) :
    (mutex.persist clockMax r).2 = false ↔ r.Fits clockMax := by
  rw [persist, hfree]
  exact CookieJar.storeAll_panicked_iff

theorem JarMutex.persist_poisoned {mutex : JarMutex} (hfree : mutex.poisoned = false)
    (clockMax : ℕ) (r : SetCookieResponse) :
    (mutex.persist clockMax r).1.poisoned = (mutex.persist clockMax r).2 := by
  rw [persist, hfree]
  rfl

/-- Storing the cookies of responses never panics and leaves the mutex as it should be exactly when
the clock can hold the expiry times of all of them. -/
theorem survives_iff (clockMax : ℕ) (jar : CookieJar) (responses : List SetCookieResponse) :
    ((∀ panicked ∈ (JarMutex.persistAll clockMax { jar } responses).2, panicked = false) ∧
        (JarMutex.persistAll clockMax { jar } responses).1.poisoned = false) ↔
      ∀ r ∈ responses, r.Fits clockMax := by
  suffices h : ∀ mutex : JarMutex, mutex.poisoned = false →
      (((∀ panicked ∈ (mutex.persistAll clockMax responses).2, panicked = false) ∧
        (mutex.persistAll clockMax responses).1.poisoned = false) ↔
      ∀ r ∈ responses, r.Fits clockMax) from h { jar } rfl
  induction responses with
  | nil =>
      intro mutex hfree
      simpa [JarMutex.persistAll] using hfree
  | cons r rs ih =>
      intro mutex hfree
      have hfirst := JarMutex.persist_fits_iff hfree clockMax r
      have hpoisoned := JarMutex.persist_poisoned hfree clockMax r
      simp only [JarMutex.persistAll, List.forall_mem_cons, ← hfirst]
      cases hpanicked : (mutex.persist clockMax r).2 with
      | true => simp
      | false =>
          rw [hpanicked] at hpoisoned
          have hrest := ih _ hpoisoned
          simpa [hpanicked] using hrest

/-- A response that wants its cookie kept for `u64::MAX` seconds. -/
def hostileResponse : SetCookieResponse where
  clock := fun _ => 0
  headers := ⟨[("set-cookie".toList,
    ⟨Utf8.encode "a=b; Max-Age=18446744073709551615".toList⟩)]⟩
  url :=
    { scheme := some "https".toList
      path := "/".toList
      path_delimited := root_delimited
      query_delimited := noQuery_delimited }

/-- It panics, and the mutex is poisoned. -/
theorem not_survives_hostileResponse :
    ¬ ∀ (clockMax : ℕ) (jar : CookieJar) (responses : List SetCookieResponse),
      (∀ panicked ∈ (JarMutex.persistAll clockMax { jar } responses).2, panicked = false) ∧
        (JarMutex.persistAll clockMax { jar } responses).1.poisoned = false := by
  intro h
  -- instants end after 63 bits of seconds
  have hkept := (h ((2 ^ 63 - 1) * 10 ^ 9 + 999999999) {} [hostileResponse]).2
  revert hkept
  decide +kernel

end OxiHttp
