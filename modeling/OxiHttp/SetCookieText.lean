/-
**`Set-Cookie` headers, printed and parsed.**

A cookie is printed as its name and value and the attributes it has, behind semicolons, and
`parse_set_cookie` cuts at the semicolons again.  Attributes are found by their names, so it does
not matter which of them are there; what a value may not have in it is a semicolon, or white space
at its ends.

Main definitions:

* `OxiHttp.Cookie.attrParts` — the attributes a cookie is printed with;
* `OxiHttp.Cookie.Printable` — a cookie that can be read back.

Main results:

* `OxiHttp.Cookie.display_eq` — what is printed, as pieces between semicolons;
* `OxiHttp.Cookie.withPart_attribute`, `OxiHttp.Cookie.withPart_flag` — what one piece does.
-/

import OxiHttp.Cookie
import OxiHttp.TextParse

set_option relaxedAutoImplicit false
set_option autoImplicit false

namespace OxiHttp

/-! ### Trimming -/

/-- White space in front is trimmed. -/
theorem trim_cons {c : Char} (hc : isWhitespace c = true) (s : Str) : trim (c :: s) = trim s := by
  rw [trim, List.dropWhile_cons_of_pos hc, trim]

theorem trim_append {a b : Str} (ha : trim a = a) (hb : trim b = b) : trim (a ++ b) = a ++ b := by
  by_cases hanil : a = []
  · rw [hanil, List.nil_append, hb]
  by_cases hbnil : b = []
  · rw [hbnil, List.append_nil, ha]
  refine trim_eq_self (fun c hc => ?_) fun c hc => ?_
  · rw [List.head?_append_of_ne_nil _ hanil] at hc
    exact (FieldList.trim_eq_self_iff.1 ha).1 c hc
  · rw [List.getLast?_append_of_ne_nil _ hbnil] at hc
    exact (FieldList.trim_eq_self_iff.1 hb).2 c hc

theorem trim_of_isNumeral {s : Str} (h : Decimal.IsNumeral s) : trim s = s := by
  have hdigit : ∀ c ∈ s, isWhitespace c = false := by
    intro c hc
    have := h.2 c hc
    simp only [Char.isDigit, isWhitespace, Bool.and_eq_true, decide_eq_true_eq, ge_iff_le,
      UInt32.le_iff_toNat_le, Char.toNat] at this ⊢
    grind
  exact trim_eq_self (fun c hc => hdigit c (List.mem_of_head? hc)) fun c hc =>
    hdigit c (List.mem_of_getLast? hc)

/-- A name and a value are trimmed together. -/
theorem trim_pair {a b : Str} (ha : trim a = a) (hb : trim b = b) :
    trim (a ++ '=' :: b) = a ++ '=' :: b :=
  trim_append ha (trim_append (a := ['=']) (by decide) hb)

/-! ### One piece -/

namespace Cookie

/-- A piece with an attribute. -/
theorem withPart_attribute (cookie : Cookie) (key : Str) {val : Str} (hkey : trim key = key)
    (heq : '=' ∉ key) (hval : trim val = val) :
    cookie.withPart (' ' :: (key ++ '=' :: val)) = cookie.withAttribute (lower key) val := by
  have htrim : trim (' ' :: (key ++ '=' :: val)) = key ++ '=' :: val := by
    rw [trim_cons (by decide), trim_pair hkey hval]
  have hne : (key ++ '=' :: val).isEmpty = false := by simp
  simp only [withPart, htrim, hne, splitOnce_append heq, hkey, hval, Bool.false_eq_true, if_false]

/-- A piece with a flag. -/
theorem withPart_flag (cookie : Cookie) (key : Str) (hkey : trim key = key) (heq : '=' ∉ key)
    (hne : key ≠ []) : cookie.withPart (' ' :: key) = cookie.withFlag (lower key) := by
  have hempty : key.isEmpty = false := by simpa using hne
  simp only [withPart, trim_cons (show isWhitespace ' ' = true by decide), hkey, hempty,
    splitOnce_eq_none heq, Bool.false_eq_true, if_false]

/-! ### The pieces of a cookie -/

/-- The attributes a cookie is printed with. -/
def attrParts (c : Cookie) : List Str :=
  c.domain.toList.map (fun d => " Domain=".toList ++ d)
    ++ c.path.toList.map (fun p => " Path=".toList ++ p)
    ++ c.maxAge.toList.map (fun n => " Max-Age=".toList ++ Nat.toDigits 10 (n / 10 ^ 9))
    ++ (if c.secure then [" Secure".toList] else [])
    ++ (if c.httpOnly then [" HttpOnly".toList] else [])
    ++ c.sameSite.toList.map (fun s => " SameSite=".toList ++ s.display)

theorem intercalate_eq_flatMap (sep : Str) (piece : Str) (pieces : List Str) :
    sep.intercalate (piece :: pieces) = piece ++ pieces.flatMap fun p => sep ++ p := by
  induction pieces generalizing piece with
  | nil => simp
  | cons p pieces ih => simp [ih]

/-- What is printed, as pieces between semicolons. -/
theorem display_eq (c : Cookie) :
    c.display = [';'].intercalate ((c.name ++ '=' :: c.value) :: c.attrParts) := by
  have hoption : ∀ {α : Type} (o : Option α) (text : α → Str) (key : Str),
      o.elim [] (fun x => ';' :: (key ++ text x))
        = (o.toList.map fun x => key ++ text x).flatMap fun p => [';'] ++ p := by
    intro α o text key
    cases o <;> simp
  have hflag : ∀ (b : Bool) (key : Str),
      (if b then ';' :: key else []) = (if b then [key] else []).flatMap fun p => [';'] ++ p := by
    intro b key
    cases b <;> simp
  simp only [display, attrParts, intercalate_eq_flatMap, List.flatMap_append, ← hoption, ← hflag,
    List.append_assoc]
  rfl

/-- A cookie that can be read back from what is printed: its texts have no semicolon and no white
space at their ends, its name is one and has no `=`, and its `Max-Age` is a number of seconds. -/
structure Printable (c : Cookie) : Prop where
  name_ne_nil : c.name ≠ []
  name_eq : '=' ∉ c.name
  name : ';' ∉ c.name ∧ trim c.name = c.name
  value : ';' ∉ c.value ∧ trim c.value = c.value
  domain : ∀ d ∈ c.domain, ';' ∉ d ∧ trim d = d
  path : ∀ p ∈ c.path, ';' ∉ p ∧ trim p = p
  -- a `Duration` has 64 bits of seconds
  maxAge : ∀ n ∈ c.maxAge, ∃ secs < 2 ^ 64, n = fromSecs secs

/-- The pieces of such a cookie have no semicolon. -/
theorem Printable.semicolon_notMem {c : Cookie} (h : c.Printable) :
    ∀ p ∈ (c.name ++ '=' :: c.value) :: c.attrParts, ';' ∉ p := by
  have happend : ∀ {a b : Str}, ';' ∉ a → ';' ∉ b → ';' ∉ a ++ b := fun ha hb hmem =>
    (List.mem_append.1 hmem).elim ha hb
  intro p hp
  rcases List.mem_cons.1 hp with rfl | hp
  · exact happend h.name.1 (happend (a := ['=']) (by decide) h.value.1)
  simp only [attrParts, List.mem_append, List.mem_map, Option.mem_toList, or_assoc] at hp
  rcases hp with ⟨d, hd, rfl⟩ | ⟨path, hpath, rfl⟩ | ⟨n, -, rfl⟩ | hp | hp | ⟨s, -, rfl⟩
  · exact happend (by decide) (h.domain d hd).1
  · exact happend (by decide) (h.path path hpath).1
  · exact happend (by decide) ((Decimal.isNumeral_toDigits _).notMem (by decide))
  · split at hp
    · rw [List.mem_singleton.1 hp]
      decide
    · cases hp
  · split at hp
    · rw [List.mem_singleton.1 hp]
      decide
    · cases hp
  · cases s <;> decide

/-- The piece of an attribute sets the field that it was printed from. -/
theorem foldl_attribute {α : Type} {o : Option α} {text : α → Str} {k k' : Cookie}
    (hnone : o = none → k = k') (hsome : ∀ x ∈ o, k.withPart (text x) = k') :
    (o.toList.map text).foldl withPart k = k' := by
  cases o with
  | none => exact hnone rfl
  | some x => exact hsome x rfl

theorem foldl_flag {b : Bool} {text : Str} {k k' : Cookie} (hfalse : b = false → k = k')
    (htrue : b = true → k.withPart text = k') :
    (if b then [text] else []).foldl withPart k = k' := by
  cases b with
  | false => exact hfalse rfl
  | true => exact htrue rfl

/-- The pieces set the fields one after the other. -/
theorem Printable.foldl_attrParts {c : Cookie} (h : c.Printable) :
    c.attrParts.foldl withPart { name := c.name, value := c.value }
      = { c with expiresAt := none } := by
  obtain ⟨name, value, domain, path, maxAge, secure, httpOnly, sameSite, expiresAt⟩ := c
  let k : Cookie := { name, value }
  have hdomain : (domain.toList.map fun d => " Domain=".toList ++ d).foldl withPart k
      = { k with domain } :=
    foldl_attribute (by rintro rfl; rfl) fun d hd => by
      rw [hd]
      exact k.withPart_attribute "Domain".toList (by decide) (by decide) (h.domain d hd).2
  have hpath : (path.toList.map fun p => " Path=".toList ++ p).foldl withPart { k with domain }
      = { k with domain, path } :=
    foldl_attribute (by rintro rfl; rfl) fun p hp => by
      rw [hp]
      exact withPart_attribute _ "Path".toList (by decide) (by decide) (h.path p hp).2
  have hmaxAge : (maxAge.toList.map fun n => " Max-Age=".toList
      ++ Nat.toDigits 10 (n / 10 ^ 9)).foldl withPart { k with domain, path }
      = { k with domain, path, maxAge } :=
    foldl_attribute (by rintro rfl; rfl) fun n hn => by
      obtain ⟨secs, hlt, rfl⟩ := h.maxAge n hn
      have hnum := Decimal.isNumeral_toDigits secs
      have hdiv : fromSecs secs / 10 ^ 9 = secs := Nat.mul_div_cancel _ (by decide)
      have hread : parseU64 (Nat.toDigits 10 secs) = some secs := by
        rw [parseU64_of_isNumeral hnum, Decimal.value_toDigits, if_pos hlt]
      rw [hn, hdiv]
      refine (withPart_attribute _ "Max-Age".toList (by decide) (by decide)
        (trim_of_isNumeral hnum)).trans ?_
      change { k with domain, path, maxAge := (parseU64 (Nat.toDigits 10 secs)).map fromSecs } = _
      rw [hread]
      rfl
  have hsecure : (if secure then [" Secure".toList] else []).foldl withPart
      { k with domain, path, maxAge } = { k with domain, path, maxAge, secure } :=
    foldl_flag (by rintro rfl; rfl) fun hs => by
      rw [hs]
      exact withPart_flag _ "Secure".toList (by decide) (by decide) (by decide)
  have hhttpOnly : (if httpOnly then [" HttpOnly".toList] else []).foldl withPart
      { k with domain, path, maxAge, secure } = { k with domain, path, maxAge, secure, httpOnly } :=
    foldl_flag (by rintro rfl; rfl) fun hs => by
      rw [hs]
      exact withPart_flag _ "HttpOnly".toList (by decide) (by decide) (by decide)
  have hsameSite : (sameSite.toList.map fun s => " SameSite=".toList ++ s.display).foldl withPart
      { k with domain, path, maxAge, secure, httpOnly }
      = { k with domain, path, maxAge, secure, httpOnly, sameSite } :=
    foldl_attribute (by rintro rfl; rfl) fun s hs => by
      rw [hs]
      refine (withPart_attribute _ "SameSite".toList (by decide) (by decide)
        (by cases s <;> decide)).trans ?_
      cases s <;> rfl
  simp only [attrParts, List.foldl_append]
  rw [hdomain, hpath, hmaxAge, hsecure, hhttpOnly, hsameSite]

/-- **A cookie is read back from what is printed**, without the time it expires at. -/
theorem parseSetCookie_display (c : Cookie) (h : c.Printable) :
    parseSetCookie c.display = some { c with expiresAt := none } := by
  have hsplit : c.display.splitOn ';' = (c.name ++ '=' :: c.value) :: c.attrParts := by
    rw [display_eq]
    exact List.splitOn_intercalate ';' h.semicolon_notMem (List.cons_ne_nil _ _)
  have hfirst := trim_pair h.name.2 h.value.2
  have hname : c.name.isEmpty = false := by simpa using h.name_ne_nil
  simp only [parseSetCookie, hsplit, hfirst, splitOnce_append h.name_eq, Option.bind_some,
    h.name.2, h.value.2, hname, Bool.false_eq_true, if_false, h.foldl_attrParts]

/-- A cookie with a name that looks like an attribute, and values that do. -/
def trickyCookie : Cookie where
  name := "Secure".toList
  value := "a=b Path=/".toList
  domain := some "x = y".toList
  path := some []
  maxAge := some (fromSecs 60)
  httpOnly := true
  sameSite := some .lax

theorem printable_trickyCookie : trickyCookie.Printable where
  name_ne_nil := by decide
  name_eq := by decide
  name := by decide
  value := by decide
  domain := by
    intro d hd
    cases hd
    decide
  path := by
    intro p hp
    cases hp
    decide
  maxAge := by
    intro n hn
    cases hn
    exact ⟨60, by decide, rfl⟩

theorem parseSetCookie_display_tricky :
    parseSetCookie trickyCookie.display = some trickyCookie :=
  parseSetCookie_display trickyCookie printable_trickyCookie

end Cookie

end OxiHttp
