/-
**Cookies, and the `Set-Cookie` header.**

Times are numbers of nanoseconds: a duration is one, and a point in time is one since some origin
of the clock.  The texts of cookies come out of header values and their hosts out of URIs; both are
ASCII, and there `to_lowercase` is `to_ascii_lowercase`.

Main definitions:

* `OxiHttp.Cookie`, `OxiHttp.SameSite` — the data;
* `OxiHttp.parseSetCookie` — `Cookie::parse_set_cookie`;
* `OxiHttp.Cookie.display` — the `Display` of a cookie.
-/

import OxiHttp.Text

set_option relaxedAutoImplicit false
set_option autoImplicit false

namespace OxiHttp

/-- `Duration::from_secs`, in nanoseconds. -/
def fromSecs (secs : ℕ) : ℕ := secs * 10 ^ 9

/-- The SameSite cookie attribute. -/
inductive SameSite where
  | strict
  | lax
  | none
deriving DecidableEq, Repr

/-- A single HTTP cookie. -/
structure Cookie where
  name : Str
  value : Str
  domain : Option Str := none
  path : Option Str := none
  maxAge : Option ℕ := none
  secure : Bool := false
  httpOnly : Bool := false
  sameSite : Option SameSite := none
  expiresAt : Option ℕ := none
deriving DecidableEq, Repr

/-! ### Parsing -/

/-- The values of the `SameSite` attribute. -/
def parseSameSite (val : Str) : Option SameSite :=
  if lower val = "strict".toList then some .strict
  else if lower val = "lax".toList then some .lax
  else if lower val = "none".toList then some .none
  else none

/-- The attributes that have a value, by their name in lower case. -/
def Cookie.withAttribute (cookie : Cookie) (key val : Str) : Cookie :=
  if key = "domain".toList then { cookie with domain := some val }
  else if key = "path".toList then { cookie with path := some val }
  else if key = "max-age".toList then { cookie with maxAge := (parseU64 val).map fromSecs }
  else if key = "samesite".toList then { cookie with sameSite := parseSameSite val }
  else cookie

/-- The attributes that have none. -/
def Cookie.withFlag (cookie : Cookie) (key : Str) : Cookie :=
  if key = "secure".toList then { cookie with secure := true }
  else if key = "httponly".toList then { cookie with httpOnly := true }
  else cookie

/-- The loop body of `parse_set_cookie`. -/
def Cookie.withPart (cookie : Cookie) (part : Str) : Cookie :=
  let attr := trim part
  if attr.isEmpty then cookie
  else
    match splitOnce '=' attr with
    | some (key, val) => cookie.withAttribute (lower (trim key)) (trim val)
    | none => cookie.withFlag (lower attr)

/-- `Cookie::parse_set_cookie`. -/
def parseSetCookie (header : Str) : Option Cookie :=
  match header.splitOn ';' with
  | [] => none
  | first :: parts =>
      (splitOnce '=' (trim first)).bind fun (name, value) =>
        if (trim name).isEmpty then none
        else some (parts.foldl Cookie.withPart { name := trim name, value := trim value })

/-! ### Printing -/

/-- `Cookie::to_cookie_header`. -/
def Cookie.toCookieHeader (cookie : Cookie) : Str := cookie.name ++ '=' :: cookie.value

/-- The name of a `SameSite` value. -/
def SameSite.display : SameSite → Str
  | .strict => "Strict".toList
  | .lax => "Lax".toList
  | .none => "None".toList

/-- `impl Display for Cookie`. -/
def Cookie.display (cookie : Cookie) : Str :=
  cookie.name ++ '=' :: cookie.value
    ++ (cookie.domain.elim [] fun d => "; Domain=".toList ++ d)
    ++ (cookie.path.elim [] fun p => "; Path=".toList ++ p)
    ++ (cookie.maxAge.elim [] fun n => "; Max-Age=".toList ++ Nat.toDigits 10 (n / 10 ^ 9))
    ++ (if cookie.secure then "; Secure".toList else [])
    ++ (if cookie.httpOnly then "; HttpOnly".toList else [])
    ++ (cookie.sameSite.elim [] fun s => "; SameSite=".toList ++ s.display)

example : (parseSetCookie "id=a3 ; Domain=.x.org; Max-Age=60; secure; SameSite=lax".toList)
    = some { name := "id".toList, value := "a3".toList, domain := some ".x.org".toList,
             maxAge := some (fromSecs 60), secure := true, sameSite := some .lax } := by
  decide +kernel

end OxiHttp
