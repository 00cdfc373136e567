/-
**Redirects.**

The functions of the client that decide what becomes of a request when its response is a redirect:
whether it is followed, with which method and body, to which URI, and whether the credentials go
along.  The text of a URI is read by the `http` crate; its `Uri::from_str` is a parameter.

Main definitions:

* `OxiHttp.RedirectPolicy`, `OxiHttp.isRedirectStatus`, `OxiHttp.redirectMethod`,
  `OxiHttp.shouldPreserveBody` — the functions of `redirect.rs`;
* `OxiHttp.resolveRedirectUri`, `OxiHttp.sameOrigin` — the two functions on URIs.

Main results:

* `OxiHttp.sameOrigin_iff` — the origin the client compares: scheme and host, ignoring case.
-/

import OxiHttp.Error
import OxiHttp.Http

set_option relaxedAutoImplicit false
set_option autoImplicit false

namespace OxiHttp

/-- Policy controlling how the client handles redirects. -/
inductive RedirectPolicy where
  | none
  | limited (n : ℕ)
  | all
deriving DecidableEq, Repr

/-- `RedirectPolicy::max_redirects`; `none` is unlimited. -/
def RedirectPolicy.maxRedirects : RedirectPolicy → Option ℕ
  | .none => some 0
  | .limited n => some n
  | .all => Option.none

/-- The default policy. -/
def RedirectPolicy.default : RedirectPolicy := .limited 10

/-- `is_redirect_status`. -/
def isRedirectStatus (status : ℕ) : Bool :=
  status == 301 || status == 302 || status == 303 || status == 307 || status == 308

/-- `redirect_method`. -/
def redirectMethod (status : ℕ) (original : Method) : Method :=
  if 301 ≤ status && status ≤ 303 then if original = .head then .head else .get else original

/-- `should_preserve_body`. -/
def shouldPreserveBody (status : ℕ) : Bool := status == 307 || status == 308

/-- The text `{scheme}://{authority}{location}` that a relative location is read from. -/
def joinBase (base : Uri) (location : Str) : Str :=
  base.scheme.getD "http".toList ++ ':' :: '/' :: '/' ::
    ((base.authority.map Authority.text).getD "localhost".toList ++ location)

/-- `resolve_redirect_uri`. -/
def resolveRedirectUri (fromStr : Str → Except String Uri) (base : Uri) (location : Str) :
    Except OxiHttpError Uri :=
  let relative : Except OxiHttpError Uri :=
    match fromStr (joinBase base location) with
    | .ok uri => .ok uri
    | .error e => .error (.invalidUri e)
  match fromStr location with
  | .ok uri => if uri.scheme.isSome then .ok uri else relative
  | .error _ => relative

/-- `same_origin`. -/
def sameOrigin (a b : Uri) : Bool :=
  if !eqIgnoreAsciiCase (a.scheme.getD "http".toList) (b.scheme.getD "http".toList) then false
  else
    match a.host, b.host with
    | some x, some y => eqIgnoreAsciiCase x y
    | none, none => true
    | _, _ => false

/-- Two URIs have one scheme, `http` where there is none, and one host, ignoring ASCII case. -/
def SameOrigin (a b : Uri) : Prop :=
  lower (a.scheme.getD "http".toList) = lower (b.scheme.getD "http".toList) ∧
    a.host.map lower = b.host.map lower

instance (a b : Uri) : Decidable (SameOrigin a b) := inferInstanceAs (Decidable (_ ∧ _))

theorem sameOrigin_iff {a b : Uri} : sameOrigin a b = true ↔ SameOrigin a b := by
  unfold sameOrigin SameOrigin
  generalize a.scheme.getD "http".toList = x
  generalize b.scheme.getD "http".toList = y
  by_cases h : lower x = lower y
  · rw [if_neg (by simp [eqIgnoreAsciiCase, h])]
    cases a.host <;> cases b.host <;> simp [eqIgnoreAsciiCase, h]
  · rw [if_pos (by simp [eqIgnoreAsciiCase, h])]
    simp [h]

end OxiHttp
