/-
**Proxy URIs.**

What the proxy connectors of `proxy.rs` read off a URI: the host and the port to connect to, and
the credentials of its userinfo.
-/

import OxiHttp.Error
import OxiHttp.Http

set_option relaxedAutoImplicit false
set_option autoImplicit false

namespace OxiHttp

/-- The text of a URI, as `Display` prints it. -/
def Uri.display (uri : Uri) : Str :=
  (match uri.scheme with
    | some scheme => scheme ++ "://".toList
    | none => []) ++
  (match uri.authority with
    | some authority => authority.text
    | none => []) ++ uri.path ++
  (match uri.query with
    | some query => '?' :: query
    | none => [])

/-- `uri_host_port`. -/
def uriHostPort (uri : Uri) : Except OxiHttpError (Str × UInt16) :=
  match uri.host with
  | none => .error (.connectionPool ("URI has no host: " ++ String.ofList uri.display))
  | some host =>
    match uri.port with
    | some p => .ok (host, UInt16.ofNat p)
    | none =>
      if uri.scheme = some "https".toList then .ok (host, 443)
      else if uri.scheme = some "http".toList then .ok (host, 80)
      else .error (.connectionPool ("URI has no port and unknown scheme: " ++
        String.ofList uri.display))

/-- `extract_auth`: user and password, when the authority has an `@`, a colon before it and a user
that is not empty. -/
def extractAuth (uri : Uri) : Option (Str × Str) := do
  let authority ← uri.authority
  let userinfo := authority.text.takeWhile (· ≠ '@')
  if '@' ∉ authority.text then none
  else
    let (user, pass) ← splitOnce ':' userinfo
    if user.isEmpty then none else some (user, pass)

/-- A host with a colon is an IP literal in brackets. -/
theorem uriHostPort_host {uri : Uri} {host : Str} {port : UInt16}
    (h : uriHostPort uri = .ok (host, port)) (hcolon : ':' ∈ host) : host.head? = some '[' := by
  have hhost : uri.host = some host := by
    unfold uriHostPort at h
    split at h
    case h_1 => cases h
    case h_2 host' hhost =>
        rw [hhost]
        split at h
        · cases h
          rfl
        · split at h
          · cases h
            rfl
          · split at h <;> cases h
            rfl
  obtain ⟨authority, -, rfl⟩ := Option.map_eq_some_iff.1 hhost
  exact authority.host_delimited hcolon

end OxiHttp
