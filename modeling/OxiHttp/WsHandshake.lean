/-
**The WebSocket handshake.**

`upgrade` checks three header fields of the request and answers 101 with a value computed from the
client's key: the SHA-1 of the key followed by a fixed text, in Base64.  RFC 6455 §4.2.2 prescribes
that text, and the client checks the value, so that everything hangs on its being the right one.

Main definitions:

* `OxiHttp.validateUpgradeRequest`, `OxiHttp.computeAcceptKey`, `OxiHttp.upgrade` — the code;
* `OxiHttp.rfcAcceptKey` — the value RFC 6455 prescribes for a key;
* `OxiHttp.AsksForUpgrade`, `OxiHttp.HandshakeSound` — when the handshake is to succeed, and how.

Main results:

* `OxiHttp.upgrade_ok_iff` — which requests are accepted, and with what response;
* `OxiHttp.handshakeSound_iff` — for which requests the handshake is as RFC 6455 wants it.
-/

import OxiHttp.Base64
import OxiHttp.Error
import OxiHttp.Http
import OxiHttp.Sha1

set_option relaxedAutoImplicit false
set_option autoImplicit false

namespace OxiHttp

/-- `WS_MAGIC`. -/
def wsMagic : Str := "258EAFA5-E914-47DA-95CA-5AF986DFEC23".toList

/-! ### The code -/

/-- `validate_upgrade_request`: the key of the client. -/
def validateUpgradeRequest (headers : HeaderMap) : Except OxiHttpError Str := do
  match headerText headers "upgrade" with
  | none => .error (.body "WebSocket: missing Upgrade header")
  | some upgrade =>
    if !eqIgnoreAsciiCase upgrade "websocket".toList then
      .error (.body ("WebSocket: Upgrade header is '" ++ String.ofList upgrade ++
        "', expected 'websocket'"))
    else match headerText headers "sec-websocket-version" with
    | none => .error (.body "WebSocket: missing Sec-WebSocket-Version header")
    | some version =>
      if version ≠ "13".toList then
        .error (.body ("WebSocket: unsupported version '" ++ String.ofList version ++
          "', only version 13 is supported"))
      else match headerText headers "sec-websocket-key" with
      | none => .error (.body "WebSocket: missing Sec-WebSocket-Key header")
      -- the key may be empty
      | some key => .ok key

/-- `compute_accept_key`. -/
def computeAcceptKey (key : Str) : Str :=
  Base64.encode (Sha1.digest (Utf8.encode key ++ Utf8.encode wsMagic))

/-- The response to an upgrade request.  Its body is empty. -/
structure UpgradeResponse where
  status : ℕ
  headers : HeaderMap
deriving DecidableEq

/-- `upgrade`: the response for a request with these headers. -/
def upgrade (headers : HeaderMap) : Except OxiHttpError UpgradeResponse := do
  let key ← validateUpgradeRequest headers
  let upgrade ← headerValue "websocket".toList
  let connection ← headerValue "Upgrade".toList
  let accept ← headerValue (computeAcceptKey key)
  return {
    status := 101
    headers := ((({} : HeaderMap).append "upgrade".toList upgrade).append
      "connection".toList connection).append "sec-websocket-accept".toList accept }

/-! ### Which requests are accepted -/

/-- The checks on `Upgrade` and `Sec-WebSocket-Version` pass. -/
def PassesChecks (headers : HeaderMap) : Prop :=
  (∃ u, headerText headers "upgrade" = some u ∧ eqIgnoreAsciiCase u "websocket".toList = true) ∧
    headerText headers "sec-websocket-version" = some "13".toList

theorem validateUpgradeRequest_ok_iff {headers : HeaderMap} {key : Str} :
    validateUpgradeRequest headers = .ok key ↔
      PassesChecks headers ∧ headerText headers "sec-websocket-key" = some key := by
  unfold validateUpgradeRequest PassesChecks
  -- only which of the fields are there, and equal to what, matters
  generalize headerText headers "upgrade" = u
  generalize headerText headers "sec-websocket-version" = version
  generalize headerText headers "sec-websocket-key" = key'
  generalize "websocket".toList = name
  generalize "13".toList = thirteen
  cases u with
  | none => simp
  | some u =>
      cases hw : eqIgnoreAsciiCase u name with
      | false => simp [hw]
      | true =>
          cases version with
          | none => simp [hw]
          | some version =>
              by_cases h13 : version = thirteen
              · cases key' <;> simp [hw, h13]
              · simp [hw, h13]

/-- The text of an encoding is visible. -/
theorem isVisible_encode (bs : List UInt8) : HeaderValue.IsVisible (Base64.encode bs) :=
  fun _ hc => Base64.printing_of_mem_encode hc

/-- The response to an accepted request with this key. -/
def switchingProtocols (key : Str) : UpgradeResponse where
  status := 101
  headers := ⟨[("upgrade".toList, ⟨Utf8.encode "websocket".toList⟩),
    ("connection".toList, ⟨Utf8.encode "Upgrade".toList⟩),
    ("sec-websocket-accept".toList, ⟨Utf8.encode (computeAcceptKey key)⟩)]⟩

/-- Which requests are accepted, and with what response. -/
theorem upgrade_ok_iff {headers : HeaderMap} {r : UpgradeResponse} :
    upgrade headers = .ok r ↔
      ∃ key, validateUpgradeRequest headers = .ok key ∧ r = switchingProtocols key := by
  have haccept (key : Str) : headerValue (computeAcceptKey key)
      = .ok ⟨Utf8.encode (computeAcceptKey key)⟩ := by
    rw [headerValue, computeAcceptKey, HeaderValue.fromStr_of_isVisible (isVisible_encode _)]
  have hupgrade : headerValue "websocket".toList = .ok ⟨Utf8.encode "websocket".toList⟩ := by
    rw [headerValue, HeaderValue.fromStr_of_isVisible (by decide)]
  have hconnection : headerValue "Upgrade".toList = .ok ⟨Utf8.encode "Upgrade".toList⟩ := by
    rw [headerValue, HeaderValue.fromStr_of_isVisible (by decide)]
  unfold upgrade
  cases hv : validateUpgradeRequest headers with
  | error e => simp [bind, Except.bind]
  | ok key =>
      rw [hupgrade, hconnection]
      simp only [bind, Except.bind, haccept]
      constructor
      · intro h
        cases h
        exact ⟨key, rfl, rfl⟩
      · rintro ⟨key', hkey, rfl⟩
        cases hkey
        rfl

/-! ### What RFC 6455 wants -/

/-- The text of RFC 6455 §1.3. -/
def rfcGuid : Str := "258EAFA5-E914-47DA-95CA-C5AB0DC85B11".toList

/-- The value of `Sec-WebSocket-Accept` for a key (RFC 6455 §4.2.2). -/
def rfcAcceptKey (key : List UInt8) : Str :=
  Base64.encode (Sha1.digest (key ++ Utf8.encode rfcGuid))

example : rfcAcceptKey (Utf8.encode "dGhlIHNhbXBsZSBub25jZQ==".toList)
    = "s3pPLMBiTxaQ9kYGzzhZRbK+xOo=".toList := by decide +kernel

/-- The request asks for a WebSocket and has a key that is not empty. -/
def AsksForUpgrade (headers : HeaderMap) : Prop :=
  PassesChecks headers ∧ ∃ v, headers.get "sec-websocket-key".toList = some v ∧ v.bytes ≠ []

/-- The request is accepted when it asks for a WebSocket, and then the response is the one that
RFC 6455 prescribes for its key. -/
def HandshakeSound (headers : HeaderMap) : Prop :=
  ((∃ r, upgrade headers = .ok r) ↔ AsksForUpgrade headers) ∧
    ∀ r, upgrade headers = .ok r → r.status = 101 ∧
      ∃ v, headers.get "sec-websocket-key".toList = some v ∧
        r.headers.getAll "sec-websocket-accept".toList = [⟨Utf8.encode (rfcAcceptKey v.bytes)⟩]

theorem getAll_switchingProtocols (key : Str) :
    (switchingProtocols key).headers.getAll "sec-websocket-accept".toList
      = [⟨Utf8.encode (computeAcceptKey key)⟩] := by
  simp [switchingProtocols, HeaderMap.getAll]

/-- The response to a request with a key is the prescribed one exactly when the key has the same
hash with the code's text as with that of RFC 6455. -/
theorem encode_computeAcceptKey_iff {v : HeaderValue} {key : Str} (h : v.toStr = some key) :
    Utf8.encode (computeAcceptKey key) = Utf8.encode (rfcAcceptKey v.bytes) ↔
      Sha1.digest (Utf8.encode key ++ Utf8.encode wsMagic)
        = Sha1.digest (Utf8.encode key ++ Utf8.encode rfcGuid) := by
  rw [Utf8.encode_injective.eq_iff, computeAcceptKey, rfcAcceptKey,
    Base64.encode_injective.eq_iff, HeaderValue.encode_of_toStr h]

/-- A request whose key is text is accepted, also with an empty key. -/
theorem upgrade_of_text {headers : HeaderMap} {key : Str} (hchecks : PassesChecks headers)
    (hkey : headerText headers "sec-websocket-key" = some key) :
    upgrade headers = .ok (switchingProtocols key) :=
  upgrade_ok_iff.2 ⟨key, validateUpgradeRequest_ok_iff.2 ⟨hchecks, hkey⟩, rfl⟩

theorem handshakeSound_of_text {headers : HeaderMap} {v : HeaderValue} {key : Str}
    (hchecks : PassesChecks headers) (hget : headers.get "sec-websocket-key".toList = some v)
    (htext : v.toStr = some key) :
    HandshakeSound headers ↔ key ≠ [] ∧
      Sha1.digest (Utf8.encode key ++ Utf8.encode wsMagic)
        = Sha1.digest (Utf8.encode key ++ Utf8.encode rfcGuid) := by
  have hkey : headerText headers "sec-websocket-key" = some key := by
    rw [headerText, hget]
    exact htext
  have hempty : v.bytes = [] ↔ key = [] := by
    rw [← HeaderValue.encode_of_toStr htext]
    exact ⟨fun h => Utf8.encode_injective h, fun h => h ▸ rfl⟩
  have hup := upgrade_of_text hchecks hkey
  rw [← encode_computeAcceptKey_iff htext]
  constructor
  · rintro ⟨hiff, hall⟩
    obtain ⟨-, v', hv', hne⟩ := hiff.1 ⟨_, hup⟩
    obtain rfl : v = v' := Option.some_inj.1 (hget.symm.trans hv')
    obtain ⟨-, v', hv', haccept⟩ := hall _ hup
    obtain rfl : v = v' := Option.some_inj.1 (hget.symm.trans hv')
    rw [getAll_switchingProtocols] at haccept
    exact ⟨fun h => hne (hempty.2 h), by simpa using haccept⟩
  · rintro ⟨hne, haccept⟩
    refine ⟨⟨fun _ => ⟨hchecks, v, hget, fun h => hne (hempty.1 h)⟩, fun _ => ⟨_, hup⟩⟩, ?_⟩
    intro r hr
    rw [hup] at hr
    cases hr
    exact ⟨rfl, v, hget, by rw [getAll_switchingProtocols, haccept]⟩

/-- Where the request is refused, it is enough that it does not ask for a WebSocket. -/
theorem handshakeSound_of_refused {headers : HeaderMap} (h : ∀ r, upgrade headers ≠ .ok r) :
    HandshakeSound headers ↔ ¬ AsksForUpgrade headers := by
  constructor
  · rintro ⟨hiff, -⟩ hasks
    obtain ⟨r, hr⟩ := hiff.2 hasks
    exact h r hr
  · intro hasks
    exact ⟨⟨fun ⟨r, hr⟩ => absurd hr (h r), fun h => absurd h hasks⟩,
      fun r hr => absurd hr (h r)⟩

/-- The handshake is as it should be on the requests that fail the checks or have no key, and on
those whose key is text, is not empty and happens to have the same hash with the text of the code
as with the text of RFC 6455. -/
theorem handshakeSound_iff (headers : HeaderMap) :
    HandshakeSound headers ↔
      ¬ PassesChecks headers ∨ headers.get "sec-websocket-key".toList = none ∨
        ∃ key, headerText headers "sec-websocket-key" = some key ∧ key ≠ [] ∧
          Sha1.digest (Utf8.encode key ++ Utf8.encode wsMagic)
            = Sha1.digest (Utf8.encode key ++ Utf8.encode rfcGuid) := by
  have hdef : headerText headers "sec-websocket-key"
      = (headers.get "sec-websocket-key".toList).bind HeaderValue.toStr := rfl
  by_cases hchecks : PassesChecks headers
  · cases hget : headers.get "sec-websocket-key".toList with
    | none =>
        have hrefused : ∀ r, upgrade headers ≠ .ok r := by
          intro r hr
          obtain ⟨key, hkey, -⟩ := upgrade_ok_iff.1 hr
          rw [validateUpgradeRequest_ok_iff, hdef, hget] at hkey
          cases hkey.2
        rw [handshakeSound_of_refused hrefused]
        exact ⟨fun _ => .inr (.inl rfl), fun _ hasks => by
          obtain ⟨-, v, hv, -⟩ := hasks
          cases hget.symm.trans hv⟩
    | some v =>
        rw [hdef, hget, Option.bind_some]
        cases htext : v.toStr with
        | none =>
            -- a key that is not text is refused, and it is not empty
            have hne : v.bytes ≠ [] := by
              intro hnil
              rw [HeaderValue.toStr, hnil] at htext
              cases htext
            have hrefused : ∀ r, upgrade headers ≠ .ok r := by
              intro r hr
              obtain ⟨key, hkey, -⟩ := upgrade_ok_iff.1 hr
              rw [validateUpgradeRequest_ok_iff, hdef, hget, Option.bind_some, htext] at hkey
              cases hkey.2
            rw [handshakeSound_of_refused hrefused]
            have hasks : AsksForUpgrade headers := ⟨hchecks, v, hget, hne⟩
            simp [hchecks, hasks]
        | some key =>
            rw [handshakeSound_of_text hchecks hget htext]
            simp [hchecks]
  · have hrefused : ∀ r, upgrade headers ≠ .ok r := by
      intro r hr
      obtain ⟨key, hkey, -⟩ := upgrade_ok_iff.1 hr
      exact hchecks (validateUpgradeRequest_ok_iff.1 hkey).1
    rw [handshakeSound_of_refused hrefused]
    exact ⟨fun _ => .inl hchecks, fun _ hasks => hchecks hasks.1⟩

/-- The sample request of RFC 6455 §1.2. -/
def sampleRequest : HeaderMap :=
  ⟨[("upgrade".toList, ⟨Utf8.encode "websocket".toList⟩),
    ("sec-websocket-version".toList, ⟨Utf8.encode "13".toList⟩),
    ("sec-websocket-key".toList, ⟨Utf8.encode "dGhlIHNhbXBsZSBub25jZQ==".toList⟩)]⟩

/-- The client is sent another value than the one it expects. -/
theorem not_handshakeSound_sampleRequest : ¬ HandshakeSound sampleRequest := by
  have hchecks : PassesChecks sampleRequest :=
    ⟨⟨"websocket".toList, by decide, by decide⟩, by decide⟩
  have hkey : sampleRequest.get "sec-websocket-key".toList =
      some ⟨Utf8.encode "dGhlIHNhbXBsZSBub25jZQ==".toList⟩ := by
    decide
  have htext : HeaderValue.toStr ⟨Utf8.encode "dGhlIHNhbXBsZSBub25jZQ==".toList⟩ =
      some "dGhlIHNhbXBsZSBub25jZQ==".toList := by
    decide
  rw [handshakeSound_of_text hchecks hkey htext]
  exact fun h => absurd h.2 (by decide +kernel)

end OxiHttp
