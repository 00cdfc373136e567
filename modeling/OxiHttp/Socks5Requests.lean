/-
**What the SOCKS5 connector asks for.**

A proxy reads the messages of the client field by field, each behind its length.  A message says
what was asked when it reads as the user name and password that were configured and as the host and
port of the target.  The connector casts lengths to one byte and takes the host as the URI gives it,
brackets included, so that this depends on the lengths and on the form of the host.

Main definitions:

* `OxiHttp.targetAddress` — the address a host stands for;
* `OxiHttp.Says` — a message reads as what was asked;
* `OxiHttp.RequestsSound` — every message of every call does.

Main results:

* `OxiHttp.parseAuth_authBytes_iff`, `OxiHttp.parseConnect_connectBytes_iff` — when the messages do;
* `OxiHttp.requestsSound_iff` — when all of them do, whatever the proxy answers.
-/

import OxiHttp.Socks5Connector

set_option relaxedAutoImplicit false
set_option autoImplicit false

namespace OxiHttp

/-! ### The target -/

/-- What stands between the brackets of a text in brackets. -/
def unbracket : Str → Option Str
  | '[' :: s => if s.getLast? = some ']' then some s.dropLast else none
  | _ => none

/-- The address a host stands for: an IPv4 literal, an IPv6 literal in brackets, or a name. -/
def targetAddress (host : Str) : Socks5.Address :=
  if IpAddr.isIpv4 host then .ipv4 (IpAddr.octetsV4 host)
  else match unbracket host with
  | some s => if IpAddr.isIpv6 s then .ipv6 (IpAddr.octetsV6 s) else .domain (Utf8.encode host)
  | none => .domain (Utf8.encode host)

/-- The host is an IPv6 literal in brackets. -/
def IsIpv6Literal (host : Str) : Prop := ∃ s, unbracket host = some s ∧ IpAddr.isIpv6 s = true

instance (host : Str) : Decidable (IsIpv6Literal host) :=
  decidable_of_iff ((unbracket host).any IpAddr.isIpv6 = true) (by
    cases h : unbracket host <;> simp [IsIpv6Literal, h])

theorem unbracket_bracket {host s : Str} (h : unbracket host = some s) : '[' ∈ host := by
  unfold unbracket at h
  split at h
  · exact List.mem_cons_self
  · cases h

theorem targetAddress_ipv6 {host : Str} (h : IsIpv6Literal host) :
    ∃ octets, targetAddress host = .ipv6 octets := by
  obtain ⟨s, hs, h6⟩ := h
  have h4 := (IpAddr.not_isIpAddr_of_bracket (unbracket_bracket hs)).1
  refine ⟨IpAddr.octetsV6 s, ?_⟩
  simp [targetAddress, h4, hs, h6]

theorem targetAddress_domain {host : Str} (h4 : IpAddr.isIpv4 host = false)
    (h6 : ¬ IsIpv6Literal host) : targetAddress host = .domain (Utf8.encode host) := by
  rw [targetAddress, h4]
  cases hs : unbracket host with
  | none => rfl
  | some s =>
      have hs6 : ¬ IpAddr.isIpv6 s = true := fun h => h6 ⟨s, hs, h⟩
      simp [hs6]

/-- The host of a URI is never read as an IPv6 address: it has brackets around it. -/
theorem parse_host {host : Str} (hhost : ':' ∈ host → host.head? = some '[')
    (h4 : IpAddr.isIpv4 host = false) : IpAddr.parse host = none := by
  have h6 : IpAddr.isIpv6 host = false := by
    by_contra h
    rw [Bool.not_eq_false] at h
    have hbracket := List.mem_of_head? (hhost (IpAddr.colon_mem_of_isIpv6 h))
    rw [(IpAddr.not_isIpAddr_of_bracket hbracket).2] at h
    cases h
  rw [IpAddr.parse, h4, h6]
  rfl

/-! ### What the messages say -/

/-- A message reads as what was asked. -/
def Says (auth : Option (Str × Str)) (host : Str) (port : UInt16) : Step × List UInt8 → Prop
  | (.greeting, m) => Socks5.parseGreeting m = some (if auth.isSome then [0x00, 0x02] else [0x00])
  | (.auth, m) => ∃ user pass, auth = some (user, pass) ∧
      Socks5.parseAuth m = some (Utf8.encode user, Utf8.encode pass)
  | (.connect, m) => Socks5.parseConnect m = some (targetAddress host, port.toNat)

section Says

variable {auth : Option (Str × Str)} {host : Str} {port : UInt16}

theorem says_greeting : Says auth host port (.greeting, greetingBytes auth) := by
  cases auth <;> exact rfl

/-- The sub-negotiation says what was asked when both of its fields fit. -/
theorem parseAuth_authBytes_iff {user pass : Str} :
    Socks5.parseAuth (authBytes user pass) = some (Utf8.encode user, Utf8.encode pass) ↔
      (Utf8.encode user).length < 256 ∧ (Utf8.encode pass).length < 256 := by
  have hbytes : authBytes user pass = 0x01 :: (Socks5.field (Utf8.encode user) ++
      Socks5.field (Utf8.encode pass)) := by simp [authBytes, Socks5.field]
  constructor
  · intro h
    rw [hbytes] at h
    obtain ⟨⟨u, bs⟩, hu, h⟩ := Option.bind_eq_some_iff.1 h
    obtain ⟨⟨p, bs'⟩, hp, h⟩ := Option.bind_eq_some_iff.1 h
    dsimp only at h
    split at h
    case isTrue =>
        cases h
        exact ⟨Socks5.takeField_length hu, Socks5.takeField_length hp⟩
    case isFalse => cases h
  · rintro ⟨huser, hpass⟩
    have hp := Socks5.takeField_field hpass []
    rw [List.append_nil] at hp
    rw [hbytes, Socks5.parseAuth, Socks5.takeField_field huser]
    simp [hp]

theorem port_toBytes (port : UInt16) :
    BigEndian.ofBytes [(port >>> 8).toUInt8, (port &&& 0xFF).toUInt8] = port.toNat := by
  have hlt := port.toNat_lt
  have hlo : port.toNat &&& 255 = port.toNat % 256 := Nat.and_two_pow_sub_one_eq_mod port.toNat 8
  have hhi : port.toNat >>> (8 % 16) = port.toNat / 256 := Nat.shiftRight_eq_div_pow port.toNat 8
  simp only [BigEndian.ofBytes, BigEndian.ofBytesFrom, UInt16.toNat_toUInt8,
    UInt16.toNat_shiftRight, UInt16.toNat_and, UInt16.reduceToNat, hlo, hhi]
  omega

/-- The request says what was asked when the host is an IPv4 literal, or is no IPv6 literal and
fits. -/
theorem parseConnect_connectBytes_iff (hhost : ':' ∈ host → host.head? = some '[') :
    Socks5.parseConnect (connectBytes host port) = some (targetAddress host, port.toNat) ↔
      ¬ IsIpv6Literal host ∧
        (IpAddr.isIpv4 host = true ∨ (Utf8.encode host).length < 256) := by
  have hport := port_toBytes port
  unfold connectBytes
  -- of the two bytes of the port only this is needed
  generalize (port >>> 8).toUInt8 = hi at hport ⊢
  generalize (port &&& 0xFF).toUInt8 = lo at hport ⊢
  cases h4 : IpAddr.isIpv4 host with
  | true =>
      have hlen := IpAddr.length_octetsV4 h4
      have h6 : ¬ IsIpv6Literal host := by
        rintro ⟨s, hs, -⟩
        rw [(IpAddr.not_isIpAddr_of_bracket (unbracket_bracket hs)).1] at h4
        cases h4
      have htarget : targetAddress host = .ipv4 (IpAddr.octetsV4 host) := by
        rw [targetAddress, if_pos h4]
      have haddress : addressBytes host = (0x01, IpAddr.octetsV4 host) := by
        rw [addressBytes, IpAddr.parse, if_pos h4]
      simp [haddress, Socks5.parseConnect, Socks5.takeAddress, hlen, htarget, h6, hport]
  | false =>
      have haddress : addressBytes host = (0x03, Socks5.field (Utf8.encode host)) := by
        rw [addressBytes, parse_host hhost h4]
        rfl
      have hbytes : [0x05, 0x01, 0x00, (addressBytes host).1] ++ (addressBytes host).2 ++ [hi, lo]
          = 0x05 :: 0x01 :: 0x00 :: 0x03 :: (Socks5.field (Utf8.encode host) ++ [hi, lo]) := by
        simp [haddress]
      rw [hbytes]
      constructor
      · intro h
        obtain ⟨⟨address, bs⟩, haddr, h⟩ := Option.bind_eq_some_iff.1 h
        obtain ⟨⟨name, bs'⟩, hname, heq⟩ := Option.map_eq_some_iff.1 haddr
        cases heq
        dsimp only at h
        split at h
        case h_1 =>
            -- the name that is read is at most 255 bytes long
            obtain ⟨htarget, -⟩ := Prod.mk.inj (Option.some_inj.1 h)
            have h6 : ¬ IsIpv6Literal host := by
              intro h6
              obtain ⟨octets, hoctets⟩ := targetAddress_ipv6 h6
              rw [hoctets] at htarget
              cases htarget
            rw [targetAddress_domain h4 h6] at htarget
            cases htarget
            exact ⟨h6, .inr (Socks5.takeField_length hname)⟩
        case h_2 => cases h
      · rintro ⟨h6, hlen⟩
        have hlen := hlen.resolve_left (by simp)
        rw [targetAddress_domain h4 h6]
        simp [Socks5.parseConnect, Socks5.takeAddress, Socks5.takeField_field hlen, hport]

end Says

/-! ### Whole calls -/

/-- Whatever the network and the proxy do, every message of the call says what was asked, and a call
that succeeds has sent the greeting and the request, and in between the sub-negotiation if any. -/
def RequestsSound (c : Socks5Connector) (uri : Uri) : Prop :=
  ∀ network : Str → Opening,
    (∀ m ∈ (c.call network uri).2, ∃ host port, uriHostPort uri = .ok (host, port) ∧
      Says c.auth host port m) ∧
    ∀ s, (c.call network uri).1 = .ok s →
      (c.call network uri).2.map Prod.fst = [.greeting, .connect] ∨
        (c.call network uri).2.map Prod.fst = [.greeting, .auth, .connect]

section Calls

variable {c : Socks5Connector} {uri : Uri}

/-- Without a proxy or a target to go to, nothing is sent. -/
theorem call_of_unusable (network : Str → Opening)
    (h : (∃ e, uriHostPort c.proxyUri = .error e) ∨ ∃ e, uriHostPort uri = .error e) :
    ∃ e, c.call network uri = (.error e, []) := by
  unfold Socks5Connector.call
  split
  case h_1 e _ => exact ⟨e, rfl⟩
  case h_2 => exact ⟨_, rfl⟩
  case h_3 hproxy huri =>
      rcases h with ⟨e, he⟩ | ⟨e, he⟩
      · cases hproxy.symm.trans he
      · cases huri.symm.trans he

/-- A call fails before anything is sent, or talks to the proxy on a connection that the network
opened. -/
theorem call_cases (c : Socks5Connector) (uri : Uri) (network : Str → Opening) :
    (∃ e, c.call network uri = (.error e, [])) ∨
      ∃ host port stream, uriHostPort uri = .ok (host, port) ∧
        (∃ addr, (network addr).outcome = .ok stream) ∧
        c.call network uri = ((((handshake c.auth host port).run { stream }).1.map fun _ =>
          ((handshake c.auth host port).run { stream }).2.stream),
          ((handshake c.auth host port).run { stream }).2.sent) := by
  unfold Socks5Connector.call
  split
  case h_1 => exact .inl ⟨_, rfl⟩
  case h_2 => exact .inl ⟨_, rfl⟩
  case h_3 proxyHost proxyPort host port hproxy huri =>
      dsimp only
      split
      · exact .inl ⟨_, rfl⟩
      · exact .inl ⟨_, rfl⟩
      case h_3 stream houtcome _ => exact .inr ⟨host, port, _, huri, ⟨_, houtcome⟩, rfl⟩

/-- The call over a connection that was opened. -/
theorem call_opened (proxy target : Str × UInt16) (hproxy : uriHostPort c.proxyUri = .ok proxy)
    (huri : uriHostPort uri = .ok target) (stream : ByteStream) :
    c.call (fun _ => ⟨false, .ok stream⟩) uri
      = ((((handshake c.auth target.1 target.2).run { stream }).1.map fun _ =>
          ((handshake c.auth target.1 target.2).run { stream }).2.stream),
          ((handshake c.auth target.1 target.2).run { stream }).2.sent) := by
  obtain ⟨proxyHost, proxyPort⟩ := proxy
  obtain ⟨host, port⟩ := target
  rw [Socks5Connector.call, hproxy, huri]
  cases c.connectTimeout <;> rfl

/-- The answers of a proxy that selects the strongest method offered and refuses nothing. -/
def consent (auth : Option (Str × Str)) : List UInt8 :=
  (if auth.isSome then [0x05, 0x02, 0x01, 0x00] else [0x05, 0x00]) ++
    [0x05, 0x00, 0x00, 0x01, 0, 0, 0, 0, 0, 0]

/-- To such a proxy everything is sent that there is to send. -/
theorem sent_consent {auth : Option (Str × Str)} {host : Str} {port : UInt16} :
    ((handshake auth host port).run { stream := { input := consent auth } }).2.sent
      = messages auth host port (if auth.isSome then 0x02 else 0x00) := by
  have hpasses : ∃ reply, passes auth (consent auth)
      = some (if auth.isSome then 0x02 else 0x00, reply, []) := by
    cases auth <;> exact ⟨_, rfl⟩
  obtain ⟨reply, hpasses⟩ := hpasses
  obtain ⟨d', hrun, -, hsent⟩ := run_handshake host port
    (d := { stream := { input := consent auth } }) rfl hpasses
  rw [hrun, hsent, List.nil_append]

theorem connect_mem_messages (auth : Option (Str × Str)) (host : Str) (port : UInt16)
    (method : UInt8) :
    (.connect, connectBytes host port) ∈ messages auth host port method := by simp [messages]

/-- What is sent to a proxy that consents has to be right. -/
theorem RequestsSound.says (proxy : Str × UInt16) {host : Str} {port : UInt16}
    (h : RequestsSound c uri) (hproxy : uriHostPort c.proxyUri = .ok proxy)
    (huri : uriHostPort uri = .ok (host, port)) :
    ∀ m ∈ messages c.auth host port (if c.auth.isSome then 0x02 else 0x00),
      Says c.auth host port m := by
  have hsaid := (h fun _ => ⟨false, .ok { input := consent c.auth }⟩).1
  rw [call_opened _ _ hproxy huri, sent_consent] at hsaid
  intro m hm
  obtain ⟨host', port', heq, hm⟩ := hsaid m hm
  cases huri.symm.trans heq
  exact hm

/-- Where each message says what was asked, all calls do. -/
theorem requestsSound_of_fits {host : Str} {port : UInt16}
    (huri : uriHostPort uri = .ok (host, port))
    (hauth : ∀ user pass, c.auth = some (user, pass) →
      (Utf8.encode user).length < 256 ∧ (Utf8.encode pass).length < 256)
    (hconnect : Says c.auth host port (.connect, connectBytes host port)) :
    RequestsSound c uri := by
  intro network
  rcases call_cases c uri network with ⟨e, hcall⟩ | ⟨host', port', stream, heq, -,
    hcall⟩
  · rw [hcall]
    exact ⟨by simp, fun s h => by cases h⟩
  · cases huri.symm.trans heq
    rw [hcall]
    constructor
    · intro m hm
      obtain ⟨ms, hsent, hours⟩ := sends_handshake c.auth host port { stream }
      rw [hsent, List.nil_append] at hm
      refine ⟨host, port, huri, ?_⟩
      rcases hours m hm with rfl | ⟨user, pass, hup, rfl⟩ | rfl
      · exact says_greeting
      · exact ⟨user, pass, hup, parseAuth_authBytes_iff.2 (hauth user pass hup)⟩
      · exact hconnect
    · intro s hs
      rcases hrun : (handshake c.auth host port).run { stream } with ⟨r, d'⟩
      rw [hrun] at hs
      cases r with
      | error e => cases hs
      | ok _ =>
          obtain ⟨method, reply, -, hsent⟩ := handshake_ok hrun
          rw [hsent, List.nil_append]
          cases ha : c.auth with
          | none => exact .inl rfl
          | some up =>
              by_cases h2 : method = 0x02
              · exact .inr (by simp [messages, h2])
              · exact .inl (by simp [messages, h2])

/-- Every message of every call says what was asked exactly when a URI cannot be used at all, or the
credentials fit their length bytes and the host is an IPv4 literal, or is no IPv6 literal and fits
its length byte. -/
theorem requestsSound_iff (c : Socks5Connector) (uri : Uri) :
    RequestsSound c uri ↔
      (∃ e, uriHostPort c.proxyUri = .error e) ∨ (∃ e, uriHostPort uri = .error e) ∨
        ∃ host port, uriHostPort uri = .ok (host, port) ∧
          (∀ user pass, c.auth = some (user, pass) →
            (Utf8.encode user).length < 256 ∧ (Utf8.encode pass).length < 256) ∧
          ¬ IsIpv6Literal host ∧
          (IpAddr.isIpv4 host = true ∨ (Utf8.encode host).length < 256) := by
  constructor
  · intro hsound
    cases hproxy : uriHostPort c.proxyUri with
    | error e => exact .inl ⟨e, rfl⟩
    | ok proxy =>
        cases huri : uriHostPort uri with
        | error e => exact .inr (.inl ⟨e, rfl⟩)
        | ok target =>
            obtain ⟨host, port⟩ := target
            have hsays := hsound.says _ hproxy huri
            refine .inr (.inr ⟨host, port, rfl, fun user pass hauth => ?_, ?_⟩)
            · obtain ⟨user', pass', heq, hparse⟩ := hsays (.auth, authBytes user pass)
                (by simp [messages, hauth])
              cases hauth.symm.trans heq
              exact parseAuth_authBytes_iff.1 hparse
            · have hconnect : Says c.auth host port (.connect, connectBytes host port) :=
                hsays _ (connect_mem_messages _ _ _ _)
              exact (parseConnect_connectBytes_iff (uriHostPort_host huri)).1 hconnect
  · have hunusable (h : (∃ e, uriHostPort c.proxyUri = .error e) ∨
        ∃ e, uriHostPort uri = .error e) : RequestsSound c uri := by
      intro network
      obtain ⟨e, hcall⟩ := call_of_unusable network h
      rw [hcall]
      exact ⟨by simp, fun s hs => by cases hs⟩
    rintro (h | h | ⟨host, port, huri, hauth, hconnect⟩)
    · exact hunusable (.inl h)
    · exact hunusable (.inr h)
    · exact requestsSound_of_fits huri hauth
        ((parseConnect_connectBytes_iff (uriHostPort_host huri)).2 hconnect)

end Calls

/-- A proxy without credentials. -/
def plainConnector : Socks5Connector where
  proxyUri := { authority := some ⟨"p.test:1080".toList, "p.test".toList, some 1080, by decide⟩
                path := "/".toList
                path_delimited := root_delimited
                query_delimited := noQuery_delimited }
  connectTimeout := none
  auth := none

/-- The target `https://[::1]/`. -/
def loopbackTarget : Uri where
  scheme := some "https".toList
  authority := some ⟨"[::1]".toList, "[::1]".toList, none, by decide⟩
  path := "/".toList
  path_delimited := root_delimited
  query_delimited := noQuery_delimited

/-- The proxy is asked for a host of the name `[::1]`. -/
theorem not_requestsSound_loopbackTarget : ¬ RequestsSound plainConnector loopbackTarget := by
  intro hsound
  have hconnect : Says plainConnector.auth "[::1]".toList 443
      (.connect, connectBytes "[::1]".toList 443) :=
    hsound.says ("p.test".toList, 1080) rfl rfl _ (connect_mem_messages _ _ _ _)
  exact ((parseConnect_connectBytes_iff (by decide)).1 hconnect).1 (by decide)

end OxiHttp
