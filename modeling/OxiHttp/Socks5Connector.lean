/-
**The SOCKS5 connector.**

`Socks5Connector::call` opens a connection to the proxy and talks to it in three steps: it offers
authentication methods, authenticates if it is asked to, and sends the CONNECT request.  Beside the
stream the model keeps the messages that were given to `write_all`, which the code does not keep and
the statements about requests speak of.

Main definitions:

* `OxiHttp.Socks5Connector` — the connector;
* `OxiHttp.Dialogue` — the connection to the proxy and what was said on it;
* `OxiHttp.selectMethod`, `OxiHttp.authenticate`, `OxiHttp.readReply`, `OxiHttp.handshake` — the
  steps, and all of them;
* `OxiHttp.Socks5Connector.call` — the whole call.

Main results:

* `OxiHttp.run_hear`, `OxiHttp.hear_ok` — reading from the proxy;
* `OxiHttp.run_selectMethod`, `OxiHttp.run_authenticate`, `OxiHttp.run_readReply` — the steps on a
  connection that takes what is written, and `OxiHttp.selectMethod_ok`, `OxiHttp.authenticate_ok`,
  `OxiHttp.readReply_ok` — what follows from their success.
-/

import OxiHttp.ByteStream
import OxiHttp.IpAddr
import OxiHttp.Proxy
import OxiHttp.Socks5

set_option relaxedAutoImplicit false
set_option autoImplicit false

namespace OxiHttp

/-- `Socks5Connector`.  The time limit is in milliseconds. -/
structure Socks5Connector where
  proxyUri : Uri
  connectTimeout : Option ℕ
  auth : Option (Str × Str)

/-- `Socks5Connector::new`. -/
def Socks5Connector.new (proxyUri : Uri) (connectTimeout : Option ℕ) : Socks5Connector where
  proxyUri
  connectTimeout
  auth := extractAuth proxyUri

/-! ### The connection -/

/-- Which of its messages the client sends. -/
inductive Step where
  | greeting
  | auth
  | connect
deriving DecidableEq, Repr

/-- The connection to the proxy, with the messages that were given to `write_all`. -/
structure Dialogue where
  stream : ByteStream
  sent : List (Step × List UInt8) := []
deriving DecidableEq, Repr

/-- `write_all` of a message.  An I/O error is passed on as it is. -/
def say (step : Step) (msg : List UInt8) : Attempt Dialogue Unit := ⟨fun d =>
  (if d.stream.Fits msg.length then .ok () else .error (.io d.stream.writeErr),
    { stream := d.stream.push msg, sent := d.sent ++ [(step, msg)] })⟩

/-- `read_exact` of `n` bytes. -/
def hear (n : ℕ) : Attempt Dialogue (List UInt8) := ⟨fun d =>
  if n ≤ d.stream.input.length then
    (.ok (d.stream.input.take n),
      { d with stream := { d.stream with input := d.stream.input.drop n } })
  else (.error (.io d.stream.readErr), { d with stream := { d.stream with input := [] } })⟩

/-! ### The messages -/

/-- The greeting: the methods offered. -/
def greetingBytes (auth : Option (Str × Str)) : List UInt8 :=
  match auth with
  | some _ => [0x05, 2, 0x00, 0x02]
  | none => [0x05, 1, 0x00]

/-- The sub-negotiation with user name and password.  Their lengths are cast to `u8`. -/
def authBytes (user pass : Str) : List UInt8 :=
  0x01 :: UInt8.ofNat (Utf8.encode user).length :: Utf8.encode user ++
    UInt8.ofNat (Utf8.encode pass).length :: Utf8.encode pass

/-- The address type and the address of the target.  The length of a name is cast to `u8`. -/
def addressBytes (host : Str) : UInt8 × List UInt8 :=
  match IpAddr.parse host with
  | some (.v4 octets) => (0x01, octets)
  | some (.v6 octets) => (0x04, octets)
  | none => (0x03, UInt8.ofNat (Utf8.encode host).length :: Utf8.encode host)

/-- The CONNECT request. -/
def connectBytes (host : Str) (port : UInt16) : List UInt8 :=
  [0x05, 0x01, 0x00, (addressBytes host).1] ++ (addressBytes host).2 ++
    [(port >>> 8).toUInt8, (port &&& 0xFF).toUInt8]

/-! ### The steps -/

/-- A byte as `{:#04x}` prints it. -/
def hexByte04 (b : UInt8) : String :=
  "0x" ++ String.ofList [Nat.digitChar (b.toNat / 16), Nat.digitChar (b.toNat % 16)]

/-- The greeting and the method that the proxy selects. -/
def selectMethod (auth : Option (Str × Str)) : Attempt Dialogue UInt8 := do
  say .greeting (greetingBytes auth)
  let methodResp ← hear 2
  if methodResp.getD 0 0 ≠ 0x05 then
    .fail (.connectionPool "SOCKS5 greeting response has wrong version byte")
  else if methodResp.getD 1 0 = 0xFF then
    .fail (.connectionPool "SOCKS5 proxy rejected all authentication methods")
  else return methodResp.getD 1 0

/-- The sub-negotiation, if its method was selected. -/
def authenticate (auth : Option (Str × Str)) (selected : UInt8) : Attempt Dialogue Unit :=
  if selected = 0x02 then
    match auth with
    | none =>
        .fail (.connectionPool "SOCKS5 proxy requires authentication but none configured")
    | some (user, pass) => do
        say .auth (authBytes user pass)
        let authResp ← hear 2
        if authResp.getD 1 0 ≠ 0x00 then
          .fail (.connectionPool "SOCKS5 authentication failed")
        else return ()
  -- any other method goes straight on to the request
  else return ()

/-- The bound address in the reply, which is not kept. -/
def skipAddress (atyp : UInt8) : Attempt Dialogue Unit :=
  if atyp = 0x01 then do
    let _ ← hear 4
    return ()
  else if atyp = 0x04 then do
    let _ ← hear 16
    return ()
  else if atyp = 0x03 then do
    let lenBuf ← hear 1
    let _ ← hear (lenBuf.getD 0 0).toNat
    return ()
  else .fail (.connectionPool ("SOCKS5 reply has unknown ATYP " ++ hexByte04 atyp))

/-- The reply to the request. -/
def readReply : Attempt Dialogue Unit := do
  let replyHdr ← hear 4
  -- the version byte of the reply is not looked at
  if replyHdr.getD 1 0 ≠ 0x00 then
    .fail (.connectionPool ("SOCKS5 error code " ++ hexByte04 (replyHdr.getD 1 0)))
  else do
    skipAddress (replyHdr.getD 3 0)
    let _ ← hear 2
    return ()

/-- What `call` says and hears on the connection. -/
def handshake (auth : Option (Str × Str)) (host : Str) (port : UInt16) : Attempt Dialogue Unit := do
  let selected ← selectMethod auth
  authenticate auth selected
  say .connect (connectBytes host port)
  readReply

/-- What the network does when a connection is opened: whether it takes longer than the time limit,
and what comes of it otherwise. -/
structure Opening where
  late : Bool
  outcome : Except String ByteStream

/-- `call`: the stream, or an error, and the messages that were sent. -/
def Socks5Connector.call (c : Socks5Connector) (network : Str → Opening) (uri : Uri) :
    Except OxiHttpError ByteStream × List (Step × List UInt8) :=
  match uriHostPort c.proxyUri, uriHostPort uri with
  | .error e, _ => (.error e, [])
  | .ok _, .error e => (.error e, [])
  | .ok (proxyHost, proxyPort), .ok (host, port) =>
      let opening := network (proxyHost ++ ':' :: Nat.toDigits 10 proxyPort.toNat)
      match c.connectTimeout, opening.late, opening.outcome with
      | some ms, true, _ =>
          (.error (.timeout ("SOCKS5 proxy connect timeout after " ++ toString ms ++ "ms")), [])
      | _, _, .error e => (.error (.io e), [])
      | _, _, .ok stream =>
          let run := (handshake c.auth host port).run { stream }
          (run.1.map fun _ => run.2.stream, run.2.sent)

/-! ### Reading and writing -/

section Primitives

variable {d d' : Dialogue} {n : ℕ}

/-- The connection after reading down to some input. -/
def Dialogue.heard (d : Dialogue) (input : List UInt8) : Dialogue :=
  { d with stream := { d.stream with input } }

/-- Hearing the bytes that stand at the head of the input. -/
theorem run_hear {a b : List UInt8} (hin : d.stream.input = a ++ b) (hn : a.length = n) :
    (hear n).run d = (.ok a, d.heard b) := by
  subst hn
  simp [hear, hin, Dialogue.heard]

/-- What is heard stood at the head of the input. -/
theorem hear_ok {a : List UInt8} (h : (hear n).run d = (.ok a, d')) :
    d.stream.input = a ++ d'.stream.input ∧ a.length = n ∧ d'.sent = d.sent := by
  unfold hear at h
  dsimp only at h
  split at h
  case isTrue hn =>
      cases h
      exact ⟨(List.take_append_drop n _).symm, List.length_take_of_le hn, rfl⟩
  case isFalse => cases h

/-- The connection after a message was taken. -/
def Dialogue.said (d : Dialogue) (step : Step) (msg : List UInt8) : Dialogue where
  stream := { d.stream with output := d.stream.output ++ msg }
  sent := d.sent ++ [(step, msg)]

/-- A connection that does not break takes every message. -/
theorem run_say (hroom : d.stream.room = none) (step : Step) (msg : List UInt8) :
    (say step msg).run d = (.ok (), d.said step msg) := by
  simp [say, ByteStream.Fits, ByteStream.push, hroom, Dialogue.said]

theorem say_ok {step : Step} {msg : List UInt8} (h : (say step msg).run d = (.ok (), d')) :
    d'.stream.input = d.stream.input ∧ d'.sent = d.sent ++ [(step, msg)] := by
  unfold say at h
  dsimp only at h
  split at h
  · cases h
    exact ⟨by simp, rfl⟩
  · cases h

end Primitives

/-! ### What each step does -/

section Steps

variable {d d' : Dialogue} {auth : Option (Str × Str)}

/-- The proxy selects a method that is not the refusal of all. -/
theorem run_selectMethod (auth : Option (Str × Str)) (hroom : d.stream.room = none)
    {method : UInt8} {rest : List UInt8} (hin : d.stream.input = 0x05 :: method :: rest)
    (hmethod : method ≠ 0xFF) : (selectMethod auth).run d =
      (.ok method, (d.said .greeting (greetingBytes auth)).heard rest) := by
  have hhear := run_hear (d := d.said .greeting (greetingBytes auth)) (a := [0x05, method])
    (b := rest) (n := 2) hin rfl
  rw [selectMethod, Attempt.bind_ok (run_say hroom _ _), Attempt.bind_ok hhear]
  simp [hmethod]

/-- What follows from its success. -/
theorem selectMethod_ok {method : UInt8} (h : (selectMethod auth).run d = (.ok method, d')) :
    d.stream.input = 0x05 :: method :: d'.stream.input ∧ method ≠ 0xFF ∧
      d'.sent = d.sent ++ [(.greeting, greetingBytes auth)] := by
  obtain ⟨⟨⟩, d₁, hsay, h⟩ := Attempt.bind_eq_ok.1 h
  obtain ⟨resp, d₂, hhear, h⟩ := Attempt.bind_eq_ok.1 h
  obtain ⟨hin₁, hsent₁⟩ := say_ok hsay
  obtain ⟨hin₂, hlen, hsent₂⟩ := hear_ok hhear
  obtain ⟨v, m, rfl⟩ := List.length_eq_two.1 hlen
  simp only [List.getD_cons_zero, List.getD_cons_succ] at h
  split at h
  case isTrue => cases h
  case isFalse hv =>
      rw [not_not] at hv
      split at h
      case isTrue => cases h
      case isFalse hm =>
          cases h
          rw [← hin₁, hin₂, hv]
          exact ⟨rfl, hm, by rw [hsent₂, hsent₁]⟩

/-- The proxy accepts user name and password. -/
theorem run_authenticate (user pass : Str) (hroom : d.stream.room = none) {version : UInt8}
    {rest : List UInt8} (hin : d.stream.input = version :: 0x00 :: rest) :
    (authenticate (some (user, pass)) 0x02).run d
      = (.ok (), (d.said .auth (authBytes user pass)).heard rest) := by
  have hhear := run_hear (d := d.said .auth (authBytes user pass)) (a := [version, 0x00])
    (b := rest) (n := 2) hin rfl
  simp only [authenticate, if_true]
  rw [Attempt.bind_ok (run_say hroom _ _), Attempt.bind_ok hhear]
  simp

/-- What follows from its success. -/
theorem authenticate_ok {selected : UInt8}
    (h : (authenticate auth selected).run d = (.ok (), d')) :
    (selected ≠ 0x02 ∧ d' = d) ∨
      ∃ user pass version, selected = 0x02 ∧ auth = some (user, pass) ∧
        d.stream.input = version :: 0x00 :: d'.stream.input ∧
        d'.sent = d.sent ++ [(.auth, authBytes user pass)] := by
  unfold authenticate at h
  split at h
  case isFalse hsel =>
      cases h
      exact .inl ⟨hsel, rfl⟩
  case isTrue hsel =>
      split at h
      case h_1 => cases h
      case h_2 user pass =>
          obtain ⟨⟨⟩, d₁, hsay, h⟩ := Attempt.bind_eq_ok.1 h
          obtain ⟨resp, d₂, hhear, h⟩ := Attempt.bind_eq_ok.1 h
          obtain ⟨hin₁, hsent₁⟩ := say_ok hsay
          obtain ⟨hin₂, hlen, hsent₂⟩ := hear_ok hhear
          obtain ⟨version, status, rfl⟩ := List.length_eq_two.1 hlen
          simp only [List.getD_cons_zero, List.getD_cons_succ] at h
          split at h
          case isTrue => cases h
          case isFalse hstatus =>
              rw [not_not] at hstatus
              cases h
              refine .inr ⟨user, pass, version, hsel, rfl, ?_, by rw [hsent₂, hsent₁]⟩
              rw [← hin₁, hin₂, hstatus]
              rfl

/-- Bytes that are there are skipped. -/
theorem run_skip {n : ℕ} (h : n ≤ d.stream.input.length) :
    (do let _ ← hear n; return () : Attempt Dialogue Unit).run d
      = (.ok (), d.heard (d.stream.input.drop n)) := by
  rw [Attempt.bind_ok (run_hear (List.take_append_drop n _).symm (List.length_take_of_le h))]
  rfl

theorem skip_ok {n : ℕ}
    (h : (do let _ ← hear n; return () : Attempt Dialogue Unit).run d = (.ok (), d')) :
    n ≤ d.stream.input.length ∧ d'.stream.input = d.stream.input.drop n ∧ d'.sent = d.sent := by
  obtain ⟨a, d₁, hhear, hdone⟩ := Attempt.bind_eq_ok.1 h
  obtain ⟨hin, rfl, hsent⟩ := hear_ok hhear
  cases hdone
  rw [hin]
  exact ⟨by simp, by simp, hsent⟩

/-- An address that can be read is skipped. -/
theorem run_skipAddress {atyp : UInt8} {address : Socks5.Address} {rest : List UInt8}
    (h : Socks5.takeAddress atyp d.stream.input = some (address, rest)) :
    (skipAddress atyp).run d = (.ok (), d.heard rest) := by
  unfold Socks5.takeAddress at h
  unfold skipAddress
  -- the four branches of the type byte, in the order of the code
  split at h
  case isTrue h1 =>
      rw [if_pos h1]
      split at h <;> cases h
      exact run_skip ‹_›
  case isFalse h1 =>
      rw [if_neg h1]
      split at h
      case isTrue h4 =>
          rw [if_pos h4]
          split at h <;> cases h
          exact run_skip ‹_›
      case isFalse h4 =>
          rw [if_neg h4]
          split at h
          case isTrue h3 =>
              rw [if_pos h3]
              obtain ⟨⟨name, rest'⟩, hfield, heq⟩ := Option.map_eq_some_iff.1 h
              cases heq
              cases hin : d.stream.input with
              | nil =>
                  rw [hin] at hfield
                  cases hfield
              | cons n bs =>
                  rw [hin, Socks5.takeField] at hfield
                  split at hfield
                  case isTrue hlen =>
                      cases hfield
                      rw [Attempt.bind_ok (run_hear (a := [n]) (b := bs) (n := 1) hin rfl)]
                      exact run_skip (d := d.heard bs) hlen
                  case isFalse => cases hfield
          case isFalse => cases h

/-- What follows from its success. -/
theorem skipAddress_ok {atyp : UInt8} (h : (skipAddress atyp).run d = (.ok (), d')) :
    ∃ address, Socks5.takeAddress atyp d.stream.input = some (address, d'.stream.input) ∧
      d'.sent = d.sent := by
  unfold skipAddress at h
  unfold Socks5.takeAddress
  split at h
  case isTrue h1 =>
      obtain ⟨hlen, hin, hsent⟩ := skip_ok h
      rw [if_pos h1, if_pos hlen, hin]
      exact ⟨_, rfl, hsent⟩
  case isFalse h1 =>
      rw [if_neg h1]
      split at h
      case isTrue h4 =>
          obtain ⟨hlen, hin, hsent⟩ := skip_ok h
          rw [if_pos h4, if_pos hlen, hin]
          exact ⟨_, rfl, hsent⟩
      case isFalse h4 =>
          rw [if_neg h4]
          split at h
          case isTrue h3 =>
              rw [if_pos h3]
              obtain ⟨lenBuf, d₁, hhear, h⟩ := Attempt.bind_eq_ok.1 h
              obtain ⟨hin₁, hone, hsent₁⟩ := hear_ok hhear
              obtain ⟨n, rfl⟩ := List.length_eq_one_iff.1 hone
              rw [List.getD_cons_zero] at h
              obtain ⟨hlen, hin₂, hsent₂⟩ := skip_ok h
              refine ⟨.domain (d₁.stream.input.take n.toNat), ?_, by rw [hsent₂, hsent₁]⟩
              rw [hin₁, hin₂, List.singleton_append, Socks5.takeField, if_pos hlen]
              rfl
          case isFalse => cases h

/-- A reply that can be read and has the code of success is read. -/
theorem run_readReply {reply : Socks5.Reply} {rest : List UInt8}
    (h : Socks5.parseReply d.stream.input = some (reply, rest)) (hcode : reply.code = 0x00) :
    readReply.run d = (.ok (), d.heard rest) := by
  unfold Socks5.parseReply at h
  split at h
  case h_1 version code rsv atyp bs hin =>
      obtain ⟨⟨address, tail⟩, haddress, h⟩ := Option.bind_eq_some_iff.1 h
      dsimp only at h
      split at h
      case h_1 tail' hi lo rest' =>
          cases h
          obtain rfl : code = 0x00 := hcode
          rw [readReply, Attempt.bind_ok (run_hear (a := [version, 0x00, rsv, atyp]) (n := 4)
            hin rfl)]
          simp only [List.getD_cons_zero, List.getD_cons_succ, ne_eq, not_true_eq_false, if_false]
          rw [Attempt.bind_ok (run_skipAddress (d := d.heard bs) haddress)]
          exact run_skip (n := 2) (d := d.heard (hi :: lo :: rest)) (by simp [Dialogue.heard])
      case h_2 => cases h
  case h_2 => cases h

/-- What follows from its success. -/
theorem readReply_ok (h : readReply.run d = (.ok (), d')) :
    ∃ reply, Socks5.parseReply d.stream.input = some (reply, d'.stream.input) ∧
      reply.code = 0x00 ∧ d'.sent = d.sent := by
  obtain ⟨hdr, d₁, hhear, h⟩ := Attempt.bind_eq_ok.1 h
  obtain ⟨hin₁, hlen, hsent₁⟩ := hear_ok hhear
  obtain ⟨version, code, rsv, atyp, rfl⟩ : ∃ a b c e, hdr = [a, b, c, e] := by
    match hdr, hlen with
    | [a, b, c, e], _ => exact ⟨a, b, c, e, rfl⟩
  simp only [List.getD_cons_zero, List.getD_cons_succ] at h
  split at h
  case isTrue => cases h
  case isFalse hcode =>
      rw [not_not] at hcode
      obtain ⟨⟨⟩, d₂, hskip, h⟩ := Attempt.bind_eq_ok.1 h
      obtain ⟨address, haddress, hsent₂⟩ := skipAddress_ok hskip
      obtain ⟨hport, hin₃, hsent₃⟩ := skip_ok h
      obtain ⟨hi, lo, rest, hin₂⟩ : ∃ hi lo rest, d₂.stream.input = hi :: lo :: rest := by
        match d₂.stream.input, hport with
        | hi :: lo :: rest, _ => exact ⟨hi, lo, rest, rfl⟩
      rw [hin₂] at hin₃ haddress
      refine ⟨⟨version, code, address, BigEndian.ofBytes [hi, lo]⟩, ?_, hcode,
        by rw [hsent₃, hsent₂, hsent₁]⟩
      rw [hin₁, hin₃]
      simp [Socks5.parseReply, haddress]

end Steps

/-! ### The whole handshake -/

/-- What the client sends to a proxy that selects `method` and refuses nothing. -/
def messages (auth : Option (Str × Str)) (host : Str) (port : UInt16) (method : UInt8) :
    List (Step × List UInt8) :=
  (.greeting, greetingBytes auth) ::
    (match auth with
      | some (user, pass) => if method = 0x02 then [(.auth, authBytes user pass)] else []
      | none => []) ++ [(.connect, connectBytes host port)]

/-- What is left of the answers after the sub-negotiation, if there is one and it succeeds. -/
def afterAuth (auth : Option (Str × Str)) (method : UInt8) (bs : List UInt8) :
    Option (List UInt8) :=
  if method = 0x02 then
    match auth, bs with
    | some _, _ :: 0x00 :: rest => some rest
    | _, _ => none
  else some bs

/-- The answers with which the code comes through: the method selected, the reply, and what follows
them. -/
def passes (auth : Option (Str × Str)) (input : List UInt8) :
    Option (UInt8 × Socks5.Reply × List UInt8) := do
  let (method, bs) ← Socks5.parseMethod input
  if method = 0xFF then none
  else
    let bs ← afterAuth auth method bs
    let (reply, rest) ← Socks5.parseReply bs
    if reply.code = 0x00 then some (method, reply, rest) else none

section Handshake

variable {d d' : Dialogue} {auth : Option (Str × Str)} {host : Str} {port : UInt16}

theorem parseMethod_eq_some {bs rest : List UInt8} {method : UInt8}
    (h : Socks5.parseMethod bs = some (method, rest)) : bs = 0x05 :: method :: rest := by
  unfold Socks5.parseMethod at h
  split at h <;> cases h
  rfl

theorem afterAuth_eq_some {bs bs' : List UInt8} {method : UInt8} :
    afterAuth auth method bs = some bs' ↔ (method ≠ 0x02 ∧ bs = bs') ∨
      ∃ user pass version, method = 0x02 ∧ auth = some (user, pass) ∧
        bs = version :: 0x00 :: bs' := by
  unfold afterAuth
  by_cases h2 : method = 0x02
  · rw [if_pos h2]
    constructor
    · intro h
      split at h
      case h_1 _ _ userPass version rest =>
          cases h
          exact .inr ⟨userPass.1, userPass.2, version, h2, rfl, rfl⟩
      case h_2 => cases h
    · rintro (⟨hne, -⟩ | ⟨user, pass, version, -, rfl, rfl⟩)
      · exact absurd h2 hne
      · rfl
  · simp [h2]

/-- The pieces of answers with which the code comes through. -/
theorem passes_eq_some {input rest : List UInt8} {method : UInt8} {reply : Socks5.Reply} :
    passes auth input = some (method, reply, rest) ↔
      ∃ bs bs', input = 0x05 :: method :: bs ∧ method ≠ 0xFF ∧
        afterAuth auth method bs = some bs' ∧ Socks5.parseReply bs' = some (reply, rest) ∧
        reply.code = 0x00 := by
  constructor
  · intro h
    obtain ⟨⟨m, bs⟩, hm, h⟩ := Option.bind_eq_some_iff.1 h
    dsimp only at h
    split at h
    case isTrue => cases h
    case isFalse hne =>
        obtain ⟨bs', hauth, h⟩ := Option.bind_eq_some_iff.1 h
        obtain ⟨⟨reply', rest'⟩, hreply, h⟩ := Option.bind_eq_some_iff.1 h
        dsimp only at h
        split at h
        case isTrue hcode =>
            cases h
            exact ⟨bs, bs', parseMethod_eq_some hm, hne, hauth, hreply, hcode⟩
        case isFalse => cases h
  · rintro ⟨bs, bs', rfl, hne, hauth, hreply, hcode⟩
    simp [passes, Socks5.parseMethod, hne, hauth, hreply, hcode]

/-- On such answers, and a connection that takes what is written, the handshake succeeds and
consumes exactly the answers. -/
theorem run_handshake (host : Str) (port : UInt16) (hroom : d.stream.room = none)
    {method : UInt8} {reply : Socks5.Reply} {rest : List UInt8}
    (h : passes auth d.stream.input = some (method, reply, rest)) :
    ∃ d', (handshake auth host port).run d = (.ok (), d') ∧ d'.stream.input = rest ∧
      d'.sent = d.sent ++ messages auth host port method := by
  obtain ⟨bs, bs', hin, hne, hauth, hreply, hcode⟩ := passes_eq_some.1 h
  have hselect := run_selectMethod auth hroom hin hne
  rw [handshake, Attempt.bind_ok hselect]
  rcases afterAuth_eq_some.1 hauth with ⟨h2, rfl⟩ | ⟨user, pass, version, rfl, rfl, rfl⟩
  · have hskip : (authenticate auth method).run
        ((d.said .greeting (greetingBytes auth)).heard bs)
          = (.ok (), (d.said .greeting (greetingBytes auth)).heard bs) := by
      simp [authenticate, h2]
    have hsay := run_say (d := (d.said .greeting (greetingBytes auth)).heard bs) hroom .connect
      (connectBytes host port)
    rw [Attempt.bind_ok hskip, Attempt.bind_ok hsay, run_readReply hreply hcode]
    refine ⟨_, rfl, rfl, ?_⟩
    cases auth <;> simp [Dialogue.heard, Dialogue.said, messages, h2]
  · have hauthenticate := run_authenticate user pass
      (d := (d.said .greeting (greetingBytes (some (user, pass)))).heard (version :: 0x00 :: bs'))
      hroom rfl
    have hsay := run_say (d := (((d.said .greeting (greetingBytes (some (user, pass)))).heard
      (version :: 0x00 :: bs')).said .auth (authBytes user pass)).heard bs') hroom .connect
      (connectBytes host port)
    rw [Attempt.bind_ok hauthenticate, Attempt.bind_ok hsay, run_readReply hreply hcode]
    exact ⟨_, rfl, rfl, by simp [Dialogue.heard, Dialogue.said, messages]⟩

/-- A handshake that succeeds has heard such answers, and consumed exactly them. -/
theorem handshake_ok (h : (handshake auth host port).run d = (.ok (), d')) :
    ∃ method reply, passes auth d.stream.input = some (method, reply, d'.stream.input) ∧
      d'.sent = d.sent ++ messages auth host port method := by
  obtain ⟨method, d₁, hselect, h⟩ := Attempt.bind_eq_ok.1 h
  obtain ⟨⟨⟩, d₂, hauth, h⟩ := Attempt.bind_eq_ok.1 h
  obtain ⟨⟨⟩, d₃, hsay, hreply⟩ := Attempt.bind_eq_ok.1 h
  obtain ⟨hin₁, hne, hsent₁⟩ := selectMethod_ok hselect
  obtain ⟨hin₃, hsent₃⟩ := say_ok hsay
  obtain ⟨reply, hparse, hcode, hsent₄⟩ := readReply_ok hreply
  rw [hin₃] at hparse
  rcases authenticate_ok hauth with ⟨h2, rfl⟩ | ⟨user, pass, version, rfl, rfl, hin₂, hsent₂⟩
  · have hafter : afterAuth auth method d₂.stream.input = some d₂.stream.input :=
      afterAuth_eq_some.2 (.inl ⟨h2, rfl⟩)
    refine ⟨method, reply, passes_eq_some.2 ⟨_, _, hin₁, hne, hafter, hparse, hcode⟩, ?_⟩
    rw [hsent₄, hsent₃, hsent₁]
    cases auth <;> simp [messages, h2]
  · have hafter := afterAuth_eq_some.2 (.inr ⟨user, pass, version, rfl, rfl, hin₂⟩)
    refine ⟨0x02, reply, passes_eq_some.2 ⟨_, _, hin₁, hne, hafter, hparse, hcode⟩, ?_⟩
    rw [hsent₄, hsent₃, hsent₂, hsent₁]
    simp [messages]

/-- Nothing is sent but the three messages. -/
def Ours (auth : Option (Str × Str)) (host : Str) (port : UInt16) (m : Step × List UInt8) : Prop :=
  m = (.greeting, greetingBytes auth) ∨
    (∃ user pass, auth = some (user, pass) ∧ m = (.auth, authBytes user pass)) ∨
    m = (.connect, connectBytes host port)

/-- All messages that come to those of `d` are of the kind `P`. -/
def Adds (P : Step × List UInt8 → Prop) (d d' : Dialogue) : Prop :=
  ∃ ms, d'.sent = d.sent ++ ms ∧ ∀ m ∈ ms, P m

theorem Adds.refl (P : Step × List UInt8 → Prop) (d : Dialogue) : Adds P d d := ⟨[], by simp⟩

theorem Adds.trans {P : Step × List UInt8 → Prop} {a b c : Dialogue} (h₁ : Adds P a b)
    (h₂ : Adds P b c) : Adds P a c := by
  obtain ⟨ms₁, hsent₁, hms₁⟩ := h₁
  obtain ⟨ms₂, hsent₂, hms₂⟩ := h₂
  refine ⟨ms₁ ++ ms₂, by rw [hsent₂, hsent₁, List.append_assoc], fun m hm => ?_⟩
  rcases List.mem_append.1 hm with hm | hm
  · exact hms₁ m hm
  · exact hms₂ m hm

/-- A computation sends messages of the kind `P` only. -/
abbrev Sends (P : Step × List UInt8 → Prop) {α : Type} (x : Attempt Dialogue α) : Prop :=
  Attempt.Keeps (Adds P) x

section Sends

variable {P : Step × List UInt8 → Prop} {α β : Type}

theorem Sends.bind {x : Attempt Dialogue α} {f : α → Attempt Dialogue β} (hx : Sends P x)
    (hf : ∀ a, Sends P (f a)) : Sends P (x >>= f) :=
  Attempt.Keeps.bind Adds.trans hx hf

theorem sends_pure (a : α) : Sends P (pure a) := Attempt.keeps_pure (Adds.refl P) a

theorem sends_fail (e : OxiHttpError) : Sends P (.fail e : Attempt Dialogue α) :=
  Attempt.keeps_fail (Adds.refl P) e

theorem sends_hear (n : ℕ) : Sends P (hear n) := by
  intro d
  unfold hear
  dsimp only
  split <;> exact ⟨[], by simp⟩

theorem sends_say {step : Step} {msg : List UInt8} (h : P (step, msg)) : Sends P (say step msg) :=
  fun _ => ⟨[(step, msg)], rfl, by simpa using h⟩

theorem sends_skip (n : ℕ) : Sends P (do let _ ← hear n; return () : Attempt Dialogue Unit) :=
  (sends_hear n).bind fun _ => sends_pure ()

/-- Hearing the reply sends nothing. -/
theorem sends_readReply : Sends P readReply := by
  refine (sends_hear 4).bind fun hdr => ?_
  split
  · exact sends_fail _
  · refine Sends.bind ?_ fun _ => sends_skip 2
    unfold skipAddress
    split
    · exact sends_skip 4
    · split
      · exact sends_skip 16
      · split
        · exact (sends_hear 1).bind fun _ => sends_skip _
        · exact sends_fail _

theorem sends_selectMethod (h : P (.greeting, greetingBytes auth)) :
    Sends P (selectMethod auth) := by
  refine (sends_say h).bind fun _ => (sends_hear 2).bind fun resp => ?_
  split
  · exact sends_fail _
  · split
    · exact sends_fail _
    · exact sends_pure _

theorem sends_authenticate {selected : UInt8}
    (h : ∀ user pass, auth = some (user, pass) → P (.auth, authBytes user pass)) :
    Sends P (authenticate auth selected) := by
  unfold authenticate
  split
  · split
    · exact sends_fail _
    · refine (sends_say (h _ _ rfl)).bind fun _ => (sends_hear 2).bind fun resp => ?_
      split
      · exact sends_fail _
      · exact sends_pure ()
  · exact sends_pure ()

/-- Whatever the proxy answers, nothing is sent but the three messages. -/
theorem sends_handshake (auth : Option (Str × Str)) (host : Str) (port : UInt16) :
    Sends (Ours auth host port) (handshake auth host port) :=
  (sends_selectMethod (.inl rfl)).bind fun _ =>
    (sends_authenticate fun user pass h => .inr (.inl ⟨user, pass, h, rfl⟩)).bind fun _ =>
      (sends_say (.inr (.inr rfl))).bind fun _ => sends_readReply

end Sends

end Handshake

end OxiHttp
