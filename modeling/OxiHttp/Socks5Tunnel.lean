/-
**A tunnel through a SOCKS5 proxy.**

The connector and a proxy talk to each other over a connection on which what one of them writes
arrives in pieces at some time.  The proxy here does what RFC 1928 and RFC 1929 ask of it, and is free
in its choices: the method, whether it accepts the credentials, what becomes of the request, and what
the target says first.

Whatever the order in which things happen, both come to an end and agree on what has been decided:
the proxy has opened the connection that the URI asks for if and only if the call returns a stream,
and what is read from that is what the target says, from its first byte on.

Main definitions:

* `Socks5.Policy`, `Socks5.server` — the proxy;
* `OxiHttp.Talk.handshake` — the connector as a party of the connection;
* `OxiHttp.agreed` — what the two are to agree on;
* `OxiHttp.Socks5Connector.Tunnels` — how their talk is to end.

Main results:

* `OxiHttp.Talk.follows_handshake` — the party does what the connector does;
* `OxiHttp.socks5_tunnels` — every talk ends as it should.
-/

import OxiHttp.Duplex
import OxiHttp.Socks5Consent

set_option relaxedAutoImplicit false
set_option autoImplicit false

open Duplex (Ends Party Program Side)
open Duplex.Program (Hears hears_hear hears_pure)

namespace Socks5

/-! ### The proxy -/

/-- The type byte of an address, and the address. -/
def Address.bytes : Address → UInt8 × List UInt8
  | .ipv4 octets => (0x01, octets)
  | .ipv6 octets => (0x04, octets)
  | .domain name => (0x03, field name)

/-- An address that a message can hold. -/
def Address.Fits : Address → Prop
  | .ipv4 octets => octets.length = 4
  | .ipv6 octets => octets.length = 16
  | .domain name => name.length < 256

/-- What a proxy answers to a request. -/
structure Answer where
  code : UInt8
  bound : Address
  port : UInt8 × UInt8
  bound_fits : bound.Fits

theorem takeAddress_bytes {address : Address} (h : address.Fits) (rest : List UInt8) :
    takeAddress address.bytes.1 (address.bytes.2 ++ rest) = some (address, rest) := by
  cases address with
  | ipv4 octets =>
      have hlen : octets.length = 4 := h
      have hle : 4 ≤ (octets ++ rest).length := by rw [List.length_append, hlen]; omega
      change (if 4 ≤ (octets ++ rest).length then some (Address.ipv4 ((octets ++ rest).take 4),
        (octets ++ rest).drop 4) else none) = _
      rw [if_pos hle, ← hlen, List.take_left, List.drop_left]
  | ipv6 octets =>
      have hlen : octets.length = 16 := h
      have hle : 16 ≤ (octets ++ rest).length := by rw [List.length_append, hlen]; omega
      change (if 16 ≤ (octets ++ rest).length then some (Address.ipv6 ((octets ++ rest).take 16),
        (octets ++ rest).drop 16) else none) = _
      rw [if_pos hle, ← hlen, List.take_left, List.drop_left]
  | domain name =>
      change (takeField (field name ++ rest)).map _ = _
      rw [takeField_field h]
      rfl

def Answer.bytes (a : Answer) : List UInt8 :=
  [0x05, a.code, 0x00, a.bound.bytes.1] ++ a.bound.bytes.2 ++ [a.port.1, a.port.2]

/-- The choices of a proxy. -/
structure Policy where
  select : List UInt8 → UInt8
  select_offered : ∀ methods, select methods = 0xFF ∨ select methods ∈ methods
  status : List UInt8 → List UInt8 → UInt8
  answer : Address → ℕ → Answer
  said : Address → ℕ → List UInt8

/-- Why a proxy opens no connection. -/
inductive Refusal where
  | malformed
  | method
  | credentials
  | target
deriving DecidableEq, Repr

/-- A connection that a proxy has opened, and the credentials that it was shown. -/
structure Opened where
  credentials : Option (List UInt8 × List UInt8)
  address : Address
  port : ℕ
deriving DecidableEq, Repr

namespace Server

def hearField : Program UInt8 Refusal (List UInt8) := do
  let len ← .hear 1
  .hear (len.getD 0 0).toNat

def hearAddress (atyp : UInt8) : Program UInt8 Refusal Address :=
  if atyp = 0x01 then do return .ipv4 (← .hear 4)
  else if atyp = 0x04 then do return .ipv6 (← .hear 16)
  else if atyp = 0x03 then do return .domain (← hearField)
  else .fail .malformed

def hearGreeting : Program UInt8 Refusal (List UInt8) := do
  let head ← .hear 2
  if head.getD 0 0 ≠ 0x05 then .fail .malformed
  else .hear (head.getD 1 0).toNat

def hearAuth : Program UInt8 Refusal (List UInt8 × List UInt8) := do
  let head ← .hear 1
  if head.getD 0 0 ≠ 0x01 then .fail .malformed
  else do
    let user ← hearField
    let pass ← hearField
    return (user, pass)

def hearConnect : Program UInt8 Refusal (Address × ℕ) := do
  let head ← .hear 4
  if head.take 3 ≠ [0x05, 0x01, 0x00] then .fail .malformed
  else do
    let address ← hearAddress (head.getD 3 0)
    let port ← .hear 2
    return (address, BigEndian.ofBytes port)

end Server

/-! ### What it hears -/

theorem hears_field {bs a rest : List UInt8} (h : takeField bs = some (a, rest)) :
    Hears Server.hearField bs a rest := by
  cases bs with
  | nil => cases h
  | cons n bs =>
      rw [takeField] at h
      split_ifs at h with hn
      cases h
      have hname : Hears (.hear n.toNat : Program UInt8 Refusal (List UInt8))
          (bs.take n.toNat ++ bs.drop n.toNat) (bs.take n.toNat) (bs.drop n.toNat) :=
        hears_hear _ (List.length_take_of_le hn) _
      rw [List.take_append_drop] at hname
      have hlen : Hears (.hear 1 : Program UInt8 Refusal (List UInt8)) (n :: bs) [n] bs :=
        hears_hear [n] rfl bs
      exact hlen.bind hname

/-- Octets of which there are enough. -/
theorem hears_octets {n : ℕ} {bs : List UInt8} (h : n ≤ bs.length) (f : List UInt8 → Address) :
    Hears (do return f (← .hear n) : Program UInt8 Refusal Address) bs (f (bs.take n))
      (bs.drop n) := by
  have hoctets : Hears (.hear n : Program UInt8 Refusal (List UInt8))
      (bs.take n ++ bs.drop n) (bs.take n) (bs.drop n) := hears_hear _ (List.length_take_of_le h) _
  rw [List.take_append_drop] at hoctets
  exact hoctets.bind (hears_pure _ _)

theorem hears_address {atyp : UInt8} {bs rest : List UInt8} {address : Address}
    (h : takeAddress atyp bs = some (address, rest)) :
    Hears (Server.hearAddress atyp) bs address rest := by
  unfold takeAddress at h
  unfold Server.hearAddress
  split_ifs at h ⊢ with h1 hlen h4 hlen h3
  · cases h
    exact hears_octets hlen .ipv4
  · cases h
    exact hears_octets hlen .ipv6
  · obtain ⟨⟨name, rest'⟩, hfield, heq⟩ := Option.map_eq_some_iff.1 h
    cases heq
    exact (hears_field hfield).bind (hears_pure _ _)

theorem hears_greeting {bs methods : List UInt8} (h : parseGreeting bs = some methods) :
    Hears Server.hearGreeting bs methods [] := by
  unfold parseGreeting at h
  split at h
  case h_1 n methods' =>
      split_ifs at h with hn
      cases h
      have hhead : Hears (.hear 2 : Program UInt8 Refusal (List UInt8)) (0x05 :: n :: methods)
          [0x05, n] methods := hears_hear [0x05, n] rfl methods
      have hmethods : Hears (.hear n.toNat : Program UInt8 Refusal (List UInt8)) (methods ++ [])
          methods [] := hears_hear methods hn []
      rw [List.append_nil] at hmethods
      exact hhead.bind hmethods
  case h_2 => cases h

theorem hears_auth {bs user pass : List UInt8} (h : parseAuth bs = some (user, pass)) :
    Hears Server.hearAuth bs (user, pass) [] := by
  unfold parseAuth at h
  split at h
  case h_1 bs =>
      obtain ⟨⟨user', bs'⟩, huser, h⟩ := Option.bind_eq_some_iff.1 h
      obtain ⟨⟨pass', rest⟩, hpass, h⟩ := Option.bind_eq_some_iff.1 h
      dsimp only at h
      split_ifs at h with hrest
      cases h
      cases hrest
      have hhead : Hears (.hear 1 : Program UInt8 Refusal (List UInt8)) (0x01 :: bs) [0x01] bs :=
        hears_hear [0x01] rfl bs
      exact hhead.bind ((hears_field huser).bind ((hears_field hpass).bind (hears_pure _ _)))
  case h_2 => cases h

theorem hears_connect {bs : List UInt8} {address : Address} {port : ℕ}
    (h : parseConnect bs = some (address, port)) :
    Hears Server.hearConnect bs (address, port) [] := by
  unfold parseConnect at h
  split at h
  case h_1 atyp bs =>
      obtain ⟨⟨address', bs'⟩, haddress, h⟩ := Option.bind_eq_some_iff.1 h
      dsimp only at h
      split at h
      case h_1 hi lo =>
          cases h
          have hhead : Hears (.hear 4 : Program UInt8 Refusal (List UInt8))
              (0x05 :: 0x01 :: 0x00 :: atyp :: bs) [0x05, 0x01, 0x00, atyp] bs :=
            hears_hear [0x05, 0x01, 0x00, atyp] rfl bs
          have hport : Hears (.hear 2 : Program UInt8 Refusal (List UInt8)) [hi, lo] [hi, lo] [] :=
            hears_hear [hi, lo] rfl []
          exact hhead.bind ((hears_address haddress).bind (hport.bind (hears_pure _ _)))
      case h_2 => cases h
  case h_2 => cases h

/-! ### What it does -/

open Server

variable (policy : Policy)

/-- The sub-negotiation, if it was selected. -/
def credentials (method : UInt8) : Program UInt8 Refusal (Option (List UInt8 × List UInt8)) :=
  if method = 0x02 then do
    let (user, pass) ← hearAuth
    .say [0x01, policy.status user pass]
    if policy.status user pass ≠ 0x00 then .fail .credentials else return some (user, pass)
  else return none

theorem alone_credentials {bs user pass : List UInt8} (h : parseAuth bs = some (user, pass)) :
    Party.alone (credentials policy 0x02) bs =
      (some (if policy.status user pass ≠ 0x00 then .error .credentials
        else .ok (some (user, pass))), [], [0x01, policy.status user pass]) := by
  have hheard : Party.alone hearAuth bs = (some (.ok (user, pass)), [], []) := hears_auth h
  refine (Party.alone_andThen hearAuth _ bs).trans ?_
  rw [hheard]
  let rest : Program UInt8 Refusal (Option (List UInt8 × List UInt8)) := do
    .say [0x01, policy.status user pass]
    if policy.status user pass ≠ 0x00 then .fail .credentials else return some (user, pass)
  change ((Party.alone rest []).1, (Party.alone rest []).2.1, [] ++ (Party.alone rest []).2.2) = _
  have hrest : Party.alone rest [] = (some (if policy.status user pass ≠ 0x00 then
      .error .credentials else .ok (some (user, pass))), [], [0x01, policy.status user pass]) := by
    dsimp only [rest]
    split_ifs <;> rfl
  rw [hrest]
  rfl

/-- The request, and the answer to it. -/
def serve (creds : Option (List UInt8 × List UInt8)) : Program UInt8 Refusal Opened := do
  let (address, port) ← hearConnect
  .say (policy.answer address port).bytes
  if (policy.answer address port).code ≠ 0x00 then .fail .target
  else do
    .say (policy.said address port)
    return ⟨creds, address, port⟩

/-- The proxy. -/
def server : Program UInt8 Refusal Opened := do
  let methods ← hearGreeting
  .say [0x05, policy.select methods]
  if policy.select methods = 0xFF then .fail .method
  else do
    let creds ← credentials policy (policy.select methods)
    serve policy creds

/-- What comes of a request. -/
def Policy.decided (creds : Option (List UInt8 × List UInt8)) (address : Address) (port : ℕ) :
    Except Refusal Opened :=
  if (policy.answer address port).code ≠ 0x00 then .error .target else .ok ⟨creds, address, port⟩

end Socks5

namespace OxiHttp

/-! ### The connector as a party -/

namespace Talk

/-- What `selectMethod` does after the greeting, as a party of a connection. -/
def hearMethod : Program UInt8 OxiHttpError UInt8 := do
  let methodResp ← .hear 2
  if methodResp.getD 0 0 ≠ 0x05 then
    .fail (.connectionPool "SOCKS5 greeting response has wrong version byte")
  else if methodResp.getD 1 0 = 0xFF then
    .fail (.connectionPool "SOCKS5 proxy rejected all authentication methods")
  else return methodResp.getD 1 0

/-- `selectMethod`, as a party; the same for the rest. -/
def selectMethod (auth : Option (Str × Str)) : Program UInt8 OxiHttpError UInt8 := do
  .say (greetingBytes auth)
  hearMethod

def hearStatus : Program UInt8 OxiHttpError Unit := do
  let authResp ← .hear 2
  if authResp.getD 1 0 ≠ 0x00 then .fail (.connectionPool "SOCKS5 authentication failed")
  else return ()

def authenticate (auth : Option (Str × Str)) (selected : UInt8) :
    Program UInt8 OxiHttpError Unit :=
  if selected = 0x02 then
    match auth with
    | none =>
        .fail (.connectionPool "SOCKS5 proxy requires authentication but none configured")
    | some (user, pass) => do
        .say (authBytes user pass)
        hearStatus
  else return ()

def skip (n : ℕ) : Program UInt8 OxiHttpError Unit := do
  let _ ← .hear n
  return ()

def skipAddress (atyp : UInt8) : Program UInt8 OxiHttpError Unit :=
  if atyp = 0x01 then skip 4
  else if atyp = 0x04 then skip 16
  else if atyp = 0x03 then do
    let lenBuf ← .hear 1
    skip (lenBuf.getD 0 0).toNat
  else .fail (.connectionPool ("SOCKS5 reply has unknown ATYP " ++ hexByte04 atyp))

def readReply : Program UInt8 OxiHttpError Unit := do
  let replyHdr ← .hear 4
  if replyHdr.getD 1 0 ≠ 0x00 then
    .fail (.connectionPool ("SOCKS5 error code " ++ hexByte04 (replyHdr.getD 1 0)))
  else do
    skipAddress (replyHdr.getD 3 0)
    skip 2

def handshake (auth : Option (Str × Str)) (host : Str) (port : UInt16) :
    Program UInt8 OxiHttpError Unit := do
  let selected ← selectMethod auth
  authenticate auth selected
  .say (connectBytes host port)
  readReply

/-- What a party makes of the input of a connection that takes all that is written, the computation
makes of it, and it fails when the party waits for more than there is. -/
def Follows {α : Type} (x : Attempt Dialogue α) (p : Program UInt8 OxiHttpError α) : Prop :=
  ∀ d : Dialogue, d.stream.room = none →
    (∀ r rest w, Party.alone p d.stream.input = (some r, rest, w) → ∃ d', x.run d = (r, d') ∧
      d'.stream = { d.stream with input := rest, output := d.stream.output ++ w }) ∧
    ((Party.alone p d.stream.input).1 = none → ∃ d', x.run d = (.error (.io d.stream.readErr), d'))

section Follows

variable {α γ : Type}

theorem Follows.bind {x : Attempt Dialogue α} {p : Program UInt8 OxiHttpError α}
    {f : α → Attempt Dialogue γ} {g : α → Program UInt8 OxiHttpError γ} (hx : Follows x p)
    (hf : ∀ a, Follows (f a) (g a)) : Follows (x >>= f) (p >>= g) := by
  intro d hroom
  have halone := Party.alone_andThen p g d.stream.input
  change (∀ r rest w, Party.alone (p.andThen g) d.stream.input = (some r, rest, w) → _) ∧
    ((Party.alone (p.andThen g) d.stream.input).1 = none → _)
  rw [halone]
  obtain ⟨hended, hblocked⟩ := hx d hroom
  rcases hp : Party.alone p d.stream.input with ⟨_ | _ | a, rest₁, w₁⟩
  · -- the first part waits
    obtain ⟨d₁, hrun⟩ := hblocked (by rw [hp])
    exact ⟨fun _ _ _ h => (by cases h), fun _ => ⟨d₁, Attempt.bind_error hrun⟩⟩
  · obtain ⟨d₁, hrun, hstream⟩ := hended _ _ _ hp
    refine ⟨fun r rest w h => ?_, fun h => (by cases h)⟩
    cases h
    exact ⟨d₁, Attempt.bind_error hrun, hstream.trans (congrArg (fun out =>
      { d.stream with input := rest₁, output := d.stream.output ++ out }) (List.append_nil w₁).symm)⟩
  · obtain ⟨d₁, hrun, hstream⟩ := hended _ _ _ hp
    obtain ⟨hended₁, hblocked₁⟩ := hf a d₁ (by rw [hstream]; exact hroom)
    rw [hstream] at hended₁ hblocked₁
    rw [Attempt.bind_ok hrun]
    refine ⟨fun r rest w h => ?_, hblocked₁⟩
    obtain ⟨hr, h⟩ := Prod.mk.inj h
    obtain ⟨hrest, rfl⟩ := Prod.mk.inj h
    obtain ⟨d₂, hrun₂, hstream₂⟩ := hended₁ r rest _ (Prod.ext hr (Prod.ext hrest rfl))
    exact ⟨d₂, hrun₂, by rw [hstream₂, List.append_assoc]; rfl⟩

theorem follows_pure (a : α) : Follows (pure a) (pure a) := by
  refine fun d _ => ⟨fun r rest w h => ?_, fun h => (by cases h)⟩
  cases h
  exact ⟨d, rfl, by rw [List.append_nil]⟩

theorem follows_fail (e : OxiHttpError) : Follows (.fail e : Attempt Dialogue α) (.fail e) := by
  refine fun d _ => ⟨fun r rest w h => ?_, fun h => (by cases h)⟩
  cases h
  exact ⟨d, rfl, by rw [List.append_nil]⟩

theorem follows_say (step : OxiHttp.Step) (bs : List UInt8) : Follows (say step bs) (.say bs) := by
  refine fun d hroom => ⟨fun r rest w h => ?_, fun h => (by cases h)⟩
  cases h
  exact ⟨_, run_say hroom step bs, congrArg (fun out =>
    { d.stream with output := d.stream.output ++ out }) (List.append_nil bs).symm⟩

theorem follows_hear (n : ℕ) : Follows (hear n) (.hear n) := by
  intro d _
  have halone : Party.alone (Program.hear n : Program UInt8 OxiHttpError _) d.stream.input =
      if n ≤ d.stream.input.length then
        (some (.ok (d.stream.input.take n)), d.stream.input.drop n, [])
      else (none, d.stream.input, []) := rfl
  rw [halone, hear]
  dsimp only
  split_ifs with hn
  · refine ⟨fun r rest w h => ?_, fun h => (by cases h)⟩
    cases h
    exact ⟨_, rfl, by rw [List.append_nil]⟩
  · exact ⟨fun r rest w h => (by cases h), fun _ => ⟨_, rfl⟩⟩

theorem Follows.ite {c : Prop} [Decidable c] {x y : Attempt Dialogue α}
    {p q : Program UInt8 OxiHttpError α} (hx : Follows x p) (hy : Follows y q) :
    Follows (if c then x else y) (if c then p else q) := by
  split_ifs
  · exact hx
  · exact hy

end Follows

theorem follows_selectMethod (auth : Option (Str × Str)) :
    Follows (OxiHttp.selectMethod auth) (selectMethod auth) :=
  (follows_say _ _).bind fun _ => (follows_hear 2).bind fun _ =>
    (follows_fail _).ite ((follows_fail _).ite (follows_pure _))

theorem follows_authenticate (auth : Option (Str × Str)) (selected : UInt8) :
    Follows (OxiHttp.authenticate auth selected) (authenticate auth selected) := by
  refine Follows.ite ?_ (follows_pure _)
  cases auth with
  | none => exact follows_fail _
  | some up =>
      exact (follows_say _ _).bind fun _ => (follows_hear 2).bind fun _ =>
        (follows_fail _).ite (follows_pure _)

theorem follows_skip (n : ℕ) :
    Follows (do let _ ← OxiHttp.hear n; return () : Attempt Dialogue Unit) (skip n) :=
  (follows_hear n).bind fun _ => follows_pure _

theorem follows_readReply : Follows OxiHttp.readReply readReply := by
  refine (follows_hear 4).bind fun hdr => (follows_fail _).ite (Follows.bind ?_ fun _ =>
    follows_skip 2)
  exact (follows_skip 4).ite ((follows_skip 16).ite
    (((follows_hear 1).bind fun _ => follows_skip _).ite (follows_fail _)))

/-- **The party does what the connector does** on a connection. -/
theorem follows_handshake (auth : Option (Str × Str)) (host : Str) (port : UInt16) :
    Follows (OxiHttp.handshake auth host port) (handshake auth host port) :=
  (follows_selectMethod auth).bind fun _ => (follows_authenticate auth _).bind fun _ =>
    (follows_say _ _).bind fun _ => follows_readReply

/-- What the connector reads without writing, the party does. -/
theorem Follows.hears {α : Type} {x : Attempt Dialogue α} {p : Program UInt8 OxiHttpError α}
    (h : Follows x p) {bs rest : List UInt8} {a : α}
    (hrun : x.run { stream := { input := bs } } =
      (.ok a, Dialogue.heard { stream := { input := bs } } rest)) : Hears p bs a rest := by
  obtain ⟨hended, hblocked⟩ := h { stream := { input := bs } } rfl
  rw [hrun] at hended hblocked
  rw [Hears]
  rcases hp : Party.alone p bs with ⟨_ | r, rest', w⟩
  · obtain ⟨d', h⟩ := hblocked (by rw [hp])
    cases h
  · obtain ⟨d', h, hstream⟩ := hended r rest' w hp
    cases h
    obtain ⟨rfl, rfl⟩ : rest = rest' ∧ [] = w := by
      simpa [Dialogue.heard] using hstream
    rfl

/-- An answer that grants the request. -/
theorem hears_readReply {answer : Socks5.Answer} (hcode : answer.code = 0x00)
    (said : List UInt8) : Hears readReply (answer.bytes ++ said) () said := by
  have hparse : Socks5.parseReply (answer.bytes ++ said) = some (⟨0x05, answer.code, answer.bound,
      BigEndian.ofBytes [answer.port.1, answer.port.2]⟩, said) := by
    have haddress := Socks5.takeAddress_bytes answer.bound_fits
      (answer.port.1 :: answer.port.2 :: said)
    simp [Socks5.Answer.bytes, Socks5.parseReply, haddress]
  exact follows_readReply.hears (run_readReply hparse hcode)

end Talk

/-! ### The talk -/

/-- What the connector is to make of what the proxy has decided: it fails, or has the connection and
what the target says on it. -/
def Concludes (policy : Socks5.Policy) (r : Except OxiHttpError Unit) (unread : List UInt8) :
    Except Socks5.Refusal Socks5.Opened → Prop
  | .ok opened => r = .ok () ∧ unread = policy.said opened.address opened.port
  | .error _ => ∃ e, r = .error e

section

variable (policy : Socks5.Policy) (auth : Option (Str × Str)) {host : Str} {port : UInt16}
  {address : Socks5.Address} {n : ℕ}

theorem talk_request (creds : Option (List UInt8 × List UInt8))
    (hconnect : Socks5.parseConnect (connectBytes host port) = some (address, n)) :
    ∃ r u, Ends (Side.at (do .say (connectBytes host port); Talk.readReply :
        Program UInt8 OxiHttpError Unit) [], Side.at (Socks5.serve policy creds) [])
      r u (policy.decided creds address n) [] ∧
      Concludes policy r u (policy.decided creds address n) := by
  let answer := policy.answer address n
  have hheard : ∀ r u outcome,
      Ends (Side.at Talk.readReply answer.bytes,
        Side.at (if answer.code ≠ 0x00 then .fail .target
          else do
            .say (policy.said address n)
            return ⟨creds, address, n⟩ : Program UInt8 Socks5.Refusal Socks5.Opened) [])
        r u outcome [] →
      Ends (Side.at (do .say (connectBytes host port); Talk.readReply :
        Program UInt8 OxiHttpError Unit) [], Side.at (Socks5.serve policy creds) [])
        r u outcome [] := fun r u outcome h =>
    .left_writes (.right_hears (Socks5.hears_connect hconnect) (.right_writes h))
  rw [Socks5.Policy.decided]
  split_ifs with hcode
  · -- the reply is read as far as its code
    have hhead : Hears (.hear 4 : Program UInt8 OxiHttpError (List UInt8)) answer.bytes
        [0x05, answer.code, 0x00, answer.bound.bytes.1]
        (answer.bound.bytes.2 ++ [answer.port.1, answer.port.2]) :=
      hears_hear [0x05, answer.code, 0x00, answer.bound.bytes.1] rfl _
    refine ⟨.error (.connectionPool ("SOCKS5 error code " ++ hexByte04 answer.code)),
      answer.bound.bytes.2 ++ [answer.port.1, answer.port.2],
      hheard _ _ _ (.left_hears hhead ?_), _, rfl⟩
    simp only [List.getD_cons_zero, List.getD_cons_succ]
    rw [if_pos hcode, if_pos hcode]
    exact .done
  · rw [not_not] at hcode
    refine ⟨.ok (), policy.said address n, hheard _ _ _ ?_, rfl, rfl⟩
    rw [if_neg (not_not.2 hcode)]
    exact .right_writes (.left_heard (Talk.hears_readReply hcode _) .done)

/-- What the connector and the proxy are to agree on. -/
def agreed (address : Socks5.Address) (n : ℕ) : Except Socks5.Refusal Socks5.Opened :=
  if policy.select (offered auth) = 0xFF then .error .method
  else
    match if policy.select (offered auth) = 0x02 then auth else none with
    | some (user, pass) =>
        if policy.status (Utf8.encode user) (Utf8.encode pass) ≠ 0x00 then .error .credentials
        else policy.decided (some (Utf8.encode user, Utf8.encode pass)) address n
    | none => policy.decided none address n

theorem hears_method {method : UInt8} (h : method ≠ 0xFF) :
    Hears Talk.hearMethod [0x05, method] method [] := by
  refine (hears_hear [0x05, method] rfl []).bind ?_
  simp only [List.getD_cons_zero, List.getD_cons_succ]
  rw [if_neg (not_not.2 rfl), if_neg h]
  exact hears_pure _ _

theorem alone_hearStatus (status : UInt8) : Party.alone Talk.hearStatus [0x01, status] =
    (some (if status ≠ 0x00 then .error (.connectionPool "SOCKS5 authentication failed")
      else .ok ()), [], []) := by
  change Party.alone (if status ≠ 0x00 then .fail (.connectionPool "SOCKS5 authentication failed")
    else return () : Program UInt8 OxiHttpError Unit) [] = _
  split_ifs <;> rfl

/-- The greeting, and the method that is selected. -/
theorem talk_greeting (auth : Option (Str × Str)) {r : Except OxiHttpError Unit} {u : List UInt8}
    {outcome : Except Socks5.Refusal Socks5.Opened}
    (h : Ends (Side.at (do
          let selected ← Talk.hearMethod
          Talk.authenticate auth selected
          .say (connectBytes host port)
          Talk.readReply : Program UInt8 OxiHttpError Unit) [0x05, policy.select (offered auth)],
        Side.at (if policy.select (offered auth) = 0xFF then .fail .method
          else do
            let creds ← Socks5.credentials policy (policy.select (offered auth))
            Socks5.serve policy creds : Program UInt8 Socks5.Refusal Socks5.Opened) [])
      r u outcome []) :
    Ends (Side.start (Talk.handshake auth host port), Side.start (Socks5.server policy))
      r u outcome [] := by
  have hgreeting : Says auth host port (.greeting, greetingBytes auth) := says_greeting
  exact .left_writes (.right_hears (Socks5.hears_greeting hgreeting) (.right_writes h))

theorem talk_ends (hauth : ∀ user pass, auth = some (user, pass) →
      (Utf8.encode user).length < 256 ∧ (Utf8.encode pass).length < 256)
    (hconnect : Socks5.parseConnect (connectBytes host port) = some (address, n)) :
    ∃ r u, Ends (Side.start (Talk.handshake auth host port), Side.start (Socks5.server policy))
      r u (agreed policy auth address n) [] ∧
      Concludes policy r u (agreed policy auth address n) := by
  rw [agreed]
  split_ifs with hff h2
  · -- no method is selected
    refine ⟨.error (.connectionPool "SOCKS5 proxy rejected all authentication methods"), [],
      talk_greeting policy auth ?_, _, rfl⟩
    have hrefused : Party.alone Talk.hearMethod [0x05, 0xFF] = (some (.error
        (.connectionPool "SOCKS5 proxy rejected all authentication methods")), [], []) := rfl
    rw [if_pos hff, hff]
    exact .left_alone hrefused .done
  · -- the sub-negotiation
    have hoffered := policy.select_offered (offered auth)
    rw [or_iff_right hff, mem_offered_iff, h2] at hoffered
    obtain ⟨⟨user, pass⟩, rfl⟩ := Option.isSome_iff_exists.1
      (hoffered.resolve_left (by decide)).2
    have hparse := parseAuth_authBytes_iff.2 (hauth user pass rfl)
    have hfirst : ∀ r u outcome, Ends (Side.at (do
            (Party.done (if policy.status (Utf8.encode user) (Utf8.encode pass) ≠ 0x00
              then .error (.connectionPool "SOCKS5 authentication failed") else .ok ()) :
                Program UInt8 OxiHttpError Unit)
            .say (connectBytes host port)
            Talk.readReply : Program UInt8 OxiHttpError Unit) [], Side.at (do
            let creds ← (Party.done (if policy.status (Utf8.encode user) (Utf8.encode pass) ≠ 0x00
              then .error .credentials else .ok (some (Utf8.encode user, Utf8.encode pass))) :
                Program UInt8 Socks5.Refusal (Option (List UInt8 × List UInt8)))
            Socks5.serve policy creds : Program UInt8 Socks5.Refusal Socks5.Opened) [])
          r u outcome [] →
        Ends (Side.start (Talk.handshake (some (user, pass)) host port),
          Side.start (Socks5.server policy)) r u outcome [] := by
      intro r u outcome h
      refine talk_greeting policy _ ?_
      rw [if_neg hff, h2]
      refine .left_hears (hears_method (by decide)) (.left_writes ?_)
      exact .right_alone (Socks5.alone_credentials policy hparse)
        (.left_alone (alone_hearStatus _) h)
    dsimp only
    split_ifs with hstatus
    · refine ⟨.error (.connectionPool "SOCKS5 authentication failed"), [], hfirst _ _ _ ?_, _, rfl⟩
      rw [if_pos hstatus, if_pos hstatus]
      exact .done
    · obtain ⟨r, u, hends, hconcludes⟩ := talk_request policy
        (some (Utf8.encode user, Utf8.encode pass)) hconnect
      refine ⟨r, u, hfirst _ _ _ ?_, hconcludes⟩
      rw [if_neg hstatus, if_neg hstatus]
      exact hends
  · -- none
    obtain ⟨r, u, hends, hconcludes⟩ := talk_request policy none hconnect
    refine ⟨r, u, talk_greeting policy auth ?_, hconcludes⟩
    have hclient : Talk.authenticate auth (policy.select (offered auth)) = pure () := if_neg h2
    have hserver : Socks5.credentials policy (policy.select (offered auth)) = pure none := if_neg h2
    rw [if_neg hff]
    refine .left_hears (hears_method hff) ?_
    rw [hclient, hserver]
    exact hends

end

/-- How the talk of a call with a proxy is to end, for what the two are to agree on: the proxy has
decided so, and the call on what the proxy has written returns a stream, from which what the target
says is read, if the proxy has opened the connection, and fails otherwise. -/
structure Socks5Connector.Tunnels (c : Socks5Connector) (uri : Uri) (policy : Socks5.Policy)
    (outcome : Except Socks5.Refusal Socks5.Opened)
    (s : Side UInt8 (Except OxiHttpError Unit) × Side UInt8 (Except Socks5.Refusal Socks5.Opened)) :
    Prop where
  stuck : ∀ t, ¬ Duplex.Step s t
  proxy : s.2.party = .done outcome
  call : ∃ heard answers, Party.After (Socks5.server policy) heard answers s.2.party ∧
    match outcome with
    | .ok opened => ∃ stream, (c.call (fun _ => ⟨false, .ok { input := answers }⟩) uri).1 =
        .ok stream ∧ stream.input = policy.said opened.address opened.port
    | .error _ => ∃ e, (c.call (fun _ => ⟨false, .ok { input := answers }⟩) uri).1 = .error e

/-- **Every talk ends as it should.**  Whatever has happened between the connector and the proxy, it
cannot go on for ever, and it can go on until the two have come to an end and agree: on the method,
the credentials, the address and the port of the URI, and the answer of the proxy. -/
theorem socks5_tunnels {c : Socks5Connector} {uri : Uri} {proxy : Str × UInt16} {host : Str}
    {port : UInt16} (hproxy : uriHostPort c.proxyUri = .ok proxy)
    (huri : uriHostPort uri = .ok (host, port))
    (hauth : ∀ user pass, c.auth = some (user, pass) →
      (Utf8.encode user).length < 256 ∧ (Utf8.encode pass).length < 256)
    (h6 : ¬ IsIpv6Literal host)
    (hfits : IpAddr.isIpv4 host = true ∨ (Utf8.encode host).length < 256)
    (policy : Socks5.Policy)
    (s : Side UInt8 (Except OxiHttpError Unit) × Side UInt8 (Except Socks5.Refusal Socks5.Opened))
    (hruns : Relation.ReflTransGen Duplex.Step
      (Side.start (Talk.handshake c.auth host port), Side.start (Socks5.server policy)) s) :
    Acc (fun b a => Duplex.Step a b) s ∧
      ∃ t, Relation.ReflTransGen Duplex.Step s t ∧
        c.Tunnels uri policy (agreed policy c.auth (targetAddress host) port.toNat) t := by
  have hconnect : Socks5.parseConnect (connectBytes host port) =
      some (targetAddress host, port.toNat) :=
    (parseConnect_connectBytes_iff (uriHostPort_host huri)).2 ⟨h6, hfits⟩
  obtain ⟨r, u, hends, hconcludes⟩ := talk_ends policy c.auth hauth hconnect
  have hgoes := (hends.of_runs hruns).runs
  refine ⟨Duplex.wellFounded_step.apply s, _, hgoes, Ends.stuck, rfl, ?_⟩
  -- what the connector has become is what it makes of the answers
  obtain ⟨answers, ⟨heard, hheard⟩, halone, hunread⟩ :=
    (Duplex.reached_of_runs (hruns.trans hgoes)).alone rfl
  obtain ⟨d', hrun, hstream⟩ := (Talk.follows_handshake c.auth host port
    { stream := { input := answers } } rfl).1 r u _
      (Prod.ext halone (Prod.ext (hunread.trans (List.append_nil u)) rfl))
  refine ⟨heard, answers, hheard, ?_⟩
  rw [call_opened _ _ hproxy huri, hrun]
  cases hagreed : agreed policy c.auth (targetAddress host) port.toNat with
  | error e =>
      rw [hagreed] at hconcludes
      obtain ⟨e', rfl⟩ := hconcludes
      exact ⟨e', rfl⟩
  | ok opened =>
      rw [hagreed] at hconcludes
      obtain ⟨rfl, rfl⟩ := hconcludes
      exact ⟨d'.stream, rfl, by rw [hstream]⟩

/-- A proxy that grants everything, and a target that says `hi`. -/
def grantingPolicy : Socks5.Policy where
  select methods := if 0x02 ∈ methods then 0x02 else if 0x00 ∈ methods then 0x00 else 0xFF
  select_offered methods := by
    split_ifs with h2 h0
    · exact .inr h2
    · exact .inr h0
    · exact .inl rfl
  status _ _ := 0x00
  answer _ _ := ⟨0x00, .ipv4 [0, 0, 0, 0], (0, 0), rfl⟩
  said _ _ := Utf8.encode "hi".toList

/-- The target `http://t.test/`. -/
def namedTarget : Uri where
  scheme := some "http".toList
  authority := some ⟨"t.test".toList, "t.test".toList, none, by decide⟩
  path := "/".toList
  path_delimited := root_delimited
  query_delimited := noQuery_delimited

theorem socks5_tunnels_granted :
    Acc (fun b a => Duplex.Step a b) (Side.start (Talk.handshake none "t.test".toList 80),
      Side.start (Socks5.server grantingPolicy)) ∧
      ∃ t, Relation.ReflTransGen Duplex.Step (Side.start (Talk.handshake none "t.test".toList 80),
          Side.start (Socks5.server grantingPolicy)) t ∧
        plainConnector.Tunnels namedTarget grantingPolicy
          (.ok ⟨none, .domain (Utf8.encode "t.test".toList), 80⟩) t :=
  socks5_tunnels (show uriHostPort plainConnector.proxyUri = .ok ("p.test".toList, 1080) from rfl)
    (show uriHostPort namedTarget = .ok ("t.test".toList, 80) from rfl) (by rintro _ _ ⟨⟩)
    (by decide) (.inr (by decide)) grantingPolicy _ .refl

end OxiHttp
