/-
**The messages of SOCKS version 5.**

RFC 1928 and RFC 1929 describe what a client and a proxy say to each other before the proxied
connection begins.  Texts and names are length-prefixed fields, with one byte for the length.  The
parsers here read what one side sent the way the other side has to.

Main definitions:

* `Socks5.Address` — the three kinds of address;
* `Socks5.parseGreeting`, `Socks5.parseAuth`, `Socks5.parseConnect` — the messages of the client;
* `Socks5.parseMethod`, `Socks5.parseStatus`, `Socks5.parseReply` — the answers of the proxy.

Main results:

* `Socks5.takeField_field` — a field that fits its length byte is read back;
* `Socks5.takeField_length` — no field that is read is longer than 255 bytes.
-/

import OxiHttp.BigEndian

set_option relaxedAutoImplicit false
set_option autoImplicit false

namespace Socks5

/-- An address, by the type that its message gives it. -/
inductive Address where
  | ipv4 (octets : List UInt8)
  | ipv6 (octets : List UInt8)
  | domain (name : List UInt8)
deriving DecidableEq, Repr

/-! ### Fields -/

/-- A field behind its length.  A length above 255 is cut down to its lowest byte. -/
def field (bs : List UInt8) : List UInt8 := UInt8.ofNat bs.length :: bs

/-- Reading a field behind its length. -/
def takeField : List UInt8 → Option (List UInt8 × List UInt8)
  | [] => none
  | n :: rest =>
      if n.toNat ≤ rest.length then some (rest.take n.toNat, rest.drop n.toNat) else none

/-- A field that fits its length byte is read back. -/
theorem takeField_field {bs : List UInt8} (h : bs.length < 256) (rest : List UInt8) :
    takeField (field bs ++ rest) = some (bs, rest) := by
  have hlen : (UInt8.ofNat bs.length).toNat = bs.length := by
    rw [UInt8.toNat_ofNat']
    exact Nat.mod_eq_of_lt h
  rw [field, List.cons_append, takeField, hlen, if_pos (by simp)]
  simp

/-- A field that is read has at most 255 bytes. -/
theorem takeField_length {bs a rest : List UInt8} (h : takeField bs = some (a, rest)) :
    a.length < 256 := by
  cases bs with
  | nil => cases h
  | cons n bs =>
      rw [takeField] at h
      split at h
      · cases h
        exact lt_of_le_of_lt (List.length_take_le _ _) n.toNat_lt
      · cases h

/-- An address behind its type byte. -/
def takeAddress (atyp : UInt8) (bs : List UInt8) : Option (Address × List UInt8) :=
  if atyp = 0x01 then
    if 4 ≤ bs.length then some (.ipv4 (bs.take 4), bs.drop 4) else none
  else if atyp = 0x04 then
    if 16 ≤ bs.length then some (.ipv6 (bs.take 16), bs.drop 16) else none
  else if atyp = 0x03 then (takeField bs).map fun p => (.domain p.1, p.2)
  else none

/-! ### What the client says -/

/-- The methods a greeting offers. -/
def parseGreeting : List UInt8 → Option (List UInt8)
  | 0x05 :: n :: methods => if methods.length = n.toNat then some methods else none
  | _ => none

/-- The user name and the password of a sub-negotiation. -/
def parseAuth : List UInt8 → Option (List UInt8 × List UInt8)
  | 0x01 :: bs => do
      let (user, bs) ← takeField bs
      let (pass, bs) ← takeField bs
      if bs = [] then some (user, pass) else none
  | _ => none

/-- The address and the port of a CONNECT request. -/
def parseConnect : List UInt8 → Option (Address × ℕ)
  | 0x05 :: 0x01 :: 0x00 :: atyp :: bs => do
      let (address, bs) ← takeAddress atyp bs
      match bs with
      | [hi, lo] => some (address, BigEndian.ofBytes [hi, lo])
      | _ => none
  | _ => none

/-! ### What the proxy says -/

/-- The method that the proxy selects. -/
def parseMethod : List UInt8 → Option (UInt8 × List UInt8)
  | 0x05 :: method :: bs => some (method, bs)
  | _ => none

/-- The status of the sub-negotiation. -/
def parseStatus : List UInt8 → Option (UInt8 × List UInt8)
  | _ :: status :: bs => some (status, bs)
  | _ => none

/-- The answer to a CONNECT request. -/
structure Reply where
  version : UInt8
  code : UInt8
  address : Address
  port : ℕ
deriving DecidableEq, Repr

/-- The answer to a CONNECT request at the head of the input. -/
def parseReply : List UInt8 → Option (Reply × List UInt8)
  | version :: code :: _ :: atyp :: bs => do
      let (address, bs) ← takeAddress atyp bs
      match bs with
      | hi :: lo :: bs => some (⟨version, code, address, BigEndian.ofBytes [hi, lo]⟩, bs)
      | _ => none
  | _ => none

end Socks5
