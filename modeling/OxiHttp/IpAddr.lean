/-
**The text forms of IP addresses.**

The texts the standard library of the source language reads as an IP address: an IPv4 address in
dotted decimal without leading zeros, or an IPv6 address with at most one `::`, which may end in an
IPv4 address.

Main definitions:

* `IpAddr.isIpv4`, `IpAddr.isIpv6` — the two forms;
* `IpAddr.parse` — the address a text stands for.

Main results:

* `IpAddr.isAddrChar_ipv4`, `IpAddr.isAddrChar_ipv6` — the characters of an address;
* `IpAddr.colon_mem_of_isIpv6` — an IPv6 address has a colon;
* `IpAddr.not_isIpAddr_of_bracket` — an address in brackets is not one of these texts.
-/

import OxiHttp.BigEndian
import OxiHttp.Pieces
import Mathlib.Data.List.Basic

set_option relaxedAutoImplicit false
set_option autoImplicit false

namespace IpAddr

/-- A decimal octet: no leading zero, at most 255. -/
def isOctet (s : List Char) : Bool :=
  !s.isEmpty && s.length ≤ 3 && s.all Char.isDigit && (s.length == 1 || s.head? != some '0') &&
    s.foldl (fun n c => 10 * n + (c.toNat - 0x30)) 0 ≤ 255

/-- An IPv4 address. -/
def isIpv4 (s : List Char) : Bool :=
  (s.splitOn '.').length == 4 && (s.splitOn '.').all isOctet

/-- A group of an IPv6 address: one to four hex digits. -/
def isGroup (s : List Char) : Bool :=
  !s.isEmpty && s.length ≤ 4 &&
    s.all fun c => c.isDigit || ('a' ≤ c && c ≤ 'f') || ('A' ≤ c && c ≤ 'F')

/-- The number of 16-bit groups in a list of pieces.  The last piece may be an IPv4 address, which
counts for two, where that is allowed. -/
def countGroups (v4 : Bool) : List (List Char) → Option ℕ
  | [] => some 0
  | [p] => if isGroup p then some 1 else if v4 && isIpv4 p then some 2 else none
  | p :: ps => if isGroup p then (countGroups v4 ps).map (· + 1) else none

/-- The text before and after the first `::`. -/
def splitDouble : List Char → Option (List Char × List Char)
  | ':' :: ':' :: s => some ([], s)
  | c :: s => (splitDouble s).map fun p => (c :: p.1, p.2)
  | [] => none

/-- The pieces on one side of a `::`. -/
def sidePieces (s : List Char) : List (List Char) := if s.isEmpty then [] else s.splitOn ':'

/-- An IPv6 address.  A `::` stands for at least one group. -/
def isIpv6 (s : List Char) : Bool :=
  match splitDouble s with
  | none => countGroups true (s.splitOn ':') == some 8
  | some (a, b) =>
      match countGroups false (sidePieces a), countGroups true (sidePieces b) with
      -- at least one of the eight groups is left to the `::`
      | some m, some n => m + n ≤ 7
      | _, _ => false

/-- The text of an IP address. -/
def isIpAddr (s : List Char) : Bool := isIpv4 s || isIpv6 s

example : (["192.0.2.1", "::1", "2001:db8::ffff:192.0.2.1", "1:2:3:4:5:6:7::"].map fun s =>
    isIpAddr s.toList) = [true, true, true, true] := by decide +kernel

example : (["192.0.02.1", "2.1", "[::1]", ":::", "1::2::3", "1:2:3"].map fun s =>
    isIpAddr s.toList) = [false, false, false, false, false, false] := by decide +kernel

/-! ### The addresses -/

/-- An IP address, by its octets. -/
inductive Addr where
  | v4 (octets : List UInt8)
  | v6 (octets : List UInt8)
deriving DecidableEq, Repr

/-- The octets of an IPv4 address. -/
def octetsV4 (s : List Char) : List UInt8 :=
  (s.splitOn '.').map fun p => UInt8.ofNat (p.foldl (fun n c => 10 * n + (c.toNat - 0x30)) 0)

/-- The number a group stands for. -/
def groupValue (s : List Char) : ℕ :=
  s.foldl (fun n c => 16 * n +
    (if c.isDigit then c.toNat - 0x30 else if c.isLower then c.toNat - 0x57 else c.toNat - 0x37)) 0

/-- The octets of the pieces on one side of a `::`. -/
def octetsOfPieces (ps : List (List Char)) : List UInt8 :=
  ps.flatMap fun p => if isGroup p then BigEndian.toBytes 2 (groupValue p) else octetsV4 p

/-- The octets of an IPv6 address, the groups of its `::` filled with zeros. -/
def octetsV6 (s : List Char) : List UInt8 :=
  match splitDouble s with
  | none => octetsOfPieces (s.splitOn ':')
  | some (a, b) =>
      let front := octetsOfPieces (sidePieces a)
      let back := octetsOfPieces (sidePieces b)
      front ++ List.replicate (16 - front.length - back.length) 0 ++ back

/-- The address a text stands for. -/
def parse (s : List Char) : Option Addr :=
  if isIpv4 s then some (.v4 (octetsV4 s))
  else if isIpv6 s then some (.v6 (octetsV6 s))
  else none

example : (["192.0.2.1", "2001:db8::ffff:192.0.2.1", "[::1]"].map fun s => parse s.toList)
    = [some (.v4 [192, 0, 2, 1]),
      some (.v6 [0x20, 1, 0x0D, 0xB8, 0, 0, 0, 0, 0, 0, 0xFF, 0xFF, 192, 0, 2, 1]), none] := by
  decide +kernel

theorem length_octetsV4 {s : List Char} (h : isIpv4 s = true) : (octetsV4 s).length = 4 := by
  simp only [isIpv4, Bool.and_eq_true, beq_iff_eq] at h
  rw [octetsV4, List.length_map, h.1]

/-! ### The characters that occur -/

/-- A character of an address: a hex digit, a dot or a colon. -/
def isAddrChar (c : Char) : Bool :=
  c.isDigit || ('a' ≤ c && c ≤ 'f') || ('A' ≤ c && c ≤ 'F') || c == '.' || c == ':'

theorem isAddrChar_of_isDigit {c : Char} (h : c.isDigit = true) : isAddrChar c = true := by
  simp [isAddrChar, h]

theorem isAddrChar_octet {s : List Char} (h : isOctet s = true) {c : Char} (hc : c ∈ s) :
    isAddrChar c = true := by
  simp only [isOctet, Bool.and_eq_true, List.all_eq_true] at h
  exact isAddrChar_of_isDigit (h.1.1.2 c hc)

theorem isAddrChar_ipv4 {s : List Char} (h : isIpv4 s = true) {c : Char} (hc : c ∈ s) :
    isAddrChar c = true := by
  simp only [isIpv4, Bool.and_eq_true, List.all_eq_true] at h
  by_cases hdot : c = '.'
  · rw [hdot]
    rfl
  · obtain ⟨p, hp, hmem⟩ := Pieces.mem_splitOn '.' hc hdot
    exact isAddrChar_octet (h.2 p hp) hmem

theorem isAddrChar_group {s : List Char} (h : isGroup s = true) {c : Char} (hc : c ∈ s) :
    isAddrChar c = true := by
  simp only [isGroup, Bool.and_eq_true, List.all_eq_true] at h
  have := h.2 c hc
  rw [isAddrChar, this]
  rfl

/-- The pieces of an IPv6 address have such characters only. -/
theorem isAddrChar_pieces {v4 : Bool} {ps : List (List Char)} {n : ℕ}
    (h : countGroups v4 ps = some n) : ∀ p ∈ ps, ∀ c ∈ p, isAddrChar c = true := by
  fun_induction countGroups v4 ps generalizing n with
  | case1 => simp
  | case2 p hg => simpa using fun c hc => isAddrChar_group hg hc
  | case3 p hg hv =>
      rw [Bool.and_eq_true] at hv
      simpa using fun c hc => isAddrChar_ipv4 hv.2 hc
  | case4 => cases h
  | case5 p ps hne hg ih =>
      obtain ⟨m, hm, -⟩ := Option.map_eq_some_iff.1 h
      intro q hq
      rcases List.mem_cons.1 hq with rfl | hq
      · exact fun c hc => isAddrChar_group hg hc
      · exact ih hm q hq
  | case6 => cases h

/-- So does what a colon separates. -/
theorem isAddrChar_of_splitOn {s : List Char}
    (h : ∀ p ∈ s.splitOn ':', ∀ c ∈ p, isAddrChar c = true) {c : Char} (hc : c ∈ s) :
    isAddrChar c = true := by
  by_cases hcolon : c = ':'
  · rw [hcolon]
    rfl
  · obtain ⟨p, hp, hmem⟩ := Pieces.mem_splitOn ':' hc hcolon
    exact h p hp c hmem

theorem isAddrChar_side {v4 : Bool} {s : List Char} {n : ℕ}
    (h : countGroups v4 (sidePieces s) = some n) {c : Char} (hc : c ∈ s) :
    isAddrChar c = true := by
  have hne : s.isEmpty = false := by cases s <;> simp_all
  rw [sidePieces, hne] at h
  exact isAddrChar_of_splitOn (isAddrChar_pieces h) hc

/-- The two sides of a `::` and the two colons are the whole text. -/
theorem splitDouble_eq {s a b : List Char} (h : splitDouble s = some (a, b)) :
    s = a ++ ':' :: ':' :: b := by
  fun_induction splitDouble s generalizing a b with
  | case1 s =>
      cases h
      rfl
  | case2 c s _ ih =>
      obtain ⟨⟨a', b'⟩, h', heq⟩ := Option.map_eq_some_iff.1 h
      cases heq
      rw [ih h', List.cons_append]
  | case3 => cases h

theorem isAddrChar_ipv6 {s : List Char} (h : isIpv6 s = true) {c : Char} (hc : c ∈ s) :
    isAddrChar c = true := by
  unfold isIpv6 at h
  split at h
  case h_1 => exact isAddrChar_of_splitOn (isAddrChar_pieces (by simpa using h)) hc
  case h_2 a b hs =>
      split at h
      case h_1 m n hm hn =>
          rw [splitDouble_eq hs] at hc
          rcases List.mem_append.1 hc with hc | hc
          · exact isAddrChar_side hm hc
          · rcases List.mem_cons.1 hc with rfl | hc
            · rfl
            rcases List.mem_cons.1 hc with rfl | hc
            · rfl
            exact isAddrChar_side hn hc
      case h_2 => cases h

/-- An address in brackets is not one of these texts. -/
theorem not_isIpAddr_of_bracket {s : List Char} (h : '[' ∈ s) :
    isIpv4 s = false ∧ isIpv6 s = false := by
  have hbracket : isAddrChar '[' = false := by decide
  constructor
  · by_contra h4
    rw [isAddrChar_ipv4 (by simpa using h4) h] at hbracket
    cases hbracket
  · by_contra h6
    rw [isAddrChar_ipv6 (by simpa using h6) h] at hbracket
    cases hbracket

/-- An IPv6 address has a colon. -/
theorem colon_mem_of_isIpv6 {s : List Char} (h : isIpv6 s = true) : ':' ∈ s := by
  unfold isIpv6 at h
  split at h
  case h_1 =>
      -- without a colon there is one piece only, and it counts for two groups at most
      by_contra hmem
      rw [List.splitOn_eq_singleton hmem] at h
      simp only [countGroups] at h
      split at h
      · cases h
      · split at h <;> cases h
  case h_2 a b hs => simp [splitDouble_eq hs]

end IpAddr
