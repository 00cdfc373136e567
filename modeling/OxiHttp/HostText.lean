/-
**The text of a host.**

The host of a URL or of a `Host` header is a registered name, an IPv4 address or an IPv6 address in
brackets, and a colon and a port may follow it.  Only the last of the three has colons of its own:
to cut at the first colon strips the port from the others and breaks this one.

Main definitions:

* `OxiHttp.IsHost`, `OxiHttp.IsPort`, `OxiHttp.withPort` — hosts, ports, and a host with a port.

Main results:

* `OxiHttp.beforeColon_withPort` — a port does not change what stands before the first colon;
* `OxiHttp.IsHost.isVisible_withPort` — a host with its port is visible text;
* `OxiHttp.IsHost.colon_mem_iff` — only an address in brackets has a colon;
* `OxiHttp.IsHost.lower_ne_beforeColon` — what stands before it is no host.
-/

import OxiHttp.Decimal
import OxiHttp.Http
import OxiHttp.IpAddr

set_option relaxedAutoImplicit false
set_option autoImplicit false

namespace OxiHttp

open HeaderValue (IsVisible)

/-- A character of a registered name. -/
def isRegNameChar (c : Char) : Bool := c.isAlphanum || "-._~%!$&'()*+,;=".toList.contains c

instance (s : Str) : Decidable (∀ c ∈ s, isRegNameChar c = true) := List.decidableBAll _ s

/-- A host: a registered name or an IPv4 address, or an IPv6 address in brackets. -/
inductive IsHost : Str → Prop where
  | name {s : Str} (h : ∀ c ∈ s, isRegNameChar c = true) : IsHost s
  | ipv6 {a : Str} (h : IpAddr.isIpv6 a = true) : IsHost ('[' :: (a ++ [']']))

/-- A port: the decimal digits of a number of sixteen bits. -/
def IsPort (p : Str) : Prop := Decimal.IsNumeral p ∧ Decimal.value p < 2 ^ 16

instance (p : Str) : Decidable (IsPort p) := inferInstanceAs (Decidable (_ ∧ _))

/-- A host and the port that follows it, if there is one. -/
def withPort (host : Str) : Option Str → Str
  | none => host
  | some p => host ++ ':' :: p

/-- What stands before the first colon does not change with what stands behind one. -/
theorem beforeColon_append (a b : Str) : beforeColon (a ++ ':' :: b) = beforeColon a := by
  induction a with
  | nil => rfl
  | cons c a ih =>
      simp only [beforeColon, List.cons_append, List.takeWhile_cons] at ih ⊢
      split
      · rw [ih]
      · rfl

/-- So the port is gone from it. -/
theorem beforeColon_withPort (host : Str) (port : Option Str) :
    beforeColon (withPort host port) = beforeColon host := by
  cases port with
  | none => rfl
  | some p => exact beforeColon_append host p

/-! ### Characters of a host -/

theorem not_isRegNameChar : (":[]".toList.all fun c => !isRegNameChar c) = true := by decide

theorem notMem_of_regName {s : Str} (h : ∀ c ∈ s, isRegNameChar c = true) {c : Char}
    (hc : c ∈ ":[]".toList) : c ∉ s := by
  intro hmem
  have hnot := List.all_eq_true.1 not_isRegNameChar c hc
  rw [h c hmem] at hnot
  cases hnot

theorem visible_of_isRegNameChar {c : Char} (h : isRegNameChar c = true) :
    0x20 ≤ c.val.toNat ∧ c.val.toNat < 0x7F := by
  unfold isRegNameChar Char.isAlphanum Char.isAlpha Char.isUpper Char.isLower Char.isDigit at h
  simp only [Bool.or_eq_true, Bool.and_eq_true, decide_eq_true_eq, ge_iff_le,
    UInt32.le_iff_toNat_le, List.contains_iff_mem] at h
  rcases h with h | h
  · grind
  · exact (by decide : IsVisible "-._~%!$&'()*+,;=".toList) c h

theorem visible_of_isAddrChar {c : Char} (h : IpAddr.isAddrChar c = true) :
    0x20 ≤ c.val.toNat ∧ c.val.toNat < 0x7F := by
  simp only [IpAddr.isAddrChar, Char.isDigit, Char.le_def, Bool.or_eq_true, Bool.and_eq_true,
    decide_eq_true_eq, ge_iff_le, UInt32.le_iff_toNat_le, beq_iff_eq] at h
  rcases h with (h | rfl) | rfl
  · grind
  · decide
  · decide

namespace IsHost

variable {host : Str}

theorem isVisible (h : IsHost host) : IsVisible host := by
  intro c hc
  cases h with
  | name h => exact visible_of_isRegNameChar (h c hc)
  | ipv6 h =>
      simp only [List.mem_cons, List.mem_append, List.not_mem_nil, or_false] at hc
      rcases hc with rfl | hc | rfl
      · decide
      · exact visible_of_isAddrChar (IpAddr.isAddrChar_ipv6 h hc)
      · decide

/-- Only an address in brackets has a colon. -/
theorem colon_mem_iff (h : IsHost host) : ':' ∈ host ↔ host.head? = some '[' := by
  cases h with
  | name h =>
      refine iff_of_false (notMem_of_regName h (by decide)) fun hhead => ?_
      exact notMem_of_regName h (c := '[') (by decide) (List.mem_of_head? hhead)
  | ipv6 h => exact iff_of_true (by simp [IpAddr.colon_mem_of_isIpv6 h]) rfl

/-- What stands before the colon of an address is no host, whatever the case. -/
theorem lower_ne_beforeColon (h : IsHost host) (hcolon : ':' ∈ host) {other : Str}
    (hother : IsHost other) : lower other ≠ lower (beforeColon host) := by
  have hcut : ':' ∉ lower (beforeColon host) := by
    rw [mem_lower_iff (by decide)]
    exact colon_notMem_beforeColon host
  have hbracket : '[' ∈ lower (beforeColon host) := by
    rw [mem_lower_iff (by decide)]
    obtain ⟨s, rfl⟩ := List.head?_eq_some_iff.1 (h.colon_mem_iff.1 hcolon)
    simp [beforeColon]
  intro heq
  cases hother with
  | name h' =>
      rw [← heq, mem_lower_iff (by decide)] at hbracket
      exact notMem_of_regName h' (by decide) hbracket
  | ipv6 h' =>
      rw [← heq, mem_lower_iff (by decide)] at hcut
      exact hcut (by simp [IpAddr.colon_mem_of_isIpv6 h'])

/-- So a header can have it for its value, and is read. -/
theorem isVisible_withPort (h : IsHost host) {port : Option Str} (hport : ∀ p ∈ port, IsPort p) :
    IsVisible (withPort host port) := by
  cases port with
  | none => exact h.isVisible
  | some p =>
      intro c hc
      rcases List.mem_append.1 hc with hc | hc
      · exact h.isVisible c hc
      rcases List.mem_cons.1 hc with rfl | hc
      · decide
      · exact visible_of_isAddrChar (IpAddr.isAddrChar_of_isDigit ((hport p rfl).1.2 c hc))

end IsHost

end OxiHttp
