/-
**Domain matching.**

RFC 6265 §5.1.3 lets a host match a domain that it ends in after a dot, unless the host is an IP
address.  `domain_match` makes this exception when the domain is one, and it takes what stands
before the first colon of the host for the host, which it is not for an IPv6 address.

Main definitions:

* `OxiHttp.MatchesRightly` — the cases in which this is right.

Main results:

* `OxiHttp.dot_notMem_beforeColon` — what stands before the first colon of an IPv6 address has no
  dot.
-/

import OxiHttp.CookieScope
import OxiHttp.HostText

set_option relaxedAutoImplicit false
set_option autoImplicit false

namespace OxiHttp

/-! ### IPv6 addresses -/

/-- A dot stands in no group. -/
theorem dot_notMem_group {s : Str} (h : IpAddr.isGroup s = true) : '.' ∉ s := by
  simp only [IpAddr.isGroup, Bool.and_eq_true, List.all_eq_true] at h
  exact fun hmem => absurd (h.2 _ hmem) (by decide)

/-- The first of several pieces is a group, and so is a single one that may not be an IPv4 address.
-/
theorem dot_notMem_first {v4 : Bool} {s : Str} {n : ℕ}
    (h : IpAddr.countGroups v4 (s.splitOn ':') = some n) (hfirst : v4 = false ∨ ':' ∈ s) :
    '.' ∉ beforeColon s := by
  by_cases hcolon : ':' ∈ s
  · obtain ⟨a, b, rfl, ha⟩ := List.eq_append_cons_of_mem hcolon
    obtain ⟨p, ps, hps⟩ := List.exists_cons_of_ne_nil (List.splitOn_ne_nil ':' b)
    rw [List.splitOn_append_cons_self_of_not_mem ha, hps, IpAddr.countGroups] at h
    · rw [beforeColon_append, beforeColon_of_notMem ha]
      split at h
      case isTrue hg => exact dot_notMem_group hg
      case isFalse => cases h
    · exact List.cons_ne_nil p ps
  · rw [List.splitOn_eq_singleton hcolon, IpAddr.countGroups, hfirst.resolve_right hcolon] at h
    rw [beforeColon_of_notMem hcolon]
    split at h
    case isTrue hg => exact dot_notMem_group hg
    case isFalse => cases h

/-- No dot stands before the first colon of an IPv6 address. -/
theorem dot_notMem_beforeColon {a : Str} (h : IpAddr.isIpv6 a = true) : '.' ∉ beforeColon a := by
  have hcolon := IpAddr.colon_mem_of_isIpv6 h
  unfold IpAddr.isIpv6 at h
  split at h
  case h_1 => exact dot_notMem_first (by simpa using h) (.inr hcolon)
  case h_2 l r hs =>
      rw [IpAddr.splitDouble_eq hs, beforeColon_append]
      split at h
      case h_1 m n hm hn =>
          by_cases hnil : l = []
          · subst hnil
            exact List.not_mem_nil
          · have hsides : IpAddr.sidePieces l = l.splitOn ':' := if_neg (by simpa using hnil)
            rw [hsides] at hm
            exact dot_notMem_first hm (.inl rfl)
      case h_2 => cases h

/-! ### The match -/

/-- The host is no IPv6 address, and when it ends in the domain after a dot then both or none of
them is an IPv4 address; or it is an IPv6 address, and the domain is neither this nor what stands
before its first colon. -/
def MatchesRightly (host d : Str) : Prop :=
  if ':' ∈ host then lower host ≠ d ∧ beforeColon (lower host) ≠ d
  else '.' :: d <:+ lower host → IpAddr.isIpAddr d = isIpHost host

theorem domainAttr_eq_self {d : Str} (hdot : d.head? ≠ some '.') : domainAttr d = d := by
  have hstrip : stripPfx ['.'] d = none := by
    rw [Option.eq_none_iff_forall_ne_some]
    intro t ht
    rw [stripPfx_eq_some_iff.1 ht] at hdot
    exact hdot rfl
  rw [domainAttr, hstrip, Option.getD_none]

/-- What stands before the first colon of a host that is an address has no dot. -/
theorem dot_notMem_of_isHost {host : Str} (hhost : IsHost host) (hcolon : ':' ∈ host) :
    '.' ∉ beforeColon (lower host) := by
  cases hhost with
  | name h => exact absurd hcolon (notMem_of_regName h (by decide))
  | ipv6 h =>
      obtain ⟨t, rest, rfl, ht⟩ := List.eq_append_cons_of_mem (IpAddr.colon_mem_of_isIpv6 h)
      have hdot := dot_notMem_beforeColon h
      rw [beforeColon_append, beforeColon_of_notMem ht] at hdot
      have hform :
          '[' :: (t ++ ':' :: rest ++ [']']) = ('[' :: t) ++ ':' :: (rest ++ [']']) := by simp
      rw [hform, ← lower_beforeColon, mem_lower_iff (by decide), beforeColon_append,
        beforeColon_of_notMem (by simp [ht])]
      simp [hdot]

section

variable {d host : Str}

/-- An address has no suffix after a dot, so it matches only what is taken for it or itself. -/
theorem matchesRightly_address (hhost : IsHost host) (hcolon : ':' ∈ host) :
    ((beforeColon (lower host) = d ∨
        '.' :: d <:+ beforeColon (lower host) ∧ IpAddr.isIpAddr d = false) ↔
      (lower host = d ∨ '.' :: d <:+ lower host ∧ isIpHost host = false)) ↔
      lower host ≠ d ∧ beforeColon (lower host) ≠ d := by
  have hip : isIpHost host = true := by simp [isIpHost, hhost.colon_mem_iff.1 hcolon]
  have hnosuffix : ¬ '.' :: d <:+ beforeColon (lower host) := fun h =>
    dot_notMem_of_isHost hhost hcolon (h.subset List.mem_cons_self)
  have hne : beforeColon (lower host) ≠ lower host := by
    intro heq
    have hmem : ':' ∈ lower host := (mem_lower_iff (by decide)).2 hcolon
    rw [← heq] at hmem
    exact colon_notMem_beforeColon _ hmem
  simp only [hip, hnosuffix, false_and, or_false, Bool.true_eq_false, and_false]
  constructor
  · intro h
    refine ⟨fun heq => hne ?_, fun heq => hne ?_⟩
    · rw [h.2 heq, heq]
    · rw [heq, h.1 heq]
  · rintro ⟨hwhole, hbefore⟩
    exact iff_of_false hbefore hwhole

/-- Of a name the port is all that is cut off, and only the test for an address differs. -/
theorem matchesRightly_name (hcolon : ':' ∉ host) :
    ((beforeColon (lower host) = d ∨
        '.' :: d <:+ beforeColon (lower host) ∧ IpAddr.isIpAddr d = false) ↔
      (lower host = d ∨ '.' :: d <:+ lower host ∧ isIpHost host = false)) ↔
      ('.' :: d <:+ lower host → IpAddr.isIpAddr d = isIpHost host) := by
  rw [beforeColon_of_notMem (by rwa [mem_lower_iff (by decide)])]
  constructor
  · intro h hsuffix
    have hne : lower host ≠ d := by
      intro heq
      have := hsuffix.length_le
      rw [heq, List.length_cons] at this
      omega
    simp only [hne, hsuffix, true_and, false_or] at h
    rw [Bool.eq_iff_iff, ← not_iff_not, Bool.not_eq_true, Bool.not_eq_true]
    exact h
  · intro h
    refine or_congr_right (and_congr_right fun hsuffix => ?_)
    rw [h hsuffix]

end

/-- **A host matches a domain as RFC 6265 wants it exactly when** this is one of the cases in which
the function makes no difference between the host and what it takes for it. -/
theorem domainMatch_exact_iff {d host : Str} (hlower : lower d = d) (hdot : d.head? ≠ some '.')
    (hhost : IsHost host) (port : Option Str) :
    (domainMatch d (withPort host port) = true ↔ DomainMatches host d) ↔
      MatchesRightly host d := by
  have hcut : beforeColon (lower (withPort host port)) = beforeColon (lower host) := by
    rw [← lower_beforeColon, beforeColon_withPort, lower_beforeColon]
  rw [domainMatch_iff hlower hdot, hcut, DomainMatches, domainAttr_eq_self hdot, hlower,
    MatchesRightly]
  by_cases hcolon : ':' ∈ host
  · rw [if_pos hcolon]
    exact matchesRightly_address hhost hcolon
  · rw [if_neg hcolon]
    exact matchesRightly_name hcolon

theorem domainMatch_exact_shop :
    domainMatch "example.com".toList "Shop.example.com:8080".toList = true ↔
      DomainMatches "Shop.example.com".toList "example.com".toList :=
  (@domainMatch_exact_iff "example.com".toList "Shop.example.com".toList (by decide) (by decide)
    (.name (by decide)) (some "8080".toList)).2 (by
      rw [MatchesRightly, if_neg (by decide)]
      decide +kernel)

/-- A cookie for `3.4` is for `1.2.3.4`. -/
theorem not_domainMatch_exact_address :
    domainMatch "3.4".toList "1.2.3.4".toList = true ∧
      ¬ DomainMatches "1.2.3.4".toList "3.4".toList := by
  decide +kernel

end OxiHttp
