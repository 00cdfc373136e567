/-
**Where a redirect leads.**

RFC 9110 resolves the `Location` of a redirect as a URI reference against the URI of the request
(RFC 3986 §5.2).  The client takes a location that is a URI by itself as it is, and appends every
other one to the scheme and the authority of the base.  This module compares the two, for every
base and every location.

Of `Uri::from_str` three things are assumed: only a text with a scheme and an authority is read as a
URI with a scheme; such a URI reports the components of its text, where an empty path is reported as
`/` and the fragment is left out; and an authority is read off its text.

Main definitions:

* `OxiHttp.Uri.Reports`, `OxiHttp.ParsesUri` — the assumptions on the parser;
* `OxiHttp.FollowsRfc` — the result is the reference resolved against the base, or an error;
* `OxiHttp.Resolvable` — the bases and locations on which it is.

Main results:

* `OxiHttp.reports_joinBase` — what is read from the text the client joins;
* `OxiHttp.reports_absolute_iff`, `OxiHttp.reports_relative_iff` — when the two branches agree with
  the resolution;
* `OxiHttp.followsRfc_iff` — the resolution is RFC 3986's exactly on the resolvable locations.
-/

import OxiHttp.Redirect
import OxiHttp.UriReference

set_option relaxedAutoImplicit false
set_option autoImplicit false

namespace OxiHttp

open UriReference

/-! ### The parser -/

/-- The path a URI reports. -/
def reportedPath (path : Str) : Str := if path.isEmpty then "/".toList else path

/-- The URI reports these components. -/
structure Uri.Reports (uri : Uri) (r : Reference) : Prop where
  scheme : uri.scheme.map lower = r.scheme.map lower
  authority : uri.authority.map Authority.text = r.authority
  path : uri.path = reportedPath r.path
  query : uri.query = r.query

/-- What is assumed of `Uri::from_str`. -/
structure ParsesUri (fromStr : Str → Except String Uri) : Prop where
  absolute : ∀ s uri, fromStr s = .ok uri → ∀ scheme ∈ uri.scheme, scheme ≠ [] →
    (split s).scheme.isSome = true ∧ (split s).authority.isSome = true
  reports : ∀ s uri, fromStr s = .ok uri → (split s).scheme.isSome = true →
    (split s).authority.isSome = true → uri.Reports (split s)
  authority : ∀ s s' uri uri' a a', fromStr s = .ok uri → fromStr s' = .ok uri' →
    uri.authority = some a → uri'.authority = some a' → a.text = a'.text → a = a'

/-- The URI is read from a text and has the scheme `http` or `https`. -/
def Uri.HttpBase (fromStr : Str → Except String Uri) (base : Uri) : Prop :=
  (∃ s, fromStr s = .ok base) ∧
    (base.scheme = some "http".toList ∨ base.scheme = some "https".toList)

/-! ### The resolution -/

/-- The components of a base URI. -/
def Uri.toReference (uri : Uri) : Reference where
  scheme := uri.scheme
  authority := uri.authority.map Authority.text
  path := uri.path
  query := uri.query
  fragment := none

/-- The reference resolved against the base. -/
def target (base : Uri) (location : Str) : Reference := resolve base.toReference (split location)

/-- A URI that `resolve_redirect_uri` returns is the location resolved against the base; and where
the location has neither a scheme nor an authority, it has scheme, host and port of the base. -/
def FollowsRfc (fromStr : Str → Except String Uri) (base : Uri) (location : Str) : Prop :=
  ∀ uri, resolveRedirectUri fromStr base location = .ok uri →
    uri.Reports (target base location) ∧
      ((split location).scheme = none → (split location).authority = none →
        uri.scheme.map lower = base.scheme.map lower ∧ uri.host = base.host ∧
          uri.port = base.port)

/-- The parser takes the location for a URI with a scheme. -/
def TakenAsIs (fromStr : Str → Except String Uri) (location : Str) : Prop :=
  ∃ uri, fromStr location = .ok uri ∧ uri.scheme.isSome = true

/-- A path without dot segments. -/
def NoDotSegments (path : Str) : Prop := removeDotSegments path = path

instance (path : Str) : Decidable (NoDotSegments path) := inferInstanceAs (Decidable (_ = _))

/-- An absolute URI whose path has no dot segments. -/
def ResolvableAbsolute (location : Str) : Prop :=
  (split location).scheme.isSome = true ∧ (split location).authority.isSome = true ∧
    NoDotSegments (split location).path

/-- An absolute path without dot segments; or no path, where the base has the path `/` and, unless
the location has a query, no query. -/
def ResolvableRelative (base : Uri) (location : Str) : Prop :=
  (location.head? = some '/' ∧ (split location).authority = none ∧
      NoDotSegments (split location).path) ∨
    ((∀ c ∈ location.head?, endsPath c = true) ∧ base.path = "/".toList ∧
      ((split location).query = none → base.query = none))

/-- The location is taken as it is and an absolute URI without dot segments; or it is not, and what
it is joined to is not accepted or it is a relative reference that needs no resolution. -/
def Resolvable (fromStr : Str → Except String Uri) (base : Uri) (location : Str) : Prop :=
  (TakenAsIs fromStr location ∧ ResolvableAbsolute location) ∨
    (¬ TakenAsIs fromStr location ∧
      ((∃ e, fromStr (joinBase base location) = .error e) ∨ ResolvableRelative base location))

/-! ### Paths -/

theorem reportedPath_ne_nil (path : Str) : reportedPath path ≠ [] := by
  unfold reportedPath
  split
  · decide
  · simp_all

theorem reportedPath_of_ne_nil {path : Str} (h : path ≠ []) : reportedPath path = path := by
  rw [reportedPath, if_neg (by simpa using h)]

theorem length_reportedPath_le (path : Str) : (reportedPath path).length ≤ path.length + 1 := by
  unfold reportedPath
  split
  · simp
  · omega

/-- A URI reports the same path after dot segments are removed only if there are none. -/
theorem reportedPath_removeDotSegments_iff {path : Str} :
    reportedPath path = reportedPath (removeDotSegments path) ↔ NoDotSegments path := by
  refine ⟨fun h => ?_, fun h => by rw [h]⟩
  by_cases hpath : path = []
  · subst hpath
    rfl
  · rw [reportedPath_of_ne_nil hpath] at h
    by_cases hdots : removeDotSegments path = []
    · -- the path would be `/`, which is no dot segment
      rw [hdots] at h
      subst h
      rfl
    · rw [reportedPath_of_ne_nil hdots] at h
      exact h.symm

/-! ### The components of a location -/

/-- What ends a path ends an authority. -/
theorem endsPath_of_endsAuthority {c : Char} (h : endsAuthority c = false) :
    endsPath c = false := by
  simp only [endsAuthority, endsPath, Bool.or_eq_false_iff] at h ⊢
  exact ⟨h.1.2, h.2⟩

/-- What ends an authority ends a scheme. -/
theorem endsAuthority_of_endsScheme {c : Char} (h : endsScheme c = false) :
    endsAuthority c = false := by
  simp only [endsAuthority, endsScheme, Bool.or_eq_false_iff] at h ⊢
  exact ⟨⟨h.1.1.2, h.1.2⟩, h.2⟩

/-- A location with a scheme is that scheme, a colon and the rest. -/
theorem splitScheme_eq_some {s scheme rest : Str} (h : splitScheme s = (some scheme, rest)) :
    s = scheme ++ ':' :: rest ∧ scheme ≠ [] ∧ ∀ c ∈ scheme, endsScheme c = false := by
  unfold splitScheme at h
  split at h
  case h_1 a as rest' ha hrest =>
      cases h
      have hs := List.takeWhile_append_dropWhile (p := fun c => !endsScheme c) (l := s)
      rw [ha, hrest] at hs
      refine ⟨hs.symm, by simp, fun c hc => ?_⟩
      rw [← ha] at hc
      simpa using List.mem_takeWhile_imp hc
  case h_2 => cases h

theorem splitScheme_eq_none {s rest : Str} (h : splitScheme s = (none, rest)) : rest = s := by
  unfold splitScheme at h
  split at h <;> cases h
  rfl

theorem splitAuthority_eq_some {s authority rest : Str}
    (h : splitAuthority s = (some authority, rest)) :
    s = '/' :: '/' :: (authority ++ rest) ∧ (∀ c ∈ authority, endsAuthority c = false) := by
  unfold splitAuthority at h
  split at h
  case h_1 s' =>
      cases h
      refine ⟨by rw [List.takeWhile_append_dropWhile], fun c hc => ?_⟩
      simpa using List.mem_takeWhile_imp hc
  case h_2 => cases h

theorem scheme_ne_nil {s scheme : Str} (h : (split s).scheme = some scheme) : scheme ≠ [] := by
  rcases hs : splitScheme s with ⟨scheme', rest⟩
  rw [split, hs] at h
  obtain rfl : scheme' = some scheme := h
  exact (splitScheme_eq_some hs).2.1

theorem authority_delimited {s authority : Str} (h : (split s).authority = some authority) :
    ∀ c ∈ authority, endsAuthority c = false := by
  rcases ha : splitAuthority (splitScheme s).2 with ⟨authority', rest⟩
  rw [split, ha] at h
  obtain rfl : authority' = some authority := h
  exact (splitAuthority_eq_some ha).2

/-- What follows the first delimiter of an authority in a location that has one begins with the two
slashes that announce it: its path is longer than that of the location. -/
theorem length_path_of_authority {s authority : Str} (scheme' authority' : Option Str)
    (h : (split s).authority = some authority) :
    (split s).path.length + 2
      ≤ (splitRest scheme' authority' (s.dropWhile fun c => !endsAuthority c)).path.length := by
  rcases hs : splitScheme s with ⟨scheme, after⟩
  rcases ha : splitAuthority after with ⟨found, rest⟩
  have hsplit : split s = splitRest scheme found rest := by rw [split, hs, ha]
  rw [hsplit] at h ⊢
  obtain rfl : found = some authority := h
  obtain ⟨hafter, hauth⟩ := splitAuthority_eq_some ha
  have hdrop : s.dropWhile (fun c => !endsAuthority c) = '/' :: '/' :: (authority ++ rest) := by
    rw [← hafter]
    cases scheme with
    | none =>
        rw [← splitScheme_eq_none hs, hafter]
        rfl
    | some scheme =>
        obtain ⟨heq, -, hscheme⟩ := splitScheme_eq_some hs
        have hpre : ∀ c ∈ scheme ++ [':'], endsAuthority c = false := by
          intro c hc
          rcases List.mem_append.1 hc with hc | hc
          · exact endsAuthority_of_endsScheme (hscheme c hc)
          · rw [List.mem_singleton.1 hc]
            rfl
        -- the colon ends a scheme but no authority, so the first slash is the first delimiter
        rw [heq, List.append_cons]
        exact (takeWhile_append_of_ends hpre (by rw [hafter]; simp [endsAuthority])).2
  have hpath := path_splitRest_append scheme' authority' ('/' :: '/' :: authority) rest
    (by
      intro c hc
      simp only [List.mem_cons] at hc
      rcases hc with rfl | rfl | hc
      · rfl
      · rfl
      · exact endsPath_of_endsAuthority (hauth c hc))
  rw [hdrop, show '/' :: '/' :: (authority ++ rest) = '/' :: '/' :: authority ++ rest from rfl,
    hpath]
  simp only [List.length_append, List.length_cons, splitRest]
  omega

/-- Where a location has an authority the resolved path is no longer than its own. -/
theorem length_target_path_le {base : Uri} {location authority : Str}
    (h : (split location).authority = some authority) :
    (target base location).path.length ≤ (split location).path.length := by
  unfold target resolve
  split
  · exact length_removeDotSegments _
  · rw [if_pos (by rw [h]; rfl)]
    exact length_removeDotSegments _

/-! ### The base -/

/-- What a base consists of. -/
theorem Uri.HttpBase.components {fromStr : Str → Except String Uri} (hparse : ParsesUri fromStr)
    {base : Uri} (h : base.HttpBase fromStr) :
    ∃ scheme a, base.scheme = some scheme ∧ base.authority = some a ∧ lower scheme ≠ [] ∧
      (∀ c ∈ scheme, endsScheme c = false) ∧ (∀ c ∈ a.text, endsAuthority c = false) ∧
        base.path ≠ [] := by
  obtain ⟨⟨s, hs⟩, hscheme⟩ := h
  obtain ⟨scheme, heq, hne, hends⟩ : ∃ scheme, base.scheme = some scheme ∧ lower scheme ≠ [] ∧
      ∀ c ∈ scheme, endsScheme c = false := by
    rcases hscheme with h | h
    · exact ⟨_, h, by decide, by simp [endsScheme]⟩
    · exact ⟨_, h, by decide, by simp [endsScheme]⟩
  obtain ⟨h₁, h₂⟩ := hparse.absolute s base hs scheme heq (by rintro rfl; exact hne rfl)
  have hreports := hparse.reports s base hs h₁ h₂
  obtain ⟨authority, hauth⟩ := Option.isSome_iff_exists.1 h₂
  have hmap := hreports.authority
  rw [hauth, Option.map_eq_some_iff] at hmap
  obtain ⟨a, ha, htext⟩ := hmap
  refine ⟨scheme, a, heq, ha, hne, hends, ?_, ?_⟩
  · rw [htext]
    exact authority_delimited hauth
  · rw [hreports.path]
    exact reportedPath_ne_nil _

/-- What is read from the text the client joins: the location up to the first delimiter of an
authority belongs to the authority. -/
theorem reports_joinBase {fromStr : Str → Except String Uri} (hparse : ParsesUri fromStr)
    {base uri : Uri} (hbase : base.HttpBase fromStr) {a : Authority} (ha : base.authority = some a)
    {location : Str} (huri : fromStr (joinBase base location) = .ok uri) :
    uri.Reports (splitRest base.scheme
      (some (a.text ++ location.takeWhile fun c => !endsAuthority c))
      (location.dropWhile fun c => !endsAuthority c)) := by
  obtain ⟨scheme, a', hscheme, ha', hne, hends, htext, -⟩ := hbase.components hparse
  obtain rfl : a' = a := by
    rw [ha] at ha'
    exact (Option.some.inj ha').symm
  have hjoin : joinBase base location = scheme ++ ':' :: '/' :: '/' ::
      ((a'.text ++ location.takeWhile fun c => !endsAuthority c) ++
        location.dropWhile fun c => !endsAuthority c) := by
    rw [joinBase, hscheme, ha', List.append_assoc, List.takeWhile_append_dropWhile]
    rfl
  have hsplit := @split_absolute scheme (a'.text ++ location.takeWhile fun c => !endsAuthority c)
    (location.dropWhile fun c => !endsAuthority c)
    (by rintro rfl; exact hne rfl) hends
    (by
      intro c hc
      rcases List.mem_append.1 hc with hc | hc
      · exact htext c hc
      · simpa using List.mem_takeWhile_imp hc)
    (by
      intro c hc
      have := List.head?_dropWhile_not (fun c => !endsAuthority c) location
      rw [Option.mem_def.1 hc] at this
      simpa using this)
  rw [← hjoin] at hsplit
  have hreports := hparse.reports _ _ huri (by rw [hsplit]; rfl) (by rw [hsplit]; rfl)
  rw [hsplit] at hreports
  rw [hscheme]
  exact hreports

/-- No reference has an empty scheme. -/
theorem lower_scheme_split_ne (s : Str) : (split s).scheme.map lower ≠ some [] := by
  intro h
  obtain ⟨scheme, hs, hlower⟩ := Option.map_eq_some_iff.1 h
  have hlength := congrArg List.length hlower
  rw [length_lower] at hlength
  exact scheme_ne_nil hs (List.length_eq_zero_iff.1 hlength)

/-- The target has the scheme of the location or that of the base. -/
theorem scheme_target (base : Uri) (location : Str) :
    (target base location).scheme = (split location).scheme.or base.scheme := by
  unfold target resolve
  cases hs : (split location).scheme with
  | some scheme => rfl
  | none =>
      simp only [Option.isSome_none, Bool.false_eq_true, if_false, Option.none_or]
      split_ifs <;> rfl

theorem lower_scheme_target_ne {fromStr : Str → Except String Uri} (hparse : ParsesUri fromStr)
    {base : Uri} (hbase : base.HttpBase fromStr) (location : Str) :
    (target base location).scheme.map lower ≠ some [] := by
  rw [scheme_target]
  cases hs : (split location).scheme with
  | some scheme =>
      have := lower_scheme_split_ne location
      rwa [hs] at this
  | none =>
      obtain ⟨scheme, -, hscheme, -, hlower, -⟩ := hbase.components hparse
      rw [hscheme]
      exact fun h => hlower (Option.some.inj h)

/-! ### The two branches -/

/-- A location that is a URI by itself is taken as it is. -/
theorem reports_absolute_iff {fromStr : Str → Except String Uri} (hparse : ParsesUri fromStr)
    {base uri : Uri} (hbase : base.HttpBase fromStr) {location : Str}
    (huri : fromStr location = .ok uri) (hscheme : uri.scheme.isSome = true) :
    uri.Reports (target base location) ↔ ResolvableAbsolute location := by
  obtain ⟨scheme, hsome⟩ := Option.isSome_iff_exists.1 hscheme
  by_cases hne : scheme = []
  · -- an empty scheme is neither that of a reference nor that of the base
    subst hne
    have hlower : uri.scheme.map lower = some [] := by rw [hsome]; rfl
    constructor
    · intro h
      exact absurd (h.scheme.symm.trans hlower) (lower_scheme_target_ne hparse hbase location)
    · rintro ⟨h₁, h₂, -⟩
      have hreports := hparse.reports _ _ huri h₁ h₂
      exact absurd (hreports.scheme.symm.trans hlower) (lower_scheme_split_ne location)
  · obtain ⟨h₁, h₂⟩ := hparse.absolute _ _ huri scheme hsome hne
    have hreports := hparse.reports _ _ huri h₁ h₂
    have htarget : target base location
        = { split location with path := removeDotSegments (split location).path } := by
      rw [target, resolve, if_pos h₁]
    rw [htarget]
    constructor
    · intro h
      refine ⟨h₁, h₂, reportedPath_removeDotSegments_iff.1 ?_⟩
      rw [← hreports.path, h.path]
    · rintro ⟨-, -, hdots⟩
      refine ⟨hreports.scheme, hreports.authority, ?_, hreports.query⟩
      rw [hreports.path, reportedPath_removeDotSegments_iff.2 hdots]

/-- The target of a location without a scheme and without an authority. -/
theorem target_of_relative {base : Uri} {location : Str} (hs : (split location).scheme = none)
    (ha : (split location).authority = none) :
    target base location =
      if (split location).path.isEmpty then
        { split location with
          scheme := base.scheme
          authority := base.authority.map Authority.text
          path := base.path
          query := (split location).query.or base.query }
      else
        { split location with
          scheme := base.scheme
          authority := base.authority.map Authority.text
          path := removeDotSegments
            (if (split location).path.head? = some '/' then (split location).path
              else merge base.toReference (split location).path) } := by
  rw [target, resolve, hs, ha, if_neg (by simp), if_neg (by simp)]
  rfl

/-- The location has neither a scheme nor an authority, and begins with a delimiter. -/
structure Delimited (location : Str) : Prop where
  scheme : (split location).scheme = none
  authority : (split location).authority = none
  delimiter : ∀ c ∈ location.head?, endsAuthority c = true

/-- A location that begins with a delimiter has no scheme. -/
theorem scheme_of_delimiter {location : Str} (h : ∀ c ∈ location.head?, endsAuthority c = true) :
    (splitScheme location) = (none, location) := by
  cases location with
  | nil => rfl
  | cons c location =>
      refine splitScheme_delimiter ?_
      by_contra hc
      have := endsAuthority_of_endsScheme (Bool.not_eq_true _ ▸ hc)
      rw [h c rfl] at this
      cases this

/-- The components of a text without a scheme and without an authority. -/
theorem split_eq_splitRest {s : Str} (hs : (split s).scheme = none)
    (ha : (split s).authority = none) : split s = splitRest none none s := by
  rcases h : splitScheme s with ⟨scheme, rest⟩
  rw [split, h] at hs ha
  obtain rfl : scheme = none := hs
  obtain rfl := splitScheme_eq_none h
  exact split_relative (by rw [h]) ha

/-- A location that begins with the delimiter of a path has no path. -/
theorem delimited_of_endsPath {location : Str} (h : ∀ c ∈ location.head?, endsPath c = true) :
    Delimited location ∧ (split location).path = [] := by
  have hdelim : ∀ c ∈ location.head?, endsAuthority c = true := by
    intro c hc
    by_contra hnot
    have := endsPath_of_endsAuthority (Bool.not_eq_true _ ▸ hnot)
    rw [h c hc] at this
    cases this
  have hscheme := scheme_of_delimiter hdelim
  have hauth : splitAuthority location = (none, location) := by
    cases location with
    | nil => rfl
    | cons c location =>
        have hc := h c rfl
        unfold splitAuthority
        split
        case h_1 heq =>
            cases heq
            cases hc
        case h_2 => rfl
  refine ⟨⟨?_, ?_, hdelim⟩, ?_⟩
  · rw [split, hscheme]
    rfl
  · rw [split, hscheme, hauth]
    rfl
  · rw [split, hscheme, hauth]
    cases location with
    | nil => rfl
    | cons c location => simp [splitRest, h c rfl]

theorem ResolvableRelative.delimited {base : Uri} {location : Str}
    (h : ResolvableRelative base location) : Delimited location := by
  rcases h with ⟨hhead, hauth, -⟩ | ⟨hends, -⟩
  · have hdelim : ∀ c ∈ location.head?, endsAuthority c = true := by
      rw [hhead]
      rintro c ⟨⟩
      rfl
    refine ⟨?_, hauth, hdelim⟩
    rw [split, scheme_of_delimiter hdelim]
    rfl
  · exact (delimited_of_endsPath hends).1

/-- Where the result is the target, the location is delimited from the authority of the base. -/
theorem delimited_of_reports {fromStr : Str → Except String Uri} (hparse : ParsesUri fromStr)
    {base uri : Uri} (hbase : base.HttpBase fromStr) {location : Str}
    (huri : fromStr (joinBase base location) = .ok uri) (h : uri.Reports (target base location)) :
    Delimited location := by
  obtain ⟨scheme, a, -, ha, -⟩ := hbase.components hparse
  have hjoined := reports_joinBase hparse hbase ha huri
  cases hauth : (split location).authority with
  | some authority =>
      -- the path that is read from the joined text is too long
      have hlong := length_path_of_authority base.scheme
        (some (a.text ++ location.takeWhile fun c => !endsAuthority c)) hauth
      have hshort := @length_target_path_le base _ _ hauth
      have hreported := length_reportedPath_le (target base location).path
      rw [← h.path, hjoined.path, reportedPath_of_ne_nil] at hreported
      · omega
      · intro hnil
        rw [hnil] at hlong
        simp at hlong
  | none =>
      cases hs : (split location).scheme with
      | some scheme =>
          -- the target has no authority
          have := h.authority
          rw [hjoined.authority, target, resolve, hs, if_pos (by rfl)] at this
          rw [hauth] at this
          cases this
      | none =>
          have := h.authority
          rw [hjoined.authority, target_of_relative hs hauth, ha] at this
          -- the authority of the base takes nothing up from the location
          have htext : some (a.text ++ location.takeWhile fun c => !endsAuthority c)
              = some a.text := by
            split_ifs at this <;> exact this
          have hnil := List.append_right_eq_self.1 (Option.some.inj htext)
          refine ⟨hs, hauth, fun c hc => ?_⟩
          cases location with
          | nil => cases hc
          | cons d location =>
              cases hc
              by_contra hd
              rw [List.takeWhile_cons_of_pos (by simpa using hd)] at hnil
              cases hnil

/-- A delimited location is an absolute path or has no path. -/
theorem Delimited.path_cases {location : Str} (h : Delimited location) :
    (location.head? = some '/' ∧ (split location).path.head? = some '/') ∨
      ((∀ c ∈ location.head?, endsPath c = true) ∧ (split location).path = []) := by
  by_cases hends : ∀ c ∈ location.head?, endsPath c = true
  · exact Or.inr ⟨hends, (delimited_of_endsPath hends).2⟩
  · refine Or.inl ?_
    push Not at hends
    obtain ⟨c, hc, hnot⟩ := hends
    have hdelim := h.delimiter c hc
    obtain rfl : c = '/' := by
      simp only [endsAuthority, endsPath, ne_eq, Bool.or_eq_true, beq_iff_eq] at hdelim hnot
      tauto
    refine ⟨hc, ?_⟩
    rw [split_eq_splitRest h.scheme h.authority]
    cases location with
    | nil => cases hc
    | cons d location =>
        cases hc
        rfl

/-- A location that is joined with the base. -/
theorem reports_relative_iff {fromStr : Str → Except String Uri} (hparse : ParsesUri fromStr)
    {base uri : Uri} (hbase : base.HttpBase fromStr) {location : Str}
    (huri : fromStr (joinBase base location) = .ok uri) :
    uri.Reports (target base location) ↔ ResolvableRelative base location := by
  by_cases hdelim : Delimited location
  · obtain ⟨scheme, a, -, ha, -, -, -, hbasePath⟩ := hbase.components hparse
    have hjoined := reports_joinBase hparse hbase ha huri
    obtain ⟨hpre, hrest⟩ := takeWhile_append_of_ends (a := []) (p := endsAuthority)
      (b := location) (by simp) hdelim.delimiter
    rw [List.nil_append] at hpre hrest
    rw [hpre, hrest, List.append_nil] at hjoined
    have hsplit := split_eq_splitRest hdelim.scheme hdelim.authority
    have hpath : uri.path = reportedPath (split location).path := by
      rw [hjoined.path, hsplit]
      rfl
    have hquery : uri.query = (split location).query := by
      rw [hjoined.query, hsplit]
      rfl
    have hauth : uri.authority.map Authority.text = base.authority.map Authority.text := by
      rw [hjoined.authority, ha]
      rfl
    rw [target_of_relative hdelim.scheme hdelim.authority]
    -- an absolute path is kept as it stands; no path at all becomes `/`, not that of the base
    rcases hdelim.path_cases with ⟨hhead, hslash⟩ | ⟨hends, hnil⟩
    · have hne : (split location).path ≠ [] := by
        intro hnil
        rw [hnil] at hslash
        cases hslash
      rw [if_neg (by simpa using hne), if_pos hslash]
      constructor
      · intro h
        refine Or.inl ⟨hhead, hdelim.authority, reportedPath_removeDotSegments_iff.1 ?_⟩
        rw [← hpath, h.path]
      · rintro (⟨-, -, hdots⟩ | ⟨hends, -⟩)
        · refine ⟨hjoined.scheme, hauth, ?_, hquery⟩
          rw [hpath, reportedPath_removeDotSegments_iff.2 hdots]
        · exact absurd (delimited_of_endsPath hends).2 hne
    · rw [if_pos (by rw [hnil]; rfl)]
      constructor
      · intro h
        refine Or.inr ⟨hends, ?_, fun hq => ?_⟩
        · have := h.path
          rw [hpath, hnil, reportedPath_of_ne_nil hbasePath] at this
          exact this.symm
        · have := h.query
          rw [hquery, hq] at this
          simpa using this.symm
      · rintro (⟨hhead, -⟩ | ⟨-, hroot, hq⟩)
        · have := hends '/' hhead
          cases this
        · refine ⟨hjoined.scheme, hauth, ?_, ?_⟩
          · rw [hpath, hnil, hroot]
            rfl
          · rw [hquery]
            cases hlq : (split location).query with
            | none => rw [Option.none_or, hq hlq]
            | some q => rfl
  · exact ⟨fun h => absurd (delimited_of_reports hparse hbase huri h) hdelim,
      fun h => absurd h.delimited hdelim⟩

/-! ### The resolution -/

/-- A result that reports the authority of the base has its host and its port. -/
theorem host_port_of_reports {fromStr : Str → Except String Uri} (hparse : ParsesUri fromStr)
    {base uri : Uri} (hbase : base.HttpBase fromStr) {s : Str} (huri : fromStr s = .ok uri)
    (h : uri.authority.map Authority.text = base.authority.map Authority.text) :
    uri.host = base.host ∧ uri.port = base.port := by
  obtain ⟨scheme, a, -, ha, -⟩ := hbase.components hparse
  obtain ⟨⟨t, ht⟩, -⟩ := hbase
  rw [ha, Option.map_some, Option.map_eq_some_iff] at h
  obtain ⟨a', ha', htext⟩ := h
  have := hparse.authority _ _ _ _ _ _ huri ht ha' ha htext
  rw [Uri.host, Uri.host, Uri.port, Uri.port, ha, ha', this]
  exact ⟨rfl, rfl⟩

/-- A location that is taken as it is. -/
theorem resolveRedirectUri_of_isSome {fromStr : Str → Except String Uri} {base uri : Uri}
    {location : Str} (huri : fromStr location = .ok uri) (hscheme : uri.scheme.isSome = true) :
    resolveRedirectUri fromStr base location = .ok uri := by
  rw [resolveRedirectUri, huri]
  simp [hscheme]

/-- Every other location is joined with the base. -/
theorem resolveRedirectUri_of_not_takenAsIs {fromStr : Str → Except String Uri} {base uri : Uri}
    {location : Str} (h : ¬ TakenAsIs fromStr location) :
    resolveRedirectUri fromStr base location = .ok uri
      ↔ fromStr (joinBase base location) = .ok uri := by
  unfold resolveRedirectUri
  cases hloc : fromStr location with
  | error e => cases fromStr (joinBase base location) <;> simp
  | ok read =>
      have hscheme : ¬ read.scheme.isSome = true := fun hs => h ⟨read, hloc, hs⟩
      cases fromStr (joinBase base location) <;> simp [hscheme]

/-- The client resolves exactly the resolvable locations as RFC 3986 does. -/
theorem followsRfc_iff {fromStr : Str → Except String Uri} (hparse : ParsesUri fromStr)
    {base : Uri} (hbase : base.HttpBase fromStr) (location : Str) :
    FollowsRfc fromStr base location ↔ Resolvable fromStr base location := by
  unfold FollowsRfc Resolvable
  by_cases htaken : TakenAsIs fromStr location
  · obtain ⟨uri, huri, hscheme⟩ := htaken
    have hiff := reports_absolute_iff hparse hbase huri hscheme
    constructor
    · intro h
      obtain ⟨hreports, -⟩ := h uri (resolveRedirectUri_of_isSome huri hscheme)
      exact Or.inl ⟨⟨uri, huri, hscheme⟩, hiff.1 hreports⟩
    · rintro (⟨-, habs⟩ | ⟨hnot, -⟩)
      · intro uri' huri'
        rw [resolveRedirectUri_of_isSome huri hscheme] at huri'
        cases huri'
        refine ⟨hiff.2 habs, fun hs => ?_⟩
        have := habs.1
        rw [hs] at this
        cases this
      · exact absurd ⟨uri, huri, hscheme⟩ hnot
  · cases hjoin : fromStr (joinBase base location) with
    | error e =>
        refine ⟨fun _ => Or.inr ⟨htaken, Or.inl ⟨e, rfl⟩⟩, fun _ uri huri => ?_⟩
        rw [resolveRedirectUri_of_not_takenAsIs htaken, hjoin] at huri
        cases huri
    | ok uri =>
        have hiff := reports_relative_iff hparse hbase hjoin
        constructor
        · intro h
          obtain ⟨hreports, -⟩ := h uri ((resolveRedirectUri_of_not_takenAsIs htaken).2 hjoin)
          exact Or.inr ⟨htaken, Or.inr (hiff.1 hreports)⟩
        · rintro (⟨hyes, -⟩ | ⟨-, ⟨e, he⟩ | hrel⟩)
          · exact absurd hyes htaken
          · cases he
          · intro uri' huri'
            rw [resolveRedirectUri_of_not_takenAsIs htaken, hjoin] at huri'
            cases huri'
            have hreports := hiff.2 hrel
            refine ⟨hreports, fun hs ha => ⟨?_, ?_⟩⟩
            · rw [hreports.scheme, scheme_target, hs, Option.none_or]
            · refine host_port_of_reports hparse hbase hjoin ?_
              rw [hreports.authority, target_of_relative hs ha]
              split_ifs <;> rfl

/-! ### A parser -/

/-- An authority whose host is a name. -/
def readAuthority (text : Str) : Authority where
  text
  host := beforeColon text
  port := (splitOnce ':' text).bind fun p => parseDigits p.2
  host_delimited h := absurd h (colon_notMem_beforeColon text)

theorem path_splitRest_delimited (scheme authority : Option Str) (rest : Str) :
    '?' ∉ (splitRest scheme authority rest).path ∧
      '#' ∉ (splitRest scheme authority rest).path := by
  refine ⟨fun h => ?_, fun h => ?_⟩
  · simpa [endsPath] using List.mem_takeWhile_imp h
  · simpa [endsPath] using List.mem_takeWhile_imp h

theorem query_splitRest_delimited (scheme authority : Option Str) (rest : Str) :
    ∀ q ∈ (splitRest scheme authority rest).query, '#' ∉ q := by
  intro q hq h
  simp only [splitRest, splitQuery] at hq
  split at hq
  case h_1 =>
      cases hq
      simpa using List.mem_takeWhile_imp h
  case h_2 => cases hq

theorem reportedPath_delimited {path : Str} (h : '?' ∉ path ∧ '#' ∉ path) :
    '?' ∉ reportedPath path ∧ '#' ∉ reportedPath path := by
  unfold reportedPath
  split
  · decide
  · exact h

/-- The URI with this scheme and authority, and the path and the query of the rest. -/
def readRest (scheme authority : Option Str) (rest : Str) : Uri where
  scheme
  authority := authority.map readAuthority
  path := reportedPath (splitRest scheme authority rest).path
  query := (splitRest scheme authority rest).query
  path_delimited := reportedPath_delimited (path_splitRest_delimited scheme authority rest)
  query_delimited := query_splitRest_delimited scheme authority rest

/-- A parser of absolute URIs and of texts that begin with a slash. -/
def readUri (s : Str) : Except String Uri :=
  if (split s).scheme.isSome && (split s).authority.isSome then
    .ok (readRest (split s).scheme (split s).authority (splitAuthority (splitScheme s).2).2)
  else if s.head? = some '/' then .ok (readRest none none s)
  else .error "invalid format"

theorem parsesUri_readUri : ParsesUri readUri where
  absolute s uri huri scheme hscheme _ := by
    unfold readUri at huri
    split_ifs at huri with habs
    · exact Bool.and_eq_true_iff.1 habs
    · cases huri
      cases hscheme
  reports s uri huri hs ha := by
    unfold readUri at huri
    rw [if_pos (Bool.and_eq_true_iff.2 ⟨hs, ha⟩)] at huri
    cases huri
    refine ⟨rfl, ?_, rfl, rfl⟩
    simp only [readRest, Option.map_map]
    exact Option.map_id'
  authority s s' uri uri' a a' huri huri' ha ha' htext := by
    have hread : ∀ s uri a, readUri s = .ok uri → uri.authority = some a →
        a = readAuthority a.text := by
      intro s uri a huri ha
      unfold readUri at huri
      split_ifs at huri
      · cases huri
        simp only [readRest, Option.map_eq_some_iff] at ha
        obtain ⟨text, -, rfl⟩ := ha
        rfl
      · cases huri
        cases ha
    rw [hread s uri a huri ha, hread s' uri' a' huri' ha', htext]

/-- A base that the parser reads. -/
def exampleBase : Uri := readRest (some "http".toList) (some "h.test".toList) "/x".toList

theorem httpBase_exampleBase : exampleBase.HttpBase readUri :=
  ⟨⟨"http://h.test/x".toList, by decide +kernel⟩, Or.inl rfl⟩

/-- An absolute path. -/
theorem followsRfc_absolutePath : FollowsRfc readUri exampleBase "/y?z=1".toList := by
  refine (followsRfc_iff parsesUri_readUri httpBase_exampleBase _).2 (Or.inr ⟨?_, Or.inr ?_⟩)
  · rintro ⟨uri, huri, hscheme⟩
    have hread : readUri "/y?z=1".toList = .ok (readRest none none "/y?z=1".toList) := by
      decide +kernel
    rw [hread] at huri
    cases huri
    cases hscheme
  · exact Or.inl ⟨by decide +kernel, by decide +kernel, by decide +kernel⟩

/-- A relative path is appended to the host. -/
theorem not_followsRfc_relativePath : ¬ FollowsRfc readUri exampleBase ".evil.test/y".toList := by
  intro h
  obtain ⟨-, hbase⟩ := h
    (readRest (some "http".toList) (some "h.test.evil.test".toList) "/y".toList) (by decide +kernel)
  obtain ⟨-, hhost, -⟩ := hbase (by decide +kernel) (by decide +kernel)
  revert hhost
  decide +kernel

end OxiHttp
