/-
**URI references and their resolution.**

RFC 3986: a reference is split into its five components by the delimiters alone (appendix B), and
resolved against a base (§5.2) by taking components from the base where the reference has none,
merging paths and removing dot segments.

Main definitions:

* `UriReference.Reference` — the components of a reference;
* `UriReference.split` — taking a text apart;
* `UriReference.removeDotSegments` — §5.2.4, on an input and an output buffer;
* `UriReference.resolve` — §5.2.2.

Main results:

* `UriReference.split_absolute` — the components of a text that begins with a scheme and an
  authority;
* `UriReference.length_removeDotSegments` — removing dot segments does not lengthen a path.
-/

import Mathlib.Data.List.Basic
import Mathlib.Data.List.DropRight
import Mathlib.Tactic.Common

set_option relaxedAutoImplicit false
set_option autoImplicit false

namespace UriReference

/-- The components of a URI reference. -/
structure Reference where
  scheme : Option (List Char)
  authority : Option (List Char)
  path : List Char
  query : Option (List Char)
  fragment : Option (List Char)
deriving DecidableEq, Repr

/-! ### Taking a text apart -/

/-- The delimiters that end a scheme. -/
def endsScheme (c : Char) : Bool := c == ':' || c == '/' || c == '?' || c == '#'

/-- The delimiters that end an authority. -/
def endsAuthority (c : Char) : Bool := c == '/' || c == '?' || c == '#'

/-- The delimiters that end a path. -/
def endsPath (c : Char) : Bool := c == '?' || c == '#'

/-- A scheme and what follows its colon. -/
def splitScheme (s : List Char) : Option (List Char) × List Char :=
  match s.takeWhile (fun c => !endsScheme c), s.dropWhile (fun c => !endsScheme c) with
  | a :: as, ':' :: rest => (some (a :: as), rest)
  | _, _ => (none, s)

/-- An authority, which two slashes announce, and what follows it. -/
def splitAuthority (s : List Char) : Option (List Char) × List Char :=
  match s with
  | '/' :: '/' :: rest =>
      (some (rest.takeWhile fun c => !endsAuthority c), rest.dropWhile fun c => !endsAuthority c)
  | _ => (none, s)

/-- A query, which a question mark announces, and what follows it. -/
def splitQuery (s : List Char) : Option (List Char) × List Char :=
  match s with
  | '?' :: rest => (some (rest.takeWhile (· ≠ '#')), rest.dropWhile (· ≠ '#'))
  | _ => (none, s)

/-- A fragment, which a number sign announces. -/
def splitFragment (s : List Char) : Option (List Char) :=
  match s with
  | '#' :: rest => some rest
  | _ => none

/-- A reference whose scheme and authority are known, and whose other components are in `rest`. -/
def splitRest (scheme authority : Option (List Char)) (rest : List Char) : Reference :=
  let afterPath := rest.dropWhile fun c => !endsPath c
  { scheme
    authority
    path := rest.takeWhile fun c => !endsPath c
    query := (splitQuery afterPath).1
    fragment := splitFragment (splitQuery afterPath).2 }

/-- The components of a text. -/
def split (s : List Char) : Reference :=
  splitRest (splitScheme s).1 (splitAuthority (splitScheme s).2).1
    (splitAuthority (splitScheme s).2).2

/-! ### Resolution -/

/-- An output buffer without its last segment and the slash before it. -/
def dropLastSegment (out : List Char) : List Char := (out.rdropWhile (· ≠ '/')).dropLast

/-- One round of the loop that removes dot segments: the next input and output buffer. -/
def dotStep (input out : List Char) : List Char × List Char :=
  match input with
  | '.' :: '.' :: '/' :: rest => (rest, out)
  | '.' :: '/' :: rest => (rest, out)
  | '/' :: '.' :: '/' :: rest => ('/' :: rest, out)
  | ['/', '.'] => (['/'], out)
  | '/' :: '.' :: '.' :: '/' :: rest => ('/' :: rest, dropLastSegment out)
  | ['/', '.', '.'] => (['/'], dropLastSegment out)
  | ['.'] => ([], out)
  | ['.', '.'] => ([], out)
  | '/' :: rest => (rest.dropWhile (· ≠ '/'), out ++ '/' :: rest.takeWhile (· ≠ '/'))
  | rest => (rest.dropWhile (· ≠ '/'), out ++ rest.takeWhile (· ≠ '/'))

/-- At most `n` rounds of the loop. -/
def dotLoop : ℕ → List Char → List Char → List Char
  | _, [], out => out
  | 0, _, out => out
  | n + 1, c :: input, out => dotLoop n (dotStep (c :: input) out).1 (dotStep (c :: input) out).2

/-- §5.2.4.  Every round takes at least one character from the input. -/
def removeDotSegments (path : List Char) : List Char := dotLoop path.length path []

/-- §5.2.3. -/
def merge (base : Reference) (path : List Char) : List Char :=
  if base.authority.isSome && base.path.isEmpty then '/' :: path
  else base.path.rdropWhile (· ≠ '/') ++ path

/-- §5.2.2. -/
def resolve (base r : Reference) : Reference :=
  if r.scheme.isSome then { r with path := removeDotSegments r.path }
  else if r.authority.isSome then
    { r with scheme := base.scheme, path := removeDotSegments r.path }
  else if r.path.isEmpty then
    { r with
      scheme := base.scheme
      authority := base.authority
      path := base.path
      query := r.query.or base.query }
  else
    { r with
      scheme := base.scheme
      authority := base.authority
      path := removeDotSegments
        (if r.path.head? = some '/' then r.path else merge base r.path) }

example : (resolve (split "http://a/b/c/d;p?q".toList) (split "../g?y#s".toList))
    = split "http://a/b/g?y#s".toList := by decide +kernel
example : removeDotSegments "/a/b/c/./../../g".toList = "/a/g".toList := by decide +kernel

/-! ### What the delimiters decide -/

/-- The two parts of a text at the first character that ends something. -/
theorem takeWhile_append_of_ends {p : Char → Bool} {a b : List Char}
    (ha : ∀ c ∈ a, p c = false) (hb : ∀ c ∈ b.head?, p c = true) :
    (a ++ b).takeWhile (fun c => !p c) = a ∧ (a ++ b).dropWhile (fun c => !p c) = b := by
  induction a with
  | nil =>
      cases b with
      | nil => simp
      | cons c b => simp [hb c rfl]
  | cons c a ih =>
      obtain ⟨h₁, h₂⟩ := ih fun d hd => ha d (List.mem_cons_of_mem _ hd)
      simp [ha c List.mem_cons_self, h₁, h₂]

/-- The components of a text that begins with a scheme and an authority. -/
theorem split_absolute {scheme authority rest : List Char} (hne : scheme ≠ [])
    (hs : ∀ c ∈ scheme, endsScheme c = false) (ha : ∀ c ∈ authority, endsAuthority c = false)
    (hrest : ∀ c ∈ rest.head?, endsAuthority c = true) :
    split (scheme ++ ':' :: '/' :: '/' :: (authority ++ rest))
      = splitRest (some scheme) (some authority) rest := by
  have hscheme : splitScheme (scheme ++ ':' :: '/' :: '/' :: (authority ++ rest))
      = (some scheme, '/' :: '/' :: (authority ++ rest)) := by
    obtain ⟨h₁, h₂⟩ := takeWhile_append_of_ends (b := ':' :: '/' :: '/' :: (authority ++ rest))
      hs (by simp [endsScheme])
    unfold splitScheme
    rw [h₁, h₂]
    cases scheme with
    | nil => exact absurd rfl hne
    | cons c scheme => rfl
  have hauthority : splitAuthority ('/' :: '/' :: (authority ++ rest))
      = (some authority, rest) := by
    obtain ⟨h₁, h₂⟩ := takeWhile_append_of_ends ha hrest
    rw [splitAuthority, h₁, h₂]
  rw [split, hscheme, hauthority]

/-- The components of a text without a scheme and without an authority. -/
theorem split_relative {s : List Char} (hs : (splitScheme s).1 = none)
    (ha : (splitAuthority s).1 = none) : split s = splitRest none none s := by
  have hscheme : splitScheme s = (none, s) := by
    unfold splitScheme at hs ⊢
    split at hs
    · cases hs
    · rfl
  have hauthority : splitAuthority s = (none, s) := by
    unfold splitAuthority at ha ⊢
    split at ha
    · cases ha
    · rfl
  rw [split, hscheme, hauthority]

theorem splitScheme_delimiter {c : Char} {s : List Char} (hc : endsScheme c = true) :
    splitScheme (c :: s) = (none, c :: s) := by
  unfold splitScheme
  simp [hc]

/-- A path ends where a delimiter does. -/
theorem path_splitRest_append (scheme authority : Option (List Char)) (pre rest : List Char)
    (hpre : ∀ c ∈ pre, endsPath c = false) :
    (splitRest scheme authority (pre ++ rest)).path
      = pre ++ (splitRest scheme authority rest).path := by
  induction pre with
  | nil => rfl
  | cons c pre ih =>
      have := ih fun d hd => hpre d (List.mem_cons_of_mem _ hd)
      simp only [splitRest, List.cons_append] at this ⊢
      rw [List.takeWhile_cons_of_pos (by simp [hpre c List.mem_cons_self]), this]

/-! ### Removing dot segments does not lengthen a path -/

theorem length_dropLastSegment_le (out : List Char) :
    (dropLastSegment out).length ≤ out.length := by
  have h := (List.rdropWhile_prefix (· ≠ '/') out).length_le
  simp only [dropLastSegment, List.length_dropLast]
  omega

/-- Moving the first segment from one buffer to the other. -/
theorem length_moved (p : Char → Bool) (s out : List Char) :
    (s.dropWhile p).length + (out ++ s.takeWhile p).length = s.length + out.length := by
  have h := congrArg List.length (List.takeWhile_append_dropWhile (p := p) (l := s))
  rw [List.length_append] at h ⊢
  omega

theorem length_dotStep_le (input out : List Char) :
    (dotStep input out).1.length + (dotStep input out).2.length ≤ input.length + out.length := by
  have hdrop := length_dropLastSegment_le out
  unfold dotStep
  split
  case h_9 =>
      -- the round that moves a segment, and with it the slash before it
      rw [List.append_cons, length_moved]
      simp only [List.length_append, List.length_cons, List.length_nil]
      omega
  case h_10 => exact (length_moved _ _ _).le
  all_goals
    simp only [List.length_cons, List.length_nil]
    omega

theorem length_dotLoop_le (n : ℕ) (input out : List Char) :
    (dotLoop n input out).length ≤ input.length + out.length := by
  induction n generalizing input out with
  | zero => cases input <;> simp [dotLoop]
  | succ n ih =>
      cases input with
      | nil => simp [dotLoop]
      | cons c input =>
          rw [dotLoop]
          exact (ih _ _).trans (length_dotStep_le _ _)

/-- Removing dot segments does not lengthen a path. -/
theorem length_removeDotSegments (path : List Char) :
    (removeDotSegments path).length ≤ path.length := by
  simpa [removeDotSegments] using length_dotLoop_le path.length path []

end UriReference
