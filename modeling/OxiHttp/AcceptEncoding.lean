/-
**Choosing an encoding.**

`negotiate` reads an `Accept-Encoding` as a list of names with weights, sorts it by weight and takes
the first of the algorithms of the server that the list has with a positive weight, by its name or
by `*`.  The order of the list does not matter for this.  A weight may be no number, and then the
comparison of the weights is not one of a total order, so that the sort may panic.

Main definitions:

* `OxiHttp.CompressionAlgorithm`, `OxiHttp.AcceptEntry` — what the two sides have to offer;
* `OxiHttp.negotiate` — the algorithm that is chosen.

Main results:

* `OxiHttp.negotiate_eq_some_iff` — the choice does not depend on the order;
* `OxiHttp.negotiate_of_numbers` — there is no panic when every weight is a number.
-/

import OxiHttp.Binary32
import OxiHttp.Text

set_option relaxedAutoImplicit false
set_option autoImplicit false

namespace OxiHttp

/-- `CompressionAlgorithm`. -/
inductive CompressionAlgorithm where
  | gzip
  | deflate
deriving DecidableEq, Repr

/-- `CompressionAlgorithm::as_str`. -/
def CompressionAlgorithm.asStr : CompressionAlgorithm → Str
  | .gzip => "gzip".toList
  | .deflate => "deflate".toList

/-- `Entry`. -/
structure AcceptEntry where
  name : Str
  q : Binary32.Value
deriving DecidableEq

/-- A character in lower case.  Outside of ASCII only the Kelvin sign and the dotted capital I have
ASCII letters there; the others are left as they are, which no comparison with ASCII can tell. -/
def lowercaseChar (c : Char) : Str :=
  if c = '\u212A' then ['k'] else if c = '\u0130' then ['i', '\u0307'] else [c.toLower]

/-- `to_lowercase`. -/
def toLowercase (s : Str) : Str := s.flatMap lowercaseChar

/-- The weight behind a name. -/
def parseWeight (param : Str) : Binary32.Value :=
  ((stripPfx "q=".toList (trim param)).bind Binary32.parse).getD Binary32.one

/-- An element of the list; an empty one is none. -/
def parseEntry (part : Str) : Option AcceptEntry :=
  let part := trim part
  if part = [] then none
  else
    match splitOnce ';' part with
    | some (name, param) => some ⟨toLowercase (trim name), parseWeight param⟩
    | none => some ⟨toLowercase (trim part), Binary32.one⟩

/-- The elements of the list. -/
def acceptEntries (acceptEncoding : Str) : List AcceptEntry :=
  (acceptEncoding.splitOn ',').filterMap parseEntry

/-- The comparison of the sort: the greater weight comes first. -/
def byWeight (a b : AcceptEntry) : Ordering := (Binary32.partialCmp b.q a.q).getD .eq

/-- The algorithm is on the list. -/
def isAllowed (entries : List AcceptEntry) (algo : CompressionAlgorithm) : Bool :=
  entries.any fun e => (e.name = algo.asStr ∨ e.name = "*".toList) ∧ e.q.IsPositive

/-- `negotiate`, unless the sort panics. -/
def negotiate (disorder : SortBy.Disorder AcceptEntry) (acceptEncoding : Str)
    (preferred : List CompressionAlgorithm) : Option (Option CompressionAlgorithm) :=
  (SortBy.sortBy disorder byWeight (acceptEntries acceptEncoding)).map fun entries =>
    preferred.find? (isAllowed entries)

variable {disorder : SortBy.Disorder AcceptEntry} {acceptEncoding : Str}
  {preferred : List CompressionAlgorithm}

/-- What is chosen does not depend on the order that the sort makes. -/
theorem negotiate_eq_some_iff {outcome : Option CompressionAlgorithm} :
    negotiate disorder acceptEncoding preferred = some outcome ↔
      (SortBy.sortBy disorder byWeight (acceptEntries acceptEncoding)).isSome = true ∧
        preferred.find? (isAllowed (acceptEntries acceptEncoding)) = outcome := by
  unfold negotiate
  cases hsort : SortBy.sortBy disorder byWeight (acceptEntries acceptEncoding) with
  | none => simp
  | some entries =>
      have hallowed : isAllowed entries = isAllowed (acceptEntries acceptEncoding) := by
        funext algo
        exact (SortBy.perm_of_sortBy hsort).any_eq
      simp [hallowed]

/-- An algorithm that is chosen is one of those of the server. -/
theorem mem_of_negotiate {algo : CompressionAlgorithm}
    (h : negotiate disorder acceptEncoding preferred = some (some algo)) : algo ∈ preferred :=
  List.mem_of_find?_eq_some (negotiate_eq_some_iff.1 h).2

/-- When every weight is a number, the entries have an order. -/
theorem negotiate_of_numbers (h : ∀ e ∈ acceptEntries acceptEncoding, e.q ≠ .nan) :
    negotiate disorder acceptEncoding preferred =
      some (preferred.find? (isAllowed (acceptEntries acceptEncoding))) := by
  have htotal : SortBy.IsTotal byWeight (acceptEntries acceptEncoding) :=
    Binary32.isTotal_of_numbers (fun _ _ => rfl) h
  exact negotiate_eq_some_iff.2 ⟨SortBy.sortBy_isSome htotal, rfl⟩

end OxiHttp
