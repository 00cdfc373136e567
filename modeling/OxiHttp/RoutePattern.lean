/-
**Route patterns.**

A pattern matches a path when the non-empty segments of the two line up: a literal with the same
text, a parameter with any one segment, a wildcard with all that is left, which is at least one
segment.  `OxiHttp.LinesUp` says so without a word on how the match is found, and the main result of
this module is that `match_pattern` finds exactly these matches.  What a match binds is the inverse
of what `OxiHttp.substitute` does: the values put back into the pattern give the path.

Main definitions:

* `OxiHttp.LinesUp` — the segments of a pattern line up with the pieces of a path;
* `OxiHttp.boundNames`, `OxiHttp.substitute` — the names of a pattern, and the pattern with values
  for them.

Main results:

* `OxiHttp.matchSegments_isSome_iff` — there is a match when they line up;
* `OxiHttp.mem_matchSegments` — the names that a match binds;
* `OxiHttp.substitute_matchSegments` — the values that it binds them to.
-/

import OxiHttp.Pieces
import OxiHttp.Router

set_option relaxedAutoImplicit false
set_option autoImplicit false

namespace OxiHttp

/-- The segments of a pattern line up with the pieces of a path. -/
inductive LinesUp : List Segment → List Str → Prop where
  | nil : LinesUp [] []
  | literal {segs : List Segment} {pieces : List Str} (s : Str) (h : LinesUp segs pieces) :
      LinesUp (.literal s :: segs) (s :: pieces)
  | param {segs : List Segment} {pieces : List Str} (name piece : Str) (h : LinesUp segs pieces) :
      LinesUp (.param name :: segs) (piece :: pieces)
  /-- A wildcard takes every piece that is left, and there is one. -/
  | wildcard (name piece : Str) (pieces : List Str) :
      LinesUp [.wildcard name] (piece :: pieces)

/-- A wildcard is the last segment of a pattern. -/
def WildcardLast (segs : List Segment) : Prop := ∀ name, Segment.wildcard name ∉ segs.dropLast

/-- The name that a segment binds. -/
def Segment.boundName : Segment → Option Str
  | .literal _ => none
  | .param name => some name
  | .wildcard name => some name

/-- The names that a pattern binds. -/
def boundNames (segs : List Segment) : List Str := segs.filterMap Segment.boundName

@[simp] theorem boundNames_nil : boundNames [] = [] := rfl

@[simp] theorem boundNames_literal (s : Str) (segs : List Segment) :
    boundNames (.literal s :: segs) = boundNames segs := rfl

@[simp] theorem boundNames_param (name : Str) (segs : List Segment) :
    boundNames (.param name :: segs) = name :: boundNames segs := rfl

@[simp] theorem boundNames_wildcard (name : Str) (segs : List Segment) :
    boundNames (.wildcard name :: segs) = name :: boundNames segs := rfl

/-- A segment with a value in the place of its name. -/
def Segment.substitute (params : Params) : Segment → Str
  | .literal s => s
  | .param name => (params.lookup name).getD []
  | .wildcard name => (params.lookup name).getD []

/-- A pattern with values in the places of its names. -/
def substitute (params : Params) (segs : List Segment) : Str :=
  ['/'].intercalate (segs.map (Segment.substitute params))

theorem WildcardLast.tail {seg : Segment} {segs : List Segment} (h : WildcardLast (seg :: segs)) :
    WildcardLast segs := by
  intro name hmem
  rcases segs with _ | ⟨seg', segs⟩
  · cases hmem
  · exact h name (by rw [List.dropLast_cons_cons]; exact List.mem_cons_of_mem _ hmem)

/-- Nothing stands behind a wildcard. -/
theorem WildcardLast.eq_nil {name : Str} {segs : List Segment}
    (h : WildcardLast (.wildcard name :: segs)) : segs = [] := by
  rcases segs with _ | ⟨seg', segs⟩
  · rfl
  · exact absurd (by rw [List.dropLast_cons_cons]; exact List.mem_cons_self) (h name)

/-- Nothing lines up with nothing only. -/
theorem LinesUp.nil_iff {segs : List Segment} {pieces : List Str} (h : LinesUp segs pieces) :
    segs = [] ↔ pieces = [] := by
  cases h <;> simp

/-! ### The loop of `match_pattern` -/

/-- There is a match when the segments line up with the pieces. -/
theorem matchSegments_isSome_iff {segs : List Segment} {pieces : List Str} {params : Params}
    (hlast : WildcardLast segs) :
    (matchSegments segs pieces params).isSome ↔ LinesUp segs pieces := by
  induction segs generalizing pieces params with
  | nil =>
      rcases pieces with _ | ⟨piece, pieces⟩
      · simpa [matchSegments] using LinesUp.nil
      · simp only [matchSegments, List.isEmpty_cons, Bool.false_eq_true, if_false]
        exact iff_of_false (by simp) nofun
  | cons seg segs ih =>
      rcases pieces with _ | ⟨piece, pieces⟩
      · simp only [matchSegments]
        exact iff_of_false (by simp) nofun
      cases seg with
      | literal s =>
          rw [matchSegments]
          by_cases hs : piece = s
          · rw [if_pos hs, ih hlast.tail, hs]
            exact ⟨.literal s, fun h => by cases h; assumption⟩
          · rw [if_neg hs]
            exact iff_of_false (by simp) fun h => by cases h; exact hs rfl
      | param name =>
          rw [matchSegments, ih hlast.tail]
          exact ⟨.param name piece, fun h => by cases h; assumption⟩
      | wildcard name =>
          rw [hlast.eq_nil, matchSegments]
          exact iff_of_true rfl (.wildcard name piece pieces)

/-- A match adds the names of the pattern to those bound before. -/
theorem mem_matchSegments {segs : List Segment} {pieces : List Str} {params params' : Params}
    (hlast : WildcardLast segs) (h : matchSegments segs pieces params = some params') (name : Str) :
    name ∈ params' ↔ name ∈ boundNames segs ∨ name ∈ params := by
  induction segs generalizing pieces params with
  | nil =>
      rcases pieces with _ | ⟨piece, pieces⟩
      · cases h
        simp
      · cases h
  | cons seg segs ih =>
      rcases pieces with _ | ⟨piece, pieces⟩
      · cases h
      cases seg with
      | literal s =>
          rw [matchSegments] at h
          split at h
          · exact ih hlast.tail h
          · cases h
      | param x =>
          rw [matchSegments] at h
          rw [ih hlast.tail h, Finmap.mem_insert, boundNames_param, List.mem_cons]
          tauto
      | wildcard x =>
          rw [hlast.eq_nil]
          rw [matchSegments, Option.some.injEq] at h
          rw [← h, Finmap.mem_insert]
          simp

/-- A match changes no value of a name that is not one of the pattern's. -/
theorem lookup_matchSegments {segs : List Segment} {pieces : List Str} {params params' : Params}
    (h : matchSegments segs pieces params = some params') {name : Str}
    (hname : name ∉ boundNames segs) : params'.lookup name = params.lookup name := by
  induction segs generalizing pieces params with
  | nil =>
      rcases pieces with _ | ⟨piece, pieces⟩
      · cases h
        rfl
      · cases h
  | cons seg segs ih =>
      rcases pieces with _ | ⟨piece, pieces⟩
      · cases h
      cases seg with
      | literal s =>
          rw [matchSegments] at h
          split at h
          · exact ih h hname
          · cases h
      | param x =>
          rw [boundNames_param, List.mem_cons, not_or] at hname
          rw [matchSegments] at h
          rw [ih h hname.2, Finmap.lookup_insert_of_ne _ hname.1]
      | wildcard x =>
          rw [boundNames_wildcard, List.mem_cons, not_or] at hname
          rw [matchSegments, Option.some.injEq] at h
          rw [← h, Finmap.lookup_insert_of_ne _ hname.1]

/-- The values that a match binds, put into the pattern, give the pieces again. -/
theorem substitute_matchSegments {segs : List Segment} {pieces : List Str} {params params' : Params}
    (hlast : WildcardLast segs) (hnodup : (boundNames segs).Nodup)
    (h : matchSegments segs pieces params = some params') :
    substitute params' segs = ['/'].intercalate pieces := by
  induction segs generalizing pieces params with
  | nil =>
      rcases pieces with _ | ⟨piece, pieces⟩
      · rfl
      · cases h
  | cons seg segs ih =>
      rcases pieces with _ | ⟨piece, pieces⟩
      · cases h
      have hlines : ∀ {params : Params}, matchSegments segs pieces params = some params' →
          (segs = [] ↔ pieces = []) := fun h =>
        ((matchSegments_isSome_iff hlast.tail).1 (Option.isSome_of_eq_some h)).nil_iff
      -- the segment in front and the piece in front are the same text
      have hcons : ∀ {params : Params}, seg.substitute params' = piece →
          (boundNames segs).Nodup → matchSegments segs pieces params = some params' →
          substitute params' (seg :: segs) = ['/'].intercalate (piece :: pieces) := by
        intro params hseg hnodup h
        have hrest := ih hlast.tail hnodup h
        rw [substitute, List.map_cons, hseg]
        by_cases hnil : pieces = []
        · rw [hnil, (hlines h).2 hnil, List.map_nil]
        · rw [List.intercalate_cons_of_ne_nil (by simpa [hlines h] using hnil),
            List.intercalate_cons_of_ne_nil hnil, ← hrest, substitute]
      cases seg with
      | literal s =>
          rw [matchSegments] at h
          split at h
          next hs => exact hcons hs.symm hnodup h
          next => cases h
      | param x =>
          rw [boundNames_param, List.nodup_cons] at hnodup
          rw [matchSegments] at h
          refine hcons ?_ hnodup.2 h
          rw [Segment.substitute, lookup_matchSegments h hnodup.1, Finmap.lookup_insert]
          rfl
      | wildcard x =>
          rw [hlast.eq_nil]
          rw [matchSegments, Option.some.injEq] at h
          simp [substitute, Segment.substitute, ← h, Finmap.lookup_insert]

/-! ### The match of a path -/

/-- The segments of a path are found again between the slashes that join them. -/
theorem splitPath_intercalate {pieces : List Str} (h : ∀ s ∈ pieces, s ≠ [] ∧ '/' ∉ s) :
    splitPath (['/'].intercalate pieces) = pieces := by
  by_cases hnil : pieces = []
  · subst hnil
    rfl
  · rw [splitPath, List.splitOn_intercalate '/' (fun s hs => (h s hs).2) hnil, List.filter_eq_self]
    intro s hs
    simpa using (h s hs).1

theorem of_mem_splitPath {path s : Str} (h : s ∈ splitPath path) : s ≠ [] ∧ '/' ∉ s := by
  obtain ⟨hmem, hne⟩ := List.mem_filter.1 h
  exact ⟨by simpa using hne, Pieces.sep_notMem_of_mem_splitOn hmem⟩

/-- **A pattern matches a path when their segments line up**, and the values it binds, put back into
the pattern, give the segments of the path. -/
theorem matchPattern_exact (pattern path : Str) (hlast : WildcardLast (parsePattern pattern))
    (hnodup : (boundNames (parsePattern pattern)).Nodup) :
    ((∃ params, matchPattern (parsePattern pattern) path = some params) ↔
        LinesUp (parsePattern pattern) (splitPath path)) ∧
      ∀ params, matchPattern (parsePattern pattern) path = some params →
        substitute params (parsePattern pattern) = ['/'].intercalate (splitPath path) ∧
        splitPath (substitute params (parsePattern pattern)) = splitPath path ∧
        ∀ name, name ∈ params ↔ name ∈ boundNames (parsePattern pattern) := by
  refine ⟨?_, fun params h => ?_⟩
  · rw [← Option.isSome_iff_exists]
    exact matchSegments_isSome_iff hlast
  · have hjoin := substitute_matchSegments hlast hnodup h
    refine ⟨hjoin, ?_, fun name => ?_⟩
    · rw [hjoin, splitPath_intercalate fun s hs => of_mem_splitPath hs]
    · rw [mem_matchSegments hlast h]
      simp [Finmap.notMem_empty]

theorem matchPattern_exact_files :
    (∃ params,
      matchPattern (parsePattern "/u/:id/*rest".toList) "//u/7/a//b/".toList = some params ∧
      substitute params (parsePattern "/u/:id/*rest".toList) = "u/7/a/b".toList) := by
  have hlast : WildcardLast (parsePattern "/u/:id/*rest".toList) := by
    rw [show parsePattern "/u/:id/*rest".toList
      = [.literal "u".toList, .param "id".toList, .wildcard "rest".toList] by decide]
    simp [WildcardLast]
  obtain ⟨⟨_, hmatch⟩, hvalues⟩ := matchPattern_exact "/u/:id/*rest".toList
    "//u/7/a//b/".toList hlast (by decide)
  obtain ⟨params, h⟩ := hmatch (by
    rw [show splitPath "//u/7/a//b/".toList
      = ["u".toList, "7".toList, "a".toList, "b".toList] by decide]
    exact .literal _ (.param _ _ (.wildcard _ _ _)))
  exact ⟨params, h, (hvalues params h).1.trans (by decide)⟩

end OxiHttp
