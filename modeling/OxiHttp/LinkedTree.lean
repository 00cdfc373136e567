/-
**Trees of directories with symbolic links.**

A link is an entry that holds a path.  A search that comes to one goes on with that path in place of
the segment, from the top or from the directory of the link, and gives up after a number of links,
so that it ends even when they lead to each other.  It ends at a location, where everything on the
way from the top is a directory: that is where the thing is, whatever the path was.

A search does not look into the files, so that trees that differ in them only lead all paths to the
same places.

Main definitions:

* `UnixPath.LinkedTree`, `UnixPath.LinkedTree.find` — a tree, and how it is searched;
* `UnixPath.FileTree.linked` — a tree without links;
* `UnixPath.LinkedTree.SameShape` — trees that differ in their files only.

Main results:

* `UnixPath.LinkedTree.entry_of_prefix` — what stands above something is a directory;
* `UnixPath.FileTree.find_linked` — without links the segments lead the way;
* `UnixPath.LinkedTree.SameShape.find_eq` — the files do not matter.
-/

import OxiHttp.UnixPath

set_option relaxedAutoImplicit false
set_option autoImplicit false

namespace UnixPath

/-- What there is at a location, where links may be. -/
inductive LinkedEntry (α : Type) where
  | plain (entry : Entry α)
  | link (target : List UInt8)

/-- A tree of directories with links.  Everything in it stands in a directory. -/
@[ext]
structure LinkedTree (α : Type) where
  entry : Location → Option (LinkedEntry α)
  top : entry [] = some (.plain .directory)
  parent : ∀ loc name, entry (loc ++ [name]) ≠ none → entry loc = some (.plain .directory)

/-- What is left of an entry without the content of files. -/
def LinkedEntry.shape {α : Type} : LinkedEntry α → LinkedEntry Unit
  | .plain .directory => .plain .directory
  | .plain (.file _) => .plain (.file ())
  | .plain .other => .plain .other
  | .link target => .link target

namespace LinkedTree

variable {α : Type}

/-- A tree with one more entry. -/
def insert (tree : LinkedTree α) (dir : Location) (name : FileName) (e : LinkedEntry α)
    (hdir : tree.entry dir = some (.plain .directory)) (hfree : tree.entry (dir ++ [name]) = none) :
    LinkedTree α where
  entry loc := if loc = dir ++ [name] then some e else tree.entry loc
  top := by
    rw [if_neg (List.append_ne_nil_of_right_ne_nil dir (List.cons_ne_nil name [])).symm]
    exact tree.top
  parent loc name' h := by
    have hne : ∀ loc', tree.entry loc' = some (.plain .directory) → loc' ≠ dir ++ [name] := by
      rintro loc' hloc' rfl
      rw [hfree] at hloc'
      cases hloc'
    split_ifs at h with heq
    · obtain ⟨rfl, -⟩ := List.append_inj' heq rfl
      rw [if_neg (hne loc hdir), hdir]
    · have hloc := tree.parent loc name' h
      rw [if_neg (hne loc hloc), hloc]

/-! ### Searching -/

/-- Where segments lead to without a link being followed. -/
inductive Stop where
  | found (loc : Location)
  | missing
  | atLink (dir : Location) (target : List UInt8) (rest : List Move)
deriving DecidableEq

/-- Segments up to the first link. -/
def advance (tree : LinkedTree α) : Location → List Move → Stop
  | loc, [] => .found loc
  | loc, seg :: segs =>
      match tree.entry loc, tree.entry (seg.apply loc) with
      | some (.plain .directory), some (.plain _) => tree.advance (seg.apply loc) segs
      | some (.plain .directory), some (.link target) => .atLink loc target segs
      | _, _ => .missing

/-- Where a path starts from. -/
def start (cwd : Location) (path : List UInt8) : Location := if isAbsolute path then [] else cwd

/-- Segments, with a number of links that may be followed. -/
def walk (tree : LinkedTree α) (links : ℕ) (loc : Location) (segs : List Move) : Option Location :=
  match tree.advance loc segs with
  | .found finish => some finish
  | .missing => none
  | .atLink dir target rest =>
      match links with
      | 0 => none
      | links + 1 =>
          if target = [] then none
          else tree.walk links (start dir target) (segments target ++ rest)

/-- The location of a path, which is relative to a current directory. -/
def find (tree : LinkedTree α) (links : ℕ) (cwd : Location) (path : List UInt8) : Option Location :=
  if path = [] ∨ 0 ∈ path then none
  else tree.walk links (start cwd path) (segments path)

variable {tree : LinkedTree α} {loc finish : Location} {segs : List Move}

theorem walk_of_found (h : tree.advance loc segs = .found finish) (links : ℕ) :
    tree.walk links loc segs = some finish := by
  rw [walk, h]

/-- What stands above something is a directory. -/
theorem entry_of_prefix {above : Location} (h : tree.entry loc ≠ none) (habove : above <+: loc)
    (hne : above ≠ loc) : tree.entry above = some (.plain .directory) := by
  induction loc using List.reverseRecOn with
  | nil => exact absurd (List.prefix_nil.1 habove) hne
  | append_singleton loc name ih =>
      have hloc := tree.parent loc name h
      rcases List.prefix_concat_iff.1 habove with heq | hprefix
      · exact absurd heq hne
      · by_cases heq : above = loc
        · rw [heq, hloc]
        · exact ih (by rw [hloc]; exact Option.some_ne_none _) hprefix heq

end LinkedTree

/-! ### Trees without links -/

namespace FileTree

variable {α : Type}

/-- The same tree, where there could be links. -/
def linked (tree : FileTree α) : LinkedTree α where
  entry loc := (tree.entry loc).map .plain
  top := by rw [tree.top, Option.map_some]
  parent loc name h := by
    have hloc := tree.parent loc name fun hnone => h (by rw [hnone, Option.map_none])
    rw [hloc, Option.map_some]

@[simp] theorem linked_entry (tree : FileTree α) (loc : Location) :
    tree.linked.entry loc = (tree.entry loc).map .plain := rfl

/-- Without links a search is one for the segments. -/
theorem advance_linked (tree : FileTree α) (loc : Location) (segs : List Move) :
    tree.linked.advance loc segs =
      match tree.walk loc segs with
      | some finish => .found finish
      | none => .missing := by
  induction segs generalizing loc with
  | nil => rfl
  | cons seg segs ih =>
      rw [LinkedTree.advance, FileTree.walk, FileTree.step, linked_entry, linked_entry]
      rcases tree.entry loc with _ | (_ | content | _)
      · rfl
      · cases tree.entry (seg.apply loc) with
        | none => rfl
        | some e => exact ih (seg.apply loc)
      · rfl
      · rfl

theorem find_linked (tree : FileTree α) (links : ℕ) (cwd : Location) (path : List UInt8) :
    tree.linked.find links cwd path = tree.find cwd path := by
  have hwalk : ∀ loc segs, tree.linked.walk links loc segs = tree.walk loc segs := by
    intro loc segs
    have hstop := tree.advance_linked loc segs
    cases hfound : tree.walk loc segs with
    | none =>
        rw [hfound] at hstop
        rw [LinkedTree.walk, hstop]
    | some finish =>
        rw [hfound] at hstop
        exact LinkedTree.walk_of_found hstop links
  rw [LinkedTree.find, FileTree.find, hwalk, LinkedTree.start]

end FileTree

/-! ### Trees without what is in their files -/

namespace LinkedTree

variable {α : Type}

/-- What a search sees of a tree. -/
def bare (tree : LinkedTree α) : LinkedTree Unit where
  entry loc := (tree.entry loc).map LinkedEntry.shape
  top := by
    rw [tree.top]
    rfl
  parent loc name h := by
    rw [tree.parent loc name fun hnone => h (by rw [hnone, Option.map_none])]
    rfl

@[simp] theorem bare_entry (tree : LinkedTree α) (loc : Location) :
    tree.bare.entry loc = (tree.entry loc).map .shape := rfl

theorem advance_bare (tree : LinkedTree α) (loc : Location) (segs : List Move) :
    tree.bare.advance loc segs = tree.advance loc segs := by
  induction segs generalizing loc with
  | nil => rfl
  | cons seg segs ih =>
      rw [advance, advance, ih, bare_entry, bare_entry]
      rcases tree.entry loc with _ | ((_ | content | _) | target)
      · rfl
      · rcases tree.entry (seg.apply loc) with _ | ((_ | content | _) | target) <;> rfl
      · rfl
      · rfl
      · rfl

theorem walk_bare (tree : LinkedTree α) (links : ℕ) (loc : Location) (segs : List Move) :
    tree.bare.walk links loc segs = tree.walk links loc segs := by
  induction links generalizing loc segs with
  | zero => rw [walk, walk, advance_bare]
  | succ links ih =>
      rw [walk, walk, advance_bare]
      cases tree.advance loc segs with
      | found finish => rfl
      | missing => rfl
      | atLink dir target rest =>
          dsimp only
          rw [ih]

/-- Trees that differ in what is in their files only. -/
def SameShape (tree tree' : LinkedTree α) : Prop :=
  ∀ loc, (tree.entry loc).map LinkedEntry.shape = (tree'.entry loc).map LinkedEntry.shape

/-- **What is in the files does not matter** to a search. -/
theorem SameShape.find_eq {tree tree' : LinkedTree α} (h : tree.SameShape tree') (links : ℕ)
    (cwd : Location) (path : List UInt8) :
    tree.find links cwd path = tree'.find links cwd path := by
  have hbare : tree.bare = tree'.bare := LinkedTree.ext (funext h)
  rw [find, find, ← walk_bare tree, ← walk_bare tree', hbare]

end LinkedTree

end UnixPath
