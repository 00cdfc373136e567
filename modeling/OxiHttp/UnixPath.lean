/-
**Unix paths.**

A path is a sequence of bytes that slashes cut into segments.  A segment that is empty or a dot
stays where it is, two dots go up to the parent, of which the top is its own, and every other
segment is the name of an entry.  A tree of directories in which there are no links looks a path up
segment by segment; when it gets through it ends where the segments lead to, whatever entries the
tree has.

A location may be left on the way and reached again, so that the end of a path does not say where
it has been: that a path stays below a location is a statement about all of its positions.

Main definitions:

* `UnixPath.FileName`, `UnixPath.Location` — the names of entries, and where they are;
* `UnixPath.segments`, `UnixPath.resolve` — the segments of a path, and where they lead to;
* `UnixPath.StaysBelow`, `UnixPath.PassesTop` — where a path has been;
* `UnixPath.components`, `UnixPath.join`, `UnixPath.startsWith`, `UnixPath.extension` — what a
  program does with paths;
* `UnixPath.FileTree`, `UnixPath.FileTree.find` — a tree of directories, and how it is searched.

Main results:

* `UnixPath.segments_join_render` — the segments of a path below a location;
* `UnixPath.FileTree.find_eq_resolve` — what is found is where the path leads to.
-/

import Mathlib.Data.List.DropRight
import Mathlib.Tactic.Common

set_option relaxedAutoImplicit false
set_option autoImplicit false

namespace UnixPath

/-- The separator of the segments. -/
def slash : UInt8 := 0x2F

def dot : UInt8 := 0x2E

/-! ### Names and locations -/

/-- A segment that names an entry. -/
def IsName (s : List UInt8) : Prop := s ≠ [] ∧ s ≠ [dot] ∧ s ≠ [dot, dot] ∧ slash ∉ s

instance (s : List UInt8) : Decidable (IsName s) := inferInstanceAs (Decidable (_ ∧ _))

/-- The name of an entry of a directory. -/
structure FileName where
  bytes : List UInt8
  isName : IsName bytes
deriving DecidableEq

/-- The names on the way from the top. -/
abbrev Location := List FileName

/-- The path of a location. -/
def render (loc : Location) : List UInt8 :=
  if loc = [] then [slash] else loc.flatMap fun name => slash :: name.bytes

/-! ### Segments -/

/-- What a segment does. -/
inductive Move where
  | stay
  | up
  | into (name : FileName)
deriving DecidableEq

def move (s : List UInt8) : Move :=
  if h : IsName s then .into ⟨s, h⟩ else if s = [dot, dot] then .up else .stay

theorem move_bytes (name : FileName) : move name.bytes = .into name := dif_pos name.isName

/-- What the segments of a path do. -/
def segments (path : List UInt8) : List Move := (path.splitOn slash).map move

theorem segments_append (s path : List UInt8) :
    segments (s ++ slash :: path) = segments s ++ segments path := by
  rw [segments, List.splitOn_append_cons_self, List.map_append]
  rfl

theorem segments_slash (path : List UInt8) : segments (slash :: path) = .stay :: segments path :=
  segments_append [] path

theorem segments_name (name : FileName) : segments name.bytes = [.into name] := by
  rw [segments, List.splitOn_eq_singleton name.isName.2.2.2, List.map_singleton, move_bytes]

theorem segments_flatMap (loc : Location) :
    segments (loc.flatMap fun name => slash :: name.bytes) = .stay :: loc.map .into := by
  induction loc using List.reverseRecOn with
  | nil => rfl
  | append_singleton loc name ih =>
      rw [List.flatMap_append, List.flatMap_singleton, segments_append, ih, segments_name,
        List.map_append]
      rfl

theorem segments_replicate_slash (n : ℕ) (path : List UInt8) :
    segments (List.replicate n slash ++ path) = List.replicate n .stay ++ segments path := by
  induction n with
  | zero => rfl
  | succ n ih =>
      rw [List.replicate_succ, List.cons_append, segments_slash, ih]
      rfl

/-! ### Where segments lead to -/

/-- Where one segment leads to. -/
def Move.apply (loc : Location) : Move → Location
  | .stay => loc
  | .up => loc.dropLast
  | .into name => loc ++ [name]

/-- Where segments lead to. -/
def resolve (loc : Location) (segs : List Move) : Location := segs.foldl Move.apply loc

theorem resolve_cons (loc : Location) (seg : Move) (segs : List Move) :
    resolve loc (seg :: segs) = resolve (seg.apply loc) segs := rfl

theorem resolve_append (loc : Location) (segs₁ segs₂ : List Move) :
    resolve loc (segs₁ ++ segs₂) = resolve (resolve loc segs₁) segs₂ := List.foldl_append

theorem resolve_into (loc names : Location) : resolve loc (names.map .into) = loc ++ names := by
  induction names generalizing loc with
  | nil => exact (List.append_nil loc).symm
  | cons name names ih =>
      rw [List.map_cons, resolve_cons, ih]
      exact List.append_assoc loc [name] names

/-- No position on the way is above the location. -/
def StaysBelow (root start : Location) (segs : List Move) : Prop :=
  ∀ before after, segs = before ++ after → root <+: resolve start before

/-- The parent of the top is taken on the way. -/
def PassesTop (start : Location) (segs : List Move) : Prop :=
  ∃ before after, segs = before ++ .up :: after ∧ resolve start before = []

theorem StaysBelow.resolve {root start : Location} {segs : List Move}
    (h : StaysBelow root start segs) : root <+: resolve start segs :=
  h segs [] (List.append_nil segs).symm

theorem not_passesTop_nil (start : Location) : ¬ PassesTop start [] := by
  rintro ⟨before, after, h, -⟩
  cases before <;> cases h

theorem passesTop_cons {start : Location} {seg : Move} {segs : List Move} :
    PassesTop start (seg :: segs) ↔
      (seg = .up ∧ start = []) ∨ PassesTop (seg.apply start) segs := by
  constructor
  · rintro ⟨before, after, h, htop⟩
    cases before with
    | nil =>
        cases h
        exact .inl ⟨rfl, htop⟩
    | cons seg' before =>
        cases h
        exact .inr ⟨before, after, rfl, htop⟩
  · rintro (⟨rfl, rfl⟩ | ⟨before, after, rfl, htop⟩)
    · exact ⟨[], segs, rfl, rfl⟩
    · exact ⟨seg :: before, after, rfl, htop⟩

theorem passesTop_stay {start : Location} {segs : List Move} :
    PassesTop start (.stay :: segs) ↔ PassesTop start segs := by
  rw [passesTop_cons]
  exact or_iff_right fun h => nomatch h.1

theorem passesTop_into_append {start names : Location} {segs : List Move} :
    PassesTop start (names.map .into ++ segs) ↔ PassesTop (start ++ names) segs := by
  induction names generalizing start with
  | nil => rw [List.append_nil]; rfl
  | cons name names ih =>
      rw [List.map_cons, List.cons_append, passesTop_cons, or_iff_right fun h => nomatch h.1]
      exact ih.trans (by rw [Move.apply, List.append_assoc]; rfl)

theorem StaysBelow.of_stay {root start : Location} {segs : List Move}
    (h : StaysBelow root start (.stay :: segs)) : StaysBelow root start segs := by
  intro before after hsegs
  exact h (.stay :: before) after (by rw [hsegs, List.cons_append])

/-- Without two dots there is no way up. -/
theorem prefix_resolve {start : Location} {segs : List Move} (h : .up ∉ segs) :
    start <+: resolve start segs := by
  induction segs generalizing start with
  | nil => exact List.prefix_rfl
  | cons seg segs ih =>
      rw [List.mem_cons, not_or] at h
      rw [resolve_cons]
      cases seg with
      | stay => exact ih h.2
      | up => exact absurd rfl h.1
      | into name => exact (List.prefix_append start [name]).trans (ih h.2)

theorem staysBelow_of_notMem_up {start : Location} {segs : List Move} (h : .up ∉ segs) :
    StaysBelow start start segs := by
  rintro before after rfl
  exact prefix_resolve fun hup => h (List.mem_append_left after hup)

theorem not_passesTop_of_notMem_up {start : Location} {segs : List Move} (h : .up ∉ segs) :
    ¬ PassesTop start segs := by
  rintro ⟨before, after, rfl, -⟩
  exact h (List.mem_append_right before List.mem_cons_self)

/-! ### What a program does with paths -/

/-- A path that begins at the top. -/
def isAbsolute (path : List UInt8) : Bool := path.head? == some slash

inductive Component where
  | rootDir
  | curDir
  | parentDir
  | normal (name : FileName)
deriving DecidableEq

def Move.component : Move → Option Component
  | .stay => none
  | .up => some .parentDir
  | .into name => some (.normal name)

/-- The components of a path.  A dot is one where a relative path begins with it. -/
def components (path : List UInt8) : List Component :=
  let names := (segments path).filterMap Move.component
  if isAbsolute path then .rootDir :: names
  else if (path.splitOn slash).head? = some [dot] then .curDir :: names
  else names

/-- A path below another one, unless it is absolute itself. -/
def join (base path : List UInt8) : List UInt8 :=
  if isAbsolute path then path
  else if base.getLast?.any (· ≠ slash) then base ++ slash :: path
  else base ++ path

/-- The components of the one path begin with those of the other one. -/
def startsWith (path base : List UInt8) : Bool := (components base).isPrefixOf (components path)

/-- What stands behind the last dot of the last component, when something stands before it. -/
def extension (path : List UInt8) : Option (List UInt8) :=
  match (components path).getLast? with
  | some (.normal name) =>
      if (name.bytes.rdropWhile (· ≠ dot)).length ≤ 1 then none
      else some (name.bytes.rtakeWhile (· ≠ dot))
  | _ => none

theorem isAbsolute_render (loc : Location) : isAbsolute (render loc) = true := by
  cases loc with
  | nil => rfl
  | cons name loc => rfl

theorem getLast?_ne_slash {name : FileName} (s : List UInt8) :
    (s ++ slash :: name.bytes).getLast?.any (· ≠ slash) = true := by
  obtain ⟨init, last, hlast⟩ := List.eq_nil_or_concat name.bytes |>.resolve_left name.isName.1
  have hmem : last ∈ name.bytes := by
    rw [hlast, List.concat_eq_append]
    exact List.mem_concat_self
  have hne : last ≠ slash := fun h => name.isName.2.2.2 (h ▸ hmem)
  rw [hlast, List.concat_eq_append, ← List.cons_append, ← List.append_assoc,
    List.getLast?_concat]
  exact decide_eq_true hne

/-- The path of a location, and what is put behind it. -/
theorem join_render {path : List UInt8} (hpath : isAbsolute path = false) (loc : Location) :
    join (render loc) path = (loc.flatMap fun name => slash :: name.bytes) ++ slash :: path := by
  rw [join, if_neg (by rw [hpath]; exact Bool.false_ne_true)]
  rcases List.eq_nil_or_concat loc with rfl | ⟨init, name, rfl⟩
  · rfl
  · have hrender : render (init.concat name) =
        (init.flatMap fun name => slash :: name.bytes) ++ slash :: name.bytes := by
      rw [List.concat_eq_append, render,
        if_neg (List.append_ne_nil_of_right_ne_nil init (List.cons_ne_nil name [])),
        List.flatMap_append, List.flatMap_singleton]
    rw [hrender, if_pos (getLast?_ne_slash _), List.concat_eq_append, List.flatMap_append,
      List.flatMap_singleton]

theorem isAbsolute_join_render (loc : Location) (path : List UInt8) :
    isAbsolute (join (render loc) path) = true := by
  cases hpath : isAbsolute path with
  | true => rw [join, if_pos hpath, hpath]
  | false =>
      rw [join_render hpath]
      cases loc with
      | nil => rfl
      | cons name loc => rfl

theorem segments_join_render {path : List UInt8} (hpath : isAbsolute path = false)
    (loc : Location) :
    segments (join (render loc) path) = .stay :: (loc.map .into ++ segments path) := by
  rw [join_render hpath, segments_append, segments_flatMap]
  rfl

theorem components_of_isAbsolute {path : List UInt8} (h : isAbsolute path = true) :
    components path = .rootDir :: (segments path).filterMap Move.component := if_pos h

theorem filterMap_into (loc : Location) :
    (loc.map Move.into).filterMap Move.component = loc.map .normal := by
  rw [List.filterMap_map, ← List.filterMap_eq_map]
  rfl

theorem components_render (loc : Location) :
    components (render loc) = .rootDir :: loc.map .normal := by
  rw [components_of_isAbsolute (isAbsolute_render loc)]
  cases loc with
  | nil => rfl
  | cons name loc =>
      rw [render, if_neg (List.cons_ne_nil name loc), segments_flatMap, ← filterMap_into]
      rfl

theorem startsWith_render (loc root : Location) :
    startsWith (render loc) (render root) = true ↔ root <+: loc := by
  have hinj : Function.Injective Component.normal := fun _ _ h => by
    cases h
    rfl
  rw [startsWith, List.isPrefixOf_iff_prefix, components_render, components_render,
    List.cons_prefix_cons, and_iff_right rfl, List.prefix_map_iff_of_injective hinj]

/-! ### Trees of directories -/

/-- What there is at a location. -/
inductive Entry (α : Type) where
  | directory
  | file (content : α)
  | other

/-- A tree of directories.  Everything in it stands in a directory. -/
structure FileTree (α : Type) where
  entry : Location → Option (Entry α)
  top : entry [] = some .directory
  parent : ∀ loc name, entry (loc ++ [name]) ≠ none → entry loc = some .directory

namespace FileTree

variable {α : Type}

/-- A file, and the directories that it takes. -/
def single (dir : Location) (name : FileName) (content : α) : FileTree α where
  entry loc :=
    if loc <+: dir then some .directory
    else if loc = dir ++ [name] then some (.file content)
    else none
  top := if_pos List.nil_prefix
  parent loc name' h := by
    refine if_pos ?_
    split_ifs at h with hdir hfile
    · exact (List.prefix_append loc [name']).trans hdir
    · exact (List.append_inj' hfile rfl).1 ▸ List.prefix_rfl
    · exact absurd rfl h

/-- One segment; it is looked up in a directory. -/
def step (tree : FileTree α) (loc : Location) (seg : Move) : Option Location :=
  match tree.entry loc, tree.entry (seg.apply loc) with
  | some .directory, some _ => some (seg.apply loc)
  | _, _ => none

def walk (tree : FileTree α) : Location → List Move → Option Location
  | loc, [] => some loc
  | loc, seg :: segs => (tree.step loc seg).bind fun next => tree.walk next segs

/-- The location of a path, which is relative to a current directory. -/
def find (tree : FileTree α) (cwd : Location) (path : List UInt8) : Option Location :=
  if path = [] ∨ 0 ∈ path then none
  else tree.walk (if isAbsolute path then [] else cwd) (segments path)

theorem step_eq_some {tree : FileTree α} {loc next : Location} {seg : Move}
    (h : tree.step loc seg = some next) : next = seg.apply loc := by
  unfold step at h
  split at h <;> cases h
  rfl

theorem walk_eq_some {tree : FileTree α} {loc finish : Location} {segs : List Move}
    (h : tree.walk loc segs = some finish) : finish = resolve loc segs := by
  induction segs generalizing loc with
  | nil => exact (Option.some.inj h).symm
  | cons seg segs ih =>
      obtain ⟨next, hstep, hwalk⟩ := Option.bind_eq_some_iff.1 h
      rw [resolve_cons, ← step_eq_some hstep]
      exact ih hwalk

/-- What is found is where the path leads to. -/
theorem find_eq_resolve {tree : FileTree α} {cwd loc : Location} {path : List UInt8}
    (habs : isAbsolute path = true) (h : tree.find cwd path = some loc) :
    loc = resolve [] (segments path) := by
  rw [find, habs, if_pos rfl] at h
  split at h
  · cases h
  · exact walk_eq_some h

end FileTree

end UnixPath
