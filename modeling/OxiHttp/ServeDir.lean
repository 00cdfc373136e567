/-
**Serving a directory.**

`ServeDir` joins the path of a request to its root and answers with the file there, when the
components of the joined path, with those taken back that two dots take back, begin with the
components of the root.  In a file system without links this comparison is sound: what it lets
through lies below the root, and the system finds the file in the same place.  It does not know
that the top is its own parent: the component of the top is taken back as well, and a path with
that in it is refused.

Main definitions:

* `OxiHttp.isPathSafe` — the comparison;
* `OxiHttp.FileSystem` — the files that a path leads to;
* `OxiHttp.PathLookup` — what is asked of a file system;
* `OxiHttp.ServeDir`, `OxiHttp.ServeDir.serveWith` — a directory, and the response to a request;
* `OxiHttp.ServeDir.serve` — the same over a file system without links.

Main results:

* `OxiHttp.isPathSafe_iff` — what the comparison lets through;
* `OxiHttp.serveDir_staysBelow` — a file that is served lies below the root, and a request that
  stays there is not refused.
-/

import OxiHttp.StaticFile
import OxiHttp.UnixPath
import OxiHttp.Utf8

set_option relaxedAutoImplicit false
set_option autoImplicit false

namespace OxiHttp

open UnixPath

/-! ### The comparison of paths -/

/-- One component of the candidate, on the stack of those before it. -/
def pushComponent (stack : List Component) : Component → List Component
  | .parentDir => stack.dropLast
  | .curDir => stack
  | other => stack ++ [other]

/-- `is_path_safe`. -/
def isPathSafe (root candidate : List UInt8) : Bool :=
  let rootComponents := components root
  let candComponents := (components candidate).foldl pushComponent []
  if candComponents.length < rootComponents.length then false
  else rootComponents = candComponents.take rootComponents.length

/-- The stack of a location. -/
def stackOf (loc : Location) : List Component := .rootDir :: loc.map .normal

/-- As long as the parent of the top is not taken, the stack is the location; from there on the top
is missing on it. -/
theorem foldl_pushComponent (loc : Location) (segs : List Move) :
    (¬ PassesTop loc segs →
      (segs.filterMap Move.component).foldl pushComponent (stackOf loc) =
        stackOf (resolve loc segs)) ∧
    (PassesTop loc segs →
      .rootDir ∉ (segs.filterMap Move.component).foldl pushComponent (stackOf loc)) := by
  -- without the top, no segment brings it back
  have hlost : ∀ (segs : List Move) (stack : List Component), .rootDir ∉ stack →
      .rootDir ∉ (segs.filterMap Move.component).foldl pushComponent stack := by
    intro segs
    induction segs with
    | nil => exact fun stack h => h
    | cons seg segs ih =>
        intro stack h
        cases seg with
        | stay => exact ih stack h
        | up => exact ih _ fun hmem => h (List.mem_of_mem_dropLast hmem)
        | into name => exact ih (stack ++ [.normal name]) (by simp [h])
  induction segs generalizing loc with
  | nil => exact ⟨fun _ => rfl, fun h => absurd h (not_passesTop_nil loc)⟩
  | cons seg segs ih =>
      rw [passesTop_cons, resolve_cons]
      cases seg with
      | stay =>
          rw [or_iff_right fun h => nomatch h.1]
          exact ih loc
      | into name =>
          rw [or_iff_right fun h => nomatch h.1]
          have hpush : pushComponent (stackOf loc) (.normal name) = stackOf (loc ++ [name]) := by
            simp [pushComponent, stackOf]
          have hloc := ih (loc ++ [name])
          rw [← hpush] at hloc
          exact hloc
      | up =>
          rcases List.eq_nil_or_concat loc with rfl | ⟨init, name, rfl⟩
          · refine ⟨fun h => absurd (.inl ⟨rfl, rfl⟩) h, fun _ => hlost segs [] List.not_mem_nil⟩
          · rw [List.concat_eq_append, or_iff_right fun h => List.append_ne_nil_of_right_ne_nil
              init (List.cons_ne_nil name []) h.2]
            have hpop : pushComponent (stackOf (init ++ [name])) .parentDir = stackOf init := by
              simp [pushComponent, stackOf, List.dropLast_cons_of_ne_nil]
            have hloc := ih init
            rw [← hpop] at hloc
            rw [Move.apply, List.dropLast_concat]
            exact hloc

/-- The comparison is that of a prefix. -/
theorem isPathSafe_eq_true {root candidate : List UInt8} :
    isPathSafe root candidate = true ↔
      components root <+: (components candidate).foldl pushComponent [] := by
  rw [isPathSafe, List.prefix_iff_eq_take]
  by_cases hlen : ((components candidate).foldl pushComponent []).length < (components root).length
  · rw [if_pos hlen]
    refine iff_of_false Bool.false_ne_true fun h => ?_
    have := congrArg List.length h
    rw [List.length_take] at this
    omega
  · rw [if_neg hlen]
    exact decide_eq_true_iff

/-- What the comparison lets through: a path that leads below the root and does not take the
parent of the top. -/
theorem isPathSafe_iff {candidate : List UInt8} (h : isAbsolute candidate = true)
    (root : Location) :
    isPathSafe (render root) candidate = true ↔
      ¬ PassesTop [] (segments candidate) ∧ root <+: resolve [] (segments candidate) := by
  have hinj : Function.Injective Component.normal := fun _ _ h => by
    cases h
    rfl
  obtain ⟨hkept, hlost⟩ := foldl_pushComponent [] (segments candidate)
  rw [isPathSafe_eq_true, components_render, components_of_isAbsolute h, List.foldl_cons,
    show pushComponent [] .rootDir = stackOf [] from rfl]
  by_cases htop : PassesTop [] (segments candidate)
  · refine iff_of_false (fun hprefix => hlost htop ?_) fun hsafe => hsafe.1 htop
    exact hprefix.subset List.mem_cons_self
  · rw [hkept htop, stackOf, List.cons_prefix_cons, and_iff_right rfl,
      List.prefix_map_iff_of_injective hinj, and_iff_right htop]

/-- The same, for a path that is joined to the root. -/
theorem isPathSafe_join_iff {path : List UInt8} (hpath : isAbsolute path = false)
    (root : Location) :
    isPathSafe (render root) (join (render root) path) = true ↔
      ¬ PassesTop root (segments path) ∧ root <+: resolve root (segments path) := by
  rw [isPathSafe_iff (isAbsolute_join_render root path), segments_join_render hpath,
    passesTop_stay, passesTop_into_append, resolve_cons, resolve_append, Move.apply,
    resolve_into, List.nil_append]

/-! ### The file system -/

/-- The files, the directory that relative paths start from, and what the system says about a path
that it does not find.  It may refuse to look a path up, for its length or for want of a
permission. -/
structure FileSystem where
  tree : FileTree FileAccess
  cwd : Location
  refuses : List UInt8 → Bool
  ioError : List UInt8 → String

namespace FileSystem

def find (fs : FileSystem) (path : List UInt8) : Except OxiHttpError Location :=
  if fs.refuses path then .error (.io (fs.ioError path))
  else
    match fs.tree.find fs.cwd path with
    | some loc => .ok loc
    | none => .error (.io (fs.ioError path))

/-- `Path::canonicalize`. -/
def canonicalize (fs : FileSystem) (path : List UInt8) : Except OxiHttpError (List UInt8) :=
  (fs.find path).map render

/-- The file of a path, if `Path::is_file`. -/
def file (fs : FileSystem) (path : List UInt8) : Option FileAccess :=
  match fs.find path with
  | .ok loc =>
      match fs.tree.entry loc with
      | some (.file access) => some access
      | _ => none
  | .error _ => none

theorem find_eq_ok {fs : FileSystem} {path : List UInt8} {loc : Location}
    (h : fs.find path = .ok loc) : fs.tree.find fs.cwd path = some loc := by
  unfold find at h
  split_ifs at h
  split at h
  case h_1 loc' hloc =>
      cases h
      exact hloc
  case h_2 => cases h

/-- Where the file of a path lies. -/
theorem file_eq_some {fs : FileSystem} {path : List UInt8} (habs : isAbsolute path = true)
    {access : FileAccess} (h : fs.file path = some access) :
    fs.find path = .ok (resolve [] (segments path)) ∧
      fs.tree.entry (resolve [] (segments path)) = some (.file access) := by
  unfold file at h
  split at h
  case h_1 loc hloc =>
      have hresolve := FileTree.find_eq_resolve habs (find_eq_ok hloc)
      split at h
      case h_1 access' hentry =>
          cases h
          rw [← hresolve]
          exact ⟨hloc, hentry⟩
      case h_2 => cases h
  case h_2 => cases h

end FileSystem

/-- `Path::canonicalize`, and the file of a path if `Path::is_file`. -/
structure PathLookup where
  canonicalize : List UInt8 → Except OxiHttpError (List UInt8)
  file : List UInt8 → Option FileAccess

/-- A file system without links answers. -/
def FileSystem.lookup (fs : FileSystem) : PathLookup := ⟨fs.canonicalize, fs.file⟩

/-! ### The directory -/

/-- `ServeDir`. -/
structure ServeDir where
  root : List UInt8
  index : Option Str
  fallback : Option (List UInt8)
  cacheControl : Option Str
  mimeOverrides : Str → Option Str
  denySymlinkEscapes : Bool

namespace ServeDir

/-- `ServeDir::new`. -/
def new (root : List UInt8) : ServeDir where
  root := root
  index := none
  fallback := none
  cacheControl := none
  mimeOverrides _ := none
  denySymlinkEscapes := false

/-- What is joined to the root: the path of the request without its leading slashes, or the index
when nothing else is in it. -/
def relPath (dir : ServeDir) (path : Str) : Option Str :=
  let rel := path.dropWhile (· = '/')
  if rel = [] then dir.index else some rel

/-- The file that is sent: the one that is asked for, or the fallback. -/
def filePath (fs : PathLookup) (dir : ServeDir) (absRoot joined : List UInt8) :
    Option (List UInt8 × FileAccess) :=
  match fs.file joined with
  | some access => some (joined, access)
  | none =>
      match dir.fallback with
      | some fallback => (fs.file (join absRoot fallback)).map fun access =>
          (join absRoot fallback, access)
      | none => none

/-- Whether the file is outside of the root when links are followed, as far as this is asked. -/
def escapes (fs : PathLookup) (dir : ServeDir) (absRoot filePath : List UInt8) :
    Except OxiHttpError Bool :=
  if dir.denySymlinkEscapes then
    (fs.canonicalize filePath).map fun resolved => !startsWith resolved absRoot
  else .ok false

/-- The media type of a file; `guess` is what the tables of extensions say. -/
def mime (guess : List UInt8 → Str) (dir : ServeDir) (filePath : List UInt8) : Str :=
  let ext := ((extension filePath).bind Utf8.fromUtf8).getD ""
  (dir.mimeOverrides ext.toList).getD (guess filePath)

/-- A response that has no more than a status. -/
def statusOnly (status : ℕ) : FileResponse := ⟨status, ⟨[]⟩, .empty⟩

/-- `ServeDir::serve`, whatever the file system is. -/
def serveWith (fs : PathLookup) (guess : List UInt8 → Str) (dir : ServeDir) (method : Method)
    (path : Str) (headers : HeaderMap) : Except FileStop FileResponse :=
  if method ≠ .get ∧ method ≠ .head then .ok (statusOnly 405)
  else
    match dir.relPath path with
    | none => .ok (statusOnly 404)
    | some rel =>
        match fs.canonicalize dir.root with
        | .error e => .error (.failed e)
        | .ok absRoot =>
            let joined := join absRoot (Utf8.encode rel)
            if isPathSafe absRoot joined = false then .ok (statusOnly 403)
            else
              match dir.filePath fs absRoot joined with
              | none => .ok (statusOnly 404)
              | some (filePath, access) =>
                  match dir.escapes fs absRoot filePath with
                  | .error e => .error (.failed e)
                  | .ok true => .ok (statusOnly 403)
                  | .ok false =>
                      respondWithFile access method headers (dir.mime guess filePath)
                        dir.cacheControl

/-- `ServeDir::serve`, when there are no links. -/
def serve (fs : FileSystem) (guess : List UInt8 → Str) (dir : ServeDir) (method : Method)
    (path : Str) (headers : HeaderMap) : Except FileStop FileResponse :=
  dir.serveWith fs.lookup guess method path headers

end ServeDir

/-! ### What a response shows -/

/-- The body comes from the file, from some position on. -/
def FileBody.ReadsFrom (access : FileAccess) : FileBody → Prop
  | .empty => True
  | .stream s => ∃ content, access.content = .ok content ∧ s.file <:+ content

theorem bodyFor_readsFrom {method : Method} {access : FileAccess} {start len : ℕ} {body : FileBody}
    (h : bodyFor method access start len = .ok body) : body.ReadsFrom access := by
  have hread : ∀ content, access.content = .ok content →
      (FileBody.stream ⟨content.drop start, len⟩).ReadsFrom access := fun content hcontent =>
    ⟨content, hcontent, List.drop_suffix start content⟩
  unfold bodyFor streamFileRange at h
  split_ifs at h with hhead hstart
  · cases h
    trivial
  · cases hcontent : access.content with
    | error e =>
        rw [hcontent] at h
        cases h
    | ok content =>
        cases hseek : access.seek with
        | error e =>
            rw [hcontent, hseek] at h
            cases h
        | ok u =>
            rw [hcontent, hseek] at h
            cases h
            exact hread content hcontent
  · cases hcontent : access.content with
    | error e =>
        rw [hcontent] at h
        cases h
    | ok content =>
        rw [hcontent] at h
        cases h
        exact hread content hcontent

/-- A response about a file: it is never 403, and its body comes from the file. -/
def FileResponse.IsAbout (access : FileAccess) (r : FileResponse) : Prop :=
  r.status ≠ 403 ∧ r.body.ReadsFrom access

theorem selectResponse_isAbout {access : FileAccess} {md : FileMetadata} {method : Method}
    {headers : HeaderMap} {mime : Str} {cacheControl : Option Str} {r : FileResponse}
    (h : selectResponse access md method headers mime cacheControl = .ok r) :
    r.IsAbout access := by
  unfold selectResponse at h
  split at h
  · split at h
    · obtain ⟨-, body, hbody, rfl⟩ := partialResponse_eq_ok_iff.1 h
      exact ⟨(by decide : (206 : ℕ) ≠ 403), bodyFor_readsFrom hbody⟩
    · obtain ⟨-, rfl⟩ := buildResponse_eq_ok_iff.1 h
      exact ⟨(by decide : (416 : ℕ) ≠ 403), trivial⟩
  · obtain ⟨-, body, hbody, rfl⟩ := fullResponse_eq_ok_iff.1 h
    exact ⟨(by decide : (200 : ℕ) ≠ 403), bodyFor_readsFrom hbody⟩

theorem ok_of_mapError {ε ε' α : Type} {f : ε → ε'} {x : Except ε α} {a : α}
    (h : x.mapError f = .ok a) : x = .ok a := by
  cases x with
  | error e => cases h
  | ok b =>
      cases h
      rfl

theorem respondWithFile_isAbout {access : FileAccess} {method : Method} {headers : HeaderMap}
    {mime : Str} {cacheControl : Option Str} {r : FileResponse}
    (h : respondWithFile access method headers mime cacheControl = .ok r) : r.IsAbout access := by
  have hnot : ∀ len mtime r,
      (notModifiedResponse (computeEtagFromMetadata len mtime)).mapError FileStop.failed = .ok r →
        r.IsAbout access := by
    intro len mtime r hr
    rw [notModifiedResponse_eq_ok] at hr
    cases hr
    exact ⟨(by decide : (304 : ℕ) ≠ 403), trivial⟩
  unfold respondWithFile at h
  split at h
  · cases h
  · dsimp only at h
    split_ifs at h
    · exact hnot _ _ _ h
    · split at h
      · cases h
      · exact hnot _ _ _ h
      · exact selectResponse_isAbout (ok_of_mapError h)

/-! ### Where the files lie -/

namespace ServeDir

/-- Asking for links changes nothing where there are none. -/
theorem escapes_of_file {fs : FileSystem} {root : Location} {joined : List UInt8}
    {access : FileAccess} (habs : isAbsolute joined = true)
    (hsafe : isPathSafe (render root) joined = true) (hfile : fs.file joined = some access)
    (dir : ServeDir) : dir.escapes fs.lookup (render root) joined = .ok false := by
  obtain ⟨hfind, -⟩ := FileSystem.file_eq_some habs hfile
  obtain ⟨-, hprefix⟩ := (isPathSafe_iff habs root).1 hsafe
  unfold escapes FileSystem.lookup FileSystem.canonicalize
  dsimp only
  rw [hfind]
  split_ifs
  · change Except.ok (!startsWith (render _) (render root)) = _
    rw [(startsWith_render _ root).2 hprefix]
    rfl
  · rfl

/-- The responses: the one that there is nothing to send, the refusal of a path that is not safe,
and the one with the file. -/
theorem serve_eq_ok {fs : FileSystem} {guess : List UInt8 → Str} {dir : ServeDir}
    {root : Location} {method : Method} {path : Str} {headers : HeaderMap} {r : FileResponse}
    (hroot : fs.find dir.root = .ok root) (hfallback : dir.fallback = none)
    (h : dir.serve fs guess method path headers = .ok r) :
    (r.body = .empty ∧ r.status ≠ 403) ∨ ∃ rel, dir.relPath path = some rel ∧
      ((isPathSafe (render root) (join (render root) (Utf8.encode rel)) = false ∧
          r = statusOnly 403) ∨
        (isPathSafe (render root) (join (render root) (Utf8.encode rel)) = true ∧
          ∃ access, fs.file (join (render root) (Utf8.encode rel)) = some access ∧
            r.IsAbout access)) := by
  have hcanonicalize : fs.lookup.canonicalize dir.root = .ok (render root) := by
    change (fs.find dir.root).map render = _
    rw [hroot]
    rfl
  unfold serve serveWith at h
  split_ifs at h with hmethod
  · cases h
    exact .inl ⟨rfl, (by decide : (405 : ℕ) ≠ 403)⟩
  cases hrel : dir.relPath path with
  | none =>
      rw [hrel] at h
      cases h
      exact .inl ⟨rfl, (by decide : (404 : ℕ) ≠ 403)⟩
  | some rel =>
      rw [hrel, hcanonicalize] at h
      dsimp only at h
      split_ifs at h with hsafe
      · cases h
        exact .inr ⟨rel, rfl, .inl ⟨hsafe, rfl⟩⟩
      rw [Bool.not_eq_false] at hsafe
      have hlookup : ∀ p, fs.lookup.file p = fs.file p := fun _ => rfl
      cases hfile : fs.file (join (render root) (Utf8.encode rel)) with
      | none =>
          rw [filePath, hlookup, hfile, hfallback] at h
          cases h
          exact .inl ⟨rfl, (by decide : (404 : ℕ) ≠ 403)⟩
      | some access =>
          rw [filePath, hlookup, hfile] at h
          dsimp only at h
          rw [escapes_of_file (isAbsolute_join_render root _) hsafe hfile] at h
          exact .inr ⟨rel, rfl, .inr ⟨hsafe, access, hfile, respondWithFile_isAbout h⟩⟩

/-- The way of the segments is never above the root, and the parent of the top is not taken. -/
def Within (root : Location) (segs : List Move) : Prop :=
  StaysBelow root root segs ∧ ¬ PassesTop root segs

/-- The request stays below the root: with its own path, or with the index when there are only
slashes in it. -/
def RequestWithin (dir : ServeDir) (root : Location) (path : Str) : Prop :=
  if path.all (· = '/') then
    ∀ index ∈ dir.index, isAbsolute (Utf8.encode index) = false ∧
      Within root (segments (Utf8.encode index))
  else Within root (segments (Utf8.encode path))

theorem Within.of_replicate {root : Location} {segs : List Move} {n : ℕ}
    (h : Within root (List.replicate n .stay ++ segs)) : Within root segs := by
  induction n with
  | zero => exact h
  | succ n ih => exact ih ⟨h.1.of_stay, fun htop => h.2 (passesTop_stay.2 htop)⟩

/-- A path that does not begin with a slash is relative. -/
theorem isAbsolute_encode {s : Str} (h : s.head? ≠ some '/') :
    isAbsolute (Utf8.encode s) = false := by
  have hslash : Utf8.IsAscii '/' := by decide
  cases hs : isAbsolute (Utf8.encode s) with
  | false => rfl
  | true =>
      obtain ⟨rest, hrest⟩ : ∃ rest, Utf8.encode s = slash :: rest := by
        rw [isAbsolute, beq_iff_eq, List.head?_eq_some_iff] at hs
        exact hs
      have hprefix : ['/'] <+: s := by
        refine Utf8.prefix_of_encode_prefix (by simpa using hslash) ?_
        rw [hrest]
        exact ⟨rest, rfl⟩
      obtain ⟨rest', rfl⟩ := hprefix
      exact absurd rfl h

theorem encode_replicate_slash (n : ℕ) (s : Str) :
    Utf8.encode (List.replicate n '/' ++ s) = List.replicate n slash ++ Utf8.encode s := by
  induction n with
  | zero => rfl
  | succ n ih =>
      rw [List.replicate_succ, List.cons_append, List.replicate_succ, List.cons_append, ← ih]
      rfl

/-- What is joined to the root stays below it when the request does. -/
theorem within_relPath {dir : ServeDir} {root : Location} {path rel : Str}
    (h : dir.RequestWithin root path) (hrel : dir.relPath path = some rel) :
    isAbsolute (Utf8.encode rel) = false ∧ Within root (segments (Utf8.encode rel)) := by
  have hsplit : List.replicate (path.takeWhile (· = '/')).length '/' ++
      path.dropWhile (· = '/') = path := by
    have hslashes : ∀ c ∈ path.takeWhile (· = '/'), c = '/' := fun c hc =>
      of_decide_eq_true (List.mem_takeWhile_imp (p := fun c => decide (c = '/')) hc)
    rw [← List.eq_replicate_length.2 hslashes, List.takeWhile_append_dropWhile]
  unfold RequestWithin at h
  unfold relPath at hrel
  by_cases hall : path.all (· = '/') = true
  · rw [if_pos hall] at h
    have hnil : path.dropWhile (· = '/') = [] :=
      List.dropWhile_eq_nil_iff.2 (List.all_eq_true.1 hall)
    rw [hnil, if_pos rfl] at hrel
    exact h rel hrel
  · rw [if_neg hall] at h
    have hne : path.dropWhile (· = '/') ≠ [] := fun hnil =>
      hall (List.all_eq_true.2 (List.dropWhile_eq_nil_iff.1 hnil))
    rw [if_neg hne] at hrel
    cases hrel
    refine ⟨isAbsolute_encode fun hhead => ?_, ?_⟩
    · have := List.head?_dropWhile_not (· = '/') path
      rw [hhead] at this
      exact absurd this (by decide)
    · rw [← hsplit, encode_replicate_slash, segments_replicate_slash] at h
      exact h.of_replicate

end ServeDir

/-- The bytes of a stream are those of the file at a location, from some position on. -/
def FileSystem.Holds (fs : FileSystem) (loc : Location) (s : FileRangeStream) : Prop :=
  ∃ access, fs.tree.entry loc = some (.file access) ∧ (FileBody.stream s).ReadsFrom access

/-- A file that is served lies below the root, where the system finds it and where its path leads
to; and a request that stays below the root is not refused. -/
theorem serveDir_staysBelow (fs : FileSystem) (guess : List UInt8 → Str) (dir : ServeDir)
    (root : Location) (hroot : fs.find dir.root = .ok root) (hfallback : dir.fallback = none)
    (method : Method) (path : Str) (headers : HeaderMap) (r : FileResponse)
    (h : dir.serve fs guess method path headers = .ok r) :
    (∀ s, r.body = .stream s → ∃ rel loc, dir.relPath path = some rel ∧
      fs.find (join (render root) (Utf8.encode rel)) = .ok loc ∧
      loc = resolve [] (segments (join (render root) (Utf8.encode rel))) ∧
      fs.Holds loc s ∧ root <+: loc ∧ (fs.tree.entry root = some .directory → loc ≠ root)) ∧
    (dir.RequestWithin root path → r.status ≠ 403) := by
  rcases ServeDir.serve_eq_ok hroot hfallback h with
    ⟨hbody, hstatus⟩ | ⟨rel, hrel, ⟨hrefused, rfl⟩ | ⟨hsafe, access, hfile, hstatus, hbody⟩⟩
  · refine ⟨fun s hs => ?_, fun _ => hstatus⟩
    rw [hbody] at hs
    cases hs
  · refine ⟨nofun, fun hwithin => ?_⟩
    obtain ⟨hrelative, hstays, htop⟩ := ServeDir.within_relPath hwithin hrel
    rw [(isPathSafe_join_iff hrelative root).2 ⟨htop, hstays.resolve⟩] at hrefused
    cases hrefused
  · refine ⟨fun s hs => ?_, fun _ => hstatus⟩
    have habs := isAbsolute_join_render root (Utf8.encode rel)
    obtain ⟨hfind, hentry⟩ := FileSystem.file_eq_some habs hfile
    obtain ⟨-, hprefix⟩ := (isPathSafe_iff habs root).1 hsafe
    rw [hs] at hbody
    refine ⟨rel, _, hrel, hfind, rfl, ⟨access, hentry, hbody⟩, hprefix, fun hdirectory heq => ?_⟩
    rw [heq, hdirectory] at hentry
    cases hentry

/-! ### A file system -/

theorem isName_srv : IsName (Utf8.encode "srv".toList) := by decide

theorem isName_hello : IsName (Utf8.encode "hello".toList) := by decide

def srvName : FileName := ⟨_, isName_srv⟩

def helloName : FileName := ⟨_, isName_hello⟩

theorem greeting_len_lt : 5 < 2 ^ 64 := by decide

/-- A file of five bytes. -/
def greeting : FileAccess where
  metadata := .ok ⟨5, none, greeting_len_lt, nofun⟩
  content := .ok (Utf8.encode "world".toList)
  seek := .ok ()

/-- The only file, in a directory. -/
def greetingSystem (dir : Location) : FileSystem where
  tree := .single dir helloName greeting
  cwd := []
  refuses _ := false
  ioError _ := ""

/-- It is served from its directory. -/
theorem serveDir_staysBelow_hello :
    ∃ r s rel loc,
      (ServeDir.new (Utf8.encode "/srv".toList)).serve (greetingSystem [srvName])
        (fun _ => "text/plain".toList) .get "//./hello".toList ⟨[]⟩ = .ok r ∧
      r.status ≠ 403 ∧ r.body = .stream s ∧
      loc = resolve [] (segments (join (render [srvName]) (Utf8.encode rel))) ∧
      (greetingSystem [srvName]).Holds loc s ∧ [srvName] <+: loc ∧ loc ≠ [srvName] := by
  obtain ⟨r, s, hserve, hbody⟩ : ∃ r s,
      (ServeDir.new (Utf8.encode "/srv".toList)).serve (greetingSystem [srvName])
        (fun _ => "text/plain".toList) .get "//./hello".toList ⟨[]⟩ = .ok r ∧
      r.body = .stream s := ⟨_, _, rfl, rfl⟩
  obtain ⟨hfile, hstatus⟩ := serveDir_staysBelow (greetingSystem [srvName])
    (fun _ => "text/plain".toList) (.new (Utf8.encode "/srv".toList)) [srvName] rfl rfl
    .get "//./hello".toList ⟨[]⟩ r hserve
  obtain ⟨rel, loc, -, -, hloc, hholds, hprefix, hne⟩ := hfile s hbody
  have hup : .up ∉ segments (Utf8.encode "//./hello".toList) := by decide
  exact ⟨r, s, rel, loc, hserve,
    hstatus ⟨staysBelow_of_notMem_up hup, not_passesTop_of_notMem_up hup⟩, hbody, hloc, hholds,
    hprefix, hne rfl⟩

/-- At the top, a request that cannot climb above its root is refused when it takes the parent. -/
theorem not_served_of_staysBelow :
    ¬ ∀ (fs : FileSystem) (guess : List UInt8 → Str) (dir : ServeDir) (root : Location)
      (method : Method) (path : Str) (headers : HeaderMap) (r : FileResponse),
      fs.find dir.root = .ok root → dir.fallback = none →
        dir.serve fs guess method path headers = .ok r →
          StaysBelow root root (segments (Utf8.encode path)) → r.status ≠ 403 := by
  intro h
  exact h (greetingSystem []) (fun _ => "text/plain".toList) (.new (Utf8.encode "/".toList)) []
    .get "/../hello".toList ⟨[]⟩ (ServeDir.statusOnly 403) rfl rfl rfl
    (fun _ _ _ => List.nil_prefix) rfl

/-- The system finds a file there. -/
example : (greetingSystem []).find (Utf8.encode "/../hello".toList) = .ok [helloName] := rfl

end OxiHttp
