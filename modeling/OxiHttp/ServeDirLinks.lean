/-
**Serving a directory with links in it.**

The comparison of paths in `ServeDir::serve` does not follow links: a link in the root leads out of
it, and so does a fallback that is an absolute path.  `ServeDir::with_symlink_protection` asks where
the file that is chosen really is.  Then what is sent comes from below the root, and nothing in a
file elsewhere can be told from the responses; all other responses are as they are without it.

A request is taken to see the file system at one moment.

Main definitions:

* `OxiHttp.LinkedSystem` — a file system with links;
* `OxiHttp.ServeDir.located` — the file that a request chooses, and where it is;
* `OxiHttp.ServeDir.Confined` — what the protection is for.

Main results:

* `OxiHttp.ServeDir.serveWith_linked` — without links there is nothing new;
* `OxiHttp.ServeDir.serveWith_eq` — the response is one to the file that is chosen;
* `OxiHttp.serveDir_confined` — with the protection every response is as it should be.
-/

import OxiHttp.LinkedTree
import OxiHttp.ServeDir

set_option relaxedAutoImplicit false
set_option autoImplicit false

namespace OxiHttp

open UnixPath

namespace ServeDir

/-- `ServeDir::with_symlink_protection`. -/
def withSymlinkProtection (dir : ServeDir) (denyEscapes : Bool) : ServeDir :=
  { dir with denySymlinkEscapes := denyEscapes }

end ServeDir

/-! ### A file system with links -/

/-- The files, the number of links that are followed for one path, the directory that relative paths
start from, and what the system says about a path that it does not find. -/
structure LinkedSystem where
  tree : LinkedTree FileAccess
  maxLinks : ℕ
  cwd : Location
  refuses : List UInt8 → Bool
  ioError : List UInt8 → String

namespace LinkedSystem

def find (fs : LinkedSystem) (path : List UInt8) : Except OxiHttpError Location :=
  if fs.refuses path then .error (.io (fs.ioError path))
  else
    match fs.tree.find fs.maxLinks fs.cwd path with
    | some loc => .ok loc
    | none => .error (.io (fs.ioError path))

/-- The file of a path, and where it is. -/
def locate (fs : LinkedSystem) (path : List UInt8) : Option (Location × FileAccess) :=
  match fs.find path with
  | .ok loc =>
      match fs.tree.entry loc with
      | some (.plain (.file access)) => some (loc, access)
      | _ => none
  | .error _ => none

/-- A file system with links answers. -/
def lookup (fs : LinkedSystem) : PathLookup where
  canonicalize path := (fs.find path).map render
  file path := (fs.locate path).map Prod.snd

/-- The bytes of a stream are those of the file at a location, from some position on. -/
def Holds (fs : LinkedSystem) (loc : Location) (s : FileRangeStream) : Prop :=
  ∃ access, fs.tree.entry loc = some (.plain (.file access)) ∧ (FileBody.stream s).ReadsFrom access

/-- The systems differ only in what is in the files that are not below the root. -/
structure AgreesBelow (root : Location) (fs fs' : LinkedSystem) : Prop where
  shape : fs.tree.SameShape fs'.tree
  below : ∀ loc, root <+: loc → fs.tree.entry loc = fs'.tree.entry loc
  maxLinks : fs.maxLinks = fs'.maxLinks
  cwd : fs.cwd = fs'.cwd
  refuses : fs.refuses = fs'.refuses
  ioError : fs.ioError = fs'.ioError

theorem locate_eq_some {fs : LinkedSystem} {path : List UInt8} {loc : Location}
    {access : FileAccess} : fs.locate path = some (loc, access) ↔
      fs.find path = .ok loc ∧ fs.tree.entry loc = some (.plain (.file access)) := by
  constructor
  · intro h
    unfold locate at h
    split at h
    case h_1 loc' hloc =>
        split at h
        case h_1 access' hentry =>
            cases h
            exact ⟨hloc, hentry⟩
        case h_2 => cases h
    case h_2 => cases h
  · rintro ⟨hfind, hentry⟩
    rw [locate, hfind]
    dsimp only
    rw [hentry]

theorem AgreesBelow.symm {root : Location} {fs fs' : LinkedSystem} (h : fs.AgreesBelow root fs') :
    fs'.AgreesBelow root fs where
  shape loc := (h.shape loc).symm
  below loc hloc := (h.below loc hloc).symm
  maxLinks := h.maxLinks.symm
  cwd := h.cwd.symm
  refuses := h.refuses.symm
  ioError := h.ioError.symm

/-- Both systems find the same. -/
theorem AgreesBelow.find_eq {root : Location} {fs fs' : LinkedSystem} (h : fs.AgreesBelow root fs')
    (path : List UInt8) : fs.find path = fs'.find path := by
  rw [find, find, h.refuses, h.ioError, h.maxLinks, h.cwd, h.shape.find_eq]

/-- Both systems find a file in the same place, and the same file below the root. -/
theorem AgreesBelow.locate {root : Location} {fs fs' : LinkedSystem} (h : fs.AgreesBelow root fs')
    {path : List UInt8} {loc : Location} {access : FileAccess}
    (hfile : fs.locate path = some (loc, access)) :
    ∃ access', fs'.locate path = some (loc, access') ∧ (root <+: loc → access' = access) := by
  obtain ⟨hfind, hentry⟩ := locate_eq_some.1 hfile
  rw [h.find_eq] at hfind
  have hshape := h.shape loc
  rw [hentry] at hshape
  rcases hentry' : fs'.tree.entry loc with _ | ((_ | access' | _) | target)
  · rw [hentry'] at hshape
    cases hshape
  · rw [hentry'] at hshape
    cases hshape
  · refine ⟨access', locate_eq_some.2 ⟨hfind, hentry'⟩, fun hbelow => ?_⟩
    have hsame := h.below loc hbelow
    rw [hentry, hentry'] at hsame
    cases hsame
    rfl
  · rw [hentry'] at hshape
    cases hshape
  · rw [hentry'] at hshape
    cases hshape

end LinkedSystem

/-- A file system without links is one with links. -/
def FileSystem.linked (fs : FileSystem) (maxLinks : ℕ) : LinkedSystem where
  tree := fs.tree.linked
  maxLinks := maxLinks
  cwd := fs.cwd
  refuses := fs.refuses
  ioError := fs.ioError

theorem FileSystem.find_linked (fs : FileSystem) (maxLinks : ℕ) (path : List UInt8) :
    (fs.linked maxLinks).find path = fs.find path := by
  rw [LinkedSystem.find, FileSystem.find]
  change (if fs.refuses path then _ else
    match fs.tree.linked.find maxLinks fs.cwd path with
    | some loc => _
    | none => _) = _
  rw [FileTree.find_linked]
  rfl

/-- Without links the two say the same. -/
theorem FileSystem.lookup_linked (fs : FileSystem) (maxLinks : ℕ) :
    (fs.linked maxLinks).lookup = fs.lookup := by
  have hcanonicalize : (fs.linked maxLinks).lookup.canonicalize = fs.lookup.canonicalize := by
    funext path
    change ((fs.linked maxLinks).find path).map render = (fs.find path).map render
    rw [fs.find_linked]
  have hfile : (fs.linked maxLinks).lookup.file = fs.lookup.file := by
    funext path
    change ((fs.linked maxLinks).locate path).map Prod.snd = fs.file path
    rw [LinkedSystem.locate, FileSystem.file, fs.find_linked]
    cases fs.find path with
    | error e => rfl
    | ok loc =>
        have hentry : (fs.linked maxLinks).tree.entry loc = (fs.tree.entry loc).map .plain := rfl
        dsimp only
        rw [hentry]
        rcases fs.tree.entry loc with _ | (_ | access | _) <;> rfl
  exact congrArg₂ PathLookup.mk hcanonicalize hfile

namespace ServeDir

/-- Without links there is nothing new. -/
theorem serveWith_linked (fs : FileSystem) (maxLinks : ℕ) (guess : List UInt8 → Str)
    (dir : ServeDir) (method : Method) (path : Str) (headers : HeaderMap) :
    dir.serveWith (fs.linked maxLinks).lookup guess method path headers =
      dir.serve fs guess method path headers := by
  rw [fs.lookup_linked, serve]

/-! ### The file that is chosen -/

/-- The file of a path, with the path and the place. -/
def place (fs : LinkedSystem) (path : List UInt8) : Option (List UInt8 × Location × FileAccess) :=
  (fs.locate path).map fun found => (path, found)

/-- The file of one path, or else the fallback. -/
def placeOr (fs : LinkedSystem) (dir : ServeDir) (root : Location) (joined : List UInt8) :
    Option (List UInt8 × Location × FileAccess) :=
  (place fs joined).or (dir.fallback.bind fun fallback => place fs (join (render root) fallback))

/-- The file that a request chooses: its path, where it is, and the file. -/
def located (fs : LinkedSystem) (dir : ServeDir) (root : Location) (path : Str) :
    Option (List UInt8 × Location × FileAccess) :=
  (dir.relPath path).bind fun rel =>
    let joined := join (render root) (Utf8.encode rel)
    if isPathSafe (render root) joined then dir.placeOr fs root joined else none

/-- The status when there is no file. -/
def missingStatus (dir : ServeDir) (root : Location) (path : Str) : ℕ :=
  match dir.relPath path with
  | none => 404
  | some rel => if isPathSafe (render root) (join (render root) (Utf8.encode rel)) then 404 else 403

variable {fs : LinkedSystem} {dir : ServeDir} {root : Location} {path : Str}

/-- The choice of `serve` is a file with its place. -/
theorem filePath_eq (fs : LinkedSystem) (dir : ServeDir) (root : Location)
    (joined : List UInt8) : dir.filePath fs.lookup (render root) joined =
      (dir.placeOr fs root joined).map fun found => (found.1, found.2.2) := by
  have hfile : ∀ p, fs.lookup.file p = (fs.locate p).map Prod.snd := fun _ => rfl
  rw [filePath, hfile, placeOr, place]
  cases fs.locate joined with
  | some found => rfl
  | none =>
      cases dir.fallback with
      | none => rfl
      | some fallback =>
          change ((fs.locate _).map Prod.snd).map _ = ((fs.locate _).map _).map _
          rw [Option.map_map, Option.map_map]
          rfl

theorem place_eq_some {p : List UInt8} {found : List UInt8 × Location × FileAccess}
    (h : place fs p = some found) : found.1 = p ∧ fs.locate found.1 = some found.2 := by
  obtain ⟨x, hx, rfl⟩ := Option.map_eq_some_iff.1 h
  exact ⟨rfl, hx⟩

/-- What is chosen is a file of the system. -/
theorem placeOr_eq_some {joined : List UInt8} {found : List UInt8 × Location × FileAccess}
    (h : dir.placeOr fs root joined = some found) : fs.locate found.1 = some found.2 := by
  rcases Option.or_eq_some_iff.1 h with hplace | ⟨-, hfallback⟩
  · exact (place_eq_some hplace).2
  · obtain ⟨fallback, -, hplace⟩ := Option.bind_eq_some_iff.1 hfallback
    exact (place_eq_some hplace).2

theorem located_eq_some {found : List UInt8 × Location × FileAccess}
    (h : dir.located fs root path = some found) : fs.locate found.1 = some found.2 := by
  obtain ⟨rel, -, hrel⟩ := Option.bind_eq_some_iff.1 h
  dsimp only at hrel
  split_ifs at hrel
  exact placeOr_eq_some hrel

/-- Where a file is decides whether it is outside of the root. -/
theorem escapes_eq {filePath : List UInt8} {loc : Location}
    (hfind : fs.find filePath = .ok loc) : dir.escapes fs.lookup (render root) filePath =
      .ok (decide (dir.denySymlinkEscapes = true ∧ ¬ root <+: loc)) := by
  unfold escapes
  split_ifs with hdeny
  · change ((fs.find filePath).map render).map _ = _
    rw [hfind]
    change Except.ok (!startsWith (render loc) (render root)) = _
    by_cases hbelow : root <+: loc
    · rw [(startsWith_render loc root).2 hbelow, decide_eq_false fun h => h.2 hbelow]
      rfl
    · have hstarts : startsWith (render loc) (render root) = false :=
        Bool.eq_false_iff.2 fun h => hbelow ((startsWith_render loc root).1 h)
      rw [hstarts, decide_eq_true ⟨hdeny, hbelow⟩]
      rfl
  · rw [decide_eq_false fun h => hdeny h.1]

/-- **The response is one to the file that is chosen**, unless it is to be refused. -/
theorem serveWith_eq (hroot : fs.find dir.root = .ok root) (guess : List UInt8 → Str)
    {method : Method} (hmethod : ¬ (method ≠ .get ∧ method ≠ .head)) (headers : HeaderMap)
    (path : Str) : dir.serveWith fs.lookup guess method path headers =
      match dir.located fs root path with
      | none => .ok (statusOnly (dir.missingStatus root path))
      | some (filePath, loc, access) =>
          if dir.denySymlinkEscapes = true ∧ ¬ root <+: loc then .ok (statusOnly 403)
          else respondWithFile access method headers (dir.mime guess filePath) dir.cacheControl := by
  have hcanonicalize : fs.lookup.canonicalize dir.root = .ok (render root) := by
    change (fs.find dir.root).map render = _
    rw [hroot]
    rfl
  rw [serveWith, if_neg hmethod, located, missingStatus]
  cases dir.relPath path with
  | none => rfl
  | some rel =>
      rw [hcanonicalize, Option.bind_some]
      dsimp only
      cases hsafe : isPathSafe (render root) (join (render root) (Utf8.encode rel)) with
      | false => rfl
      | true =>
          rw [if_neg Bool.noConfusion, if_pos rfl, if_pos rfl, filePath_eq]
          cases hfound : dir.placeOr fs root (join (render root) (Utf8.encode rel)) with
          | none => rfl
          | some found =>
              obtain ⟨hfind, -⟩ := LinkedSystem.locate_eq_some.1 (placeOr_eq_some hfound)
              rw [Option.map_some]
              dsimp only
              rw [escapes_eq hfind]
              split_ifs with hrefused
              · rw [decide_eq_true hrefused]
              · rw [decide_eq_false hrefused]

/-- Two choices of the same path and place, and of the same file below the root. -/
def SameChoice (root : Location) (found found' : Option (List UInt8 × Location × FileAccess)) :
    Prop :=
  (found = none → found' = none) ∧
    ∀ p loc access, found = some (p, loc, access) →
      ∃ access', found' = some (p, loc, access') ∧ (root <+: loc → access' = access)

theorem place_sameChoice {fs' : LinkedSystem} (h : fs.AgreesBelow root fs') (p : List UInt8) :
    SameChoice root (place fs p) (place fs' p) := by
  constructor
  · intro hnone
    rw [place, Option.map_eq_none_iff] at hnone ⊢
    cases hlocate : fs'.locate p with
    | none => rfl
    | some found =>
        obtain ⟨access, hback, -⟩ := h.symm.locate hlocate
        cases hnone.symm.trans hback
  · intro p' loc access hplace
    obtain ⟨⟨loc, access⟩, hlocate, hp⟩ := Option.map_eq_some_iff.1 hplace
    cases hp
    obtain ⟨access', hlocate', hsame⟩ := h.locate hlocate
    exact ⟨access', by rw [place, hlocate', Option.map_some], hsame⟩

theorem SameChoice.or {found₁ found₁' found₂ found₂' : Option (List UInt8 × Location × FileAccess)}
    (h₁ : SameChoice root found₁ found₁') (h₂ : SameChoice root found₂ found₂') :
    SameChoice root (found₁.or found₂) (found₁'.or found₂') := by
  cases found₁ with
  | none =>
      rw [h₁.1 rfl, Option.none_or, Option.none_or]
      exact h₂
  | some found =>
      obtain ⟨p, loc, access⟩ := found
      obtain ⟨access', rfl, hsame⟩ := h₁.2 p loc access rfl
      rw [Option.some_or, Option.some_or]
      exact h₁

theorem sameChoice_none : SameChoice root none none :=
  ⟨fun _ => rfl, fun _ _ _ h => by cases h⟩

/-- Systems that agree below the root choose the same. -/
theorem located_sameChoice {fs' : LinkedSystem} (h : fs.AgreesBelow root fs') (dir : ServeDir)
    (path : Str) : SameChoice root (dir.located fs root path) (dir.located fs' root path) := by
  rw [located, located]
  cases dir.relPath path with
  | none => exact sameChoice_none
  | some rel =>
      rw [Option.bind_some, Option.bind_some]
      dsimp only
      split_ifs
      · refine (place_sameChoice h _).or ?_
        cases dir.fallback with
        | none => exact sameChoice_none
        | some fallback => exact place_sameChoice h _
      · exact sameChoice_none

/-! ### What the protection is for -/

/-- What is expected of a response with the protection. -/
structure Confined (fs : LinkedSystem) (guess : List UInt8 → Str) (dir : ServeDir)
    (root : Location) (method : Method) (path : Str) (headers : HeaderMap)
    (result : Except FileStop FileResponse) : Prop where
  /-- What is sent is in a file below the root, with directories only on the way. -/
  below : ∀ r s, result = .ok r → r.body = .stream s → ∃ loc, fs.Holds loc s ∧ root <+: loc ∧
    ∀ above, root <+: above → above <+: loc → above ≠ loc →
      fs.tree.entry above = some (.plain .directory)
  /-- Nothing in a file elsewhere can be told from it. -/
  unseen : ∀ fs', fs.AgreesBelow root fs' →
    dir.serveWith fs'.lookup guess method path headers = result
  /-- It is a refusal when the file that is chosen is elsewhere, and otherwise, as with a method for
  which no file is chosen, the response without the protection. -/
  only : (method = .get ∨ method = .head → ∀ found, dir.located fs root path = some found →
      ¬ root <+: found.2.1 → result = .ok (statusOnly 403)) ∧
    ((method = .get ∨ method = .head → ∀ found, dir.located fs root path = some found →
        root <+: found.2.1) →
      result = (dir.withSymlinkProtection false).serveWith fs.lookup guess method path headers)

end ServeDir

/-- **With the protection, every response is as it should be**, whatever links there are. -/
theorem serveDir_confined (fs : LinkedSystem) (guess : List UInt8 → Str) (dir : ServeDir)
    (root : Location) (hroot : fs.find dir.root = .ok root)
    (hprotected : dir.denySymlinkEscapes = true) (method : Method) (path : Str)
    (headers : HeaderMap) :
    ServeDir.Confined fs guess dir root method path headers
      (dir.serveWith fs.lookup guess method path headers) := by
  by_cases hmethod : method ≠ .get ∧ method ≠ .head
  · -- no other method looks for a file
    have hserve : ∀ (d : ServeDir) (fs : LinkedSystem),
        d.serveWith fs.lookup guess method path headers = .ok (ServeDir.statusOnly 405) :=
      fun d fs => if_pos hmethod
    constructor
    · intro r s hr hs
      rw [hserve] at hr
      cases hr
      cases hs
    · intro fs' _
      rw [hserve, hserve]
    · refine ⟨fun hget => absurd hmethod ?_, fun _ => by rw [hserve, hserve]⟩
      rintro ⟨hnotGet, hnotHead⟩
      exact hget.elim hnotGet hnotHead
  have hasked : method = .get ∨ method = .head := by
    by_contra hne
    exact hmethod (not_or.1 hne)
  have hserve := ServeDir.serveWith_eq hroot guess hmethod headers path
  simp only [hprotected, true_and] at hserve
  constructor
  · intro r s hr hs
    rw [hserve] at hr
    rcases hlocated : dir.located fs root path with _ | ⟨filePath, loc, access⟩
    · rw [hlocated] at hr
      cases hr
      cases hs
    · rw [hlocated] at hr
      dsimp only at hr
      split_ifs at hr with hbelow
      · obtain ⟨-, hentry⟩ := LinkedSystem.locate_eq_some.1 (ServeDir.located_eq_some hlocated)
        obtain ⟨-, hbody⟩ := respondWithFile_isAbout hr
        rw [hs] at hbody
        exact ⟨loc, ⟨access, hentry, hbody⟩, hbelow, fun above _ habove hne =>
          LinkedTree.entry_of_prefix (by rw [hentry]; exact Option.some_ne_none _) habove hne⟩
      · cases hr
        cases hs
  · intro fs' hagrees
    have hserve' := ServeDir.serveWith_eq ((hagrees.find_eq dir.root).symm.trans hroot) guess
      hmethod headers path
    simp only [hprotected, true_and] at hserve'
    obtain ⟨hnone, hsome⟩ := ServeDir.located_sameChoice hagrees dir path
    rw [hserve, hserve']
    rcases hlocated : dir.located fs root path with _ | ⟨filePath, loc, access⟩
    · rw [hnone hlocated]
    · obtain ⟨access', hlocated', hsame⟩ := hsome _ _ _ hlocated
      rw [hlocated']
      dsimp only
      split_ifs with hbelow
      · rw [hsame hbelow]
      · rfl
  · have hroot' : fs.find (dir.withSymlinkProtection false).root = .ok root := hroot
    have hplain := ServeDir.serveWith_eq hroot' guess hmethod headers path
    constructor
    · rintro - ⟨filePath, loc, access⟩ hlocated helsewhere
      rw [hserve, hlocated]
      exact if_pos helsewhere
    · intro hbelow
      rw [hserve, hplain]
      change _ = match dir.located fs root path with
        | none => Except.ok (ServeDir.statusOnly (dir.missingStatus root path))
        | some (filePath, loc, access) =>
            if false = true ∧ ¬ root <+: loc then Except.ok (ServeDir.statusOnly 403)
            else respondWithFile access method headers (dir.mime guess filePath) dir.cacheControl
      rcases hlocated : dir.located fs root path with _ | ⟨filePath, loc, access⟩
      · rfl
      · dsimp only
        rw [if_neg (not_not_intro (hbelow hasked _ hlocated)),
          if_neg fun h => Bool.false_ne_true h.1]

/-! ### A link out of the root -/

theorem isName_out : IsName (Utf8.encode "out".toList) := by decide

def outName : FileName := ⟨_, isName_out⟩

/-- Next to the directory is a file with the same name as the one in it, and in the directory a link
to it. -/
def linkedOut : LinkedSystem where
  tree := ((FileTree.single [srvName] helloName greeting).linked.insert [] helloName
    (.plain (.file greeting)) rfl rfl).insert [srvName] outName
      (.link (Utf8.encode "../hello".toList)) rfl rfl
  maxLinks := 40
  cwd := []
  refuses _ := false
  ioError _ := ""

/-- The file is served and the link is refused; without the protection it is followed. -/
theorem serveDir_confined_linkedOut :
    let dir := (ServeDir.new (Utf8.encode "/srv".toList)).withSymlinkProtection true
    let serve := fun (dir : ServeDir) path =>
      dir.serveWith linkedOut.lookup (fun _ => "text/plain".toList) .get path ⟨[]⟩
    (∃ r s, serve dir "/hello".toList = .ok r ∧ r.body = .stream s ∧
      ∃ loc, linkedOut.Holds loc s ∧ [srvName] <+: loc) ∧
    serve dir "/out".toList = .ok (ServeDir.statusOnly 403) ∧
    ∃ r s, serve (dir.withSymlinkProtection false) "/out".toList = .ok r ∧ r.body = .stream s := by
  have hconfined := fun path => serveDir_confined linkedOut (fun _ => "text/plain".toList)
    ((ServeDir.new (Utf8.encode "/srv".toList)).withSymlinkProtection true) [srvName] rfl rfl .get
    path ⟨[]⟩
  refine ⟨?_, ?_, _, _, rfl, rfl⟩
  · obtain ⟨r, s, hserve, hbody⟩ : ∃ r s,
        ((ServeDir.new (Utf8.encode "/srv".toList)).withSymlinkProtection true).serveWith
          linkedOut.lookup (fun _ => "text/plain".toList) .get "/hello".toList ⟨[]⟩ = .ok r ∧
        r.body = .stream s := ⟨_, _, rfl, rfl⟩
    obtain ⟨loc, hholds, hbelow, -⟩ := (hconfined "/hello".toList).below r s hserve hbody
    exact ⟨r, s, hserve, hbody, loc, hholds, hbelow⟩
  · refine (hconfined "/out".toList).only.1 (.inl rfl)
      (Utf8.encode "/srv/out".toList, [helloName], greeting) rfl ?_
    decide

end OxiHttp
