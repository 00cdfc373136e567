/-
**Nested routers.**

A sub-router under a prefix is given the request with a URI that is built anew from what follows
the prefix in the path.  Two things a caller may expect of it: that the query of the request is
still there, and that a prefix stands for whole segments of the path.  This module says when each
of them holds, for router trees of any depth.

The library that builds the URI is a parameter.  What is used of it: a text without `?` and `#` that
it accepts is the path of the URI it gives, and that URI has no query.

Main definitions:

* `OxiHttp.BuildsPath` — the assumption on the library;
* `OxiHttp.Router.Captures` — a prefix captures the path, in the router that the virtual hosts
  lead to;
* `OxiHttp.Forward.Aligned` — the prefix stands for whole segments of the path;
* `OxiHttp.Router.SegmentWise` — at every router the path comes to, the first prefix that the path
  starts with ends where a segment of it ends.

Main results:

* `OxiHttp.Router.dispatch_query` — what becomes of the query;
* `OxiHttp.forward_aligned_iff` — when one prefix stands for whole segments;
* `OxiHttp.Router.dispatch_aligned_iff`, `OxiHttp.Router.resolve_aligned_iff` — the same for a whole
  run of each operation.
-/

import OxiHttp.Router

set_option relaxedAutoImplicit false
set_option autoImplicit false

namespace OxiHttp

variable {H E : Type}

/-- The URI built from a text without `?` and `#` has that text for its path, and no query. -/
def BuildsPath (buildUri : Str → Except String Uri) : Prop :=
  ∀ p uri, '?' ∉ p → '#' ∉ p → buildUri p = .ok uri → uri.path = p ∧ uri.query = none

/-! ### The path of a sub-router -/

theorem mem_of_mem_stripPfx {pfx s t : Str} (h : stripPfx pfx s = some t) {c : Char} (hc : c ∈ t) :
    c ∈ s := by
  rw [stripPfx_eq_some_iff.1 h]
  exact List.mem_append_right _ hc

theorem subPath_delimited {pfx path t : Str} (h : stripPfx pfx path = some t)
    (hp : '?' ∉ path ∧ '#' ∉ path) : '?' ∉ subPath t ∧ '#' ∉ subPath t := by
  unfold subPath
  split
  · decide
  · exact ⟨fun hc => hp.1 (mem_of_mem_stripPfx h hc), fun hc => hp.2 (mem_of_mem_stripPfx h hc)⟩

/-! ### The query -/

mutual

/-- The path is captured by a prefix, in the router that the virtual hosts lead to. -/
def Router.Captures : Router H E → Option Str → Str → Bool
  | .mk _ nested vhosts _ _ _, host, path =>
      match vhostsCapture vhosts host path with
      | some b => b
      | none => nested.any fun p => (stripPfx p.1 path).isSome

/-- The same for the router of the first virtual host that matches. -/
def vhostsCapture : List (Str × Router H E) → Option Str → Str → Option Bool
  | [], _, _ => none
  | (name, sub) :: rest, host, path =>
      if host.any (eqIgnoreAsciiCase name) then some (sub.Captures host path)
      else vhostsCapture rest host path

end

section Query

variable {buildUri : Str → Except String Uri}

mutual

/-- A request that a handler gets has lost its query if a prefix captured it, and otherwise has
the query it came with. -/
theorem Router.dispatch_query (hbuild : BuildsPath buildUri) (router : Router H E)
    (req : HttpRequest E) {handler : H} {req' : Request E}
    (h : (router.dispatch buildUri req).outcome = .handled handler req') :
    req'.inner.uri.query
      = if router.Captures (hostBare req.headers) req.uri.path then none else req.uri.query := by
  match router with
  | .mk routes nested vhosts fallback na state =>
      have hv := dispatchVhosts_query hbuild state vhosts req
      have hn := dispatchNested_query hbuild state nested req
      rw [Router.dispatch] at h
      rw [Router.Captures]
      cases hdv : dispatchVhosts buildUri state vhosts req with
      | some d =>
          rw [hdv] at h hv
          obtain ⟨b, hb, hq⟩ := hv
          rw [hb]
          exact hq h
      | none =>
          rw [hdv] at h hv
          rw [hv]
          dsimp only at h ⊢
          cases hdn : dispatchNested buildUri state nested req with
          | some d =>
              rw [hdn] at h hn
              rw [if_pos hn.1]
              exact hn.2 h
          | none =>
              rw [hdn] at h hn
              rw [if_neg (by simp [hn])]
              -- no virtual host and no prefix: a handler of this router gets the request as it came
              rw [dispatchRoutes_inner h, injectState_uri]

/-- The loop over the virtual hosts, against the one of `vhostsCapture`. -/
theorem dispatchVhosts_query (hbuild : BuildsPath buildUri) (state : Option (E → E))
    (vhosts : List (Str × Router H E)) (req : HttpRequest E) :
    match dispatchVhosts buildUri state vhosts req with
    | some d => ∃ b, vhostsCapture vhosts (hostBare req.headers) req.uri.path = some b ∧
        ∀ {handler : H} {req' : Request E}, d.outcome = .handled handler req' →
          req'.inner.uri.query = if b then none else req.uri.query
    | none => vhostsCapture vhosts (hostBare req.headers) req.uri.path = none := by
  match vhosts with
  | [] => rfl
  | (name, sub) :: rest =>
      rw [dispatchVhosts, vhostsCapture]
      by_cases hname : (hostBare req.headers).any (eqIgnoreAsciiCase name) = true
      · rw [if_pos hname, if_pos hname]
        refine ⟨_, rfl, fun hd => ?_⟩
        have := Router.dispatch_query hbuild sub _ hd
        simpa using this
      · rw [if_neg hname, if_neg hname]
        exact dispatchVhosts_query hbuild state rest req

/-- The loop over the nested routers: a request that it forwards has lost its query. -/
theorem dispatchNested_query (hbuild : BuildsPath buildUri) (state : Option (E → E))
    (nested : List (Str × Router H E)) (req : HttpRequest E) :
    match dispatchNested buildUri state nested req with
    | some d => (nested.any fun p => (stripPfx p.1 req.uri.path).isSome) = true ∧
        ∀ {handler : H} {req' : Request E}, d.outcome = .handled handler req' →
          req'.inner.uri.query = none
    | none => (nested.any fun p => (stripPfx p.1 req.uri.path).isSome) = false := by
  match nested with
  | [] => rfl
  | (pfx, sub) :: rest =>
      rw [dispatchNested, List.any_cons]
      cases hs : stripPfx pfx req.uri.path with
      | none => exact dispatchNested_query hbuild state rest req
      | some stripped =>
          dsimp only
          cases hu : buildUri (subPath stripped) with
          -- captured all the same, but no handler is called
          | error e => exact ⟨rfl, fun hd => by cases hd⟩
          | ok uri =>
              refine ⟨rfl, fun hd => ?_⟩
              obtain ⟨hq, hf⟩ := subPath_delimited hs req.uri.path_delimited
              -- the sub-router starts without a query, and whatever it forwards has none either
              have hnone := (hbuild _ uri hq hf hu).2
              have := Router.dispatch_query hbuild sub _ hd
              simpa [hnone] using this

end

/-- The handler sees the query of the request, and finds the same parameters in it, exactly if
there is none or no prefix captured the request. -/
theorem dispatch_keeps_query_iff (hbuild : BuildsPath buildUri) (router : Router H E)
    (req : HttpRequest E) {handler : H} {req' : Request E}
    (h : (router.dispatch buildUri req).outcome = .handled handler req') :
    (req'.inner.uri.query = req.uri.query ∧ req'.queryParams = queryParams req.uri.query ∧
        ∀ name, req'.query name = queryParam req.uri.query name) ↔
      req.uri.query = none ∨ router.Captures (hostBare req.headers) req.uri.path = false := by
  have hq := router.dispatch_query hbuild req h
  constructor
  · rintro ⟨hsame, -⟩
    cases hc : router.Captures (hostBare req.headers) req.uri.path with
    | false => exact .inr rfl
    | true =>
        rw [if_pos hc] at hq
        exact .inl (by rw [← hsame, hq])
  · intro hor
    have hsame : req'.inner.uri.query = req.uri.query := by
      rcases hor with hnone | hc
      · rw [hq, hnone]
        split <;> rfl
      · rw [hq, if_neg (by simp [hc])]
    refine ⟨hsame, ?_, fun name => ?_⟩
    · rw [Request.queryParams, hsame]
    · rw [Request.query, Request.queryParams, hsame, queryParam]

end Query

/-- The URI with the given path and nothing else. -/
def plainUri (path : Str) (h : '?' ∉ path ∧ '#' ∉ path) : Uri where
  path
  path_delimited := h
  query_delimited := noQuery_delimited

/-- A library that takes every text without `?` and `#` for a path. -/
def uriOfPath (p : Str) : Except String Uri :=
  if h : '?' ∉ p ∧ '#' ∉ p then .ok (plainUri p h) else .error "invalid uri character"

theorem buildsPath_uriOfPath : BuildsPath uriOfPath := by
  intro p uri hq hf h
  rw [uriOfPath, dif_pos ⟨hq, hf⟩] at h
  cases h
  exact ⟨rfl, rfl⟩

/-- A sub-router under `/api`, and two routes of the outer router. -/
def apiRouter : Router ℕ Unit :=
  (Router.new.nest "/api/".toList (Router.new.route .get "/users".toList 0))
    |>.route .get "/apiary".toList 1 |>.route .get "/users".toList 2

/-- A GET request for a path and the query `x=1`. -/
def getRequest (path : Str) (h : '?' ∉ path ∧ '#' ∉ path) : HttpRequest Unit :=
  { method := .get
    uri := { path, query := some "x=1".toList, path_delimited := h, query_delimited := by decide }
    extensions := () }

/-- `/users?x=1`, which no prefix captures. -/
def usersRequest : HttpRequest Unit := getRequest "/users".toList (by decide)

/-- The handler sees all of the query. -/
theorem dispatch_keeps_query_users :
    ∃ req', (apiRouter.dispatch uriOfPath usersRequest).outcome = .handled 2 req' ∧
      req'.inner.uri.query = usersRequest.uri.query ∧
      req'.queryParams = queryParams usersRequest.uri.query ∧
      ∀ name, req'.query name = queryParam usersRequest.uri.query name :=
  ⟨⟨usersRequest, ∅⟩, by decide, (@dispatch_keeps_query_iff ℕ Unit uriOfPath buildsPath_uriOfPath
    apiRouter usersRequest 2 ⟨usersRequest, ∅⟩ (by decide)).2 (by decide)⟩

/-- `/api/users?x=1`, which the prefix captures. -/
def apiUsersRequest : HttpRequest Unit := getRequest "/api/users".toList (by decide)

/-- The handler of the sub-router sees no query. -/
theorem dispatch_drops_query_apiUsers :
    ∃ req', (apiRouter.dispatch uriOfPath apiUsersRequest).outcome = .handled 0 req' ∧
      req'.inner.uri.query = none ∧ apiUsersRequest.uri.query = some "x=1".toList := by
  let req' : HttpRequest Unit :=
    { method := .get, uri := plainUri "/users".toList (by decide), extensions := () }
  exact ⟨⟨req', ∅⟩, by decide, rfl, rfl⟩

/-! ### Whole segments -/

/-- The prefix stands for whole segments: the path is the prefix or continues it with a slash, and
what the sub-router sees begins with a slash. -/
def Forward.Aligned (f : Forward) : Prop :=
  (f.path = f.pfx ∨ f.pfx ++ ['/'] <+: f.path) ∧ ['/'] <+: f.subPath

instance (f : Forward) : Decidable f.Aligned := inferInstanceAs (Decidable (_ ∧ _))

/-- A segment ends where this is what follows. -/
def endsSegment (t : Str) : Bool := t.head?.all (· = '/')

/-- A prefix of the path stands for whole segments exactly if one ends after it. -/
theorem forward_aligned_iff {pfx path t : Str} (h : stripPfx pfx path = some t) :
    (Forward.mk pfx path (subPath t)).Aligned ↔ endsSegment t = true := by
  obtain rfl := stripPfx_eq_some_iff.1 h
  cases t with
  | nil => simp [Forward.Aligned, subPath, endsSegment]
  | cons c t => simp [Forward.Aligned, subPath, endsSegment, eq_comm]

mutual

/-- At every router that a path comes to, the first prefix that the path starts with is empty or
ends where a segment ends.  `seen` is the path a sub-router sees of the one it is given. -/
def Router.SegmentWise (seen : Str → Option Str) : Router H E → Option Str → Str → Bool
  | .mk _ nested vhosts _ _ _, host, path =>
      match vhostsSegmentWise seen vhosts host path with
      | some b => b
      | none => nestedSegmentWise seen nested host path

/-- The same for the router of the first virtual host that matches. -/
def vhostsSegmentWise (seen : Str → Option Str) :
    List (Str × Router H E) → Option Str → Str → Option Bool
  | [], _, _ => none
  | (name, sub) :: rest, host, path =>
      if host.any (eqIgnoreAsciiCase name) then some (sub.SegmentWise seen host path)
      else vhostsSegmentWise seen rest host path

/-- The same for the first prefix that the path starts with. -/
def nestedSegmentWise (seen : Str → Option Str) :
    List (Str × Router H E) → Option Str → Str → Bool
  | [], _, _ => true
  | (pfx, sub) :: rest, host, path =>
      match stripPfx pfx path with
      | some t => (pfx.isEmpty || endsSegment t) &&
          (seen (subPath t)).all fun p => sub.SegmentWise seen host p
      | none => nestedSegmentWise seen rest host path

end

/-- Every prefix a request was forwarded under stands for whole segments. -/
def AllAligned (forwards : List Forward) : Prop := ∀ f ∈ forwards, f.pfx ≠ [] → f.Aligned

instance (forwards : List Forward) : Decidable (AllAligned forwards) :=
  inferInstanceAs (Decidable (∀ f ∈ forwards, f.pfx ≠ [] → f.Aligned))

theorem allAligned_nil : AllAligned [] := by simp [AllAligned]

theorem allAligned_cons_iff {pfx path t : Str} (h : stripPfx pfx path = some t)
    (forwards : List Forward) :
    AllAligned (⟨pfx, path, subPath t⟩ :: forwards) ↔
      (pfx.isEmpty || endsSegment t) = true ∧ AllAligned forwards := by
  rw [AllAligned, List.forall_mem_cons, forward_aligned_iff h, AllAligned]
  cases pfx <;> simp

section Aligned

variable (buildUri : Str → Except String Uri)

/-- The path a sub-router sees when its URI is built from the text it is given. -/
def seenPath (p : Str) : Option Str :=
  match buildUri p with
  | .ok uri => some uri.path
  | .error _ => none

mutual

/-- The prefixes of a dispatch stand for whole segments exactly if the path meets each where a
segment ends. -/
theorem Router.dispatch_aligned_iff (router : Router H E) (req : HttpRequest E) :
    AllAligned (router.dispatch buildUri req).forwards ↔
      router.SegmentWise (seenPath buildUri) (hostBare req.headers) req.uri.path = true := by
  match router with
  | .mk routes nested vhosts fallback na state =>
      have hv := dispatchVhosts_aligned_iff state vhosts req
      have hn := dispatchNested_aligned_iff state nested req
      rw [Router.dispatch, Router.SegmentWise]
      cases hdv : dispatchVhosts buildUri state vhosts req with
      | some d =>
          rw [hdv] at hv
          obtain ⟨b, hb, hd⟩ := hv
          rw [hb]
          exact hd
      | none =>
          rw [hdv] at hv
          rw [hv]
          dsimp only
          cases hdn : dispatchNested buildUri state nested req with
          | some d =>
              rw [hdn] at hn
              exact hn
          | none =>
              rw [hdn] at hn
              simp [hn, allAligned_nil]

theorem dispatchVhosts_aligned_iff (state : Option (E → E)) (vhosts : List (Str × Router H E))
    (req : HttpRequest E) :
    match dispatchVhosts buildUri state vhosts req with
    | some d => ∃ b, vhostsSegmentWise (seenPath buildUri) vhosts (hostBare req.headers)
        req.uri.path = some b ∧ (AllAligned d.forwards ↔ b = true)
    | none => vhostsSegmentWise (seenPath buildUri) vhosts (hostBare req.headers)
        req.uri.path = none := by
  match vhosts with
  | [] => rfl
  | (name, sub) :: rest =>
      rw [dispatchVhosts, vhostsSegmentWise]
      by_cases hname : (hostBare req.headers).any (eqIgnoreAsciiCase name) = true
      · rw [if_pos hname, if_pos hname]
        refine ⟨_, rfl, ?_⟩
        have := Router.dispatch_aligned_iff sub (inheritState state sub req)
        simpa using this
      · rw [if_neg hname, if_neg hname]
        exact dispatchVhosts_aligned_iff state rest req

theorem dispatchNested_aligned_iff (state : Option (E → E)) (nested : List (Str × Router H E))
    (req : HttpRequest E) :
    match dispatchNested buildUri state nested req with
    | some d => AllAligned d.forwards ↔
        nestedSegmentWise (seenPath buildUri) nested (hostBare req.headers) req.uri.path = true
    | none =>
        nestedSegmentWise (seenPath buildUri) nested (hostBare req.headers) req.uri.path
          = true := by
  match nested with
  | [] => rfl
  | (pfx, sub) :: rest =>
      rw [dispatchNested, nestedSegmentWise]
      cases hs : stripPfx pfx req.uri.path with
      | none => exact dispatchNested_aligned_iff state rest req
      | some t =>
          dsimp only
          rw [seenPath]
          cases hu : buildUri (subPath t) with
          | error e =>
              dsimp only
              -- the prefix was stripped before the URI failed to parse, and nothing follows
              rw [allAligned_cons_iff hs]
              simp [allAligned_nil]
          | ok uri =>
              dsimp only
              have := Router.dispatch_aligned_iff sub (inheritState state sub { req with uri })
              rw [allAligned_cons_iff hs, this, Bool.and_eq_true]
              simp

end

end Aligned

/-- Without a host no virtual host matches. -/
theorem vhostsSegmentWise_none (seen : Str → Option Str) (vhosts : List (Str × Router H E))
    (path : Str) : vhostsSegmentWise seen vhosts none path = none := by
  induction vhosts with
  | nil => rfl
  | cons p rest ih =>
      obtain ⟨name, sub⟩ := p
      rw [vhostsSegmentWise, if_neg (by simp), ih]

mutual

/-- The same for a resolution, which meets no virtual host and builds no URI. -/
theorem Router.resolve_aligned_iff (router : Router H E) (method : Method) (path : Str) :
    AllAligned (router.resolve method path).forwards ↔
      router.SegmentWise some none path = true := by
  match router with
  | .mk routes nested vhosts fallback na state =>
      have hv : vhostsSegmentWise some vhosts none path = none :=
        vhostsSegmentWise_none some vhosts path
      have hn := resolveNested_aligned_iff nested method path
      rw [Router.resolve, Router.SegmentWise, hv]
      cases hrn : resolveNested nested method path with
      | some r =>
          rw [hrn] at hn
          exact hn
      | none =>
          rw [hrn] at hn
          simp [hn, allAligned_nil]

theorem resolveNested_aligned_iff (nested : List (Str × Router H E)) (method : Method)
    (path : Str) :
    match resolveNested nested method path with
    | some r => AllAligned r.forwards ↔ nestedSegmentWise some nested none path = true
    | none => nestedSegmentWise some nested none path = true := by
  match nested with
  | [] => rfl
  | (pfx, sub) :: rest =>
      rw [resolveNested, nestedSegmentWise]
      cases hs : stripPfx pfx path with
      | none => exact resolveNested_aligned_iff rest method path
      | some t =>
          dsimp only
          have := Router.resolve_aligned_iff sub method (subPath t)
          rw [allAligned_cons_iff hs, this, Bool.and_eq_true]
          simp

end

/-- The prefixes a dispatch forwards a request under, and those a resolution strips from a path,
stand for whole segments exactly if at every router that the path comes to a segment ends where
the first prefix does that the path starts with. -/
theorem prefixes_aligned_iff (buildUri : Str → Except String Uri) (router : Router H E)
    (req : HttpRequest E) (method : Method) (path : Str) :
    (AllAligned (router.dispatch buildUri req).forwards ↔
        router.SegmentWise (seenPath buildUri) (hostBare req.headers) req.uri.path = true) ∧
      (AllAligned (router.resolve method path).forwards ↔
        router.SegmentWise some none path = true) :=
  ⟨router.dispatch_aligned_iff buildUri req, router.resolve_aligned_iff method path⟩

/-- The prefix `/api` captures `/apiary`, and the route of the outer router is not reached. -/
theorem not_aligned_apiary :
    ¬ AllAligned (apiRouter.dispatch uriOfPath (getRequest "/apiary".toList (by decide))).forwards ∧
      ¬ AllAligned (apiRouter.resolve .get "/apiary".toList).forwards ∧
      (apiRouter.resolve .get "/apiary".toList).result = none := by
  decide

end OxiHttp
