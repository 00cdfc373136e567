/-
**The request router.**

A router holds routes, sub-routers under path prefixes and sub-routers under virtual hosts.
`dispatch` hands a request to the router of the first virtual host that matches, else to the first
sub-router whose prefix the path starts with, else to the first route that matches the path and the
method.  What a handler does is its own business: the result of a dispatch is the handler selected
and the request it is called with.

Beside its result a dispatch records the times it forwarded the request to a sub-router under a
prefix, which the code does not keep and the statements about prefixes speak of.

Main definitions:

* `OxiHttp.Segment`, `OxiHttp.parsePattern`, `OxiHttp.matchPattern` — route patterns;
* `OxiHttp.Router`, with the builders of the source;
* `OxiHttp.Router.dispatch`, `OxiHttp.Router.resolve` — the two operations.

Main results:

* `OxiHttp.dispatchRoutes_inner` — a handler of the router itself sees the request it was given, up
  to its extensions.
-/

import OxiHttp.Error
import OxiHttp.Http
import OxiHttp.Query

set_option relaxedAutoImplicit false
set_option autoImplicit false

namespace OxiHttp

/-- `HashMap<String, String>`. -/
abbrev Params := Finmap fun _ : Str => Str

/-! ### Requests -/

/-- `hyper::Request<Incoming>`, with extensions of type `E` and the bytes of its body. -/
structure HttpRequest (E : Type) where
  method : Method
  uri : Uri
  headers : HeaderMap := {}
  extensions : E
  body : List UInt8 := []
deriving DecidableEq

/-- The `Request` of the router. -/
structure Request (E : Type) where
  inner : HttpRequest E
  pathParams : Params := ∅
deriving DecidableEq

namespace Request

variable {E : Type}

/-- `Request::query_params`. -/
def queryParams (req : Request E) : Params := OxiHttp.queryParams req.inner.uri.query

/-- `Request::query`. -/
def query (req : Request E) (name : Str) : Option Str := req.queryParams.lookup name

end Request

/-! ### Route patterns -/

/-- A segment in a route pattern. -/
inductive Segment where
  | literal (s : Str)
  | param (name : Str)
  | wildcard (name : Str)
deriving DecidableEq, Repr

/-- The non-empty pieces between the slashes of a path. -/
def splitPath (path : Str) : List Str := (path.splitOn '/').filter fun s => !s.isEmpty

/-- One piece of a pattern. -/
def Segment.ofPiece : Str → Segment
  | ':' :: name => .param name
  | '*' :: name => .wildcard name
  | s => .literal s

/-- `parse_pattern`. -/
def parsePattern (pattern : Str) : List Segment := (splitPath pattern).map Segment.ofPiece

/-- The loop of `match_pattern` over the segments of the pattern and the pieces of the path that
are left. -/
def matchSegments : List Segment → List Str → Params → Option Params
  | [], pieces, params => if pieces.isEmpty then some params else none
  | _ :: _, [], _ => none
  | .literal s :: segs, piece :: pieces, params =>
      if piece = s then matchSegments segs pieces params else none
  | .param name :: segs, piece :: pieces, params =>
      matchSegments segs pieces (params.insert name piece)
  | .wildcard name :: _, piece :: pieces, params =>
      some (params.insert name (['/'].intercalate (piece :: pieces)))

/-- `match_pattern`. -/
def matchPattern (segments : List Segment) (path : Str) : Option Params :=
  matchSegments segments (splitPath path) ∅

/-! ### Routers -/

/-- A route: method, pattern and handler. -/
structure Route (H : Type) where
  method : Method
  segments : List Segment
  handler : H
deriving DecidableEq

/-- `Router`, with handlers of type `H`.  The state is a function that injects into extensions. -/
inductive Router (H E : Type) where
  | mk (routes : List (Route H)) (nested vhosts : List (Str × Router H E)) (fallback : Option H)
      (methodNotAllowedHandler : Option H) (state : Option (E → E))

namespace Router

variable {H E : Type}

/-- The state of a router. -/
def state : Router H E → Option (E → E)
  | mk _ _ _ _ _ state => state

/-- `Router::new`. -/
def new : Router H E := mk [] [] [] none none none

/-- `Router::route`. -/
def route (router : Router H E) (method : Method) (path : Str) (handler : H) : Router H E :=
  match router with
  | mk routes nested vhosts fallback na state =>
      mk (routes ++ [{ method, segments := parsePattern path, handler }]) nested vhosts fallback na
        state

/-- `Router::nest`. -/
def nest (router : Router H E) (pfx : Str) (sub : Router H E) : Router H E :=
  match router with
  | mk routes nested vhosts fallback na state =>
      mk routes (nested ++ [(trimEnd '/' pfx, sub)]) vhosts fallback na state

/-- `Router::host`. -/
def host (router : Router H E) (name : Str) (sub : Router H E) : Router H E :=
  match router with
  | mk routes nested vhosts fallback na state =>
      mk routes nested (vhosts ++ [(name, sub)]) fallback na state

/-- `Router::fallback`. -/
def fallback (router : Router H E) (handler : H) : Router H E :=
  match router with
  | mk routes nested vhosts _ na state => mk routes nested vhosts (some handler) na state

/-- `Router::method_not_allowed`. -/
def methodNotAllowed (router : Router H E) (handler : H) : Router H E :=
  match router with
  | mk routes nested vhosts fallback _ state =>
      mk routes nested vhosts fallback (some handler) state

end Router

/-! ### Scanning the routes -/

section Routes

variable {H E : Type}

/-- The first route that matches path and method, with its parameters. -/
def findRoute (routes : List (Route H)) (method : Method) (path : Str) : Option (H × Params) :=
  routes.findSome? fun route =>
    if route.method = method then
      (matchPattern route.segments path).map fun params => (route.handler, params)
    else none

/-- Some route matches the path, whatever its method. -/
def pathMatched (routes : List (Route H)) (path : Str) : Bool :=
  routes.any fun route => (matchPattern route.segments path).isSome

/-- How a dispatch ends. -/
inductive Outcome (H E : Type) where
  /-- A handler is called. -/
  | handled (handler : H) (req : Request E)
  /-- The router answers itself. -/
  | reply (status : ℕ) (body : Str)
  | error (e : OxiHttpError)
deriving DecidableEq

/-- The request after a state is injected. -/
def injectState (state : Option (E → E)) (req : HttpRequest E) : HttpRequest E :=
  match state with
  | some inject => { req with extensions := inject req.extensions }
  | none => req

/-- The request a sub-router without a state of its own inherits a state with. -/
def inheritState (state : Option (E → E)) (sub : Router H E) (req : HttpRequest E) :
    HttpRequest E :=
  if sub.state.isNone then injectState state req else req

/-- The part of `dispatch_inner` that concerns the routes, the 405 and the fallback of the router
itself. -/
def dispatchRoutes (routes : List (Route H)) (fallback methodNotAllowedHandler : Option H)
    (state : Option (E → E)) (req : HttpRequest E) : Outcome H E :=
  match findRoute routes req.method req.uri.path with
  | some (handler, params) => .handled handler ⟨injectState state req, params⟩
  | none =>
      -- 405 comes before the fallback
      if pathMatched routes req.uri.path then
        match methodNotAllowedHandler with
        | some handler => .handled handler ⟨injectState state req, ∅⟩
        | none => .reply 405 "Method Not Allowed".toList
      else
        match fallback with
        | some handler => .handled handler ⟨injectState state req, ∅⟩
        | none => .reply 404 "Not Found".toList

@[simp] theorem injectState_uri (state : Option (E → E)) (req : HttpRequest E) :
    (injectState state req).uri = req.uri := by cases state <;> rfl

@[simp] theorem injectState_headers (state : Option (E → E)) (req : HttpRequest E) :
    (injectState state req).headers = req.headers := by cases state <;> rfl

@[simp] theorem inheritState_uri (state : Option (E → E)) (sub : Router H E)
    (req : HttpRequest E) : (inheritState state sub req).uri = req.uri := by
  unfold inheritState
  split <;> simp

@[simp] theorem inheritState_headers (state : Option (E → E)) (sub : Router H E)
    (req : HttpRequest E) : (inheritState state sub req).headers = req.headers := by
  unfold inheritState
  split <;> simp

/-- A handler of the router itself sees the request it was given, up to its extensions. -/
theorem dispatchRoutes_inner {routes : List (Route H)} {fallback na : Option H}
    {state : Option (E → E)} {req : HttpRequest E} {handler : H} {req' : Request E}
    (h : dispatchRoutes routes fallback na state req = .handled handler req') :
    req'.inner = injectState state req := by
  unfold dispatchRoutes at h
  split at h
  · cases h
    rfl
  · split at h <;> split at h <;> cases h <;> rfl

end Routes

/-! ### Dispatching -/

/-- A request is forwarded under a prefix: its path, and the path the sub-router is given. -/
structure Forward where
  pfx : Str
  path : Str
  subPath : Str
deriving DecidableEq, Repr

/-- The path of a sub-router, from what follows the prefix. -/
def subPath (stripped : Str) : Str := if stripped.isEmpty then "/".toList else stripped

/-- A dispatch: the times it forwarded the request under a prefix, and how it ended. -/
structure Dispatched (H E : Type) where
  forwards : List Forward
  outcome : Outcome H E
deriving DecidableEq

/-- The `Host` of a request without its port. -/
def hostBare (headers : HeaderMap) : Option Str :=
  ((headers.get "host".toList).bind HeaderValue.toStr).map beforeColon

section Dispatch

variable {H E : Type}

-- `http::Uri::builder().path_and_query(_).build()`
variable (buildUri : Str → Except String Uri)

mutual

/-- `Router::dispatch`. -/
def Router.dispatch : Router H E → HttpRequest E → Dispatched H E
  | .mk routes nested vhosts fallback na state, req =>
      -- a virtual host that matches takes the request, whether or not its router has a route
      match dispatchVhosts state vhosts req with
      | some d => d
      | none =>
          match dispatchNested state nested req with
          | some d => d
          | none => ⟨[], dispatchRoutes routes fallback na state req⟩

/-- The loop of `dispatch_inner` over the virtual hosts; `none` when none matches. -/
def dispatchVhosts (state : Option (E → E)) :
    List (Str × Router H E) → HttpRequest E → Option (Dispatched H E)
  | [], _ => none
  | (name, sub) :: rest, req =>
      if (hostBare req.headers).any (eqIgnoreAsciiCase name) then
        some (sub.dispatch (inheritState state sub req))
      else dispatchVhosts state rest req

/-- The loop of `dispatch_inner` over the nested routers; `none` when no prefix matches. -/
def dispatchNested (state : Option (E → E)) :
    List (Str × Router H E) → HttpRequest E → Option (Dispatched H E)
  | [], _ => none
  | (pfx, sub) :: rest, req =>
      match stripPfx pfx req.uri.path with
      | some stripped =>
          let forward : Forward := ⟨pfx, req.uri.path, subPath stripped⟩
          -- the new URI is built from the path alone
          match buildUri (subPath stripped) with
          | .ok uri =>
              let d := sub.dispatch (inheritState state sub { req with uri })
              some ⟨forward :: d.forwards, d.outcome⟩
          | .error e => some ⟨[forward], .error (.http e)⟩
      | none => dispatchNested state rest req

end

end Dispatch

/-! ### Resolving -/

/-- A resolution: the times a prefix was stripped, and the parameters found. -/
structure Resolved where
  forwards : List Forward
  result : Option Params
deriving DecidableEq

section Resolve

variable {H E : Type}

/-- The part of `resolve` that concerns the routes of the router itself. -/
def resolveRoutes (routes : List (Route H)) (method : Method) (path : Str) : Option Params :=
  match findRoute routes method path with
  | some (_, params) => some params
  | none => if pathMatched routes path then some ∅ else none

mutual

/-- `Router::resolve`. -/
def Router.resolve : Router H E → Method → Str → Resolved
  | .mk routes nested _ _ _ _, method, path =>
      match resolveNested nested method path with
      | some r => r
      | none => ⟨[], resolveRoutes routes method path⟩

/-- The loop of `resolve` over the nested routers; `none` when no prefix matches. -/
def resolveNested : List (Str × Router H E) → Method → Str → Option Resolved
  | [], _, _ => none
  | (pfx, sub) :: rest, method, path =>
      match stripPfx pfx path with
      | some stripped =>
          let r := sub.resolve method (subPath stripped)
          some ⟨⟨pfx, path, subPath stripped⟩ :: r.forwards, r.result⟩
      | none => resolveNested rest method path

end

end Resolve

end OxiHttp
