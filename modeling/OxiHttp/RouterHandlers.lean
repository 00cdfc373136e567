/-
**Handlers are opaque to a router.**

A router calls the handler it selects and looks at none of them.  So a dispatch commutes with every
map of handlers, and a statement about where a handler comes from can be made by marking the
handlers: the marks change nothing.

Main definitions:

* `OxiHttp.Router.mapHandlers` — a router with its handlers mapped.

Main results:

* `OxiHttp.Router.dispatch_mapHandlers` — it dispatches as before.
-/

import OxiHttp.Router

set_option relaxedAutoImplicit false
set_option autoImplicit false

namespace OxiHttp

variable {H H' E : Type}

/-- A route with its handler mapped. -/
def Route.map (f : H → H') (r : Route H) : Route H' where
  method := r.method
  segments := r.segments
  handler := f r.handler

/-- How a dispatch ends, with the handler mapped. -/
def Outcome.map (f : H → H') : Outcome H E → Outcome H' E
  | .handled handler req => .handled (f handler) req
  | .reply status body => .reply status body
  | .error e => .error e

/-- A dispatch with the handler mapped. -/
def Dispatched.map (f : H → H') (d : Dispatched H E) : Dispatched H' E where
  forwards := d.forwards
  outcome := d.outcome.map f

mutual

/-- A router with its handlers mapped. -/
def Router.mapHandlers (f : H → H') : Router H E → Router H' E
  | .mk routes nested vhosts fallback na state =>
      .mk (routes.map (Route.map f)) (mapHandlersList f nested) (mapHandlersList f vhosts)
        (fallback.map f) (na.map f) state

/-- The same for the routers of a list. -/
def mapHandlersList (f : H → H') : List (Str × Router H E) → List (Str × Router H' E)
  | [] => []
  | (name, sub) :: rest => (name, sub.mapHandlers f) :: mapHandlersList f rest

end

section

variable (f : H → H')

@[simp] theorem Router.mapHandlers_state (router : Router H E) :
    (router.mapHandlers f).state = router.state := by
  cases router
  rw [mapHandlers, state, state]

@[simp] theorem inheritState_mapHandlers (state : Option (E → E)) (sub : Router H E)
    (req : HttpRequest E) :
    inheritState state (sub.mapHandlers f) req = inheritState state sub req := by
  rw [inheritState, inheritState, Router.mapHandlers_state]

theorem findRoute_map (routes : List (Route H)) (method : Method) (path : Str) :
    findRoute (routes.map (Route.map f)) method path
      = (findRoute routes method path).map fun p => (f p.1, p.2) := by
  unfold findRoute
  rw [List.findSome?_map, List.map_findSome?]
  congr 1
  funext r
  change (if r.method = method then _ else _) = Option.map _ (if r.method = method then _ else _)
  split_ifs
  · rw [Option.map_map]
    rfl
  · rfl

theorem pathMatched_map (routes : List (Route H)) (path : Str) :
    pathMatched (routes.map (Route.map f)) path = pathMatched routes path := by
  rw [pathMatched, List.any_map]
  rfl

theorem dispatchRoutes_map (routes : List (Route H)) (fallback na : Option H)
    (state : Option (E → E)) (req : HttpRequest E) :
    dispatchRoutes (routes.map (Route.map f)) (fallback.map f) (na.map f) state req
      = (dispatchRoutes routes fallback na state req).map f := by
  unfold dispatchRoutes
  rw [findRoute_map, pathMatched_map]
  cases findRoute routes req.method req.uri.path with
  | some p => rfl
  | none =>
      simp only [Option.map_none]
      cases pathMatched routes req.uri.path with
      | true => cases na <;> rfl
      | false => cases fallback <;> rfl

variable (buildUri : Str → Except String Uri)

mutual

/-- A dispatch commutes with every map of handlers. -/
theorem Router.dispatch_mapHandlers (router : Router H E) (req : HttpRequest E) :
    (router.mapHandlers f).dispatch buildUri req = (router.dispatch buildUri req).map f := by
  match router with
  | .mk routes nested vhosts fallback na state =>
      rw [Router.mapHandlers, Router.dispatch, Router.dispatch, dispatchVhosts_mapHandlers,
        dispatchNested_mapHandlers, dispatchRoutes_map]
      cases dispatchVhosts buildUri state vhosts req with
      | some d => rfl
      | none =>
          cases dispatchNested buildUri state nested req with
          | some d => rfl
          | none => rfl

theorem dispatchVhosts_mapHandlers (state : Option (E → E)) (vhosts : List (Str × Router H E))
    (req : HttpRequest E) :
    dispatchVhosts buildUri state (mapHandlersList f vhosts) req
      = (dispatchVhosts buildUri state vhosts req).map (Dispatched.map f) := by
  match vhosts with
  | [] => rfl
  | (name, sub) :: rest =>
      rw [mapHandlersList, dispatchVhosts, dispatchVhosts]
      split_ifs
      · rw [Option.map_some, inheritState_mapHandlers, Router.dispatch_mapHandlers sub]
      · exact dispatchVhosts_mapHandlers state rest req

theorem dispatchNested_mapHandlers (state : Option (E → E)) (nested : List (Str × Router H E))
    (req : HttpRequest E) :
    dispatchNested buildUri state (mapHandlersList f nested) req
      = (dispatchNested buildUri state nested req).map (Dispatched.map f) := by
  match nested with
  | [] => rfl
  | (pfx, sub) :: rest =>
      rw [mapHandlersList, dispatchNested, dispatchNested]
      cases stripPfx pfx req.uri.path with
      | none => exact dispatchNested_mapHandlers state rest req
      | some stripped =>
          dsimp only
          cases buildUri (subPath stripped) with
          | error e => rfl
          | ok uri =>
              dsimp only
              rw [Option.map_some, inheritState_mapHandlers, Router.dispatch_mapHandlers sub]
              rfl

end

end

end OxiHttp
