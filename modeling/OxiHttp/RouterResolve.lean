/-
**What a resolution says about a dispatch.**

`resolve` repeats the scan of `dispatch` without calling anything.  Which handler a dispatch has
called, that of a route, of a 405 or of the fallback, cannot be told from the handler; so the
handlers of a router are marked with the part they play.

Main definitions:

* `OxiHttp.Router.marked` — the router with its handlers marked;
* `OxiHttp.GivesBack` — the assumption on the library that builds URIs;
* `OxiHttp.PredictedBy` — a resolution says how a dispatch ends.

Main results:

* `OxiHttp.Router.mapHandlers_marked` — the marks change nothing;
* `OxiHttp.Router.resolve_predicts` — without virtual hosts a resolution says how the dispatch of a
  request with that method and path ends.
-/

import OxiHttp.RouterHandlers
import OxiHttp.RouterNesting

set_option relaxedAutoImplicit false
set_option autoImplicit false

namespace OxiHttp

variable {H E : Type}

/-! ### Marked handlers -/

/-- The part a handler plays in its router. -/
inductive Role where
  | route
  | methodNotAllowed
  | fallback
deriving DecidableEq, Repr

mutual

/-- A router with its handlers marked. -/
def Router.marked : Router H E → Router (Role × H) E
  | .mk routes nested vhosts fallback na state =>
      .mk (routes.map (Route.map fun h => (.route, h))) (markedList nested) (markedList vhosts)
        (fallback.map fun h => (.fallback, h)) (na.map fun h => (.methodNotAllowed, h)) state

/-- The same for the routers of a list. -/
def markedList : List (Str × Router H E) → List (Str × Router (Role × H) E)
  | [] => []
  | (name, sub) :: rest => (name, sub.marked) :: markedList rest

end

mutual

/-- Without the marks it is the router. -/
theorem Router.mapHandlers_marked (router : Router H E) :
    router.marked.mapHandlers Prod.snd = router := by
  match router with
  | .mk routes nested vhosts fallback na state =>
      have hroutes : ∀ r : Route H, (r.map fun h => (Role.route, h)).map Prod.snd = r :=
        fun r => rfl
      rw [Router.marked, Router.mapHandlers, mapHandlersList_marked nested,
        mapHandlersList_marked vhosts, List.map_map, Option.map_map, Option.map_map]
      congr 1
      · exact (List.map_congr_left fun r _ => hroutes r).trans (List.map_id routes)
      · exact Option.map_id'
      · exact Option.map_id'

theorem mapHandlersList_marked (l : List (Str × Router H E)) :
    mapHandlersList Prod.snd (markedList l) = l := by
  match l with
  | [] => rfl
  | (name, sub) :: rest =>
      rw [markedList, mapHandlersList, Router.mapHandlers_marked sub, mapHandlersList_marked rest]

end

@[simp] theorem Router.marked_state (router : Router H E) : router.marked.state = router.state := by
  cases router
  rw [marked, state, state]

@[simp] theorem inheritState_marked (state : Option (E → E)) (sub : Router H E)
    (req : HttpRequest E) : inheritState state sub.marked req = inheritState state sub req := by
  rw [inheritState, inheritState, Router.marked_state]

@[simp] theorem injectState_method (state : Option (E → E)) (req : HttpRequest E) :
    (injectState state req).method = req.method := by cases state <;> rfl

@[simp] theorem inheritState_method (state : Option (E → E)) (sub : Router H E)
    (req : HttpRequest E) : (inheritState state sub req).method = req.method := by
  unfold inheritState
  split <;> simp

/-! ### Predictions -/

/-- The URI built from a path that the routers below one can come to has that path. -/
def GivesBack (buildUri : Str → Except String Uri) (path : Str) : Prop :=
  ∀ p, p = "/".toList ∨ p ≠ [] ∧ p <:+ path → ∃ uri, buildUri p = .ok uri ∧ uri.path = p

/-- The path of a sub-router is one of them, and so are those below it. -/
theorem GivesBack.subPath {buildUri : Str → Except String Uri} {pfx path t : Str}
    (h : GivesBack buildUri path) (hs : stripPfx pfx path = some t) :
    GivesBack buildUri (subPath t) := by
  have hsuffix : t <:+ path := ⟨pfx, (stripPfx_eq_some_iff.1 hs).symm⟩
  rintro p (rfl | ⟨hne, hp⟩)
  · exact h _ (.inl rfl)
  · unfold OxiHttp.subPath at hp
    split at hp
    · -- the only suffix of the root that is not empty is the root
      rcases List.suffix_cons_iff.1 hp with rfl | hnil
      · exact h _ (.inl rfl)
      · exact absurd (List.suffix_nil.1 hnil) hne
    · exact h _ (.inr ⟨hne, hp.trans hsuffix⟩)

theorem subPath_givesBack {buildUri : Str → Except String Uri} {pfx path t : Str}
    (h : GivesBack buildUri path) (hs : stripPfx pfx path = some t) :
    ∃ uri, buildUri (subPath t) = .ok uri ∧ uri.path = subPath t := by
  refine h _ ?_
  unfold subPath
  split
  case isTrue => exact .inl rfl
  case isFalse hne =>
      exact .inr ⟨fun h => hne (by rw [h]; rfl), pfx, (stripPfx_eq_some_iff.1 hs).symm⟩

mutual

/-- There is no virtual host in the tree. -/
def Router.hostFree : Router H E → Bool
  | .mk _ nested vhosts _ _ _ => vhosts.isEmpty && hostFreeList nested

/-- The same for the routers of a list. -/
def hostFreeList : List (Str × Router H E) → Bool
  | [] => true
  | (_, sub) :: rest => sub.hostFree && hostFreeList rest

end

/-- The dispatch ends in the fallback of a router or in its 404. -/
def Outcome.Missed (o : Outcome (Role × H) E) : Prop :=
  (∃ handler req, o = .handled (.fallback, handler) req) ∨ o = .reply 404 "Not Found".toList

/-- The dispatch ends in the 405 of a router, its handler's or its own. -/
def Outcome.NotAllowed (o : Outcome (Role × H) E) : Prop :=
  (∃ handler req, o = .handled (.methodNotAllowed, handler) req) ∨
    o = .reply 405 "Method Not Allowed".toList

/-- A resolution says how the dispatch of a marked router ends. -/
structure PredictedBy (result : Option Params) (o : Outcome (Role × H) E) : Prop where
  none_iff : result = none ↔ o.Missed
  route : ∀ handler req, o = .handled (.route, handler) req → result = some req.pathParams
  notAllowed : o.NotAllowed → result = some ∅

/-- The routes of the router itself. -/
theorem resolveRoutes_predicts (routes : List (Route H)) (fallback na : Option H)
    (state : Option (E → E)) (req : HttpRequest E) :
    PredictedBy (resolveRoutes routes req.method req.uri.path)
      (dispatchRoutes (routes.map (Route.map fun h => (Role.route, h)))
        (fallback.map fun h => (Role.fallback, h)) (na.map fun h => (Role.methodNotAllowed, h))
        state req) := by
  unfold resolveRoutes dispatchRoutes
  rw [findRoute_map, pathMatched_map]
  cases findRoute routes req.method req.uri.path with
  | some p =>
      simp only [Option.map_some]
      refine ⟨by simp [Outcome.Missed], fun handler req' h => ?_, by simp [Outcome.NotAllowed]⟩
      cases h
      rfl
  | none =>
      simp only [Option.map_none]
      cases pathMatched routes req.uri.path with
      | true =>
          cases na <;> exact ⟨by simp [Outcome.Missed], fun _ _ h => by simp at h, fun _ => rfl⟩
      | false =>
          cases fallback <;>
            exact ⟨by simp [Outcome.Missed], fun _ _ h => by simp at h,
              by simp [Outcome.NotAllowed]⟩

section

variable {buildUri : Str → Except String Uri}

mutual

/-- Along prefixes, resolution and dispatch stay together. -/
theorem Router.resolve_predicts_of_givesBack (router : Router H E)
    (hfree : router.hostFree = true) (req : HttpRequest E)
    (hbuild : GivesBack buildUri req.uri.path) :
    PredictedBy (router.resolve req.method req.uri.path).result
      (router.marked.dispatch buildUri req).outcome := by
  match router with
  | .mk routes nested vhosts fallback na state =>
      rw [Router.hostFree, Bool.and_eq_true, List.isEmpty_iff] at hfree
      obtain ⟨rfl, hnested⟩ := hfree
      have hn := resolveNested_predicts state nested hnested req hbuild
      rw [Router.marked, Router.dispatch, Router.resolve, markedList, dispatchVhosts]
      dsimp only
      cases hdn : dispatchNested buildUri state (markedList nested) req with
      | some d =>
          rw [hdn] at hn
          obtain ⟨r, hr, hpredicts⟩ := hn
          rw [hr]
          exact hpredicts
      | none =>
          rw [hdn] at hn
          rw [hn]
          exact resolveRoutes_predicts routes fallback na state req

theorem resolveNested_predicts (state : Option (E → E)) (nested : List (Str × Router H E))
    (hfree : hostFreeList nested = true) (req : HttpRequest E)
    (hbuild : GivesBack buildUri req.uri.path) :
    match dispatchNested buildUri state (markedList nested) req with
    | some d => ∃ r, resolveNested nested req.method req.uri.path = some r ∧
        PredictedBy r.result d.outcome
    | none => resolveNested nested req.method req.uri.path = none := by
  match nested with
  | [] => rfl
  | (pfx, sub) :: rest =>
      rw [hostFreeList, Bool.and_eq_true] at hfree
      rw [markedList, dispatchNested, resolveNested]
      cases hs : stripPfx pfx req.uri.path with
      | none => exact resolveNested_predicts state rest hfree.2 req hbuild
      | some t =>
          dsimp only
          obtain ⟨uri, huri, hpath⟩ := subPath_givesBack hbuild hs
          rw [huri]
          dsimp only
          rw [inheritState_marked]
          refine ⟨_, rfl, ?_⟩
          -- what is inherited touches neither the method nor the path
          have hsub := Router.resolve_predicts_of_givesBack sub hfree.1
            (inheritState state sub { req with uri }) (by
              rw [inheritState_uri, hpath]
              exact hbuild.subPath hs)
          rw [inheritState_uri, hpath, inheritState_method] at hsub
          exact hsub

end

end

/-- A resolution says how the dispatch ends of any request with that method and path: that it finds
nothing, which parameters the handler of a route is given, or that it ends in a 405. -/
theorem Router.resolve_predicts (buildUri : Str → Except String Uri) (router : Router H E)
    (hfree : router.hostFree = true) (req : HttpRequest E)
    (hbuild : GivesBack buildUri req.uri.path) :
    (router.marked.dispatch buildUri req).map Prod.snd = router.dispatch buildUri req ∧
      PredictedBy (router.resolve req.method req.uri.path).result
        (router.marked.dispatch buildUri req).outcome := by
  refine ⟨?_, router.resolve_predicts_of_givesBack hfree req hbuild⟩
  rw [← Router.dispatch_mapHandlers, Router.mapHandlers_marked]

theorem givesBack_uriOfPath {path : Str} (h : '?' ∉ path ∧ '#' ∉ path) :
    GivesBack uriOfPath path := by
  have hgiven : ∀ p : Str, '?' ∉ p ∧ '#' ∉ p → ∃ uri, uriOfPath p = .ok uri ∧ uri.path = p :=
    fun p hp => ⟨plainUri p hp, dif_pos hp, rfl⟩
  rintro p (rfl | ⟨-, hp⟩)
  · exact hgiven _ root_delimited
  · exact hgiven p ⟨fun hc => h.1 (hp.subset hc), fun hc => h.2 (hp.subset hc)⟩

/-- `/api/users` is resolved by the route of the sub-router. -/
theorem resolve_predicts_apiUsers :
    (apiRouter.resolve .get "/api/users".toList).result = some ∅ :=
  (Router.resolve_predicts uriOfPath apiRouter (by decide) apiUsersRequest
    (givesBack_uriOfPath apiUsersRequest.uri.path_delimited)).2.route 0
      ⟨{ method := .get, uri := plainUri "/users".toList (by decide), extensions := () }, ∅⟩
      (by decide)

end OxiHttp
