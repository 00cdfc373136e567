/-
**The state a handler sees.**

`with_state` gives a router a value that its handlers find in the extensions of the request, under
its type.  A sub-router without a state is forwarded the request with that of its parent.  What a
handler then sees is laid out here for every tree of routers: the states along the way from the root
to the router that owns the handler, and which of them are left in the extensions.

A state that is passed on to a sub-router without one stays in the extensions, also when a router
further down has a state of another type.

Main definitions:

* `OxiHttp.StatefulRouter` — a tree of routers with the values that are their states;
* `OxiHttp.StatefulRouter.owned` — the tree with its handlers marked with the states from the root
  to their router;
* `OxiHttp.StatefulRouter.SeesNearest` — the handler sees the nearest state and no other.

Main results:

* `OxiHttp.StatefulRouter.dispatch_owned` — what is injected on the way to a handler;
* `OxiHttp.StatefulRouter.seesNearest_iff` — when it sees the nearest state only.
-/

import OxiHttp.RouterHandlers
import OxiHttp.RouterNesting
import OxiHttp.TypeMap

set_option relaxedAutoImplicit false
set_option autoImplicit false

namespace OxiHttp

variable {K : Type} [DecidableEq K] {V : K → Type} {H : Type}

/-! ### Routers with states -/

/-- `Router::with_state`: the state is inserted under its type. -/
def Router.withState (router : Router H (TypeMap V)) (s : Σ k, V k) : Router H (TypeMap V) :=
  match router with
  | .mk routes nested vhosts fallback na _ =>
      .mk routes nested vhosts fallback na (some (TypeMap.insert s))

/-- `Request::state`. -/
def Request.state (req : Request (TypeMap V)) (k : K) : Option (V k) := req.inner.extensions k

/-- A router with the value that is its state, and sub-routers that are such. -/
inductive StatefulRouter (H : Type) {K : Type} (V : K → Type) where
  | mk (routes : List (Route H)) (nested vhosts : List (Str × StatefulRouter H V))
      (fallback methodNotAllowedHandler : Option H) (state : Option (Σ k, V k))

namespace StatefulRouter

/-- The state of a router. -/
def state : StatefulRouter H V → Option (Σ k, V k)
  | mk _ _ _ _ _ state => state

end StatefulRouter

mutual

/-- The router that is built with these states. -/
def StatefulRouter.toRouter : StatefulRouter H V → Router H (TypeMap V)
  | .mk routes nested vhosts fallback na state =>
      .mk routes (toRouterList nested) (toRouterList vhosts) fallback na (state.map TypeMap.insert)

/-- The same for the routers of a list. -/
def toRouterList : List (Str × StatefulRouter H V) → List (Str × Router H (TypeMap V))
  | [] => []
  | (name, sub) :: rest => (name, sub.toRouter) :: toRouterList rest

end

mutual

/-- The router with its handlers marked with the states from the root to their router, when those
above the router are `up`. -/
def StatefulRouter.owned (up : List (Option (Σ k, V k))) :
    StatefulRouter H V → StatefulRouter (List (Option (Σ k, V k)) × H) V
  | .mk routes nested vhosts fallback na state =>
      let mark := fun h : H => (up ++ [state], h)
      .mk (routes.map (Route.map mark)) (ownedList (up ++ [state]) nested)
        (ownedList (up ++ [state]) vhosts) (fallback.map mark) (na.map mark) state

/-- The same for the routers of a list. -/
def ownedList (up : List (Option (Σ k, V k))) :
    List (Str × StatefulRouter H V) → List (Str × StatefulRouter (List (Option (Σ k, V k)) × H) V)
  | [] => []
  | (name, sub) :: rest => (name, sub.owned up) :: ownedList up rest

end

/-- A state is given to a router by `with_state`. -/
theorem StatefulRouter.toRouter_withState (routes : List (Route H))
    (nested vhosts : List (Str × StatefulRouter H V)) (fallback na : Option H) (s : Σ k, V k) :
    (mk routes nested vhosts fallback na (some s)).toRouter
      = (mk routes nested vhosts fallback na none).toRouter.withState s := rfl

@[simp] theorem StatefulRouter.toRouter_state (router : StatefulRouter H V) :
    router.toRouter.state = router.state.map TypeMap.insert := by
  cases router
  rw [toRouter, state, Router.state]

omit [DecidableEq K] in
@[simp] theorem StatefulRouter.owned_state (up : List (Option (Σ k, V k)))
    (router : StatefulRouter H V) : (router.owned up).state = router.state := by
  cases router
  rw [owned, state, state]

mutual

/-- Without the marks it is the router. -/
theorem StatefulRouter.mapHandlers_owned (up : List (Option (Σ k, V k)))
    (router : StatefulRouter H V) :
    (router.owned up).toRouter.mapHandlers Prod.snd = router.toRouter := by
  match router with
  | .mk routes nested vhosts fallback na state =>
      rw [StatefulRouter.owned, StatefulRouter.toRouter, StatefulRouter.toRouter,
        Router.mapHandlers, mapHandlersList_owned _ nested, mapHandlersList_owned _ vhosts,
        List.map_map, Option.map_map, Option.map_map]
      congr 1
      · exact (List.map_congr_left fun r _ => rfl).trans (List.map_id routes)
      · exact Option.map_id'
      · exact Option.map_id'

theorem mapHandlersList_owned (up : List (Option (Σ k, V k)))
    (l : List (Str × StatefulRouter H V)) :
    mapHandlersList Prod.snd (toRouterList (ownedList up l)) = toRouterList l := by
  match l with
  | [] => rfl
  | (name, sub) :: rest =>
      rw [ownedList, toRouterList, toRouterList, mapHandlersList, StatefulRouter.mapHandlers_owned,
        mapHandlersList_owned up rest]

end

/-! ### What is injected -/

/-- The request with other extensions. -/
def HttpRequest.withExtensions {E : Type} (req : HttpRequest E) (ext : E) : HttpRequest E :=
  { req with extensions := ext }

/-- What a sub-router inherits. -/
theorem inheritState_withExtensions (state : Option (Σ k, V k)) (sub : StatefulRouter H V)
    (req : HttpRequest (TypeMap V)) (ext : TypeMap V) :
    inheritState (state.map TypeMap.insert) sub.toRouter (req.withExtensions ext)
      = req.withExtensions
        (TypeMap.insertAll (if sub.state.isNone then state.toList else []) ext) := by
  unfold inheritState
  rw [StatefulRouter.toRouter_state, Option.isNone_map]
  split
  · cases state <;> rfl
  · rfl

section

variable {buildUri : Str → Except String Uri}

/-- A dispatch calls a handler under these states with these extensions. -/
def Calls (d : Option (Dispatched (List (Option (Σ k, V k)) × H) (TypeMap V)))
    (chain : List (Option (Σ k, V k))) (handler : H) (ext : TypeMap V) : Prop :=
  ∃ d' req', d = some d' ∧ d'.outcome = .handled (chain, handler) req' ∧
    req'.inner.extensions = ext

/-- Which handler of the router itself is called does not depend on the extensions. -/
theorem dispatchRoutes_withExtensions {E : Type} {routes : List (Route H)} {fallback na : Option H}
    {state : Option (E → E)} {req : HttpRequest E} {handler : H} {req' : Request E}
    (h : dispatchRoutes routes fallback na state req = .handled handler req') (ext : E) :
    dispatchRoutes routes fallback na state (req.withExtensions ext)
      = .handled handler ⟨injectState state (req.withExtensions ext), req'.pathParams⟩ := by
  have hpath : (req.withExtensions ext).uri.path = req.uri.path := rfl
  have hmethod : (req.withExtensions ext).method = req.method := rfl
  unfold dispatchRoutes at h ⊢
  rw [hpath, hmethod]
  split at h
  case h_1 =>
      cases h
      rfl
  case h_2 =>
      split at h
      case isTrue hmatched =>
          rw [if_pos hmatched]
          cases na with
          | none => cases h
          | some handler =>
              cases h
              rfl
      case isFalse hmatched =>
          rw [if_neg hmatched]
          cases fallback with
          | none => cases h
          | some handler =>
              cases h
              rfl

/-- A handler of the router itself. -/
theorem dispatchRoutes_owned (routes : List (Route H)) (fallback na : Option H)
    (chain : List (Option (Σ k, V k))) (state : Option (Σ k, V k)) (req : HttpRequest (TypeMap V))
    {chain' : List (Option (Σ k, V k))} {handler : H} {req' : Request (TypeMap V)}
    (h : dispatchRoutes (routes.map (Route.map fun h => (chain, h)))
      (fallback.map fun h => (chain, h)) (na.map fun h => (chain, h)) (state.map TypeMap.insert) req
        = .handled (chain', handler) req') :
    chain' = chain ∧ ∀ ext, ∃ req', dispatchRoutes (routes.map (Route.map fun h => (chain, h)))
      (fallback.map fun h => (chain, h)) (na.map fun h => (chain, h)) (state.map TypeMap.insert)
        (req.withExtensions ext) = .handled (chain, handler) req' ∧
      req'.inner.extensions = TypeMap.insertAll state.toList ext := by
  have hchain : chain' = chain := by
    rw [dispatchRoutes_map] at h
    cases hout : dispatchRoutes routes fallback na (state.map TypeMap.insert) req <;>
      rw [hout] at h <;> cases h
    rfl
  subst hchain
  refine ⟨rfl, fun ext => ⟨_, dispatchRoutes_withExtensions h ext, ?_⟩⟩
  cases state <;> rfl

/-- What a sub-router inherits comes before what is injected further down. -/
theorem calls_inheritState {chain : List (Option (Σ k, V k))} {handler : H}
    {state : Option (Σ k, V k)} {sub : StatefulRouter (List (Option (Σ k, V k)) × H) V}
    {req : HttpRequest (TypeMap V)} {rest : List (Option (Σ k, V k))}
    (h : ∀ ext, Calls (some (sub.toRouter.dispatch buildUri
      ((inheritState (state.map TypeMap.insert) sub.toRouter req).withExtensions ext)))
      chain handler (TypeMap.insertAll (TypeMap.passedOn (sub.state :: rest)) ext))
    (ext : TypeMap V) :
    Calls (some (sub.toRouter.dispatch buildUri
      (inheritState (state.map TypeMap.insert) sub.toRouter (req.withExtensions ext))))
      chain handler (TypeMap.insertAll (TypeMap.passedOn (state :: sub.state :: rest)) ext) := by
  have hsame : ∀ ext, (inheritState (state.map TypeMap.insert) sub.toRouter req).withExtensions ext
      = req.withExtensions ext := by
    intro ext
    unfold inheritState
    split
    · cases state <;> rfl
    · rfl
  have hcalls := h (TypeMap.insertAll (if sub.state.isNone then state.toList else []) ext)
  rw [hsame] at hcalls
  rw [inheritState_withExtensions, TypeMap.passedOn, TypeMap.insertAll_append]
  exact hcalls

mutual

/-- On the way to a handler the states are injected that are passed on from the router to the one
that owns the handler, and the state of that router. -/
theorem StatefulRouter.dispatch_owned (router : StatefulRouter H V) (up : List (Option (Σ k, V k)))
    (req : HttpRequest (TypeMap V)) {chain : List (Option (Σ k, V k))} {handler : H}
    {req' : Request (TypeMap V)}
    (h : ((router.owned up).toRouter.dispatch buildUri req).outcome
      = .handled (chain, handler) req') :
    ∃ rest, chain = up ++ router.state :: rest ∧ ∀ ext,
      Calls (some ((router.owned up).toRouter.dispatch buildUri (req.withExtensions ext))) chain
        handler (TypeMap.insertAll (TypeMap.passedOn (router.state :: rest)) ext) := by
  match router with
  | .mk routes nested vhosts fallback na state =>
      have hv := dispatchVhosts_owned state vhosts (up ++ [state]) req
      have hn := dispatchNested_owned state nested (up ++ [state]) req
      rw [StatefulRouter.owned, StatefulRouter.toRouter] at h ⊢
      simp only [Router.dispatch] at h ⊢
      cases hdv : dispatchVhosts buildUri (state.map TypeMap.insert)
          (toRouterList (ownedList (up ++ [state]) vhosts)) req with
      | some d =>
          rw [hdv] at h hv
          obtain ⟨rest, rfl, hcalls⟩ := hv h
          refine ⟨rest, by simp [StatefulRouter.state], fun ext => ?_⟩
          obtain ⟨d', req'', hd', hout, hext⟩ := hcalls ext
          exact ⟨d', req'', by rw [hd'], hout, hext⟩
      | none =>
          rw [hdv] at h hv
          cases hdn : dispatchNested buildUri (state.map TypeMap.insert)
              (toRouterList (ownedList (up ++ [state]) nested)) req with
          | some d =>
              rw [hdn] at h hn
              obtain ⟨rest, rfl, hcalls⟩ := hn h
              refine ⟨rest, by simp [StatefulRouter.state], fun ext => ?_⟩
              obtain ⟨d', req'', hd', hout, hext⟩ := hcalls ext
              exact ⟨d', req'', by rw [hv ext, hd'], hout, hext⟩
          | none =>
              rw [hdn] at h hn
              obtain ⟨rfl, hcalls⟩ := dispatchRoutes_owned routes fallback na _ state req h
              refine ⟨[], rfl, fun ext => ?_⟩
              obtain ⟨req'', hout, hext⟩ := hcalls ext
              exact ⟨_, req'', by rw [hv ext, hn ext], hout, hext⟩

theorem dispatchVhosts_owned (state : Option (Σ k, V k)) (vhosts : List (Str × StatefulRouter H V))
    (up : List (Option (Σ k, V k))) (req : HttpRequest (TypeMap V)) :
    match dispatchVhosts buildUri (state.map TypeMap.insert) (toRouterList (ownedList up vhosts))
      req with
    | some d => ∀ {chain : List (Option (Σ k, V k))} {handler : H} {req' : Request (TypeMap V)},
        d.outcome = .handled (chain, handler) req' → ∃ rest, chain = up ++ rest ∧ ∀ ext,
          Calls (dispatchVhosts buildUri (state.map TypeMap.insert)
            (toRouterList (ownedList up vhosts)) (req.withExtensions ext)) chain handler
            (TypeMap.insertAll (TypeMap.passedOn (state :: rest)) ext)
    | none => ∀ ext, dispatchVhosts buildUri (state.map TypeMap.insert)
        (toRouterList (ownedList up vhosts)) (req.withExtensions ext) = none := by
  match vhosts with
  | [] => exact fun _ => rfl
  | (name, sub) :: rest =>
      simp only [ownedList, toRouterList, dispatchVhosts]
      have hheaders : ∀ ext, (req.withExtensions ext).headers = req.headers := fun _ => rfl
      simp only [hheaders]
      by_cases hname : (hostBare req.headers).any (eqIgnoreAsciiCase name) = true
      · simp only [if_pos hname]
        intro chain handler req' h
        obtain ⟨rest', hchain, hcalls⟩ := StatefulRouter.dispatch_owned sub up _ h
        refine ⟨_, hchain, ?_⟩
        rw [← sub.owned_state up] at hcalls ⊢
        exact calls_inheritState hcalls
      · simp only [if_neg hname]
        exact dispatchVhosts_owned state rest up req

theorem dispatchNested_owned (state : Option (Σ k, V k)) (nested : List (Str × StatefulRouter H V))
    (up : List (Option (Σ k, V k))) (req : HttpRequest (TypeMap V)) :
    match dispatchNested buildUri (state.map TypeMap.insert) (toRouterList (ownedList up nested))
      req with
    | some d => ∀ {chain : List (Option (Σ k, V k))} {handler : H} {req' : Request (TypeMap V)},
        d.outcome = .handled (chain, handler) req' → ∃ rest, chain = up ++ rest ∧ ∀ ext,
          Calls (dispatchNested buildUri (state.map TypeMap.insert)
            (toRouterList (ownedList up nested)) (req.withExtensions ext)) chain handler
            (TypeMap.insertAll (TypeMap.passedOn (state :: rest)) ext)
    | none => ∀ ext, dispatchNested buildUri (state.map TypeMap.insert)
        (toRouterList (ownedList up nested)) (req.withExtensions ext) = none := by
  match nested with
  | [] => exact fun _ => rfl
  | (pfx, sub) :: rest =>
      simp only [ownedList, toRouterList, dispatchNested]
      have huri : ∀ ext, (req.withExtensions ext).uri = req.uri := fun _ => rfl
      simp only [huri]
      cases stripPfx pfx req.uri.path with
      | none => exact dispatchNested_owned state rest up req
      | some stripped =>
          dsimp only
          cases buildUri (subPath stripped) with
          | error e =>
              intro chain handler req' h
              cases h
          | ok uri =>
              intro chain handler req' h
              obtain ⟨rest', hchain, hcalls⟩ := StatefulRouter.dispatch_owned sub up _ h
              refine ⟨_, hchain, fun ext => ?_⟩
              rw [← sub.owned_state up] at hcalls ⊢
              obtain ⟨d', req'', hd', hout, hext⟩ := calls_inheritState hcalls ext
              cases hd'
              exact ⟨_, req'', rfl, hout, hext⟩

end

end

/-! ### What a handler sees -/

/-- Whatever the extensions of the request are, the handler under these states finds the nearest of
them in the extensions, and nothing else that was not there. -/
def StatefulRouter.SeesNearest (buildUri : Str → Except String Uri) (router : StatefulRouter H V)
    (req : HttpRequest (TypeMap V)) (chain : List (Option (Σ k, V k))) (handler : H) : Prop :=
  ∀ ext req', ((router.owned []).toRouter.dispatch buildUri (req.withExtensions ext)).outcome
      = .handled (chain, handler) req' →
    ∀ k, req'.state k = (TypeMap.nearest chain).elim ext (fun s => TypeMap.insert s ext) k

/-- The states a handler is marked with are those from the root to the router that owns it; it sees
the nearest of them only exactly when every state that is passed on to a router without one has the
type of the nearest. -/
theorem StatefulRouter.seesNearest_iff (buildUri : Str → Except String Uri)
    (router : StatefulRouter H V) (req : HttpRequest (TypeMap V))
    {chain : List (Option (Σ k, V k))} {handler : H} {req' : Request (TypeMap V)}
    (h : ((router.owned []).toRouter.dispatch buildUri req).outcome
      = .handled (chain, handler) req') :
    (router.toRouter.dispatch buildUri req).outcome = .handled handler req' ∧
      (router.SeesNearest buildUri req chain handler ↔
        ∀ near ∈ TypeMap.nearest chain, ∀ a b s, chain = a ++ some s :: none :: b →
          s.1 = near.1) := by
  constructor
  · rw [← router.mapHandlers_owned [], Router.dispatch_mapHandlers]
    change Outcome.map Prod.snd _ = _
    rw [h]
    rfl
  · obtain ⟨rest, hchain, hcalls⟩ := router.dispatch_owned [] req h
    rw [List.nil_append] at hchain
    rw [← hchain] at hcalls
    rw [← TypeMap.insertAll_passedOn_iff]
    constructor
    · intro hsees ext
      obtain ⟨d', req'', hd', hout, hext⟩ := hcalls ext
      cases hd'
      rw [← hext]
      funext k
      exact hsees ext req'' hout k
    · intro hnearest ext req'' hout k
      obtain ⟨d', req₀, hd', hout', hext⟩ := hcalls ext
      cases hd'
      rw [hout] at hout'
      cases hout'
      rw [Request.state, hext, hnearest]

/-- A route `/a/b/x` through three routers with these states. -/
def layered (root mid leaf : Option (Σ _ : Bool, ℕ)) : StatefulRouter ℕ fun _ : Bool => ℕ :=
  let x : Route ℕ := { method := .get, segments := parsePattern "/x".toList, handler := 0 }
  .mk [] [("/a".toList, .mk [] [("/b".toList, .mk [x] [] [] none none leaf)] [] none none mid)] []
    none none root

/-- A request for it. -/
def layeredRequest : HttpRequest (TypeMap fun _ : Bool => ℕ) where
  method := .get
  uri := plainUri "/a/b/x".toList (by decide)
  extensions := fun _ => none

/-- The state of the root is inherited by the routers below it. -/
theorem seesNearest_inherited :
    (layered (some ⟨false, 7⟩) none none).SeesNearest uriOfPath layeredRequest
      [some ⟨false, 7⟩, none, none] 0 := by
  refine (StatefulRouter.seesNearest_iff uriOfPath (layered (some ⟨false, 7⟩) none none)
    layeredRequest rfl).2.2 ?_
  intro near hnear a b s hchain
  cases hnear
  have hs : some s ∈ [some ⟨false, 7⟩, none, none] := hchain ▸ by simp
  simp at hs
  rw [hs]
  rfl

/-- Below a router without a state, a handler sees the state of the root beside that of its own
router. -/
theorem not_seesNearest_gap :
    ¬ (layered (some ⟨false, 7⟩) none (some ⟨true, 8⟩)).SeesNearest uriOfPath layeredRequest
      [some ⟨false, 7⟩, none, some ⟨true, 8⟩] 0 := by
  intro h
  have hnone := h (fun _ => none) _ rfl false
  cases hnone

end OxiHttp
