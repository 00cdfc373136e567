/-
**The limit on the body of a request.**

`pre_handle` refuses a request that declares a body beyond the limit, and `inject_body_limit` puts
the limit among the extensions of a request that is let through, where `Request::body_bytes` looks
for it.  On the way to a handler the request goes through a tree of routers, which put their states
among the extensions as well.  A state is kept under its own type, and so the limit arrives at every
handler, in whatever way the router was built.

Main definitions:

* `OxiHttp.Extensions` — the limit and the states, by their types;
* `OxiHttp.Request.bodyBytes` — what a handler gets of a body, from the frames it comes in;
* `OxiHttp.Router.Built` — the routers that are built with the methods of `Router`;
* `OxiHttp.Request.Limited` — a request whose body is read within the limit.

Main results:

* `OxiHttp.Router.dispatch_limit` — a dispatch leaves the limit and the body as they are;
* `OxiHttp.dispatchWithMiddleware_limited` — handlers are called with limited requests only.
-/

import OxiHttp.BodyLimit
import OxiHttp.Middleware
import OxiHttp.RouterState

set_option relaxedAutoImplicit false
set_option autoImplicit false

namespace OxiHttp

/-! ### Extensions -/

/-- The types of what is among the extensions: the limit, and states. -/
def ExtensionType {K : Type} (V : K → Type) : Option K → Type
  | none => BodyLimitConfig
  | some k => V k

/-- `http::Extensions`. -/
abbrev Extensions {K : Type} (V : K → Type) : Type := TypeMap (ExtensionType V)

variable {K : Type} {V : K → Type} {H : Type}

/-- The limit among the extensions. -/
def Extensions.limit (ext : Extensions V) : Option BodyLimitConfig := ext none

/-- `insert` of a limit. -/
def Extensions.insertLimit [DecidableEq K] (limit : BodyLimitConfig) (ext : Extensions V) :
    Extensions V := TypeMap.insert ⟨none, limit⟩ ext

theorem Extensions.limit_insertLimit [DecidableEq K] (limit : BodyLimitConfig)
    (ext : Extensions V) : (insertLimit limit ext).limit = some limit := by
  unfold insertLimit Extensions.limit TypeMap.insert
  rw [Function.update_self]
  rfl

/-- `Request::body_bytes`, of a request whose body comes in these frames. -/
def Request.bodyBytes (req : Request (Extensions V)) (frames : List BodyFrame) :
    Except Panic (Except OxiHttpError (List UInt8)) :=
  match req.inner.extensions.limit with
  | some limit => (Server.collectBodyLimited frames (UInt64.ofNat limit.maxBytes)).2
  | none =>
      .ok <|
        match bodyError frames with
        | some e => .error (.body e)
        | none => .ok (OxiHttp.bodyBytes frames)

/-! ### Routers -/

section

variable [DecidableEq K]

/-- The routers that are built with the methods of `Router`; a state has a type of its own. -/
inductive Router.Built : Router H (Extensions V) → Prop
  | new : Built .new
  | route {router : Router H (Extensions V)} (h : router.Built) (method : Method) (path : Str)
      (handler : H) : Built (router.route method path handler)
  | nest {router sub : Router H (Extensions V)} (h : router.Built) (pfx : Str) (hsub : sub.Built) :
      Built (router.nest pfx sub)
  | host {router sub : Router H (Extensions V)} (h : router.Built) (name : Str) (hsub : sub.Built) :
      Built (router.host name sub)
  | fallback {router : Router H (Extensions V)} (h : router.Built) (handler : H) :
      Built (router.fallback handler)
  | methodNotAllowed {router : Router H (Extensions V)} (h : router.Built) (handler : H) :
      Built (router.methodNotAllowed handler)
  | withState {router : Router H (Extensions V)} (h : router.Built) (k : K) (v : V k) :
      Built (router.withState ⟨some k, v⟩)

end

/-- A state leaves the limit as it is. -/
def LeavesLimit (state : Option (Extensions V → Extensions V)) : Prop :=
  ∀ inject ∈ state, ∀ ext, (inject ext).limit = ext.limit

mutual

/-- Every state of the tree leaves the limit as it is. -/
def Router.LeavesLimit : Router H (Extensions V) → Prop
  | .mk _ nested vhosts _ _ state =>
      OxiHttp.LeavesLimit state ∧ leavesLimitList nested ∧ leavesLimitList vhosts

/-- The same for the routers of a list. -/
def leavesLimitList : List (Str × Router H (Extensions V)) → Prop
  | [] => True
  | (_, sub) :: rest => sub.LeavesLimit ∧ leavesLimitList rest

end

theorem leavesLimitList_concat {l : List (Str × Router H (Extensions V))}
    (h : leavesLimitList l) (name : Str) {sub : Router H (Extensions V)} (hsub : sub.LeavesLimit) :
    leavesLimitList (l ++ [(name, sub)]) := by
  induction l with
  | nil => exact ⟨hsub, trivial⟩
  | cons p l ih => exact ⟨h.1, ih h.2⟩

/-- A state is inserted under another type than that of the limit. -/
theorem leavesLimit_insert [DecidableEq K] (k : K) (v : V k) :
    LeavesLimit (V := V) (some (TypeMap.insert ⟨some k, v⟩)) := by
  intro inject hinject ext
  obtain rfl := Option.some.inj hinject
  exact TypeMap.insert_of_ne (Option.some_ne_none k).symm ext

theorem Router.Built.leavesLimit [DecidableEq K] {router : Router H (Extensions V)}
    (h : router.Built) : router.LeavesLimit := by
  induction h with
  | new => exact ⟨nofun, trivial, trivial⟩
  | @route router _ _ _ _ ih =>
      cases router
      exact ih
  | @nest router sub _ pfx _ ih ihsub =>
      cases router
      exact ⟨ih.1, leavesLimitList_concat ih.2.1 _ ihsub, ih.2.2⟩
  | @host router sub _ name _ ih ihsub =>
      cases router
      exact ⟨ih.1, ih.2.1, leavesLimitList_concat ih.2.2 _ ihsub⟩
  | @fallback router _ _ ih =>
      cases router
      exact ih
  | @methodNotAllowed router _ _ ih =>
      cases router
      exact ih
  | @withState router _ k v ih =>
      cases router
      exact ⟨leavesLimit_insert k v, ih.2⟩

/-! ### The way to a handler -/

/-- The limit and the body are the same. -/
def SameLimit (req req' : HttpRequest (Extensions V)) : Prop :=
  req'.extensions.limit = req.extensions.limit ∧ req'.body = req.body

theorem sameLimit_injectState {state : Option (Extensions V → Extensions V)}
    (h : LeavesLimit state) (req : HttpRequest (Extensions V)) :
    SameLimit req (injectState state req) := by
  cases state with
  | none => exact ⟨rfl, rfl⟩
  | some inject => exact ⟨h inject rfl req.extensions, rfl⟩

theorem sameLimit_inheritState {state : Option (Extensions V → Extensions V)}
    (h : LeavesLimit state) (sub : Router H (Extensions V)) (req : HttpRequest (Extensions V)) :
    SameLimit req (inheritState state sub req) := by
  unfold inheritState
  split
  · exact sameLimit_injectState h req
  · exact ⟨rfl, rfl⟩

theorem SameLimit.trans {req req' req'' : HttpRequest (Extensions V)} (h : SameLimit req req')
    (h' : SameLimit req' req'') : SameLimit req req'' := ⟨h'.1.trans h.1, h'.2.trans h.2⟩

section

variable {buildUri : Str → Except String Uri} {handler : H} {req' : Request (Extensions V)}

mutual

/-- A handler gets the limit and the body of the request that was dispatched. -/
theorem Router.dispatch_limit (router : Router H (Extensions V)) (hleaves : router.LeavesLimit)
    (req : HttpRequest (Extensions V))
    (h : (router.dispatch buildUri req).outcome = .handled handler req') :
    SameLimit req req'.inner := by
  match router with
  | .mk routes nested vhosts fallback na state =>
      obtain ⟨hstate, hnested, hvhosts⟩ := hleaves
      rw [Router.dispatch] at h
      cases hdv : dispatchVhosts buildUri state vhosts req with
      | some d =>
          rw [hdv] at h
          exact dispatchVhosts_limit hstate vhosts hvhosts req hdv h
      | none =>
          rw [hdv] at h
          cases hdn : dispatchNested buildUri state nested req with
          | some d =>
              rw [hdn] at h
              exact dispatchNested_limit hstate nested hnested req hdn h
          | none =>
              rw [hdn] at h
              rw [dispatchRoutes_inner h]
              exact sameLimit_injectState hstate req

theorem dispatchVhosts_limit {state : Option (Extensions V → Extensions V)}
    (hstate : LeavesLimit state) (vhosts : List (Str × Router H (Extensions V)))
    (hleaves : leavesLimitList vhosts) (req : HttpRequest (Extensions V))
    {d : Dispatched H (Extensions V)} (hd : dispatchVhosts buildUri state vhosts req = some d)
    (h : d.outcome = .handled handler req') : SameLimit req req'.inner := by
  match vhosts with
  | [] => cases hd
  | (name, sub) :: rest =>
      rw [dispatchVhosts] at hd
      by_cases hname : (hostBare req.headers).any (eqIgnoreAsciiCase name) = true
      · rw [if_pos hname] at hd
        obtain rfl := Option.some.inj hd
        exact (sameLimit_inheritState hstate sub req).trans
          (Router.dispatch_limit sub hleaves.1 _ h)
      · rw [if_neg hname] at hd
        exact dispatchVhosts_limit hstate rest hleaves.2 req hd h

theorem dispatchNested_limit {state : Option (Extensions V → Extensions V)}
    (hstate : LeavesLimit state) (nested : List (Str × Router H (Extensions V)))
    (hleaves : leavesLimitList nested) (req : HttpRequest (Extensions V))
    {d : Dispatched H (Extensions V)} (hd : dispatchNested buildUri state nested req = some d)
    (h : d.outcome = .handled handler req') : SameLimit req req'.inner := by
  match nested with
  | [] => cases hd
  | (pfx, sub) :: rest =>
      rw [dispatchNested] at hd
      cases hstrip : stripPfx pfx req.uri.path with
      | none =>
          rw [hstrip] at hd
          exact dispatchNested_limit hstate rest hleaves.2 req hd h
      | some stripped =>
          rw [hstrip] at hd
          dsimp only at hd
          cases huri : buildUri (subPath stripped) with
          | error e =>
              rw [huri] at hd
              obtain rfl := Option.some.inj hd
              cases h
          | ok uri =>
              rw [huri] at hd
              obtain rfl := Option.some.inj hd
              -- the request has another URI, and the rest of it
              exact (sameLimit_inheritState hstate sub { req with uri }).trans
                (Router.dispatch_limit sub hleaves.1 _ h)

end

end

/-! ### The pipeline -/

/-- The body of a request is read within the limit, and what it declares is within it. -/
structure Request.Limited (limit : BodyLimitConfig) (req : HttpRequest (Extensions V))
    (req' : Request (Extensions V)) : Prop where
  declared : ∀ n ∈ declaredLength req.headers, n ≤ limit.maxBytes
  body : req'.inner.body = req.body
  reads : ∀ frames, req'.bodyBytes frames =
    (Server.collectBodyLimited frames (UInt64.ofNat limit.maxBytes)).2
  within : ∀ frames, OxiHttp.bodyBytes frames = req.body →
    CollectsWithin (tooLarge "request" (UInt64.ofNat limit.maxBytes))
      (UInt64.ofNat limit.maxBytes) req.body (bodyError frames)
      (Server.collectBodyLimited frames (UInt64.ofNat limit.maxBytes))

theorem BodyLimitConfig.le_of_checkContentLength {limit : BodyLimitConfig} {len : Option ℕ}
    (h : limit.checkContentLength len = .ok ()) : ∀ n ∈ len, n ≤ limit.maxBytes := by
  rintro n rfl
  unfold checkContentLength at h
  dsimp only at h
  split_ifs at h with hlt
  exact Nat.le_of_not_lt hlt

/-- A request that goes on declares no body beyond the limit. -/
theorem MiddlewarePipeline.declared_of_preHandle {E : Type} {p : MiddlewarePipeline}
    {env : Surroundings} {req : HttpRequest E} {limit : BodyLimitConfig}
    (hlimit : p.bodyLimit = some limit) (h : (p.preHandle env req).1 = none) :
    ∀ n ∈ declaredLength req.headers, n ≤ limit.maxBytes := by
  have hbody : p.checkBody req.headers = none := by
    unfold preHandle at h
    split at h
    · cases h
    · split at h
      · dsimp only at h
        split_ifs at h
        exact Option.map_eq_none_iff.1 h
      · exact Option.map_eq_none_iff.1 h
  exact BodyLimitConfig.le_of_checkContentLength (checkBody_eq_none_iff.1 hbody limit hlimit)

variable [DecidableEq K]

/-- A handler that is selected for a request with the limit gets a limited request. -/
theorem Router.limited_of_dispatch {buildUri : Str → Except String Uri}
    {router : Router H (Extensions V)} (hbuilt : router.Built) {p : MiddlewarePipeline}
    {limit : BodyLimitConfig} (hlimit : p.bodyLimit = some limit)
    {req : HttpRequest (Extensions V)} (hdeclared : ∀ n ∈ declaredLength req.headers,
      n ≤ limit.maxBytes) {handler : H} {req' : Request (Extensions V)}
    (h : (router.dispatch buildUri (p.injectBodyLimit Extensions.insertLimit req)).outcome =
      .handled handler req') : req'.Limited limit req := by
  have hinject : p.injectBodyLimit Extensions.insertLimit req =
      { req with extensions := Extensions.insertLimit limit req.extensions } := by
    rw [MiddlewarePipeline.injectBodyLimit, hlimit]
  have hsame := Router.dispatch_limit router hbuilt.leavesLimit _ h
  rw [hinject] at hsame
  constructor
  · exact hdeclared
  · exact hsame.2
  · intro frames
    rw [Request.bodyBytes, hsame.1.trans (Extensions.limit_insertLimit limit req.extensions)]
  · rintro frames hbody
    rw [← hbody]
    have hempty : ([] : List UInt8).length ≤ (UInt64.ofNat limit.maxBytes).toNat := Nat.zero_le _
    have hmemory : ([] : List UInt8).length < 2 ^ 63 := Nat.two_pow_pos 63
    exact collectLoop_collectsWithin addU64_decides _ _ frames hempty hmemory

/-- **Handlers are called with limited requests only**: whatever two handlers do with other
requests, the server answers in the same way. -/
theorem dispatchWithMiddleware_limited (buildUri : Str → Except String Uri)
    {router : Router H (Extensions V)} (hbuilt : router.Built) {p : MiddlewarePipeline}
    {limit : BodyLimitConfig} (hlimit : p.bodyLimit = some limit) (env : Surroundings)
    (req : HttpRequest (Extensions V))
    {handle handle' : H → Request (Extensions V) → Except Str HttpResponse}
    (h : ∀ handler (req' : Request (Extensions V)), req'.Limited limit req →
      handle handler req' = handle' handler req') :
    dispatchWithMiddleware buildUri router handle Extensions.insertLimit p env req =
      dispatchWithMiddleware buildUri router handle' Extensions.insertLimit p env req := by
  unfold dispatchWithMiddleware
  rcases hpre : p.preHandle env req with ⟨_ | resp, p'⟩
  · have hdeclared := MiddlewarePipeline.declared_of_preHandle hlimit (congrArg Prod.fst hpre)
    have hresult : handlerResult buildUri router handle Extensions.insertLimit p env req =
        handlerResult buildUri router handle' Extensions.insertLimit p env req := by
      unfold handlerResult
      split_ifs
      · rfl
      · cases hout : (router.dispatch buildUri
            (p.injectBodyLimit Extensions.insertLimit req)).outcome with
        | handled handler req' =>
            exact h handler req' (Router.limited_of_dispatch hbuilt hlimit hdeclared hout)
        | reply status body => rfl
        | error e => rfl
    dsimp only
    rw [hresult]
  · rfl

/-- What a handler that echoes its body makes of what it gets. -/
def echoed : Except Panic (Except OxiHttpError (List UInt8)) → Except Str HttpResponse
  | .ok (.ok body) => .ok { status := 200, body }
  | .ok (.error e) => .error e.display.toList
  | .error _ => .error []

/-- A route below a prefix, in a router with a state. -/
def echoRouter : Router ℕ (Extensions fun _ : Bool => ℕ) :=
  (Router.new.nest "/api/".toList (Router.new.route .post "/echo".toList 0)).withState
    ⟨some true, (7 : ℕ)⟩

theorem echoRouter_built : echoRouter.Built :=
  .withState (.nest .new _ (.route .new _ _ _)) true 7

/-- A request for it with three bytes. -/
def echoRequest : HttpRequest (Extensions fun _ : Bool => ℕ) where
  method := .post
  uri := plainUri "/api/echo".toList (by decide)
  extensions := fun _ => none
  body := [1, 2, 3]

/-- The three bytes in two frames. -/
def echoFrames : List BodyFrame :=
  [.data ⟨[[1, 2]], by decide, by decide⟩, .data ⟨[[3]], by decide, by decide⟩]

/-- The handler that reads its body cannot be told from one that collects two bytes at most. -/
theorem dispatchWithMiddleware_limited_echo :
    dispatchWithMiddleware uriOfPath echoRouter (fun _ req => echoed (req.bodyBytes echoFrames))
        Extensions.insertLimit { bodyLimit := some ⟨2⟩ } quietSurroundings echoRequest =
      dispatchWithMiddleware uriOfPath echoRouter
        (fun _ _ => echoed (Server.collectBodyLimited echoFrames 2).2)
        Extensions.insertLimit { bodyLimit := some ⟨2⟩ } quietSurroundings echoRequest :=
  dispatchWithMiddleware_limited uriOfPath echoRouter_built rfl quietSurroundings echoRequest
    fun _ _ h => congrArg echoed (h.reads echoFrames)

end OxiHttp
