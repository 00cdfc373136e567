/-
**Layers around the router.**

With the feature `tower` a request goes through the layers of the server before it comes to the
router, and the response goes back through them.  Two layers come with the server: `LoggingLayer`
writes a line for each response, and `RequestIdLayer` draws a number from a counter of the process
and puts it into the header fields of the request and of the response.  Requests are handled at the
same time, and the tasks that handle them take their steps in any order.

Main definitions:

* `OxiHttp.TowerService`, `OxiHttp.buildLayeredService` — the router with layers around it;
* `OxiHttp.TowerCall.resume`, `OxiHttp.towerTasks` — the steps of the tasks;
* `OxiHttp.TowerTraced` — what has become of the requests of a process.

Main results:

* `OxiHttp.formatHex_sixteen_lt` — numbers are printed in their order;
* `OxiHttp.layers_buildLayeredService` — the first layer that was added is the outermost;
* `OxiHttp.towerTraced_run` — what becomes of the requests, in any order of the steps.
-/

import OxiHttp.BoundarySearch
import OxiHttp.Interleaving
import OxiHttp.Middleware
import OxiHttp.RequestBuilder

set_option relaxedAutoImplicit false
set_option autoImplicit false

namespace OxiHttp

open Interleaving

/-! ### Numbers of sixteen digits -/

theorem hexLower_lt : ∀ d < 16, ∀ e < 16, d < e → hexLower d < hexLower e := by decide

/-- Numbers with the same number of digits are in the order of their digits. -/
theorem map_hexLower_lt {k m n : ℕ} (h : m % 16 ^ k < n % 16 ^ k) :
    ((List.range k).reverse.map fun i => m / 16 ^ i % 16).map hexLower <
      ((List.range k).reverse.map fun i => n / 16 ^ i % 16).map hexLower := by
  induction k with
  | zero => simp [Nat.mod_one] at h
  | succ k ih =>
      have hm : m / 16 ^ k % 16 < 16 := Nat.mod_lt _ (by decide)
      have hn : n / 16 ^ k % 16 < 16 := Nat.mod_lt _ (by decide)
      rw [Nat.mod_pow_succ, Nat.mod_pow_succ] at h
      rw [List.range_succ, List.reverse_append, List.reverse_singleton, List.singleton_append,
        List.map_cons, List.map_cons, List.map_cons, List.map_cons, List.cons_lt_cons_iff]
      rcases Nat.lt_trichotomy (m / 16 ^ k % 16) (n / 16 ^ k % 16) with hlt | heq | hgt
      · exact .inl (hexLower_lt _ hm _ hn hlt)
      · rw [heq] at h ⊢
        exact .inr ⟨rfl, ih (by omega)⟩
      · -- a greater first digit outweighs those after it
        have hmul := Nat.mul_le_mul_left (16 ^ k) (Nat.succ_le_of_lt hgt)
        have hrest := Nat.mod_lt n (Nat.pow_pos (n := k) (show 0 < 16 by decide))
        rw [Nat.mul_succ] at hmul
        omega

/-- The zeros in front are put back. -/
theorem leftpad_dropWhile (ds : List ℕ) :
    List.leftpad ds.length '0' ((ds.dropWhile (· = 0)).map hexLower) = ds.map hexLower := by
  induction ds with
  | nil => rfl
  | cons d ds ih =>
      by_cases hd : d = 0
      · have hle : (ds.dropWhile (· = 0)).length ≤ ds.length := (List.dropWhile_sublist _).length_le
        rw [List.dropWhile_cons_of_pos (by simpa using hd), List.map_cons, ← ih, hd, List.leftpad,
          List.leftpad, List.length_cons, List.length_map, Nat.succ_sub hle, List.replicate_succ]
        rfl
      · rw [List.dropWhile_cons_of_neg (by simpa using hd), List.leftpad, List.length_map,
          Nat.sub_self]
        rfl

theorem formatHex_sixteen (n : ℕ) :
    formatHex 16 n = ((List.range 16).reverse.map fun i => n / 16 ^ i % 16).map hexLower :=
  leftpad_dropWhile ((List.range 16).reverse.map fun i => n / 16 ^ i % 16)

/-- Numbers of 64 bits are printed in their order. -/
theorem formatHex_sixteen_lt {m n : ℕ} (h : m < n) (hn : n < 2 ^ 64) :
    formatHex 16 m < formatHex 16 n := by
  rw [formatHex_sixteen, formatHex_sixteen]
  refine map_hexLower_lt ?_
  rwa [Nat.mod_eq_of_lt (by omega), Nat.mod_eq_of_lt (by omega)]

/-! ### Services -/

/-- The layers that come with the server. -/
inductive TowerLayer where
  | logging
  | requestId
deriving DecidableEq

/-- `BoxedRouterService`: what the router makes of a request, or a layer around a service. -/
inductive TowerService (E : Type) where
  | router (respond : HttpRequest E → Except Str HttpResponse)
  | layered (layer : TowerLayer) (inner : TowerService E)

/-- `build_layered_service`. -/
def buildLayeredService {E : Type} (respond : HttpRequest E → Except Str HttpResponse)
    (layers : List TowerLayer) : TowerService E :=
  layers.reverse.foldl (fun svc layer => .layered layer svc) (.router respond)

namespace TowerService

variable {E : Type}

/-- The layers, from the outside. -/
def layers : TowerService E → List TowerLayer
  | router _ => []
  | layered layer inner => layer :: inner.layers

/-- What the router below the layers makes of a request. -/
def respond : TowerService E → HttpRequest E → Except Str HttpResponse
  | router respond => respond
  | layered _ inner => inner.respond

end TowerService

/-- The first layer that was added is the outermost. -/
theorem layers_buildLayeredService {E : Type} (respond : HttpRequest E → Except Str HttpResponse)
    (layers : List TowerLayer) :
    (buildLayeredService respond layers).layers = layers ∧
      (buildLayeredService respond layers).respond = respond := by
  induction layers with
  | nil => exact ⟨rfl, rfl⟩
  | cons layer layers ih =>
      have hcons : buildLayeredService respond (layer :: layers) =
          .layered layer (buildLayeredService respond layers) := by
        rw [buildLayeredService, List.reverse_cons, List.foldl_append]
        rfl
      rw [hcons]
      exact ⟨congrArg _ ih.1, ih.2⟩

/-! ### Tasks -/

/-- `format!("{id:016x}")`. -/
def requestIdText (id : UInt64) : Str := formatHex 16 id.toNat

/-- The header fields with an id. -/
def HeaderMap.insertRequestId (headers : HeaderMap) (id : UInt64) : HeaderMap :=
  match HeaderValue.fromStr (requestIdText id) with
  | some v => headers.insert "x-request-id".toList v
  | none => headers

/-- A request with an id. -/
def HttpRequest.withRequestId {E : Type} (req : HttpRequest E) (id : UInt64) : HttpRequest E :=
  { req with headers := req.headers.insertRequestId id }

/-- A response with an id. -/
def HttpResponse.withRequestId (resp : HttpResponse) (id : UInt64) : HttpResponse :=
  { resp with headers := resp.headers.insertRequestId id }

/-- What a layer does when the service inside it is done. -/
inductive TowerFrame where
  | log (method : Method) (path : Str)
  | setId (id : UInt64)

/-- How far the handling of a request has come. -/
inductive TowerPhase (E : Type) where
  /-- This service is about to be called. -/
  | calling (svc : TowerService E) (req : HttpRequest E)
  | returning (result : Except Str HttpResponse)
  | answered

/-- The task of a request: what it does next, and the layers it comes back to. -/
structure TowerCall (E : Type) where
  phase : TowerPhase E
  frames : List TowerFrame := []

/-- What a task does: it draws an id, asks the router, writes a line, or answers. -/
inductive TowerEvent (E : Type) where
  | drew (id : UInt64)
  | reached (req : HttpRequest E)
  | logged (method : Method) (path : Str) (status : Except Str ℕ)
  | answered (result : Except Str HttpResponse)

/-- A step of a task, when the counter has this value: what the task does, the counter after it and
the task. -/
def TowerCall.resume {E : Type} (counter : UInt64) (c : TowerCall E) :
    Option (TowerEvent E) × UInt64 × TowerCall E :=
  match c.phase, c.frames with
  | .calling (.layered .logging inner) req, frames =>
      (none, counter, ⟨.calling inner req, .log req.method req.uri.path :: frames⟩)
  | .calling (.layered .requestId inner) req, frames =>
      -- `fetch_add` gives the value before
      (some (.drew counter), counter + 1,
        ⟨.calling inner (req.withRequestId counter), .setId counter :: frames⟩)
  | .calling (.router respond) req, frames =>
      (some (.reached req), counter, ⟨.returning (respond req), frames⟩)
  | .returning result, .log method path :: frames =>
      (some (.logged method path (result.map HttpResponse.status)), counter,
        ⟨.returning result, frames⟩)
  | .returning result, .setId id :: frames =>
      (none, counter, ⟨.returning (result.map fun resp => resp.withRequestId id), frames⟩)
  | .returning result, [] => (some (.answered result), counter, ⟨.answered, []⟩)
  | .answered, frames => (none, counter, ⟨.answered, frames⟩)

/-- The tasks of a process: they share the counter. -/
def towerTasks (E : Type) :
    Interleaving.Program (TowerService E × HttpRequest E) Unit UInt64 (TowerCall E)
      (TowerEvent E) where
  start _ arrival := ⟨.calling arrival.1 arrival.2, []⟩
  resume _ counter c := ((c.resume counter).1.toList, (c.resume counter).2)

/-- A process that has just begun: `REQUEST_COUNTER` is one. -/
def towerInitial (E : Type) : Interleaving.Process UInt64 (TowerCall E) := ⟨1, []⟩

/-- A request that comes to a service, or a task that goes on. -/
abbrev TowerAction (E : Type) := Interleaving.Action (TowerService E × HttpRequest E) Unit

/-! ### What is seen of a run -/

section

variable {E : Type}

/-- The id that is drawn in an event. -/
def TowerEvent.id? : TowerEvent E → Option UInt64
  | drew id => some id
  | _ => none

/-- The ids that are drawn, in their order. -/
def idsOf (events : List (TowerEvent E)) : List UInt64 := events.filterMap TowerEvent.id?

/-- The ids that are drawn in a process. -/
def drawnIds (log : List (ℕ × TowerEvent E)) : List UInt64 := idsOf (log.map Prod.snd)

/-- The request that the router is asked about: the last id that was drawn is in it. -/
def identified (req : HttpRequest E) (ids : List UInt64) : HttpRequest E :=
  match ids.getLast? with
  | some id => req.withRequestId id
  | none => req

/-- The response that goes out: the first id is in it. -/
def identifiedResult (result : Except Str HttpResponse) (ids : List UInt64) :
    Except Str HttpResponse :=
  match ids.head? with
  | some id => result.map fun resp => resp.withRequestId id
  | none => result

/-- What a task has done with a request, of a service: the router has been asked about the request
with the last id that was drawn for it, once at most; the answer is what the router has made of it,
with the first id; and by then there is a line from each layer that logs. -/
structure TaskTrace (svc : TowerService E) (req : HttpRequest E) (events : List (TowerEvent E)) :
    Prop where
  reached : ∀ req', .reached req' ∈ events →
    (idsOf events).length = svc.layers.count .requestId ∧ req' = identified req (idsOf events)
  logged : ∀ method path status, .logged method path status ∈ events →
    ∃ req', .reached req' ∈ events ∧ method = req.method ∧ path = req.uri.path ∧
      status = (svc.respond req').map HttpResponse.status
  answered : ∀ result, .answered result ∈ events → ∃ req', .reached req' ∈ events ∧
    result = identifiedResult (svc.respond req') (idsOf events)
  reachedOnce : (events.countP fun e => e matches .reached _) ≤ 1
  answeredOnce : (events.countP fun e => e matches .answered _) ≤ 1
  lines : (∃ result, .answered result ∈ events) →
    (events.countP fun e => e matches .logged ..) = svc.layers.count .logging

end

/-! ### Ids in header fields -/

theorem fromStr_requestIdText (id : UInt64) :
    HeaderValue.fromStr (requestIdText id) = some ⟨Utf8.encode (requestIdText id)⟩ := by
  refine HeaderValue.fromStr_of_isVisible fun c hc => ?_
  have hhex : ∀ d < 16, 0x20 ≤ (hexLower d).val.toNat ∧ (hexLower d).val.toNat < 0x7F := by decide
  obtain ⟨d, hd, rfl⟩ := mem_formatHex hc
  exact hhex d hd

theorem insertRequestId_eq (headers : HeaderMap) (id : UInt64) : headers.insertRequestId id =
    headers.insert "x-request-id".toList ⟨Utf8.encode (requestIdText id)⟩ := by
  rw [HeaderMap.insertRequestId, fromStr_requestIdText]

theorem HeaderMap.insert_insert (headers : HeaderMap) (name : Str) (v v' : HeaderValue) :
    (headers.insert name v).insert name v' = headers.insert name v' := by
  have hgone : (headers.insert name v).remove name = headers.remove name := by
    simp [insert, append, remove, List.filter_append, List.filter_filter]
  rw [insert, hgone, ← insert]

/-- Only the last id is left. -/
theorem insertRequestId_insertRequestId (headers : HeaderMap) (id id' : UInt64) :
    (headers.insertRequestId id).insertRequestId id' = headers.insertRequestId id' := by
  rw [insertRequestId_eq, insertRequestId_eq, insertRequestId_eq, HeaderMap.insert_insert]

/-- The header fields tell the id. -/
theorem get_insertRequestId (headers : HeaderMap) (id : UInt64) :
    (headers.insertRequestId id).get "x-request-id".toList =
      some ⟨Utf8.encode (requestIdText id)⟩ := by
  rw [insertRequestId_eq, HeaderMap.get, HeaderMap.getAll_insert, if_pos rfl]
  rfl

theorem withRequestId_withRequestId {E : Type} (req : HttpRequest E) (id id' : UInt64) :
    (req.withRequestId id).withRequestId id' = req.withRequestId id' := by
  unfold HttpRequest.withRequestId
  dsimp only
  rw [insertRequestId_insertRequestId]

theorem HttpResponse.withRequestId_withRequestId (resp : HttpResponse) (id id' : UInt64) :
    (resp.withRequestId id).withRequestId id' = resp.withRequestId id' := by
  unfold HttpResponse.withRequestId
  dsimp only
  rw [insertRequestId_insertRequestId]

theorem identified_concat {E : Type} (req : HttpRequest E) (ids : List UInt64) (id : UInt64) :
    identified req (ids ++ [id]) = (identified req ids).withRequestId id := by
  rw [identified, List.getLast?_concat, identified]
  cases ids.getLast? with
  | none => rfl
  | some id' => exact (withRequestId_withRequestId req id' id).symm

/-- An id takes the place of those of the layers further inside. -/
theorem map_withRequestId_identifiedResult (result : Except Str HttpResponse) (ids : List UInt64)
    (id : UInt64) : (identifiedResult result ids).map (fun resp => resp.withRequestId id) =
      identifiedResult result (id :: ids) := by
  rw [identifiedResult, identifiedResult, List.head?_cons]
  cases ids with
  | nil => rfl
  | cons id' ids =>
      cases result with
      | error e => rfl
      | ok resp => exact congrArg Except.ok (resp.withRequestId_withRequestId id' id)

/-! ### One task -/

section

variable {E : Type} {svc₀ : TowerService E} {req₀ : HttpRequest E}

/-- The ids of the layers that a task comes back to, from the inside. -/
def idFrames (frames : List TowerFrame) : List UInt64 :=
  frames.filterMap fun
    | .setId id => some id
    | .log _ _ => none

/-- The number of layers that log, among those that a task comes back to. -/
def logFrames (frames : List TowerFrame) : ℕ := frames.countP fun f => f matches .log ..

/-- The lines are about the request. -/
def LogsOf (req : HttpRequest E) (frames : List TowerFrame) : Prop :=
  ∀ method path, .log method path ∈ frames → method = req.method ∧ path = req.uri.path

/-- The events of a task that has not come to the router yet. -/
def AllDrawn (events : List (TowerEvent E)) : Prop := ∀ e ∈ events, e matches .drew _

/-- A task on its way to the router: it has passed some layers, and their ids have been drawn. -/
structure Entering (svc₀ : TowerService E) (req₀ : HttpRequest E) (events : List (TowerEvent E))
    (svc : TowerService E) (req : HttpRequest E) (frames : List TowerFrame) : Prop where
  respond : svc.respond = svc₀.respond
  ids : (idsOf events).length + svc.layers.count .requestId = svc₀.layers.count .requestId
  logs : logFrames frames + svc.layers.count .logging = svc₀.layers.count .logging
  request : req = identified req₀ (idsOf events)
  drawn : AllDrawn events
  idFrames : idFrames frames = (idsOf events).reverse
  logsOf : LogsOf req₀ frames

/-- A task on its way back: the router has been asked, and the ids of the layers that have been left
are in the response. -/
structure Returning (svc₀ : TowerService E) (req₀ : HttpRequest E) (events : List (TowerEvent E))
    (result : Except Str HttpResponse) (frames : List TowerFrame) : Prop where
  trace : TaskTrace svc₀ req₀ events
  reached : .reached (identified req₀ (idsOf events)) ∈ events
  unanswered : ∀ result', .answered result' ∉ events
  logs : (events.countP fun e => e matches .logged ..) + logFrames frames =
    svc₀.layers.count .logging
  ids : ∃ left, idsOf events = (idFrames frames).reverse ++ left ∧
    result = identifiedResult (svc₀.respond (identified req₀ (idsOf events))) left
  logsOf : LogsOf req₀ frames

/-- A task, whatever it has done. -/
def TaskInv (svc₀ : TowerService E) (req₀ : HttpRequest E) (events : List (TowerEvent E))
    (c : TowerCall E) : Prop :=
  match c.phase with
  | .calling svc req => Entering svc₀ req₀ events svc req c.frames
  | .returning result => Returning svc₀ req₀ events result c.frames
  | .answered => TaskTrace svc₀ req₀ events

theorem idsOf_concat (events : List (TowerEvent E)) (e : TowerEvent E) :
    idsOf (events ++ [e]) = idsOf events ++ e.id?.toList := by
  rw [idsOf, List.filterMap_append, ← idsOf]
  cases e <;> rfl

theorem idsOf_concat_of_none (events : List (TowerEvent E)) {e : TowerEvent E}
    (h : e.id? = none) : idsOf (events ++ [e]) = idsOf events := by
  rw [idsOf_concat, h]
  exact List.append_nil _

/-- On the way to the router there is nothing to be seen but ids. -/
theorem AllDrawn.trace {events : List (TowerEvent E)} (h : AllDrawn events) :
    TaskTrace svc₀ req₀ events where
  reached _ hmem := nomatch h _ hmem
  logged _ _ _ hmem := nomatch h _ hmem
  answered _ hmem := nomatch h _ hmem
  reachedOnce := by
    refine (List.countP_eq_zero.2 fun e he => ?_).le.trans (Nat.zero_le 1)
    have hdrew := h e he
    cases e <;> simp at hdrew ⊢
  answeredOnce := by
    refine (List.countP_eq_zero.2 fun e he => ?_).le.trans (Nat.zero_le 1)
    have hdrew := h e he
    cases e <;> simp at hdrew ⊢
  lines := fun ⟨_, hmem⟩ => nomatch h _ hmem

variable {events : List (TowerEvent E)} {frames : List TowerFrame} {req : HttpRequest E}
  {inner svc : TowerService E} {result : Except Str HttpResponse}

/-- A task that calls a layer that logs. -/
theorem Entering.logging
    (h : Entering svc₀ req₀ events (.layered .logging inner) req frames) :
    Entering svc₀ req₀ events inner req (.log req.method req.uri.path :: frames) where
  respond := h.respond
  ids := h.ids
  logs := by
    have hlogs := h.logs
    rw [TowerService.layers, List.count_cons_self] at hlogs
    rw [logFrames, List.countP_cons_of_pos rfl, ← logFrames]
    omega
  request := h.request
  drawn := h.drawn
  idFrames := h.idFrames
  logsOf := by
    intro method path hmem
    rcases List.mem_cons.1 hmem with heq | hmem
    · cases heq
      rw [h.request, identified]
      split <;> exact ⟨rfl, rfl⟩
    · exact h.logsOf method path hmem

/-- A task that calls a layer that draws an id. -/
theorem Entering.requestId (h : Entering svc₀ req₀ events (.layered .requestId inner) req frames)
    (id : UInt64) : Entering svc₀ req₀ (events ++ [.drew id]) inner (req.withRequestId id)
      (.setId id :: frames) := by
  have hconcat : idsOf (events ++ [TowerEvent.drew id]) = idsOf events ++ [id] :=
    idsOf_concat events (.drew id)
  exact {
    respond := h.respond
    ids := by
      have hids := h.ids
      rw [TowerService.layers, List.count_cons_self] at hids
      rw [hconcat, List.length_append, List.length_singleton]
      omega
    logs := h.logs
    request := by rw [hconcat, identified_concat, ← h.request]
    drawn := by
      intro e he
      rcases List.mem_append.1 he with he | he
      · exact h.drawn e he
      · rw [List.mem_singleton.1 he]
    idFrames := by
      rw [hconcat, List.reverse_append, List.reverse_singleton, List.singleton_append, ← h.idFrames]
      rfl
    logsOf := by
      intro method path hmem
      rcases List.mem_cons.1 hmem with heq | hmem
      · cases heq
      · exact h.logsOf method path hmem }

/-- A task that asks the router. -/
theorem Entering.router {respond : HttpRequest E → Except Str HttpResponse}
    (h : Entering svc₀ req₀ events (.router respond) req frames) :
    Returning svc₀ req₀ (events ++ [.reached req]) (respond req) frames := by
  have hsame : idsOf (events ++ [TowerEvent.reached req]) = idsOf events :=
    idsOf_concat_of_none events rfl
  have hno : ∀ e ∈ events, e matches .drew _ := h.drawn
  have hcount : ∀ f : TowerEvent E → Bool, (∀ id, f (.drew id) = false) →
      events.countP f = 0 := by
    intro f hf
    refine List.countP_eq_zero.2 fun e he => ?_
    have hdrew := hno e he
    cases e with
    | drew id => simp [hf]
    | _ => cases hdrew
  have hlast : ∀ e ∈ events ++ [TowerEvent.reached req],
      (∃ id, e = .drew id) ∨ e = .reached req := by
    intro e he
    rcases List.mem_append.1 he with he | he
    · have hdrew := hno e he
      cases e with
      | drew id => exact .inl ⟨id, rfl⟩
      | _ => cases hdrew
    · exact .inr (List.mem_singleton.1 he)
  have hids := h.ids
  have hlogs := h.logs
  have hrespond : respond = svc₀.respond := h.respond
  constructor
  · constructor
    · intro req' hmem
      obtain ⟨id, heq⟩ | heq := hlast _ hmem <;> cases heq
      rw [hsame]
      exact ⟨hids, h.request⟩
    · intro method path status hmem
      obtain ⟨id, heq⟩ | heq := hlast _ hmem <;> cases heq
    · intro result hmem
      obtain ⟨id, heq⟩ | heq := hlast _ hmem <;> cases heq
    · rw [List.countP_append, hcount _ fun _ => rfl]
      exact le_rfl
    · rw [List.countP_append, hcount _ fun _ => rfl]
      exact Nat.zero_le 1
    · rintro ⟨result, hmem⟩
      obtain ⟨id, heq⟩ | heq := hlast _ hmem <;> cases heq
  · rw [hsame, ← h.request]
    exact List.mem_append_right _ (List.mem_singleton_self _)
  · intro result hmem
    obtain ⟨id, heq⟩ | heq := hlast _ hmem <;> cases heq
  · rw [List.countP_append, hcount _ fun _ => rfl]
    rw [← hlogs]
    exact Nat.add_comm _ _
  · refine ⟨[], ?_, ?_⟩
    · rw [hsame, h.idFrames, List.reverse_reverse, List.append_nil]
    · rw [hsame, ← h.request, hrespond]
      rfl
  · exact h.logsOf

/-- An id does not change the status. -/
theorem map_status_identifiedResult (result : Except Str HttpResponse) (ids : List UInt64) :
    (identifiedResult result ids).map HttpResponse.status = result.map HttpResponse.status := by
  rw [identifiedResult]
  cases ids.head? with
  | none => rfl
  | some id => cases result <;> rfl

/-- A task that comes back to a layer that logs. -/
theorem Returning.log {method : Method} {path : Str}
    (h : Returning svc₀ req₀ events result (.log method path :: frames)) :
    Returning svc₀ req₀ (events ++ [.logged method path (result.map HttpResponse.status)]) result
      frames := by
  set line : TowerEvent E := .logged method path (result.map HttpResponse.status)
  have hsame : idsOf (events ++ [line]) = idsOf events := idsOf_concat_of_none events rfl
  have hlast : ∀ e ∈ events ++ [line],
      e ∈ events ∨ e = .logged method path (result.map HttpResponse.status) := by
    intro e he
    exact (List.mem_append.1 he).imp id List.mem_singleton.1
  obtain ⟨left, hids, hresult⟩ := h.ids
  have hunanswered : ∀ result', .answered result' ∉ events ++ [line] := by
    intro result' hmem
    obtain hmem | heq := hlast _ hmem
    · exact h.unanswered result' hmem
    · cases heq
  constructor
  · constructor
    · intro req' hmem
      rw [hsame]
      obtain hmem | heq := hlast _ hmem
      · exact h.trace.reached req' hmem
      · cases heq
    · intro method' path' status hmem
      obtain hmem | heq := hlast _ hmem
      · obtain ⟨req', hreached, hline⟩ := h.trace.logged method' path' status hmem
        exact ⟨req', List.mem_append_left _ hreached, hline⟩
      · cases heq
        obtain ⟨hmethod, hpath⟩ := h.logsOf method path List.mem_cons_self
        refine ⟨_, List.mem_append_left _ h.reached, hmethod, hpath, ?_⟩
        rw [hresult, map_status_identifiedResult]
    · exact fun result' hmem => absurd hmem (hunanswered result')
    · rw [List.countP_append]
      exact h.trace.reachedOnce
    · rw [List.countP_append]
      exact h.trace.answeredOnce
    · rintro ⟨result', hmem⟩
      exact absurd hmem (hunanswered result')
  · rw [hsame]
    exact List.mem_append_left _ h.reached
  · exact hunanswered
  · have hlogs := h.logs
    rw [logFrames, List.countP_cons_of_pos rfl, ← logFrames] at hlogs
    rw [List.countP_append, List.countP_singleton, if_pos rfl, ← hlogs]
    omega
  · rw [hsame]
    exact ⟨left, hids, hresult⟩
  · exact fun method' path' hmem => h.logsOf method' path' (List.mem_cons_of_mem _ hmem)

/-- A task that comes back to a layer with an id. -/
theorem Returning.setId {id : UInt64}
    (h : Returning svc₀ req₀ events result (.setId id :: frames)) :
    Returning svc₀ req₀ events (result.map fun resp => resp.withRequestId id) frames where
  trace := h.trace
  reached := h.reached
  unanswered := h.unanswered
  logs := h.logs
  ids := by
    obtain ⟨left, hids, hresult⟩ := h.ids
    refine ⟨id :: left, ?_, ?_⟩
    · rw [hids]
      exact (congrArg (· ++ left) List.reverse_cons).trans (List.append_assoc _ _ _)
    · rw [hresult, map_withRequestId_identifiedResult]
  logsOf := fun method path hmem => h.logsOf method path (List.mem_cons_of_mem _ hmem)

/-- A task that has come back to the outside. -/
theorem Returning.answer (h : Returning svc₀ req₀ events result []) :
    TaskTrace svc₀ req₀ (events ++ [.answered result]) := by
  have hsame : idsOf (events ++ [TowerEvent.answered result]) = idsOf events :=
    idsOf_concat_of_none events rfl
  have hlast : ∀ e ∈ events ++ [TowerEvent.answered result],
      e ∈ events ∨ e = .answered result := by
    intro e he
    exact (List.mem_append.1 he).imp id List.mem_singleton.1
  have hnone : (events.countP fun e => e matches .answered _) = 0 := by
    refine List.countP_eq_zero.2 fun e he => ?_
    cases e with
    | answered result' => exact absurd he (h.unanswered result')
    | _ => exact Bool.false_ne_true
  obtain ⟨left, hids, hresult⟩ := h.ids
  constructor
  · intro req' hmem
    rw [hsame]
    obtain hmem | heq := hlast _ hmem
    · exact h.trace.reached req' hmem
    · cases heq
  · intro method path status hmem
    obtain hmem | heq := hlast _ hmem
    · obtain ⟨req', hreached, hline⟩ := h.trace.logged method path status hmem
      exact ⟨req', List.mem_append_left _ hreached, hline⟩
    · cases heq
  · intro result' hmem
    obtain hmem | heq := hlast _ hmem
    · exact absurd hmem (h.unanswered result')
    · cases heq
      refine ⟨_, List.mem_append_left _ h.reached, ?_⟩
      -- all the ids are in the layers that have been left
      have hleft : left = idsOf events := hids.symm
      rw [hsame, hresult, hleft]
  · rw [List.countP_append]
    exact h.trace.reachedOnce
  · rw [List.countP_append, hnone]
    exact le_rfl
  · intro _
    rw [List.countP_append]
    exact h.logs

/-- **A step of a task** keeps what it has done in order. -/
theorem TaskInv.resume {c : TowerCall E} (h : TaskInv svc₀ req₀ events c) (counter : UInt64) :
    TaskInv svc₀ req₀ (events ++ (c.resume counter).1.toList) (c.resume counter).2.2 := by
  obtain ⟨phase, frames⟩ := c
  cases phase with
  | calling svc req =>
      cases svc with
      | router respond => exact Entering.router h
      | layered layer inner =>
          cases layer with
          | logging =>
              rw [show (TowerCall.resume counter ⟨.calling (.layered .logging inner) req, frames⟩).1 =
                none from rfl, Option.toList_none, List.append_nil]
              exact Entering.logging h
          | requestId => exact Entering.requestId h counter
  | returning result =>
      match frames with
      | [] => exact Returning.answer h
      | .log method path :: frames => exact Returning.log h
      | .setId id :: frames =>
          rw [show (TowerCall.resume counter ⟨.returning result, .setId id :: frames⟩).1 = none
            from rfl, Option.toList_none, List.append_nil]
          exact Returning.setId h
  | answered =>
      rw [show (TowerCall.resume counter ⟨TowerPhase.answered (E := E), frames⟩).1 = none from rfl,
        Option.toList_none, List.append_nil]
      exact h

/-- A task that has taken no step. -/
theorem taskInv_arrive (svc : TowerService E) (req : HttpRequest E) :
    TaskInv svc req [] ⟨.calling svc req, []⟩ :=
  show Entering svc req [] svc req [] from {
    respond := rfl
    ids := Nat.zero_add _
    logs := Nat.zero_add _
    request := rfl
    drawn := nofun
    idFrames := rfl
    logsOf := nofun }

theorem TaskInv.trace {c : TowerCall E} (h : TaskInv svc₀ req₀ events c) :
    TaskTrace svc₀ req₀ events := by
  obtain ⟨phase, frames⟩ := c
  cases phase with
  | calling svc req => exact (show Entering svc₀ req₀ events svc req frames from h).drawn.trace
  | returning result => exact (show Returning svc₀ req₀ events result frames from h).trace
  | answered => exact h

end

/-! ### The process -/

section

variable {E : Type}

/-- A task draws the value of the counter and advances it, or leaves it. -/
theorem TowerCall.resume_counter (counter : UInt64) (c : TowerCall E) :
    ((c.resume counter).1.bind TowerEvent.id? = none ∧ (c.resume counter).2.1 = counter) ∨
      (c.resume counter).1 = some (.drew counter) ∧ (c.resume counter).2.1 = counter + 1 := by
  obtain ⟨phase, frames⟩ := c
  cases phase with
  | calling svc req =>
      cases svc with
      | router respond => exact .inl ⟨rfl, rfl⟩
      | layered layer inner =>
          cases layer with
          | logging => exact .inl ⟨rfl, rfl⟩
          | requestId => exact .inr ⟨rfl, rfl⟩
  | returning result =>
      match frames with
      | [] => exact .inl ⟨rfl, rfl⟩
      | .log method path :: frames => exact .inl ⟨rfl, rfl⟩
      | .setId id :: frames => exact .inl ⟨rfl, rfl⟩
  | answered => exact .inl ⟨rfl, rfl⟩

theorem drawnIds_append (log log' : List (ℕ × TowerEvent E)) :
    drawnIds (log ++ log') = drawnIds log ++ drawnIds log' := by
  rw [drawnIds, List.map_append, idsOf, List.filterMap_append]
  rfl

/-- The ids that have been drawn are the first numbers. -/
def Counts (ids : List UInt64) (counter : UInt64) : Prop :=
  ids = (List.range ids.length).map (fun k => UInt64.ofNat (k + 1)) ∧
    counter = UInt64.ofNat (ids.length + 1)

theorem Counts.concat {ids : List UInt64} {counter : UInt64} (h : Counts ids counter) :
    Counts (ids ++ [counter]) (counter + 1) := by
  obtain ⟨hids, hcounter⟩ := h
  constructor
  · rw [List.length_append, List.length_singleton, List.range_succ, List.map_append, ← hids,
      hcounter]
    rfl
  · rw [List.length_append, List.length_singleton, hcounter, UInt64.ofNat_add (ids.length + 1) 1]
    rfl

/-- As long as the counter has not come round, the ids are printed in their order. -/
theorem Counts.increasing {ids : List UInt64} {counter : UInt64} (h : Counts ids counter)
    (hbound : ids.length < 2 ^ 64) :
    ids.Pairwise fun id id' => requestIdText id < requestIdText id' := by
  rw [h.1, List.pairwise_map]
  refine List.pairwise_lt_range.imp_of_mem fun {m n} hm hn hlt => ?_
  have hn := List.mem_range.1 hn
  have hm' : (UInt64.ofNat (m + 1)).toNat = m + 1 :=
    UInt64.toNat_ofNat_of_lt' (show m + 1 < 2 ^ 64 by omega)
  have hn' : (UInt64.ofNat (n + 1)).toNat = n + 1 :=
    UInt64.toNat_ofNat_of_lt' (show n + 1 < 2 ^ 64 by omega)
  rw [requestIdText, requestIdText, hm', hn']
  exact formatHex_sixteen_lt (by omega) (by omega)

/-- **Every step of a task** keeps the counter, and the tasks in order. -/
theorem towerTasks_keeps : (towerTasks E).Keeps (fun log counter => Counts (drawnIds log) counter)
    (fun _ arrival events c => TaskInv arrival.1 arrival.2 events c) where
  start _ arrival := taskInv_arrive arrival.1 arrival.2
  shared := by
    intro log counter arrival events c task _ hcounts _
    change Counts (drawnIds (log ++ (c.resume counter).1.toList.map (Prod.mk task)))
      (c.resume counter).2.1
    rw [drawnIds_append]
    rcases c.resume_counter counter with ⟨hnone, hsame⟩ | ⟨hdrew, hnext⟩
    · have hids : drawnIds ((c.resume counter).1.toList.map (Prod.mk task)) = [] := by
        cases hevent : (c.resume counter).1 with
        | none => rfl
        | some e =>
            rw [hevent, Option.bind_some] at hnone
            simp [drawnIds, idsOf, hnone]
      rw [hids, List.append_nil, hsame]
      exact hcounts
    · rw [hdrew, hnext]
      exact hcounts.concat
  own counter _ _ _ _ hinv := hinv.resume counter
  others _ _ _ _ _ _ _ _ _ hinv := hinv

/-! ### What comes out -/

/-- What has become of the requests of a process: each of them has been handled as its service
should, the ids are printed in the order in which they were drawn, no two answers have the same id,
and where there is one layer for ids only, the router has been given the id of the answer.  Where
the service was built from layers, these are its layers from the outside. -/
structure TowerTraced (actions : List (TowerAction E)) (log : List (ℕ × TowerEvent E)) : Prop where
  tasks : ∀ i svc req, (startedAt actions)[i]? = some (svc, req) →
    TaskTrace svc req (eventsOf i log)
  increasing : (drawnIds log).Pairwise fun id id' => requestIdText id < requestIdText id'
  distinct : ∀ i j svc svc' req req', i ≠ j → (startedAt actions)[i]? = some (svc, req) →
    (startedAt actions)[j]? = some (svc', req') → .requestId ∈ svc.layers →
    .requestId ∈ svc'.layers → ∀ resp resp', .answered (.ok resp) ∈ eventsOf i log →
    .answered (.ok resp') ∈ eventsOf j log →
      resp.headers.get "x-request-id".toList ≠ resp'.headers.get "x-request-id".toList
  agrees : ∀ i svc req, (startedAt actions)[i]? = some (svc, req) →
    svc.layers.count .requestId = 1 → ∀ req' resp, .reached req' ∈ eventsOf i log →
    .answered (.ok resp) ∈ eventsOf i log →
      resp.headers.get "x-request-id".toList = req'.headers.get "x-request-id".toList
  outermost : ∀ (i : ℕ) (respond : HttpRequest E → Except Str HttpResponse)
    (layers : List TowerLayer) (req : HttpRequest E),
    (startedAt actions)[i]? = some (buildLayeredService respond layers, req) →
      (buildLayeredService respond layers).layers = layers ∧
        (buildLayeredService respond layers).respond = respond

theorem mem_drawnIds {log : List (ℕ × TowerEvent E)} {id : UInt64} {i : ℕ}
    (h : id ∈ idsOf (eventsOf i log)) :
    (i, .drew id) ∈ log := by
  obtain ⟨e, he, hid⟩ := List.mem_filterMap.1 h
  cases e with
  | drew id' =>
      cases hid
      exact mem_eventsOf.1 he
  | _ => cases hid

/-- Two tasks do not draw the same id. -/
theorem eq_of_mem_idsOf {log : List (ℕ × TowerEvent E)}
    (h : (drawnIds log).Pairwise fun id id' => requestIdText id < requestIdText id') {id : UInt64}
    {i j : ℕ} (hi : id ∈ idsOf (eventsOf i log)) (hj : id ∈ idsOf (eventsOf j log)) : i = j := by
  have hpairs : log.Pairwise fun p q => ∀ a, p.2.id? = some a → ∀ b, q.2.id? = some b → a ≠ b := by
    rw [drawnIds, idsOf, List.pairwise_filterMap, List.pairwise_map] at h
    refine h.imp fun hlt a ha b hb hab => ?_
    have := hlt a ha b hb
    rw [hab] at this
    exact List.lt_irrefl _ this
  have : Std.Symm fun p q : ℕ × TowerEvent E =>
      ∀ a, p.2.id? = some a → ∀ b, q.2.id? = some b → a ≠ b :=
    ⟨fun p q hpq a ha b hb => (hpq b hb a ha).symm⟩
  by_contra hne
  have hpair := hpairs.forall (mem_drawnIds hi) (mem_drawnIds hj)
    fun heq => hne (congrArg Prod.fst heq)
  exact hpair id rfl id rfl rfl

/-- Where ids are drawn, the first one is in the answer. -/
theorem exists_id_of_answered {svc : TowerService E} {req : HttpRequest E}
    {events : List (TowerEvent E)} (h : TaskTrace svc req events)
    (hid : .requestId ∈ svc.layers) {resp : HttpResponse} (hresp : .answered (.ok resp) ∈ events) :
    ∃ id, (idsOf events).head? = some id ∧
      resp.headers.get "x-request-id".toList = some ⟨Utf8.encode (requestIdText id)⟩ := by
  obtain ⟨req', hreached, hresult⟩ := h.answered _ hresp
  have hpos : 0 < (idsOf events).length := by
    rw [(h.reached req' hreached).1]
    exact List.count_pos_iff.2 hid
  obtain ⟨id, ids, hids⟩ := List.exists_cons_of_length_pos hpos
  refine ⟨id, by rw [hids]; rfl, ?_⟩
  rw [hids, identifiedResult, List.head?_cons] at hresult
  cases hinner : svc.respond req' with
  | error e =>
      rw [hinner] at hresult
      cases hresult
  | ok inner =>
      rw [hinner] at hresult
      cases hresult
      exact get_insertRequestId inner.headers id

/-- **Whatever order the tasks take their steps in**, as long as the counter does not come round,
every request is handled as the layers should and told apart by its id. -/
theorem towerTraced_run (actions : List (TowerAction E))
    (hbound : (drawnIds ((towerTasks E).run (towerInitial E) actions).1).length < 2 ^ 64) :
    TowerTraced actions ((towerTasks E).run (towerInitial E) actions).1 := by
  have hcounts : Counts (drawnIds ([] : List (ℕ × TowerEvent E))) 1 := ⟨rfl, rfl⟩
  have hkept := towerTasks_keeps.run hcounts actions
  have htasks : ∀ i svc req, (startedAt actions)[i]? = some (svc, req) →
      TaskTrace svc req (eventsOf i ((towerTasks E).run (towerInitial E) actions).1) := by
    intro i svc req hi
    obtain ⟨c, -, hinv⟩ := hkept.tasks i (svc, req) hi
    exact hinv.trace
  have hincreasing := hkept.shared.increasing hbound
  refine ⟨htasks, hincreasing, ?_, ?_, fun _ respond layers _ _ =>
    layers_buildLayeredService respond layers⟩
  · intro i j svc svc' req req' hne hi hj hid hid' resp resp' hresp hresp' heq
    obtain ⟨id, hhead, hget⟩ := exists_id_of_answered (htasks i svc req hi) hid hresp
    obtain ⟨id', hhead', hget'⟩ := exists_id_of_answered (htasks j svc' req' hj) hid' hresp'
    rw [hget, hget'] at heq
    have htext : requestIdText id = requestIdText id' :=
      Utf8.encode_injective (congrArg HeaderValue.bytes (Option.some.inj heq))
    have hsame : id = id' := by
      rw [← UInt64.toNat_inj, ← hexValue_formatHex 16 id.toNat_lt,
        ← hexValue_formatHex 16 id'.toNat_lt]
      exact congrArg (hexValue 0) htext
    rw [← hsame] at hhead'
    exact hne (eq_of_mem_idsOf hincreasing (List.mem_of_mem_head? hhead)
      (List.mem_of_mem_head? hhead'))
  · intro i svc req hi hone req' resp hreached hresp
    have hmem : .requestId ∈ svc.layers := List.count_pos_iff.1 (by rw [hone]; exact Nat.one_pos)
    obtain ⟨id, hhead, hget⟩ := exists_id_of_answered (htasks i svc req hi) hmem hresp
    obtain ⟨hlength, hreq⟩ := (htasks i svc req hi).reached req' hreached
    rw [hone] at hlength
    obtain ⟨id', hids⟩ := List.length_eq_one_iff.1 hlength
    rw [hids] at hhead hreq
    cases hhead
    rw [hget, hreq]
    exact (get_insertRequestId req.headers id).symm

/-- A service that logs and draws ids. -/
def layeredService : TowerService Unit :=
  buildLayeredService (fun _ => .ok { status := 200 }) [.logging, .requestId]

/-- Two requests whose tasks take turns. -/
def towerTurns : List (TowerAction Unit) :=
  [.start (layeredService, crossOriginRequest .get []),
    .start (layeredService, crossOriginRequest .post [])] ++
    (List.replicate 6 [.resume 1 (), .resume 0 ()]).flatten

theorem towerTraced_turns :
    TowerTraced towerTurns ((towerTasks Unit).run (towerInitial Unit) towerTurns).1 :=
  towerTraced_run towerTurns (by decide)

end

end OxiHttp
