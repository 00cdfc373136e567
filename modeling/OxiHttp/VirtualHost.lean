/-
**Virtual hosts.**

The registrations of `Router::host` are tried in order, each against what stands before the first
colon of the `Host` header, ignoring ASCII case.  That is the host of the header unless the host is
an IPv6 address, which has colons of its own: a router registered under such an address is never
found.

Main definitions:

* `OxiHttp.Router.hosts` — a router with a series of registrations;
* `OxiHttp.firstHost` — the first registration for a host;
* `OxiHttp.HandsToFirst` — the request goes where it should.

Main results:

* `OxiHttp.dispatchVhosts_eq_find` — the loop over the registrations finds the first that matches.
-/

import OxiHttp.HostText
import OxiHttp.Router

set_option relaxedAutoImplicit false
set_option autoImplicit false

namespace OxiHttp

variable {H E : Type}

/-- The virtual hosts of a router. -/
def Router.vhosts : Router H E → List (Str × Router H E)
  | mk _ _ vhosts _ _ _ => vhosts

/-- The router after a series of calls of `host`. -/
def Router.hosts (router : Router H E) (regs : List (Str × Router H E)) : Router H E :=
  regs.foldl (fun router p => router.host p.1 p.2) router

/-- The first registration that equals the host, ignoring ASCII case. -/
def firstHost (regs : List (Str × Router H E)) (host : Str) : Option (Str × Router H E) :=
  regs.find? fun p => eqIgnoreAsciiCase p.1 host

variable (buildUri : Str → Except String Uri)

/-- The request goes to the router of the first registration for the host, and to the nested routers
and the routes of the outer router when there is none. -/
def HandsToFirst (outer : Router H E) (regs : List (Str × Router H E)) (host : Str)
    (req : HttpRequest E) : Prop :=
  dispatchVhosts buildUri outer.state (outer.hosts regs).vhosts req
      = (firstHost regs host).map
          (fun p => p.2.dispatch buildUri (inheritState outer.state p.2 req)) ∧
    (outer.hosts regs).dispatch buildUri req
      = match firstHost regs host with
        | some p => p.2.dispatch buildUri (inheritState outer.state p.2 req)
        | none => outer.dispatch buildUri req

variable {buildUri}

@[simp] theorem Router.host_state (router sub : Router H E) (name : Str) :
    (router.host name sub).state = router.state := by
  cases router
  rfl

@[simp] theorem Router.host_vhosts (router sub : Router H E) (name : Str) :
    (router.host name sub).vhosts = router.vhosts ++ [(name, sub)] := by
  cases router
  rfl

@[simp] theorem Router.hosts_vhosts (router : Router H E) (regs : List (Str × Router H E)) :
    (router.hosts regs).vhosts = router.vhosts ++ regs := by
  induction regs generalizing router with
  | nil => exact (List.append_nil _).symm
  | cons p regs ih =>
      change ((router.host p.1 p.2).hosts regs).vhosts = _
      rw [ih, Router.host_vhosts, List.append_assoc]
      rfl

/-- A router with virtual hosts does what one without them does when none of them takes the
request. -/
theorem Router.dispatch_hosts (outer : Router H E) (hnone : outer.vhosts = [])
    (regs : List (Str × Router H E)) (req : HttpRequest E) :
    (outer.hosts regs).dispatch buildUri req
      = match dispatchVhosts buildUri outer.state regs req with
        | some d => d
        | none => outer.dispatch buildUri req := by
  -- the builder changes the virtual hosts only
  have hshape : ∀ (regs vhosts : List (Str × Router H E)) routes nested fallback na state,
      (Router.mk routes nested vhosts fallback na state : Router H E).hosts regs
        = .mk routes nested (vhosts ++ regs) fallback na state := by
    intro regs
    induction regs with
    | nil => intros; simp [Router.hosts]
    | cons p regs ih =>
        intros
        change (Router.host _ p.1 p.2).hosts regs = _
        rw [Router.host, ih, List.append_assoc]
        rfl
  obtain ⟨routes, nested, vhosts, fallback, na, state⟩ := outer
  cases hnone
  rw [hshape, List.nil_append, Router.dispatch, Router.state]
  cases dispatchVhosts buildUri state regs req with
  | some d => rfl
  | none => rw [Router.dispatch, dispatchVhosts]

/-- The loop over the virtual hosts takes the first that matches the header. -/
theorem dispatchVhosts_eq_find (state : Option (E → E)) (regs : List (Str × Router H E))
    (req : HttpRequest E) :
    dispatchVhosts buildUri state regs req
      = (regs.find? fun p => (hostBare req.headers).any (eqIgnoreAsciiCase p.1)).map
          fun p => p.2.dispatch buildUri (inheritState state p.2 req) := by
  induction regs with
  | nil => rfl
  | cons p regs ih =>
      rw [dispatchVhosts, List.find?_cons]
      cases (hostBare req.headers).any (eqIgnoreAsciiCase p.1) with
      | true => rfl
      | false => exact ih

/-- What the header of a host and a port is compared as. -/
theorem hostBare_withPort {req : HttpRequest E} {host : Str} {port : Option Str} (h : IsHost host)
    (hport : ∀ p ∈ port, IsPort p)
    (hheader : req.headers.get "host".toList = some ⟨Utf8.encode (withPort host port)⟩) :
    hostBare req.headers = some (beforeColon host) := by
  rw [hostBare, hheader, Option.bind_some,
    HeaderValue.toStr_of_isVisible (h.isVisible_withPort hport), Option.map_some,
    beforeColon_withPort]

/-- **Requests go where they should exactly when** their host has no colon, that is, is no IPv6
address, or no router is registered for it. -/
theorem handsToFirst_iff (buildUri : Str → Except String Uri) (outer : Router H E)
    (hnone : outer.vhosts = []) (regs : List (Str × Router H E)) (hregs : ∀ p ∈ regs, IsHost p.1)
    (host : Str) (hhost : IsHost host) (port : Option Str) (hport : ∀ p ∈ port, IsPort p)
    (req : HttpRequest E)
    (hheader : req.headers.get "host".toList = some ⟨Utf8.encode (withPort host port)⟩) :
    HandsToFirst buildUri outer regs host req ↔
      ':' ∉ host ∨ ∀ p ∈ regs, eqIgnoreAsciiCase p.1 host = false := by
  have hbare := hostBare_withPort hhost hport hheader
  have hloop := @dispatchVhosts_eq_find H E buildUri outer.state regs req
  rw [hbare] at hloop
  simp only [Option.any_some] at hloop
  -- the whole dispatch follows the loop
  have hwhole : HandsToFirst buildUri outer regs host req ↔
      dispatchVhosts buildUri outer.state regs req = (firstHost regs host).map
        fun p => p.2.dispatch buildUri (inheritState outer.state p.2 req) := by
    rw [HandsToFirst, Router.hosts_vhosts, hnone, List.nil_append]
    refine ⟨And.left, fun h => ⟨h, ?_⟩⟩
    rw [Router.dispatch_hosts outer hnone, h]
    cases firstHost regs host <;> rfl
  rw [hwhole]
  by_cases hcolon : ':' ∈ host
  · -- nothing is found, whatever is registered
    have hfind : regs.find? (fun p => eqIgnoreAsciiCase p.1 (beforeColon host)) = none := by
      rw [List.find?_eq_none]
      intro p hp
      rw [eqIgnoreAsciiCase_iff]
      exact hhost.lower_ne_beforeColon hcolon (hregs p hp)
    rw [hloop, hfind, Option.map_none, eq_comm, Option.map_eq_none_iff, firstHost,
      List.find?_eq_none]
    simp [hcolon]
  · rw [hloop, beforeColon_of_notMem hcolon]
    exact iff_of_true rfl (.inl hcolon)

/-- A router with a route for `/` registered under a host. -/
def siteOf (host : Str) : List (Str × Router ℕ Unit) :=
  [(host, Router.new.route .get "/".toList 0)]

/-- A GET request for `/` with a `Host` header. -/
def requestTo (header : Str) : HttpRequest Unit where
  method := .get
  uri :=
    { path := "/".toList, path_delimited := root_delimited, query_delimited := noQuery_delimited }
  headers := ⟨[("host".toList, ⟨Utf8.encode header⟩)]⟩
  extensions := ()

theorem handsToFirst_example :
    HandsToFirst (fun _ => .error "no prefix") Router.new (siteOf "example.com".toList)
      "Example.COM".toList (requestTo "Example.COM:8080".toList) :=
  (handsToFirst_iff _ _ rfl _ (by simpa [siteOf] using .name (by decide)) _ (.name (by decide))
    (some "8080".toList) (by simpa using by decide) _ rfl).2 (.inl (by decide))

/-- The router of an IPv6 address is not found. -/
theorem not_handsToFirst_loopback :
    IsHost "[::1]".toList ∧
      ¬ HandsToFirst (fun _ => .error "no prefix") Router.new (siteOf "[::1]".toList) "[::1]".toList
        (requestTo "[::1]:8080".toList) := by
  refine ⟨.ipv6 (a := "::1".toList) (by decide), fun h => ?_⟩
  exact absurd h.1 (by decide)

end OxiHttp
