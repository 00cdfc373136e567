/-
**The limit on connections.**

With `with_max_connections` the accept loop takes a permit for each connection and drops the
connection when there is none; the task of a connection gives its permit back at the end.  No permit
is lost or made on the way, and no connection is passed over or taken twice.

Main definitions:

* `OxiHttp.ServerState.actions` — what the accept loop does in a run;
* `OxiHttp.ServerState.Limited` — the permits that are left and those that are held;
* `OxiHttp.ServerState.KeepsLimit` — what the limit comes to, in a run.

Main results:

* `OxiHttp.ServerState.Limited.after` — the permits add up after every event;
* `OxiHttp.ServerState.accepted_actions` — connections are accepted in their order;
* `OxiHttp.ServerState.keepsLimit` — a connection is served exactly when there is room for it.
-/

import OxiHttp.Shutdown
import Mathlib.Data.List.ReduceOption

set_option relaxedAutoImplicit false
set_option autoImplicit false

namespace OxiHttp

/-- The connections that were accepted. -/
def acceptedConns (log : List AcceptAction) : List ℕ :=
  log.filterMap fun
    | .accepted conn => some conn
    | .spawned _ => none

/-- The connections that came to the listener. -/
def arrivals (events : List ServerEvent) : List ℕ :=
  events.filterMap fun
    | .connect conn => some conn
    | _ => none

namespace ServerState

/-- What the accept loop does in a run. -/
def actions (s : ServerState) : List ServerEvent → List AcceptAction
  | [] => []
  | e :: events => (s.step e).1 ++ (s.step e).2.actions events

/-! ### Permits -/

/-- Of `n` permits those that are left, and one for each connection that is served. -/
structure Limited (n : ℕ) (s : ServerState) : Prop where
  permits : ∃ k, s.permits = some k ∧ k + s.connections.length = n
  held : ∀ c ∈ s.connections, c.2 = true

variable {n : ℕ} {s : ServerState}

theorem Limited.start (n : ℕ) (gracefulShutdown : Bool) :
    Limited n (ServerState.start (some n) gracefulShutdown) where
  permits := ⟨n, rfl, rfl⟩
  held := nofun

theorem Limited.waiting (h : Limited n s) (waiting : List (Option ℕ)) :
    Limited n { s with waiting } := ⟨h.permits, h.held⟩

/-- A connection takes a permit, or is dropped. -/
theorem Limited.accept (h : Limited n s) (conn : ℕ) : Limited n (s.accept conn).2 := by
  obtain ⟨k, hk, hn⟩ := h.permits
  unfold ServerState.accept
  rw [hk]
  cases k with
  | zero => exact h
  | succ k =>
      refine ⟨⟨k, rfl, ?_⟩, ?_⟩
      · rw [List.length_append, List.length_singleton]
        omega
      · intro c hc
        rcases List.mem_append.1 hc with hc | hc
        · exact h.held c hc
        · rw [List.mem_singleton.1 hc]

/-- The end of a connection gives its permit back. -/
theorem Limited.endConnection (h : Limited n s) (conn : ℕ) : Limited n (s.endConnection conn) := by
  unfold ServerState.endConnection
  split
  · rename_i c hfind
    have hmem := List.mem_of_find?_eq_some hfind
    obtain ⟨k, hk, hn⟩ := h.permits
    have hlength := List.length_erase_of_mem hmem
    have hpos := List.length_pos_of_mem hmem
    refine ⟨⟨k + 1, ?_, ?_⟩, fun c' hc' => h.held c' (List.mem_of_mem_erase hc')⟩
    · rw [if_pos (h.held c hmem), hk]
      rfl
    · dsimp only
      omega
  · exact h

theorem Limited.step (h : Limited n s) (e : ServerEvent) : Limited n (s.step e).2 := by
  cases e with
  | connect conn => exact h.waiting _
  | acceptFails => exact h.waiting _
  | acceptLoop =>
      change Limited n s.acceptRound.2
      unfold acceptRound
      split
      · exact (h.waiting _).accept _
      · exact h.waiting _
      · exact h
  | connectionEnds conn => exact h.endConnection conn
  | signal => exact ⟨h.permits, h.held⟩
  | runServer =>
      change Limited n s.runServer
      unfold runServer
      split
      · exact ⟨h.permits, h.held⟩
      · exact h

/-- The permits add up after every event. -/
theorem Limited.after (h : Limited n s) (events : List ServerEvent) :
    Limited n (s.after events) := by
  induction events generalizing s with
  | nil => exact h
  | cons e events ih => exact ih (h.step e)

/-- A round serves the connection that it accepts exactly when fewer than `n` are served. -/
theorem spawned_iff (h : Limited n s) (hrunning : s.acceptLoop = .running) {conn : ℕ}
    (hconn : s.waiting.head? = some (some conn)) :
    .spawned conn ∈ (s.step .acceptLoop).1 ↔ s.connections.length < n := by
  obtain ⟨waiting, hwaiting⟩ := List.head?_eq_some_iff.1 hconn
  obtain ⟨k, hk, hn⟩ := h.permits
  change .spawned conn ∈ s.acceptRound.1 ↔ _
  rw [acceptRound, hrunning, hwaiting]
  dsimp only
  unfold ServerState.accept
  dsimp only
  rw [hk]
  cases k with
  | zero =>
      refine iff_of_false (fun hmem => ?_) (by omega)
      cases List.mem_singleton.1 hmem
  | succ k => exact iff_of_true (List.mem_cons_of_mem _ List.mem_cons_self) (by omega)

/-! ### The order of connections -/

theorem acceptedConns_append (log log' : List AcceptAction) :
    acceptedConns (log ++ log') = acceptedConns log ++ acceptedConns log' := List.filterMap_append

/-- What is accepted is what a connection is. -/
theorem acceptedConns_accept (s : ServerState) (conn : ℕ) :
    acceptedConns (s.accept conn).1 = [conn] := by
  unfold ServerState.accept
  split <;> rfl

/-- Connections go from the end of the queue to its front, and from there they are accepted. -/
theorem acceptedConns_step (hrunning : s.acceptLoop = .running) (e : ServerEvent) :
    acceptedConns (s.step e).1 ++ (s.step e).2.waiting.reduceOption =
      s.waiting.reduceOption ++ arrivals [e] := by
  cases e with
  | connect conn => exact List.reduceOption_append s.waiting [some conn]
  | acceptFails => exact List.reduceOption_append s.waiting [none]
  | acceptLoop =>
      change acceptedConns s.acceptRound.1 ++ s.acceptRound.2.waiting.reduceOption = _
      rw [acceptRound_waiting hrunning]
      rw [acceptRound, hrunning]
      rcases hwaiting : s.waiting with _ | ⟨_ | conn, waiting⟩
      · rfl
      · exact (List.append_nil _).symm
      · dsimp only
        rw [acceptedConns_accept]
        exact (List.append_nil _).symm
  | connectionEnds conn =>
      have hwaiting := (s.endConnection_eq conn).1
      change [] ++ (s.endConnection conn).waiting.reduceOption = _
      rw [hwaiting]
      exact (List.append_nil _).symm
  | signal => exact (List.append_nil _).symm
  | runServer =>
      change [] ++ s.runServer.waiting.reduceOption = _
      rw [runServer_waiting]
      exact (List.append_nil _).symm

/-- What has been accepted, and what waits, is what has come, in its order. -/
theorem accepted_actions (hrunning : s.acceptLoop = .running) (events : List ServerEvent) :
    acceptedConns (s.actions events) ++ (s.after events).waiting.reduceOption =
      s.waiting.reduceOption ++ arrivals events := by
  induction events generalizing s with
  | nil => exact (List.append_nil _).symm
  | cons e events ih =>
      have hstep := acceptedConns_step hrunning e
      have hrest := ih ((step_acceptLoop s e).trans hrunning)
      have harrivals : arrivals (e :: events) = arrivals [e] ++ arrivals events :=
        List.filterMap_append (l := [e])
      rw [actions, acceptedConns_append, after_cons, List.append_assoc, hrest, ← List.append_assoc,
        hstep, harrivals, List.append_assoc]

/-! ### The limit -/

/-- What the limit comes to after some events: no more connections are served than there are permits
and the others are left, every connection that came is accepted in its turn, and it is served
exactly when fewer are being served. -/
structure KeepsLimit (n : ℕ) (gracefulShutdown : Bool) (events : List ServerEvent) : Prop where
  served : ((start (some n) gracefulShutdown).after events).connections.length ≤ n
  permits : ((start (some n) gracefulShutdown).after events).permits =
    some (n - ((start (some n) gracefulShutdown).after events).connections.length)
  inOrder : acceptedConns ((start (some n) gracefulShutdown).actions events) ++
    ((start (some n) gracefulShutdown).after events).waiting.reduceOption = arrivals events
  spawns : ∀ before after, events = before ++ .acceptLoop :: after → ∀ conn,
    ((start (some n) gracefulShutdown).after before).waiting.head? = some (some conn) →
      (.spawned conn ∈ (((start (some n) gracefulShutdown).after before).step .acceptLoop).1 ↔
        ((start (some n) gracefulShutdown).after before).connections.length < n)

/-- **The limit is kept in every run**, and no more than it has to be. -/
theorem keepsLimit (n : ℕ) (gracefulShutdown : Bool) (events : List ServerEvent) :
    KeepsLimit n gracefulShutdown events := by
  have hlimited := fun events => (Limited.start n gracefulShutdown).after events
  obtain ⟨k, hk, hn⟩ := (hlimited events).permits
  constructor
  · omega
  · rw [hk]
    congr 1
    omega
  · exact accepted_actions (s := start (some n) gracefulShutdown) rfl events
  · intro before after _ conn hconn
    exact spawned_iff (hlimited before) (acceptLoop_running (some n) gracefulShutdown before) hconn

end ServerState

end OxiHttp
