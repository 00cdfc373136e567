/-
**Shutting a server down.**

`run_server` spawns the task of the accept loop and waits for the shutdown signal or for that task;
the task that `serve_with_addr` spawns does the same.  At the signal it returns and drops the handle
of the accept loop, and a task whose handle is dropped goes on.

A run is a list of events: connections and failures that come to the listener, the signal, the ends
of connections, and the two tasks being scheduled, in any order.  What the accept loop does between
two waits is one event.

Main definitions:

* `OxiHttp.ServerState`, `OxiHttp.ServerState.step` — the server and its events;
* `OxiHttp.ServerState.StopsAccepting` — nothing is accepted once `run_server` has returned.

Main results:

* `OxiHttp.ServerState.acceptLoop_running` — the accept loop goes on in every run;
* `OxiHttp.ServerState.accepts_waiting` — a connection that waits is accepted when the accept loop
  has come to it;
* `OxiHttp.ServerState.stopsAccepting_iff` — in which runs nothing is accepted.
-/

import Mathlib.Data.List.Induction
import Mathlib.Tactic.Common

set_option relaxedAutoImplicit false
set_option autoImplicit false

namespace OxiHttp

/-- A spawned task. -/
inductive Task where
  | running
  | cancelled
deriving DecidableEq, Repr

/-- Dropping the `JoinHandle` of a task detaches it. -/
def Task.dropHandle (t : Task) : Task := t

/-- What happens to a server. -/
inductive ServerEvent where
  /-- A connection comes to the listener. -/
  | connect (conn : ℕ)
  /-- The next `accept` fails. -/
  | acceptFails
  /-- The accept loop is scheduled. -/
  | acceptLoop
  /-- The task of a connection ends. -/
  | connectionEnds (conn : ℕ)
  /-- The graceful-shutdown future resolves. -/
  | signal
  /-- `run_server` is scheduled. -/
  | runServer
deriving DecidableEq, Repr

/-- What the accept loop does. -/
inductive AcceptAction where
  | accepted (conn : ℕ)
  | spawned (conn : ℕ)
deriving DecidableEq, Repr

/-- A server that has been started. -/
structure ServerState where
  /-- What waits at the listener: connections, and failures. -/
  waiting : List (Option ℕ) := []
  /-- The permits that are left, when connections are limited. -/
  permits : Option ℕ
  /-- The connections that have a task, and whether that holds a permit. -/
  connections : List (ℕ × Bool) := []
  acceptLoop : Task := .running
  gracefulShutdown : Bool
  signalled : Bool := false
  /-- `run_server` has returned. -/
  completed : Bool := false
deriving DecidableEq

namespace ServerState

/-- `run_server`, when it waits for the first time. -/
def start (maxConnections : Option ℕ) (gracefulShutdown : Bool) : ServerState where
  permits := maxConnections
  gracefulShutdown := gracefulShutdown

/-- What `accept_loop` does with a connection: without a permit it is dropped. -/
def accept (s : ServerState) (conn : ℕ) : List AcceptAction × ServerState :=
  match s.permits with
  | some 0 => ([.accepted conn], s)
  | some (n + 1) =>
      ([.accepted conn, .spawned conn],
        { s with permits := some n, connections := s.connections ++ [(conn, true)] })
  | none =>
      ([.accepted conn, .spawned conn],
        { s with connections := s.connections ++ [(conn, false)] })

/-- One round of `accept_loop`. -/
def acceptRound (s : ServerState) : List AcceptAction × ServerState :=
  match s.acceptLoop, s.waiting with
  | .running, some conn :: waiting => { s with waiting }.accept conn
  | .running, none :: waiting => ([], { s with waiting })
  | _, _ => ([], s)

/-- The task of a connection ends, and its permit is given back. -/
def endConnection (s : ServerState) (conn : ℕ) : ServerState :=
  match s.connections.find? fun c => c.1 = conn with
  | some c =>
      { s with
        connections := s.connections.erase c
        permits := if c.2 then s.permits.map (· + 1) else s.permits }
  | none => s

/-- What `run_server` waits for: the signal, or the end of the accept loop. -/
def runServer (s : ServerState) : ServerState :=
  if !s.completed && s.gracefulShutdown && s.signalled then
    { s with completed := true, acceptLoop := s.acceptLoop.dropHandle }
  else s

/-- What an event does. -/
def step (s : ServerState) : ServerEvent → List AcceptAction × ServerState
  | .connect conn => ([], { s with waiting := s.waiting ++ [some conn] })
  | .acceptFails => ([], { s with waiting := s.waiting ++ [none] })
  | .acceptLoop => s.acceptRound
  | .connectionEnds conn => ([], s.endConnection conn)
  | .signal => ([], { s with signalled := true })
  | .runServer => ([], s.runServer)

/-- The server after a run. -/
def after (s : ServerState) (events : List ServerEvent) : ServerState :=
  events.foldl (fun s e => (s.step e).2) s

@[simp] theorem after_nil (s : ServerState) : s.after [] = s := rfl

@[simp] theorem after_cons (s : ServerState) (e : ServerEvent) (events : List ServerEvent) :
    s.after (e :: events) = (s.step e).2.after events := rfl

/-! ### The accept loop goes on -/

theorem accept_acceptLoop (s : ServerState) (conn : ℕ) :
    (s.accept conn).2.acceptLoop = s.acceptLoop := by
  unfold accept
  split <;> rfl

theorem accept_waiting (s : ServerState) (conn : ℕ) : (s.accept conn).2.waiting = s.waiting := by
  unfold accept
  split <;> rfl

/-- No event ends the accept loop. -/
theorem step_acceptLoop (s : ServerState) (e : ServerEvent) :
    (s.step e).2.acceptLoop = s.acceptLoop := by
  cases e with
  | connect conn => rfl
  | acceptFails => rfl
  | acceptLoop =>
      change s.acceptRound.2.acceptLoop = _
      unfold acceptRound
      split
      · rw [accept_acceptLoop]
      · rfl
      · rfl
  | connectionEnds conn =>
      change (s.endConnection conn).acceptLoop = _
      unfold endConnection
      split <;> rfl
  | signal => rfl
  | runServer =>
      change s.runServer.acceptLoop = _
      unfold runServer
      split <;> rfl

theorem after_acceptLoop (s : ServerState) (events : List ServerEvent) :
    (s.after events).acceptLoop = s.acceptLoop := by
  induction events generalizing s with
  | nil => rfl
  | cons e events ih => rw [after_cons, ih, step_acceptLoop]

/-- The accept loop goes on, also after `run_server` has returned. -/
theorem acceptLoop_running (maxConnections : Option ℕ) (gracefulShutdown : Bool)
    (events : List ServerEvent) :
    ((start maxConnections gracefulShutdown).after events).acceptLoop = .running :=
  after_acceptLoop _ events

/-- A round accepts the connection that has waited the longest. -/
theorem acceptRound_of_connection {s : ServerState} (hrunning : s.acceptLoop = .running) {conn : ℕ}
    {waiting : List (Option ℕ)} (h : s.waiting = some conn :: waiting) :
    .accepted conn ∈ s.acceptRound.1 := by
  rw [acceptRound, hrunning, h]
  change .accepted conn ∈ (accept _ conn).1
  unfold accept
  split <;> exact List.mem_cons_self

theorem acceptRound_waiting {s : ServerState} (hrunning : s.acceptLoop = .running) :
    s.acceptRound.2.waiting = s.waiting.tail := by
  unfold acceptRound
  rw [hrunning]
  rcases hwaiting : s.waiting with _ | ⟨_ | conn, waiting⟩
  · exact hwaiting
  · rfl
  · exact accept_waiting _ conn

/-- A connection that waits is accepted when the accept loop has come to it, whatever has become of
`run_server`. -/
theorem accepts_waiting {s : ServerState} (hrunning : s.acceptLoop = .running) {conn k : ℕ}
    (h : s.waiting[k]? = some (some conn)) :
    .accepted conn ∈ ((s.after (List.replicate k .acceptLoop)).step .acceptLoop).1 := by
  induction k generalizing s with
  | zero =>
      cases hwaiting : s.waiting with
      | nil =>
          rw [hwaiting] at h
          cases h
      | cons first waiting =>
          rw [hwaiting] at h
          cases h
          exact acceptRound_of_connection hrunning hwaiting
  | succ k ih =>
      rw [List.replicate_succ, after_cons]
      refine ih ((step_acceptLoop s .acceptLoop).trans hrunning) ?_
      change s.acceptRound.2.waiting[k]? = _
      rw [acceptRound_waiting hrunning, List.getElem?_tail]
      exact h

/-! ### Runs -/

/-- What waits at the listener after these events. -/
def pending (events : List ServerEvent) : List (Option ℕ) :=
  events.foldl (fun waiting e =>
    match e with
    | .connect conn => waiting ++ [some conn]
    | .acceptFails => waiting ++ [none]
    | .acceptLoop => waiting.tail
    | .connectionEnds _ | .signal | .runServer => waiting) []

theorem after_concat (s : ServerState) (events : List ServerEvent) (e : ServerEvent) :
    s.after (events ++ [e]) = ((s.after events).step e).2 := by
  rw [after, List.foldl_append]
  rfl

theorem pending_concat (events : List ServerEvent) (e : ServerEvent) :
    pending (events ++ [e]) =
      match e with
      | .connect conn => pending events ++ [some conn]
      | .acceptFails => pending events ++ [none]
      | .acceptLoop => (pending events).tail
      | .connectionEnds _ | .signal | .runServer => pending events := by
  rw [pending, List.foldl_append]
  rfl

theorem endConnection_eq (s : ServerState) (conn : ℕ) :
    (s.endConnection conn).waiting = s.waiting ∧
      (s.endConnection conn).signalled = s.signalled ∧
        (s.endConnection conn).completed = s.completed ∧
          (s.endConnection conn).gracefulShutdown = s.gracefulShutdown := by
  unfold endConnection
  split <;> exact ⟨rfl, rfl, rfl, rfl⟩

theorem acceptRound_eq (s : ServerState) :
    s.acceptRound.2.signalled = s.signalled ∧ s.acceptRound.2.completed = s.completed ∧
      s.acceptRound.2.gracefulShutdown = s.gracefulShutdown := by
  unfold acceptRound
  split
  · unfold accept
    split <;> exact ⟨rfl, rfl, rfl⟩
  · exact ⟨rfl, rfl, rfl⟩
  · exact ⟨rfl, rfl, rfl⟩

theorem runServer_waiting (s : ServerState) : s.runServer.waiting = s.waiting := by
  unfold runServer
  split <;> rfl

theorem runServer_eq (s : ServerState) :
    s.runServer.signalled = s.signalled ∧
      s.runServer.completed = (s.completed || s.gracefulShutdown && s.signalled) ∧
        s.runServer.gracefulShutdown = s.gracefulShutdown := by
  unfold runServer
  cases hc : s.completed <;> cases hg : s.gracefulShutdown <;> cases hs : s.signalled <;>
    simp [hc, hg, hs]

section

variable (maxConnections : Option ℕ) (gracefulShutdown : Bool)

/-- What waits at the listener does not depend on the rest of the server. -/
theorem waiting_after (events : List ServerEvent) :
    ((start maxConnections gracefulShutdown).after events).waiting = pending events := by
  induction events using List.reverseRecOn with
  | nil => rfl
  | append_singleton events e ih =>
      rw [after_concat, pending_concat]
      cases e with
      | connect conn => exact congrArg (· ++ [some conn]) ih
      | acceptFails => exact congrArg (· ++ [none]) ih
      | acceptLoop =>
          have htail := acceptRound_waiting
            (acceptLoop_running maxConnections gracefulShutdown events)
          exact htail.trans (congrArg List.tail ih)
      | connectionEnds conn => exact (endConnection_eq _ conn).1.trans ih
      | signal => exact ih
      | runServer => exact (runServer_waiting _).trans ih

omit maxConnections gracefulShutdown in
/-- One more event completes the shutdown when it is `run_server` after the signal. -/
theorem sublist_concat_iff (events : List ServerEvent) (e : ServerEvent) :
    List.Sublist [.signal, .runServer] (events ++ [e]) ↔
      List.Sublist [.signal, .runServer] events ∨ e = .runServer ∧ .signal ∈ events := by
  constructor
  · intro h
    obtain ⟨l₁, l₂, hl, h₁, h₂⟩ := List.sublist_append_iff.1 h
    rcases List.sublist_cons_iff.1 h₂ with hnil | ⟨l, rfl, hnil⟩
    · rw [List.sublist_nil.1 hnil, List.append_nil] at hl
      exact .inl (hl ▸ h₁)
    · rw [List.sublist_nil.1 hnil] at hl
      change [ServerEvent.signal] ++ [.runServer] = l₁ ++ [e] at hl
      obtain ⟨rfl, hlast⟩ := List.append_inj' hl rfl
      cases hlast
      exact .inr ⟨rfl, List.singleton_sublist.1 h₁⟩
  · rintro (h | ⟨rfl, h⟩)
    · exact h.trans (List.sublist_append_left events [e])
    · exact (List.singleton_sublist.2 h).append (List.Sublist.refl [ServerEvent.runServer])

/-- What becomes of the shutdown in a run: `run_server` returns when it is scheduled after the
signal. -/
theorem shutdown_after (events : List ServerEvent) :
    (((start maxConnections gracefulShutdown).after events).signalled = true ↔
        .signal ∈ events) ∧
      (((start maxConnections gracefulShutdown).after events).completed = true ↔
        gracefulShutdown = true ∧ List.Sublist [.signal, .runServer] events) ∧
      ((start maxConnections gracefulShutdown).after events).gracefulShutdown
        = gracefulShutdown := by
  induction events using List.reverseRecOn with
  | nil => simp [start]
  | append_singleton events e ih =>
      obtain ⟨hsignalled, hcompleted, hgraceful⟩ := ih
      rw [after_concat, sublist_concat_iff, List.mem_append, List.mem_singleton]
      generalize (start maxConnections gracefulShutdown).after events = s at *
      cases e with
      | connect conn => simpa [step] using ⟨hsignalled, hcompleted, hgraceful⟩
      | acceptFails => simpa [step] using ⟨hsignalled, hcompleted, hgraceful⟩
      | acceptLoop =>
          obtain ⟨hs, hc, hg⟩ := s.acceptRound_eq
          simpa [step, hs, hc, hg] using ⟨hsignalled, hcompleted, hgraceful⟩
      | connectionEnds conn =>
          obtain ⟨-, hs, hc, hg⟩ := s.endConnection_eq conn
          simpa [step, hs, hc, hg] using ⟨hsignalled, hcompleted, hgraceful⟩
      | signal => simpa [step] using ⟨hcompleted, hgraceful⟩
      | runServer =>
          obtain ⟨hs, hc, hg⟩ := s.runServer_eq
          change (s.runServer.signalled = true ↔ _) ∧ (s.runServer.completed = true ↔ _) ∧
            s.runServer.gracefulShutdown = _
          rw [hs, hc, hg, hsignalled, Bool.or_eq_true, Bool.and_eq_true, hcompleted, hsignalled,
            hgraceful]
          refine ⟨by simp, ?_, rfl⟩
          rw [and_or_left]
          simp

end

/-! ### After the shutdown -/

/-- Once `run_server` has returned, no event makes the accept loop accept a connection or spawn a
task. -/
def StopsAccepting (s : ServerState) (events : List ServerEvent) : Prop :=
  ∀ before e after, events = before ++ e :: after → (s.after before).completed = true →
    ((s.after before).step e).1 = []

/-- Only a round of the accept loop that finds a connection does anything. -/
theorem step_eq_nil_iff {s : ServerState} (hrunning : s.acceptLoop = .running) (e : ServerEvent) :
    (s.step e).1 = [] ↔ e = .acceptLoop → ∀ conn, s.waiting.head? ≠ some (some conn) := by
  cases e with
  | acceptLoop =>
      rw [forall_prop_of_true rfl]
      change s.acceptRound.1 = [] ↔ _
      rcases hwaiting : s.waiting with _ | ⟨_ | conn, waiting⟩
      · simp [acceptRound, hwaiting]
      · simp [acceptRound, hrunning, hwaiting]
      · refine iff_of_false (List.ne_nil_of_mem (acceptRound_of_connection hrunning hwaiting)) ?_
        exact fun h => h conn rfl
  | connect conn => exact iff_of_true rfl fun h => by cases h
  | acceptFails => exact iff_of_true rfl fun h => by cases h
  | connectionEnds conn => exact iff_of_true rfl fun h => by cases h
  | signal => exact iff_of_true rfl fun h => by cases h
  | runServer => exact iff_of_true rfl fun h => by cases h

/-- Nothing is accepted after `run_server` has returned exactly when the accept loop, each time it
is scheduled after the signal and then `run_server`, finds no connection at the listener. -/
theorem stopsAccepting_iff (maxConnections : Option ℕ) (gracefulShutdown : Bool)
    (events : List ServerEvent) :
    (start maxConnections gracefulShutdown).StopsAccepting events ↔
      ∀ before after, events = before ++ .acceptLoop :: after → gracefulShutdown = true →
        List.Sublist [.signal, .runServer] before →
          ∀ conn, (pending before).head? ≠ some (some conn) := by
  have hstep := fun before => @step_eq_nil_iff _
    (acceptLoop_running maxConnections gracefulShutdown before)
  have hcompleted := fun before => (shutdown_after maxConnections gracefulShutdown before).2.1
  constructor
  · intro h before after hevents hgraceful hsublist conn
    rw [← waiting_after maxConnections gracefulShutdown]
    exact (hstep before .acceptLoop).1
      (h before .acceptLoop after hevents ((hcompleted before).2 ⟨hgraceful, hsublist⟩)) rfl conn
  · intro h before e after hevents hdone
    refine (hstep before e).2 ?_
    rintro rfl
    obtain ⟨hgraceful, hsublist⟩ := (hcompleted before).1 hdone
    rw [waiting_after]
    exact h before after hevents hgraceful hsublist

/-- A connection that comes after the shutdown is accepted. -/
theorem not_stopsAccepting_lateConnection :
    ¬ (start none true).StopsAccepting [.signal, .runServer, .connect 7, .acceptLoop] := by
  intro h
  exact absurd (h [.signal, .runServer, .connect 7] .acceptLoop [] rfl rfl) (by decide)

end ServerState

end OxiHttp
