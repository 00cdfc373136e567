/-
**Clients that go away.**

When the client is gone, the body of the response is dropped, and with it the last channel before
the connection.  Without a heartbeat that is the channel of the handler, which is refused from then
on.  With one it is the channel behind the task, and the task notices only when it has something to
send; until then the handler fills the channel in front of it.

Main definitions:

* `OxiHttp.SseStream.budget` — how many more events may be accepted when the body is gone;
* `OxiHttp.SseStream.Doomed` — the task is about to notice.

Main results:

* `OxiHttp.SseStream.accepted_gone` — each event that is accepted comes off the budget;
* `OxiHttp.SseResponse.stops_after_disconnect` — how long a handler can go on.
-/

import OxiHttp.SseChannel

set_option relaxedAutoImplicit false
set_option autoImplicit false

namespace OxiHttp

namespace SseStream

/-- How many more events may be accepted when the body is gone: as many as there is room for, and
one that the task takes before it notices. -/
def budget (s : SseStream) : ℕ :=
  (if s.events.receiver then s.events.capacity - s.events.queue.length else 0) +
    match s.merge with
    | some { held := none, ended := false, .. } => 1
    | _ => 0

variable {s : SseStream}

/-- A task that has left its loop takes no event. -/
theorem budget_eq_zero {m : SseMerge} (hreceiver : s.events.receiver = false)
    (hmerge : s.merge = some m) (hended : m.ended = true) : s.budget = 0 := by
  obtain ⟨chunks, held, ended⟩ := m
  obtain rfl : ended = true := hended
  rw [budget, hreceiver, hmerge]
  cases held <;> rfl

/-- A step when the body is gone: it stays away, and an event that is accepted comes off the
budget. -/
theorem step_gone (hs : s.connected = false) (a : SseAction) :
    (s.step a).2.connected = false ∧
      (acceptedEvents [(s.step a).1]).length + (s.step a).2.budget ≤ s.budget := by
  cases a with
  | send e =>
      change (s.send e).2.connected = false ∧
        (acceptedEvents [(s.send e).1]).length + (s.send e).2.budget ≤ s.budget
      unfold send
      split_ifs with hsender
      · rcases hsend : s.events.send e with ⟨r, events⟩
        rcases Mpsc.Channel.send_cases hsend with ⟨rfl, hreceiver, hroom, rfl⟩ | ⟨rfl, -⟩ | ⟨rfl, -⟩
        · refine ⟨hs, ?_⟩
          have hone : (acceptedEvents [.accepted e]).length = 1 := rfl
          simp only [hone, budget, if_pos hreceiver, List.length_append, List.length_singleton]
          omega
        · exact ⟨hs, (Nat.zero_add _).le⟩
        · exact ⟨hs, (Nat.zero_add _).le⟩
      · exact ⟨hs, (Nat.zero_add _).le⟩
  | close => exact ⟨hs, (Nat.zero_add _).le⟩
  | next =>
      change s.next.connected = false ∧ 0 + s.next.budget ≤ s.budget
      rw [Nat.zero_add]
      unfold next
      split
      · rename_i chunks hmerge
        have hgone : chunks.receiver = false := by rwa [connected, hmerge] at hs
        have hone : s.budget =
            (if s.events.receiver then s.events.capacity - s.events.queue.length else 0) + 1 := by
          rw [budget, hmerge]
        rcases hrecv : s.events.recv with ⟨r, events⟩
        rcases Mpsc.Channel.recv_cases hrecv with ⟨e, queue, rfl, hqueue, rfl⟩ | ⟨rfl, -⟩ | ⟨rfl, -⟩
        · -- the event leaves room behind, and the task takes no other one
          refine ⟨hgone, ?_⟩
          rw [hone, hqueue]
          simp only [budget, List.length_cons]
          split_ifs <;> omega
        · exact ⟨hgone, (budget_eq_zero rfl rfl rfl).trans_le (Nat.zero_le _)⟩
        · exact ⟨hs, le_rfl⟩
      · exact ⟨hs, le_rfl⟩
  | tick =>
      change s.tick.connected = false ∧ 0 + s.tick.budget ≤ s.budget
      rw [Nat.zero_add]
      unfold tick
      split
      · rename_i chunks hmerge
        rw [connected, hmerge] at hs
        refine ⟨hs, ?_⟩
        rw [budget, budget, hmerge]
        exact Nat.le_succ _
      · exact ⟨hs, le_rfl⟩
  | forward =>
      change s.forward.connected = false ∧ 0 + s.forward.budget ≤ s.budget
      rw [Nat.zero_add]
      unfold forward
      split
      · rename_i chunks chunk hmerge
        have hgone : chunks.receiver = false := by rwa [connected, hmerge] at hs
        have hsend : chunks.send chunk = (.closed, chunks) := by
          rw [Mpsc.Channel.send, if_pos hgone]
        rw [hsend]
        exact ⟨hgone, (budget_eq_zero rfl rfl rfl).trans_le (Nat.zero_le _)⟩
      · exact ⟨hs, le_rfl⟩
  | poll =>
      have hpoll : s.step .poll = (.idle, s) := if_pos hs
      rw [hpoll]
      exact ⟨hs, (Nat.zero_add _).le⟩
  | disconnect =>
      change s.disconnect.connected = false ∧ 0 + s.disconnect.budget ≤ s.budget
      rw [Nat.zero_add]
      unfold disconnect
      cases hmerge : s.merge with
      | none =>
          rw [connected, hmerge] at hs
          refine ⟨?_, ?_⟩
          · simp [connected, Mpsc.Channel.dropReceiver]
          · simp [budget, hmerge, Mpsc.Channel.dropReceiver]
      | some m =>
          obtain ⟨chunks, held, ended⟩ := m
          refine ⟨rfl, ?_⟩
          rw [budget, budget, hmerge]
          cases held <;> cases ended <;> exact Nat.le_refl _

/-- In a run after the body is gone, no more is accepted than the budget. -/
theorem accepted_gone (hs : s.connected = false) (actions : List SseAction) :
    (s.run actions).2.connected = false ∧
      (acceptedEvents (s.run actions).1).length + (s.run actions).2.budget ≤ s.budget := by
  induction actions generalizing s with
  | nil => exact ⟨hs, (Nat.zero_add _).le⟩
  | cons a actions ih =>
      obtain ⟨hs', hstep⟩ := step_gone hs a
      obtain ⟨hrun, hrest⟩ := ih hs'
      refine ⟨hrun, ?_⟩
      have hcons : acceptedEvents ((s.step a).1 :: ((s.step a).2.run actions).1) =
          acceptedEvents [(s.step a).1] ++ acceptedEvents ((s.step a).2.run actions).1 :=
        List.filterMap_append (l := [(s.step a).1])
      rw [run_cons, hcons, List.length_append]
      dsimp only
      omega

/-! ### The task notices -/

/-- A task that has left its loop has dropped the channel in front of it. -/
def Left (s : SseStream) : Prop := ∀ m ∈ s.merge, m.ended = true → s.events.receiver = false

/-- No event is accepted any more. -/
structure Refuses (s : SseStream) : Prop where
  receiver : s.events.receiver = false
  ended : ∀ m ∈ s.merge, m.ended = true

/-- The task has noticed, or it holds what it cannot send. -/
def Doomed (s : SseStream) : Prop :=
  s.Refuses ∨ ∃ chunks chunk, s.merge = some ⟨chunks, some chunk, false⟩ ∧ chunks.receiver = false

theorem send_cases (s : SseStream) (e : SseEvent) :
    (s.send e).2 = s ∨ s.events.receiver = true ∧
      (s.send e).2 = { s with events := { s.events with queue := s.events.queue ++ [e] } } := by
  unfold send
  split_ifs with hsender
  · rcases hsend : s.events.send e with ⟨r, events⟩
    rcases Mpsc.Channel.send_cases hsend with ⟨rfl, hreceiver, -, rfl⟩ | ⟨rfl, -⟩ | ⟨rfl, -⟩
    · exact .inr ⟨hreceiver, rfl⟩
    · exact .inl rfl
    · exact .inl rfl
  · exact .inl rfl

theorem poll_of_not_connected (hs : s.connected = false) : s.poll = (.idle, s) := if_pos hs

theorem Left.leave (m : SseMerge) : (s.leave m).Left := fun _ _ _ => rfl

theorem Left.step (h : s.Left) (a : SseAction) : (s.step a).2.Left := by
  cases a with
  | send e =>
      change (s.send e).2.Left
      rcases s.send_cases e with heq | ⟨-, heq⟩ <;> rw [heq] <;> exact h
  | close => exact h
  | next =>
      change s.next.Left
      unfold SseStream.next
      split
      · split
        · rintro _ ⟨⟩ ⟨⟩
        · exact .leave _
        · exact h
      · exact h
  | tick =>
      change s.tick.Left
      unfold SseStream.tick
      split
      · rintro _ ⟨⟩ ⟨⟩
      · exact h
  | forward =>
      change s.forward.Left
      unfold SseStream.forward
      split
      · split
        · rintro _ ⟨⟩ ⟨⟩
        · exact h
        · exact .leave _
      · exact h
  | poll =>
      change s.poll.2.Left
      unfold SseStream.poll
      split_ifs
      · exact h
      · split
        · rename_i m hmerge
          split
          · rintro _ ⟨⟩
            exact h m hmerge
          · exact h
          · exact h
        · rename_i hmerge
          split
          · intro m hm
            rw [hmerge] at hm
            cases hm
          · exact h
          · exact h
  | disconnect =>
      change s.disconnect.Left
      unfold SseStream.disconnect
      split
      · rename_i m hmerge
        rintro _ ⟨⟩
        exact h m hmerge
      · exact fun _ _ _ => rfl

/-- Whoever refuses goes on refusing. -/
theorem Refuses.step (h : s.Refuses) (a : SseAction) : (s.step a).2.Refuses := by
  have hrunning : ∀ {chunks held}, s.merge = some ⟨chunks, held, false⟩ → False := by
    intro chunks held hmerge
    cases h.ended _ hmerge
  cases a with
  | send e =>
      change (s.send e).2.Refuses
      rcases s.send_cases e with heq | ⟨hreceiver, -⟩
      · rw [heq]
        exact h
      · rw [h.receiver] at hreceiver
        cases hreceiver
  | close => exact ⟨h.receiver, h.ended⟩
  | next =>
      change s.next.Refuses
      unfold SseStream.next
      split
      · rename_i hmerge
        exact (hrunning hmerge).elim
      · exact h
  | tick =>
      change s.tick.Refuses
      unfold SseStream.tick
      split
      · rename_i hmerge
        exact (hrunning hmerge).elim
      · exact h
  | forward =>
      change s.forward.Refuses
      unfold SseStream.forward
      split
      · rename_i hmerge
        exact (hrunning hmerge).elim
      · exact h
  | poll =>
      change s.poll.2.Refuses
      unfold SseStream.poll
      split_ifs
      · exact h
      · split
        · rename_i m hmerge
          split
          · refine ⟨h.receiver, ?_⟩
            rintro _ ⟨⟩
            exact h.ended m hmerge
          · exact h
          · exact h
        · split
          · rename_i events hrecv
            rcases Mpsc.Channel.recv_cases hrecv with ⟨_, _, -, -, rfl⟩ | ⟨h', -⟩ | ⟨h', -⟩
            · exact ⟨h.receiver, h.ended⟩
            · cases h'
            · cases h'
          · exact h
          · exact h
  | disconnect =>
      change s.disconnect.Refuses
      unfold SseStream.disconnect
      split
      · rename_i m hmerge
        refine ⟨h.receiver, ?_⟩
        rintro _ ⟨⟩
        exact h.ended m hmerge
      · exact ⟨rfl, h.ended⟩

/-- The tick of the timer gives the task something that it cannot send. -/
theorem doomed_tick (hs : s.connected = false) (h : s.Left) : s.tick.Doomed := by
  rcases hmerge : s.merge with _ | ⟨chunks, held, ended⟩
  · have htick : s.tick = s := by rw [tick, hmerge]
    rw [htick]
    refine .inl ⟨by rwa [connected, hmerge] at hs, ?_⟩
    intro m hm
    rw [hmerge] at hm
    cases hm
  · have hgone : chunks.receiver = false := by rwa [connected, hmerge] at hs
    cases ended with
    | true =>
        have htick : s.tick = s := by
          rw [tick, hmerge]
          cases held <;> rfl
        rw [htick]
        refine .inl ⟨h _ hmerge rfl, ?_⟩
        intro m hm
        cases hmerge.symm.trans hm
        rfl
    | false =>
        cases held with
        | none =>
            rw [tick, hmerge]
            exact .inr ⟨chunks, _, rfl, hgone⟩
        | some chunk =>
            have htick : s.tick = s := by rw [tick, hmerge]
            rw [htick]
            exact .inr ⟨chunks, chunk, hmerge, hgone⟩

/-- And then the task notices, when it goes on. -/
theorem Doomed.forward (h : s.Doomed) : s.forward.Refuses := by
  rcases h with h | ⟨chunks, chunk, hmerge, hgone⟩
  · exact h.step .forward
  · have hsend : chunks.send chunk = (.closed, chunks) := by
      rw [Mpsc.Channel.send, if_pos hgone]
    rw [SseStream.forward, hmerge]
    dsimp only
    rw [hsend]
    refine ⟨rfl, ?_⟩
    rintro _ ⟨⟩
    rfl

/-- Nothing else changes that. -/
theorem Doomed.step (h : s.Doomed) (a : SseAction) : (s.step a).2.Doomed := by
  rcases h with h | ⟨chunks, chunk, hmerge, hgone⟩
  · exact .inl (h.step a)
  have hs : s.connected = false := by rwa [connected, hmerge]
  cases a with
  | send e =>
      change (s.send e).2.Doomed
      rcases s.send_cases e with heq | ⟨-, heq⟩ <;> rw [heq] <;>
        exact .inr ⟨chunks, chunk, hmerge, hgone⟩
  | close => exact .inr ⟨chunks, chunk, hmerge, hgone⟩
  | next =>
      have hnext : s.next = s := by rw [SseStream.next, hmerge]
      change s.next.Doomed
      rw [hnext]
      exact .inr ⟨chunks, chunk, hmerge, hgone⟩
  | tick =>
      have htick : s.tick = s := by rw [SseStream.tick, hmerge]
      change s.tick.Doomed
      rw [htick]
      exact .inr ⟨chunks, chunk, hmerge, hgone⟩
  | forward => exact .inl (Doomed.forward (.inr ⟨chunks, chunk, hmerge, hgone⟩))
  | poll =>
      change s.poll.2.Doomed
      rw [poll_of_not_connected hs]
      exact .inr ⟨chunks, chunk, hmerge, hgone⟩
  | disconnect =>
      have hdisconnect : (s.step .disconnect).2 =
          { s with merge := some ⟨chunks.dropReceiver, some chunk, false⟩ } := by
        rw [SseStream.step, disconnect, hmerge]
      rw [hdisconnect]
      exact .inr ⟨chunks.dropReceiver, chunk, rfl, rfl⟩

/-- What a step keeps is kept by a run. -/
theorem run_keeps {P : SseStream → Prop} (hstep : ∀ {s} (a : SseAction), P s → P (s.step a).2)
    (h : P s) (actions : List SseAction) : P (s.run actions).2 :=
  @run_rule (fun _ s => P s) (fun _ _ a h => hstep a h) [] s h actions

/-- Whoever refuses accepts nothing. -/
theorem Refuses.accepted (h : s.Refuses) (hs : s.connected = false) (actions : List SseAction) :
    acceptedEvents (s.run actions).1 = [] := by
  have hbudget : s.budget = 0 := by
    rcases hmerge : s.merge with _ | m
    · rw [budget, h.receiver, hmerge]
      rfl
    · exact budget_eq_zero h.receiver hmerge (h.ended m hmerge)
  have hle := (accepted_gone hs actions).2
  exact List.length_eq_zero_iff.1 (by omega)

theorem connected_disconnect (s : SseStream) : s.disconnect.connected = false := by
  unfold disconnect
  split
  · rfl
  · rename_i hmerge
    rw [connected, hmerge]
    rfl

/-! ### Without a heartbeat -/

/-- No task comes to a stream without one. -/
theorem merge_step (h : s.merge = none) (a : SseAction) : (s.step a).2.merge = none := by
  cases a with
  | send e =>
      change (s.send e).2.merge = none
      rcases s.send_cases e with heq | ⟨-, heq⟩
      · rwa [heq]
      · rwa [heq]
  | close => exact h
  | next =>
      change s.next.merge = none
      rwa [SseStream.next, h]
  | tick =>
      change s.tick.merge = none
      rwa [SseStream.tick, h]
  | forward =>
      change s.forward.merge = none
      rwa [SseStream.forward, h]
  | poll =>
      change s.poll.2.merge = none
      rw [SseStream.poll, h]
      dsimp only
      split_ifs
      · exact h
      · split
        · rfl
        · exact h
        · exact h
  | disconnect =>
      change s.disconnect.merge = none
      rw [SseStream.disconnect, h]

/-- The channel of the handler is the one that is dropped. -/
theorem refuses_of_merge_eq_none (h : s.merge = none) (hs : s.connected = false) : s.Refuses where
  receiver := by rwa [connected, h] at hs
  ended m hm := by
    rw [h] at hm
    cases hm

/-- A handler whose client is gone: so many events are accepted at most, and none when the task has
been woken by its timer and has gone on, or when there is no heartbeat. -/
structure Stops (buffer : ℕ) (heartbeat : Option ℕ) (s : SseStream) : Prop where
  budget : ∀ actions, (acceptedEvents (s.run actions).1).length ≤ buffer + 1
  refuses : ∀ before between after,
    acceptedEvents ((s.run (before ++ .tick :: (between ++ [.forward]))).2.run after).1 = []
  unbeaten : heartbeat = none → ∀ actions, acceptedEvents (s.run actions).1 = []

end SseStream

/-! ### The handler -/

/-- **A handler cannot go on for long when its client is gone**, whatever has happened before. -/
theorem SseResponse.stops_after_disconnect {buffer : ℕ} {r₀ r : SseResponse}
    (h : channel buffer = some r₀) (hr : r = r₀ ∨ ∃ interval, r = r₀.withHeartbeat interval)
    {s : SseStream} (hbody : r.intoResponse.body = some s) (actions : List SseAction) :
    (s.run actions).2.disconnect.Stops buffer r.heartbeat := by
  rw [intoResponse_eq] at hbody
  cases hbody
  have hdelivery := (SseStream.run_delivers (rx_of_channel h hr) actions).disconnect
  have hgone := SseStream.connected_disconnect (r.stream.run actions).2
  have hinitial : r.stream.Left := by
    intro m hm hended
    obtain ⟨interval, -, rfl⟩ := Option.map_eq_some_iff.1 hm
    cases hended
  have hleft := (SseStream.run_keeps (P := SseStream.Left) (fun a h => h.step a) hinitial actions).step
    .disconnect
  change (r.stream.run actions).2.disconnect.Left at hleft
  have hplain : r.heartbeat = none → (r.stream.run actions).2.disconnect.merge = none := by
    intro hnone
    have hmerge : r.stream.merge = none := by rw [stream, hnone, Option.map_none]
    exact SseStream.merge_step (SseStream.run_keeps (P := fun s => s.merge = none)
      (fun a h => SseStream.merge_step h a) hmerge actions) .disconnect
  generalize (r.stream.run actions).2.disconnect = s at hdelivery hgone hleft hplain
  constructor
  · intro actions'
    have hle := (SseStream.accepted_gone hgone actions').2
    have hcapacity : s.events.capacity = buffer := hdelivery.bounded.1
    have hbudget : s.budget ≤ buffer + 1 := by
      rw [SseStream.budget, hcapacity]
      refine Nat.add_le_add ?_ ?_
      · split_ifs <;> omega
      · split <;> omega
    omega
  · intro before between after
    -- up to the tick, from there to the point where the task goes on, and what follows
    have hgone₁ := (SseStream.accepted_gone hgone before).1
    have hleft₁ := SseStream.run_keeps (P := SseStream.Left) (fun a h => h.step a) hleft before
    have hdoomed : ((s.run before).2.step .tick).2.Doomed := SseStream.doomed_tick hgone₁ hleft₁
    have hgone₂ := (SseStream.step_gone hgone₁ .tick).1
    have hdoomed₂ := SseStream.run_keeps (P := SseStream.Doomed) (fun a h => h.step a) hdoomed between
    have hgone₃ := (SseStream.accepted_gone hgone₂ between).1
    have hrefuses := hdoomed₂.forward
    have hgone₄ := (SseStream.step_gone hgone₃ .forward).1
    rw [SseStream.run_append, SseStream.run_cons, SseStream.run_append]
    exact hrefuses.accepted hgone₄ after
  · intro hnone actions'
    exact (SseStream.refuses_of_merge_eq_none (hplain hnone) hgone).accepted hgone actions'

theorem SseResponse.stops_after_disconnect_beating :
    (beating.stream.run [.send (.ofData "hello".toList), .tick]).2.disconnect.Stops 2
      beating.heartbeat :=
  stops_after_disconnect (r := beating) (show channel 2 = some ⟨{ capacity := 2 }, none⟩ from rfl)
    (.inr ⟨15000000000, rfl⟩) (congrArg StreamResponse.body (intoResponse_eq beating)) _

end OxiHttp
