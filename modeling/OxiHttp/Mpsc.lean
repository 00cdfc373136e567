/-
**Bounded channels.**

A channel takes values at one end and gives them out at the other, in their order.  It holds so many
of them at most; a sender that finds it full waits, or is told so.  Either end may be dropped: then
what is queued is still received but nothing follows it, or it is dropped and nothing is taken any
more.

Main definitions:

* `Mpsc.Channel` — a channel, with `send`, `recv`, `dropSender` and `dropReceiver`;
* `Mpsc.Channel.Bounded` — no more is queued than there is room for.

Main results:

* `Mpsc.Channel.send_cases`, `Mpsc.Channel.recv_cases` — what the two operations do.
-/

import Mathlib.Tactic.Common

set_option relaxedAutoImplicit false
set_option autoImplicit false

namespace Mpsc

/-- What becomes of a value that is sent. -/
inductive SendResult where
  | sent
  | full
  | closed
deriving DecidableEq, Repr

/-- What there is to be received: a value, or none any more, or none yet. -/
inductive RecvResult (α : Type*) where
  | item (a : α)
  | closed
  | pending
deriving DecidableEq, Repr

structure Channel (α : Type*) where
  capacity : ℕ
  queue : List α := []
  /-- The ends that are not dropped. -/
  sender : Bool := true
  receiver : Bool := true
deriving DecidableEq, Repr

namespace Channel

variable {α : Type*}

def send (c : Channel α) (a : α) : SendResult × Channel α :=
  if c.receiver = false then (.closed, c)
  else if c.queue.length < c.capacity then (.sent, { c with queue := c.queue ++ [a] })
  else (.full, c)

def recv (c : Channel α) : RecvResult α × Channel α :=
  match c.queue with
  | a :: queue => (.item a, { c with queue })
  | [] => (if c.sender then .pending else .closed, c)

def dropSender (c : Channel α) : Channel α := { c with sender := false }

/-- The values that are queued are dropped as well. -/
def dropReceiver (c : Channel α) : Channel α := { c with queue := [], receiver := false }

variable {c c' : Channel α} {a : α}

theorem send_cases {r : SendResult} (h : c.send a = (r, c')) :
    (r = .sent ∧ c.receiver = true ∧ c.queue.length < c.capacity ∧
        c' = { c with queue := c.queue ++ [a] }) ∨
      (r = .full ∧ c.receiver = true ∧ c.capacity ≤ c.queue.length ∧ c' = c) ∨
      (r = .closed ∧ c.receiver = false ∧ c' = c) := by
  unfold send at h
  split_ifs at h with hclosed hroom
  · cases h
    exact .inr (.inr ⟨rfl, hclosed, rfl⟩)
  · cases h
    exact .inl ⟨rfl, by simpa using hclosed, hroom, rfl⟩
  · cases h
    exact .inr (.inl ⟨rfl, by simpa using hclosed, by omega, rfl⟩)

theorem recv_cases {r : RecvResult α} (h : c.recv = (r, c')) :
    (∃ a queue, r = .item a ∧ c.queue = a :: queue ∧ c' = { c with queue }) ∨
      (r = .closed ∧ c.queue = [] ∧ c.sender = false ∧ c' = c) ∨
      (r = .pending ∧ c.queue = [] ∧ c.sender = true ∧ c' = c) := by
  unfold recv at h
  split at h
  · rename_i a queue hqueue
    cases h
    exact .inl ⟨a, queue, rfl, hqueue, rfl⟩
  · rename_i hqueue
    cases hsender : c.sender with
    | false =>
        rw [hsender] at h
        cases h
        exact .inr (.inl ⟨rfl, hqueue, rfl, rfl⟩)
    | true =>
        rw [hsender] at h
        cases h
        exact .inr (.inr ⟨rfl, hqueue, rfl, rfl⟩)

/-- No more is queued than there is room for. -/
def Bounded (c : Channel α) : Prop := c.queue.length ≤ c.capacity

theorem Bounded.send {r : SendResult} (h : c.Bounded) (hsend : c.send a = (r, c')) :
    c'.Bounded := by
  rcases send_cases hsend with ⟨-, -, hroom, rfl⟩ | ⟨-, -, -, rfl⟩ | ⟨-, -, rfl⟩
  · rw [Bounded, List.length_append]
    exact hroom
  · exact h
  · exact h

theorem Bounded.recv {r : RecvResult α} (h : c.Bounded) (hrecv : c.recv = (r, c')) :
    c'.Bounded := by
  rcases recv_cases hrecv with ⟨a, queue, -, hqueue, rfl⟩ | ⟨-, -, -, rfl⟩ | ⟨-, -, -, rfl⟩
  · have hle : (a :: queue).length ≤ c.capacity := hqueue ▸ h
    exact Nat.le_of_succ_le hle
  · exact h
  · exact h

theorem Bounded.dropReceiver (c : Channel α) : c.dropReceiver.Bounded := Nat.zero_le _

end Channel

end Mpsc
