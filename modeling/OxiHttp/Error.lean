/-
**The error type of the stack, and fallible code that owns a state.**

Every fallible function of the repository returns `Result<_, OxiHttpError>`, and most of them
change the object they are called on whether they succeed or not.  `OxiHttp.Attempt` is that
shape: a computation on a state that ends in a value or in an error, and in a new state either
way.

Main definitions:

* `OxiHttp.OxiHttpError` — the errors;
* `OxiHttp.Panic` — what stops the program instead;
* `OxiHttp.Attempt` — a fallible computation on a state, with its monad;
* `OxiHttp.Attempt.Keeps` — every run of a computation relates the state before to the one after.

Main results:

* `OxiHttp.Attempt.bind_ok`, `OxiHttp.Attempt.bind_error`, `OxiHttp.Attempt.bind_eq_ok` — how a
  sequence of two computations runs;
* `OxiHttp.Attempt.Keeps.bind` — a reflexive and transitive relation is kept by a sequence when
  both halves keep it.
-/

import Mathlib.Tactic.Common

set_option relaxedAutoImplicit false
set_option autoImplicit false

namespace OxiHttp

/-- The variants of `OxiHttpError` for URIs, header fields, the transport and redirects.  A
foreign error that the source keeps behind an `Arc` is represented by its text. -/
inductive OxiHttpError where
  | invalidUri (msg : String)
  | http (msg : String)
  | hyper (msg : String)
  | io (msg : String)
  | body (msg : String)
  | timeout (msg : String)
  | redirect (msg : String)
  | connectionPool (msg : String)
  | invalidHeader (msg : String)
deriving DecidableEq, Repr

/-- The `Display` of an error. -/
def OxiHttpError.display : OxiHttpError → String
  | .invalidUri msg => "invalid URI: " ++ msg
  | .http msg => "HTTP error: " ++ msg
  | .hyper msg => "hyper error: " ++ msg
  | .io msg => "I/O error: " ++ msg
  | .body msg => "body error: " ++ msg
  | .timeout msg => "timeout: " ++ msg
  | .redirect msg => "redirect error: " ++ msg
  | .connectionPool msg => "connection pool error: " ++ msg
  | .invalidHeader msg => "invalid header: " ++ msg

instance decEqExcept {α : Type} [DecidableEq α] : DecidableEq (Except OxiHttpError α)
  | .ok a, .ok b => decidable_of_iff (a = b) (by simp)
  | .error a, .error b => decidable_of_iff (a = b) (by simp)
  | .ok _, .error _ => isFalse (by simp)
  | .error _, .ok _ => isFalse (by simp)

/-- What stops the program: a sum beyond its type, or a buffer beyond `isize::MAX`. -/
inductive Panic where
  | overflow
  | capacity
deriving DecidableEq, Repr

/-- A fallible computation on a state of type `σ`; an error does not undo what was done to the
state before it. -/
structure Attempt (σ α : Type) where
  run : σ → Except OxiHttpError α × σ

namespace Attempt

variable {σ α β : Type}

instance : Monad (Attempt σ) where
  pure a := ⟨fun s => (.ok a, s)⟩
  bind x f := ⟨fun s =>
    match x.run s with
    | (.ok a, s') => (f a).run s'
    | (.error e, s') => (.error e, s')⟩

/-- Stopping with an error. -/
def fail (e : OxiHttpError) : Attempt σ α := ⟨fun s => (.error e, s)⟩

/-- Reading the state. -/
def get : Attempt σ σ := ⟨fun s => (.ok s, s)⟩

/-- Changing the state. -/
def modify (g : σ → σ) : Attempt σ Unit := ⟨fun s => (.ok (), g s)⟩

@[simp] theorem run_pure (a : α) (s : σ) : (pure a : Attempt σ α).run s = (.ok a, s) := rfl

@[simp] theorem run_fail (e : OxiHttpError) (s : σ) :
    (fail e : Attempt σ α).run s = (.error e, s) := rfl

@[simp] theorem run_get (s : σ) : (get : Attempt σ σ).run s = (.ok s, s) := rfl

@[simp] theorem run_modify (g : σ → σ) (s : σ) : (modify g).run s = (.ok (), g s) := rfl

variable {x : Attempt σ α} {f : α → Attempt σ β} {s s' : σ}

theorem bind_ok {a : α} (h : x.run s = (.ok a, s')) : (x >>= f).run s = (f a).run s' := by
  change (match x.run s with
    | (.ok a, s') => (f a).run s'
    | (.error e, s') => (.error e, s')) = _
  rw [h]

theorem bind_error {e : OxiHttpError} (h : x.run s = (.error e, s')) :
    (x >>= f).run s = (.error e, s') := by
  change (match x.run s with
    | (.ok a, s') => (f a).run s'
    | (.error e, s') => (.error e, s')) = _
  rw [h]

@[simp] theorem run_get_bind (f : σ → Attempt σ β) : (get >>= f).run s = (f s).run s :=
  bind_ok rfl

@[simp] theorem run_modify_bind (g : σ → σ) (f : Unit → Attempt σ β) :
    (modify g >>= f).run s = (f ()).run (g s) :=
  bind_ok rfl

/-- A sequence succeeds when both of its halves do. -/
theorem bind_eq_ok {b : β} {s'' : σ} :
    (x >>= f).run s = (.ok b, s'') ↔
      ∃ a s', x.run s = (.ok a, s') ∧ (f a).run s' = (.ok b, s'') := by
  rcases h : x.run s with ⟨r, s'⟩
  cases r with
  | ok a => simp [bind_ok h]
  | error e => simp [bind_error h]

/-! ### Relations kept along a computation -/

/-- Every run of `x` takes a state to one it is related to by `R`, in success and in failure. -/
def Keeps (R : σ → σ → Prop) (x : Attempt σ α) : Prop := ∀ s, R s (x.run s).2

variable {R : σ → σ → Prop}

theorem Keeps.of_run {r : Except OxiHttpError α} (h : Keeps R x) (hs : x.run s = (r, s')) :
    R s s' := by
  simpa [hs] using h s

theorem keeps_pure (hrefl : ∀ s, R s s) (a : α) : Keeps R (pure a : Attempt σ α) :=
  fun s => hrefl s

theorem keeps_fail (hrefl : ∀ s, R s s) (e : OxiHttpError) :
    Keeps R (fail e : Attempt σ α) := fun s => hrefl s

theorem Keeps.bind (htrans : ∀ {a b c}, R a b → R b c → R a c) (hx : Keeps R x)
    (hf : ∀ a, Keeps R (f a)) : Keeps R (x >>= f) := by
  intro s
  rcases h : x.run s with ⟨r, s'⟩
  cases r with
  | ok a =>
      rw [bind_ok h]
      exact htrans (hx.of_run h) (hf a s')
  | error e =>
      rw [bind_error h]
      exact hx.of_run h

end Attempt

end OxiHttp
