/-
**Computations that are watched while they run.**

An `OxiHttp.Attempt` says what a computation returns and which state it leaves behind.  Some
properties are about what happens on the way: how much memory is in use at every point, also when
the caller drops the computation in the middle or when it panics.  `OxiHttp.Observed` runs on a
state together with the events seen so far, and may end in these two ways as well.

Main definitions:

* `OxiHttp.Watch`, `OxiHttp.Ending`, `OxiHttp.Observed` — the state of a watched computation, the
  ways in which it ends, and the monad;
* `OxiHttp.Observed.step`, `OxiHttp.Observed.await` — a statement, and a point where the
  computation waits and may be dropped;
* `OxiHttp.Observed.Triple` — partial correctness with an invariant for all that is left behind;
* `OxiHttp.Observed.AgreesAt`, `OxiHttp.Observed.Refines` — the watched computation does what the
  plain one does.

Main results:

* `OxiHttp.Observed.Triple.bind`, `OxiHttp.Observed.triple_step`,
  `OxiHttp.Observed.triple_await` — the rules of the triples;
* `OxiHttp.Observed.Refines.bind`, `OxiHttp.Observed.refines_step`,
  `OxiHttp.Observed.refines_await` — the rules of the refinement.
-/

import OxiHttp.Error

set_option relaxedAutoImplicit false
set_option autoImplicit false

namespace OxiHttp

/-- The ways in which a watched computation ends. -/
inductive Ending (α : Type) where
  | ok (a : α)
  | error (e : OxiHttpError)
  | panicked
  | dropped
deriving DecidableEq

/-- A state that is watched. -/
structure Watch (σ ε : Type) where
  state : σ
  /-- The events seen so far. -/
  seen : List ε := []
  /-- How many more waits are waited out before the caller drops the computation; `none` when it
  never does. -/
  patience : Option ℕ := none

/-- A computation on a state of type `σ` in which events of type `ε` are seen. -/
structure Observed (σ ε α : Type) where
  run : Watch σ ε → Ending α × Watch σ ε

/-- What is still done to the state when the computation returns an error. -/
def Attempt.onError {σ α : Type} (clean : σ → σ) (x : Attempt σ α) : Attempt σ α := ⟨fun s =>
  match x.run s with
  | (.error e, s') => (.error e, clean s')
  | r => r⟩

namespace Observed

variable {σ ε α β : Type}

instance : Monad (Observed σ ε) where
  pure a := ⟨fun w => (.ok a, w)⟩
  bind x f := ⟨fun w =>
    match x.run w with
    | (.ok a, w') => (f a).run w'
    | (.error e, w') => (.error e, w')
    | (.panicked, w') => (.panicked, w')
    | (.dropped, w') => (.dropped, w')⟩

theorem run_bind (x : Observed σ ε α) (f : α → Observed σ ε β) (w : Watch σ ε) :
    (x >>= f).run w = match x.run w with
      | (.ok a, w') => (f a).run w'
      | (.error e, w') => (.error e, w')
      | (.panicked, w') => (.panicked, w')
      | (.dropped, w') => (.dropped, w') := rfl

/-- A sequence does not depend on how it is bracketed. -/
theorem bind_assoc {γ : Type} (x : Observed σ ε α) (f : α → Observed σ ε β)
    (g : β → Observed σ ε γ) : x >>= f >>= g = x >>= fun a => f a >>= g := by
  refine congrArg Observed.mk (funext fun w => ?_)
  rw [run_bind]
  rcases x.run w with ⟨r, w'⟩
  cases r <;> rfl

/-- Stopping with an error. -/
def fail (e : OxiHttpError) : Observed σ ε α := ⟨fun w => (.error e, w)⟩

/-- Stopping with a panic. -/
def panicking : Observed σ ε α := ⟨fun w => (.panicked, w)⟩

/-- Stopping where the caller gives up. -/
def dropping : Observed σ ε α := ⟨fun w => (.dropped, w)⟩

/-- Reading the state. -/
def get : Observed σ ε σ := ⟨fun w => (.ok w.state, w)⟩

/-- An event is seen. -/
def emit (event : ε) : Observed σ ε Unit :=
  ⟨fun w => (.ok (), { w with seen := w.seen ++ [event] })⟩

/-- What became of an `Attempt`. -/
def ended : Except OxiHttpError α → Ending α
  | .ok a => .ok a
  | .error e => .error e

/-- A statement that does not wait.  After it the state is looked at. -/
def step (look : σ → ε) (x : Attempt σ α) : Observed σ ε α := ⟨fun w =>
  (ended (x.run w.state).1,
    { w with state := (x.run w.state).2, seen := w.seen ++ [look (x.run w.state).2] })⟩

/-- A statement that waits.  A caller without patience drops the computation there, and `leave`
says what is left of the state. -/
def await (look : σ → ε) (leave : σ → σ) (x : Attempt σ α) : Observed σ ε α := ⟨fun w =>
  match w.patience with
  | some 0 =>
      (.dropped, { w with state := leave w.state, seen := w.seen ++ [look (leave w.state)] })
  | patience => (step look x).run { w with patience := patience.map (· - 1) }⟩

/-- What is still done to the state when the computation returns an error; neither a panic nor the
caller lets it be done. -/
def onError (clean : σ → σ) (x : Observed σ ε α) : Observed σ ε α := ⟨fun w =>
  match x.run w with
  | (.error e, w') => (.error e, { w' with state := clean w'.state })
  | r => r⟩

/-- The result of a computation that returned, as a value. -/
def caught (x : Observed σ ε α) : Observed σ ε (Except OxiHttpError α) := ⟨fun w =>
  match x.run w with
  | (.ok a, w') => (.ok (.ok a), w')
  | (.error e, w') => (.ok (.error e), w')
  | (.panicked, w') => (.panicked, w')
  | (.dropped, w') => (.dropped, w')⟩

theorem run_caught (x : Observed σ ε α) (w : Watch σ ε) :
    (caught x).run w = match x.run w with
      | (.ok a, w') => (.ok (.ok a), w')
      | (.error e, w') => (.ok (.error e), w')
      | (.panicked, w') => (.panicked, w')
      | (.dropped, w') => (.dropped, w') := rfl

/-- A call whose result the caller ignores, made with some patience.  Only a panic goes on. -/
def call (patience : Option ℕ) (x : Observed σ ε α) : Observed σ ε Unit := ⟨fun w =>
  match x.run { w with patience } with
  | (.panicked, w') => (.panicked, w')
  | (_, w') => (.ok (), { w' with patience := none })⟩

/-! ### Triples -/

/-- From `P`, a normal end leaves `Q`, and every other end leaves `E`. -/
def Triple (P : Watch σ ε → Prop) (x : Observed σ ε α) (Q : α → Watch σ ε → Prop)
    (E : Watch σ ε → Prop) : Prop :=
  ∀ w, P w → match x.run w with
    | (.ok a, w') => Q a w'
    | (_, w') => E w'

variable {P P' : Watch σ ε → Prop} {Q Q' : α → Watch σ ε → Prop} {R : β → Watch σ ε → Prop}
  {E : Watch σ ε → Prop}

theorem triple_pure {a : α} (h : ∀ w, P w → Q a w) :
    Triple P (pure a : Observed σ ε α) Q E := h

theorem triple_fail {e : OxiHttpError} (h : ∀ w, P w → E w) :
    Triple P (fail e : Observed σ ε α) Q E := h

theorem triple_panicking (h : ∀ w, P w → E w) :
    Triple P (panicking : Observed σ ε α) Q E := h

theorem triple_dropping (h : ∀ w, P w → E w) :
    Triple P (dropping : Observed σ ε α) Q E := h

/-- After reading the state, the value read is the state. -/
theorem triple_get_bind {f : σ → Observed σ ε α}
    (h : ∀ s, Triple (fun w => P w ∧ w.state = s) (f s) Q E) : Triple P (get >>= f) Q E :=
  fun w hw => h w.state w ⟨hw, rfl⟩

theorem triple_emit {event : ε} {Q : Unit → Watch σ ε → Prop}
    (h : ∀ w, P w → Q () { w with seen := w.seen ++ [event] }) :
    Triple P (emit event : Observed σ ε Unit) Q E := h

theorem Triple.bind {x : Observed σ ε α} {f : α → Observed σ ε β} (hx : Triple P x Q E)
    (hf : ∀ a, Triple (Q a) (f a) R E) : Triple P (x >>= f) R E := by
  intro w hw
  have h := hx w hw
  rcases hrun : x.run w with ⟨r, w'⟩
  rw [hrun] at h
  rw [run_bind, hrun]
  cases r with
  | ok a => exact hf a w' h
  | error e => exact h
  | panicked => exact h
  | dropped => exact h

theorem Triple.mono {x : Observed σ ε α} (h : Triple P x Q E) (hP : ∀ w, P' w → P w)
    (hQ : ∀ a w, Q a w → Q' a w) : Triple P' x Q' E := by
  intro w hw
  have h := h w (hP w hw)
  rcases hrun : x.run w with ⟨r, w'⟩
  rw [hrun] at h
  cases r with
  | ok a => exact hQ a w' h
  | error e => exact h
  | panicked => exact h
  | dropped => exact h

/-- A weaker statement about the ends that are not normal. -/
theorem Triple.weaken {E' : Watch σ ε → Prop} {x : Observed σ ε α} (h : Triple P x Q E)
    (hE : ∀ w, E w → E' w) : Triple P x Q E' := by
  intro w hw
  have h := h w hw
  rcases hrun : x.run w with ⟨r, w'⟩
  rw [hrun] at h
  cases r with
  | ok a => exact h
  | error e => exact hE w' h
  | panicked => exact hE w' h
  | dropped => exact hE w' h

/-- What holds at every end holds at the end. -/
theorem Triple.final {x : Observed σ ε α} {w : Watch σ ε} (h : Triple P x (fun _ => E) E)
    (hw : P w) : E (x.run w).2 := by
  have h := h w hw
  rcases hrun : x.run w with ⟨r, w'⟩
  rw [hrun] at h
  cases r <;> exact h

/-- A part of the precondition that is about no state is a hypothesis. -/
theorem triple_of_and {φ : Prop} {x : Observed σ ε α} (h : φ → Triple P x Q E) :
    Triple (fun w => P w ∧ φ) x Q E := fun w hw => h hw.2 w hw.1

theorem triple_step {look : σ → ε} {x : Attempt σ α}
    (h : ∀ w, P w → ∀ r s, x.run w.state = (r, s) →
      match r with
      | .ok a => Q a { w with state := s, seen := w.seen ++ [look s] }
      | .error _ => E { w with state := s, seen := w.seen ++ [look s] }) :
    Triple P (step look x) Q E := by
  intro w hw
  rcases hrun : x.run w.state with ⟨r, s⟩
  have h := h w hw r s hrun
  simp only [step, hrun]
  cases r with
  | ok a => exact h
  | error e => exact h

/-- Waiting is a statement, except that the computation may also end there. -/
theorem triple_await {look : σ → ε} {leave : σ → σ} {x : Attempt σ α}
    (hP : ∀ w p, P w → P { w with patience := p })
    (hdropped : ∀ w, P w →
      E { w with state := leave w.state, seen := w.seen ++ [look (leave w.state)] })
    (hstep : Triple P (step look x) Q E) : Triple P (await look leave x) Q E := by
  intro w hw
  match hp : w.patience with
  | some 0 => simpa only [await, hp] using hdropped w hw
  | none =>
      have hrun : (await look leave x).run w = (step look x).run { w with patience := none } := by
        simp only [await, hp, Option.map_none]
      rw [hrun]
      exact hstep _ (hP w none hw)
  | some (n + 1) =>
      have hrun : (await look leave x).run w
          = (step look x).run { w with patience := some n } := by
        simp only [await, hp, Option.map_some, Nat.succ_sub_one]
      rw [hrun]
      exact hstep _ (hP w (some n) hw)

theorem Triple.onError {x : Observed σ ε α} (h : Triple P x Q E) (clean : σ → σ)
    (hclean : ∀ w, E w → E { w with state := clean w.state }) :
    Triple P (onError clean x) Q E := by
  intro w hw
  have h := h w hw
  rcases hrun : x.run w with ⟨r, w'⟩
  rw [hrun] at h
  simp only [Observed.onError, hrun]
  cases r with
  | ok a => exact h
  | error e => exact hclean w' h
  | panicked => exact h
  | dropped => exact h

theorem Triple.caught {x : Observed σ ε α} (h : Triple P x (fun _ => E) E) :
    Triple P (caught x) (fun _ => E) E := by
  intro w hw
  have h := h w hw
  rcases hrun : x.run w with ⟨r, w'⟩
  rw [hrun] at h
  rw [run_caught, hrun]
  cases r <;> exact h

theorem Triple.call {patience : Option ℕ} {x : Observed σ ε α} (h : Triple P x (fun _ => E) E)
    (hP : ∀ w p, P w → P { w with patience := p })
    (hE : ∀ w p, E w → E { w with patience := p }) :
    Triple P (call patience x) (fun _ => E) E := by
  intro w hw
  have h := h _ (hP w patience hw)
  rcases hrun : x.run { w with patience } with ⟨r, w'⟩
  rw [hrun] at h
  simp only [Observed.call, hrun]
  cases r with
  | panicked => exact h
  | ok a => exact hE w' none h
  | error e => exact hE w' none h
  | dropped => exact hE w' none h

/-! ### Refinement -/

/-- From this state, the watched computation does what the plain one does, unless it panics. -/
def AgreesAt (x : Observed σ ε α) (y : Attempt σ α) (w : Watch σ ε) : Prop :=
  match x.run w with
  | (.ok a, w') => y.run w.state = (.ok a, w'.state) ∧ w'.patience = none
  | (.error e, w') => y.run w.state = (.error e, w'.state) ∧ w'.patience = none
  | (.panicked, _) => True
  | (.dropped, _) => False

/-- A watched computation that is not dropped does what the plain one does. -/
def Refines (x : Observed σ ε α) (y : Attempt σ α) : Prop :=
  ∀ w, w.patience = none → x.AgreesAt y w

theorem refines_pure (a : α) : Refines (pure a : Observed σ ε α) (pure a) := fun _ hw => ⟨rfl, hw⟩

theorem refines_fail (e : OxiHttpError) : Refines (fail e : Observed σ ε α) (.fail e) :=
  fun _ hw => ⟨rfl, hw⟩

theorem refines_panicking (y : Attempt σ α) : Refines (panicking : Observed σ ε α) y :=
  fun _ _ => trivial

theorem refines_get : Refines (get : Observed σ ε σ) .get := fun _ hw => ⟨rfl, hw⟩

theorem AgreesAt.ok {x : Observed σ ε α} {y : Attempt σ α} {w w' : Watch σ ε} {a : α}
    (h : x.AgreesAt y w) (hrun : x.run w = (.ok a, w')) :
    y.run w.state = (.ok a, w'.state) ∧ w'.patience = none := by
  rwa [AgreesAt, hrun] at h

/-- The second half of a sequence starts in a state the first half leaves. -/
theorem AgreesAt.bind {x : Observed σ ε α} {y : Attempt σ α} {f : α → Observed σ ε β}
    {g : α → Attempt σ β} {w : Watch σ ε} (hx : x.AgreesAt y w)
    (hf : ∀ a w', x.run w = (.ok a, w') → w'.patience = none → (f a).AgreesAt (g a) w') :
    (x >>= f).AgreesAt (y >>= g) w := by
  rcases hrun : x.run w with ⟨r, w'⟩
  rw [AgreesAt, run_bind]
  rw [AgreesAt] at hx
  rw [hrun] at hx ⊢
  cases r with
  | ok a =>
      obtain ⟨hy, hp⟩ := hx
      rw [Attempt.bind_ok hy]
      exact hf a w' hrun hp
  | error e =>
      obtain ⟨hy, hp⟩ := hx
      exact ⟨Attempt.bind_error hy, hp⟩
  | panicked => trivial
  | dropped => exact hx

theorem Refines.bind {x : Observed σ ε α} {y : Attempt σ α} {f : α → Observed σ ε β}
    {g : α → Attempt σ β} (hx : Refines x y) (hf : ∀ a, Refines (f a) (g a)) :
    Refines (x >>= f) (y >>= g) :=
  fun w hw => (hx w hw).bind fun a w' _ hw' => hf a w' hw'

theorem Refines.onError {x : Observed σ ε α} {y : Attempt σ α} (h : Refines x y)
    (clean : σ → σ) : Refines (onError clean x) (y.onError clean) := by
  intro w hw
  have h := h w hw
  rcases hrun : x.run w with ⟨r, w'⟩
  simp only [AgreesAt, Observed.onError, Attempt.onError, hrun] at h ⊢
  cases r with
  | ok a => exact ⟨by rw [h.1], h.2⟩
  | error e => exact ⟨by rw [h.1], h.2⟩
  | panicked => trivial
  | dropped => exact h

/-- A call that is not dropped changes the state as the plain computation does. -/
theorem Refines.call {x : Observed σ ε α} {y : Attempt σ α} (h : Refines x y) :
    Refines (call none x) (⟨fun s => (.ok (), (y.run s).2)⟩ : Attempt σ Unit) := by
  intro w hw
  have h := h { w with patience := none } rfl
  rcases hrun : x.run { w with patience := none } with ⟨r, w'⟩
  simp only [AgreesAt, Observed.call, hrun] at h ⊢
  cases r with
  | ok a => exact ⟨by rw [h.1], rfl⟩
  | error e => exact ⟨by rw [h.1], rfl⟩
  | panicked => trivial
  | dropped => exact h.elim

theorem refines_step (look : σ → ε) (x : Attempt σ α) : Refines (step look x) x := by
  intro w hw
  rcases hrun : x.run w.state with ⟨r, s⟩
  simp only [AgreesAt, step, hrun]
  cases r with
  | ok a => exact ⟨rfl, hw⟩
  | error e => exact ⟨rfl, hw⟩

theorem refines_await (look : σ → ε) (leave : σ → σ) (x : Attempt σ α) :
    Refines (await look leave x) x := by
  intro w hw
  have h := refines_step look x w hw
  have hrun : (await look leave x).run w = (step look x).run w := by
    simp only [await, hw, Option.map_none]
    rw [← hw]
  rwa [AgreesAt, hrun]

end Observed

end OxiHttp
