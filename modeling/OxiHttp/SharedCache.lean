/-
**A cache between many clients and a server.**

A cache keeps answers with the requests that they were given to.  It may answer a request with one
that it keeps when the answer itself says that it may be given to this request as well, and it may
ask the server; it chooses what it keeps and what it forgets.

What every answer of the server has, and an answer keeps when it is given to another request of
which it says so, every answer has that leaves the cache.

Main definitions:

* `SharedCache.Origin`, `SharedCache.run` — a server with what its answers say, and the cache.

Main results:

* `SharedCache.answers_run` — what holds of all answers.
-/

import Mathlib.Data.List.Basic

set_option relaxedAutoImplicit false
set_option autoImplicit false

namespace SharedCache

variable {ρ σ : Type*}

/-- A server: its answer to a request, if there is one, and whether an answer to the one request may
be given to another one. -/
structure Origin (ρ σ : Type*) where
  serve : ρ → Option σ
  covers : σ → ρ → ρ → Bool

/-- A request comes, for which the cache may look at one of its entries, and may keep the answer of
the server; or the cache forgets an entry. -/
inductive Action (ρ : Type*) where
  | ask (r : ρ) (entry : Option ℕ) (keep : Bool)
  | forget (entry : ℕ)

namespace Origin

variable (o : Origin ρ σ)

/-- The answer of the server, which may be kept. -/
def forward (cache : List (ρ × σ)) (r : ρ) (keep : Bool) : Option (ρ × σ) × List (ρ × σ) :=
  match o.serve r with
  | some s => (some (r, s), if keep then cache ++ [(r, s)] else cache)
  | none => (none, cache)

/-- One action: the answer, with the request that it is for, and what is kept then. -/
def step (cache : List (ρ × σ)) : Action ρ → Option (ρ × σ) × List (ρ × σ)
  | .ask r entry keep =>
      match entry.bind fun i => cache[i]? with
      | some (r₀, s) => if o.covers s r₀ r then (some (r, s), cache) else o.forward cache r keep
      | none => o.forward cache r keep
  | .forget i => (none, cache.eraseIdx i)

/-- All answers of a run. -/
def run (cache : List (ρ × σ)) : List (Action ρ) → List (ρ × σ)
  | [] => []
  | a :: actions => (o.step cache a).1.toList ++ run (o.step cache a).2 actions

variable {o} {P : ρ → σ → Prop}

/-- The server answers as it should, and what is kept can be given to what it covers. -/
structure Stable (o : Origin ρ σ) (P : ρ → σ → Prop) : Prop where
  served : ∀ r s, o.serve r = some s → P r s
  covered : ∀ r s r', P r s → o.covers s r r' = true → P r' s

theorem Stable.forward (h : o.Stable P) {cache : List (ρ × σ)} (hcache : ∀ e ∈ cache, P e.1 e.2)
    (r : ρ) (keep : Bool) : (∀ e ∈ (o.forward cache r keep).1, P e.1 e.2) ∧
      ∀ e ∈ (o.forward cache r keep).2, P e.1 e.2 := by
  unfold Origin.forward
  cases hserve : o.serve r with
  | none => exact ⟨fun e he => (by cases he), hcache⟩
  | some s =>
      have hs := h.served r s hserve
      constructor
      · intro e he
        cases he
        exact hs
      · intro e he
        dsimp only at he
        split_ifs at he
        · rcases List.mem_append.1 he with he | he
          · exact hcache e he
          · rw [List.mem_singleton.1 he]
            exact hs
        · exact hcache e he

/-- One action keeps it. -/
theorem Stable.step (h : o.Stable P) {cache : List (ρ × σ)} (hcache : ∀ e ∈ cache, P e.1 e.2)
    (a : Action ρ) : (∀ e ∈ (o.step cache a).1, P e.1 e.2) ∧
      ∀ e ∈ (o.step cache a).2, P e.1 e.2 := by
  cases a with
  | forget i => exact ⟨fun e he => (by cases he), fun e he =>
      hcache e (List.mem_of_mem_eraseIdx he)⟩
  | ask r entry keep =>
      unfold Origin.step
      dsimp only
      split
      case h_1 r₀ s hentry =>
          split_ifs with hcovers
          · obtain ⟨i, -, hi⟩ := Option.bind_eq_some_iff.1 hentry
            refine ⟨fun e he => ?_, hcache⟩
            cases he
            exact h.covered r₀ s r (hcache _ (List.mem_of_getElem? hi)) hcovers
          · exact h.forward hcache r keep
      case h_2 => exact h.forward hcache r keep

theorem Stable.run (h : o.Stable P) {cache : List (ρ × σ)} (hcache : ∀ e ∈ cache, P e.1 e.2)
    (actions : List (Action ρ)) : ∀ e ∈ o.run cache actions, P e.1 e.2 := by
  induction actions generalizing cache with
  | nil => exact fun e he => absurd he List.not_mem_nil
  | cons a actions ih =>
      obtain ⟨hanswer, hkept⟩ := h.step hcache a
      intro e he
      rcases List.mem_append.1 he with he | he
      · exact hanswer e (Option.mem_toList.1 he)
      · exact ih hkept e he

/-- **Every answer that leaves the cache is as it should be**, when it is empty at first. -/
theorem answers_run (h : o.Stable P) (actions : List (Action ρ)) :
    ∀ e ∈ o.run [] actions, P e.1 e.2 :=
  h.run (fun _ he => absurd he List.not_mem_nil) actions

end Origin

end SharedCache
