/-
**Tasks that take turns.**

A process runs tasks on a state that they share.  A task begins at any time, and then goes on
whenever its turn comes, with an input of its own; what is seen of it is a list of events.  What
every step of a task keeps, of the shared state, of the task itself and of the others, holds in
whatever order the tasks take their turns.

Main definitions:

* `Interleaving.Program`, `Interleaving.Program.run` — what tasks do, and a run of a process;
* `Interleaving.Program.Keeps` — what a step keeps of the shared state and of every task.

Main results:

* `Interleaving.Program.Keeps.run` — it is kept by a run.
-/

import Mathlib.Data.List.Basic

set_option relaxedAutoImplicit false
set_option autoImplicit false

namespace Interleaving

/-- What tasks do: how one begins, and what it does when it goes on with an input: the events that
are seen of it, the shared state and the task itself after it. -/
structure Program (β α σ τ ε : Type*) where
  start : σ → β → τ
  resume : α → σ → τ → List ε × σ × τ

/-- A task begins, or one goes on. -/
inductive Action (β α : Type*) where
  | start (b : β)
  | resume (task : ℕ) (input : α)

/-- The shared state, and the tasks in the order in which they began. -/
structure Process (σ τ : Type*) where
  shared : σ
  tasks : List τ := []

section

variable {β α σ τ ε : Type*}

/-- What the tasks began with, in their order. -/
def startedAt (actions : List (Action β α)) : List β :=
  actions.filterMap fun
    | .start b => some b
    | .resume _ _ => none

/-- What is seen of one task. -/
def eventsOf (task : ℕ) (log : List (ℕ × ε)) : List ε :=
  (log.filter fun p => p.1 = task).map Prod.snd

namespace Program

variable (p : Program β α σ τ ε)

/-- One step of a process, and what is seen of it. -/
def step (s : Process σ τ) : Action β α → List (ℕ × ε) × Process σ τ
  | .start b => ([], { s with tasks := s.tasks ++ [p.start s.shared b] })
  | .resume task input =>
      match s.tasks[task]? with
      | some t =>
          let (events, shared, t) := p.resume input s.shared t
          (events.map (Prod.mk task), ⟨shared, s.tasks.set task t⟩)
      | none => ([], s)

/-- A run: what is seen of the tasks, in its order, and the process after it. -/
def run (s : Process σ τ) : List (Action β α) → List (ℕ × ε) × Process σ τ
  | [] => ([], s)
  | a :: actions =>
      let rest := run (p.step s a).2 actions
      ((p.step s a).1 ++ rest.1, rest.2)

/-- What every step keeps: something of the shared state and all that has been seen, and something
of each task, of what has been seen of it and of the shared state, both when the task goes on and
when another does. -/
structure Keeps (G : List (ℕ × ε) → σ → Prop) (I : σ → β → List ε → τ → Prop) : Prop where
  start : ∀ s b, I s b [] (p.start s b)
  shared : ∀ log s b events t task input, G log s → I s b events t →
    G (log ++ (p.resume input s t).1.map (Prod.mk task)) (p.resume input s t).2.1
  own : ∀ s b events t input, I s b events t →
    I (p.resume input s t).2.1 b (events ++ (p.resume input s t).1) (p.resume input s t).2.2
  others : ∀ s b events t b' events' t' input, I s b events t → I s b' events' t' →
    I (p.resume input s t).2.1 b' events' t'

end Program

/-! ### What is seen of a task -/

theorem eventsOf_append (task : ℕ) (log log' : List (ℕ × ε)) :
    eventsOf task (log ++ log') = eventsOf task log ++ eventsOf task log' := by
  rw [eventsOf, List.filter_append, List.map_append]
  rfl

theorem eventsOf_map (i task : ℕ) (events : List ε) :
    eventsOf i (events.map (Prod.mk task)) = if i = task then events else [] := by
  by_cases h : i = task
  · have hall : (events.map (Prod.mk task)).filter (fun p => p.1 = i)
        = events.map (Prod.mk task) := by
      refine List.filter_eq_self.2 fun p hp => ?_
      obtain ⟨e, -, rfl⟩ := List.mem_map.1 hp
      exact decide_eq_true h.symm
    rw [if_pos h, eventsOf, hall, List.map_map]
    exact List.map_id _
  · have hnone : (events.map (Prod.mk task)).filter (fun p => p.1 = i) = [] := by
      refine List.filter_eq_nil_iff.2 fun p hp => ?_
      obtain ⟨e, -, rfl⟩ := List.mem_map.1 hp
      simpa using Ne.symm h
    rw [if_neg h, eventsOf, hnone]
    rfl

theorem mem_eventsOf {task : ℕ} {log : List (ℕ × ε)} {e : ε} :
    e ∈ eventsOf task log ↔ (task, e) ∈ log := by
  constructor
  · intro h
    obtain ⟨⟨i, e'⟩, hp, rfl⟩ := List.mem_map.1 h
    obtain ⟨hlog, hi⟩ := List.mem_filter.1 hp
    obtain rfl : i = task := of_decide_eq_true hi
    exact hlog
  · intro h
    exact List.mem_map.2 ⟨(task, e), List.mem_filter.2 ⟨h, decide_eq_true rfl⟩, rfl⟩

/-! ### Runs -/

namespace Program

variable (p : Program β α σ τ ε) (G : List (ℕ × ε) → σ → Prop) (I : σ → β → List ε → τ → Prop)

/-- What has been kept, with the actions so far and all that has been seen. -/
structure Kept (actions : List (Action β α)) (log : List (ℕ × ε)) (s : Process σ τ) : Prop where
  shared : G log s.shared
  length : s.tasks.length = (startedAt actions).length
  tasks : ∀ i b, (startedAt actions)[i]? = some b →
    ∃ t, s.tasks[i]? = some t ∧ I s.shared b (eventsOf i log) t
  known : ∀ e ∈ log, e.1 < s.tasks.length

variable {p G I} {actions : List (Action β α)} {log : List (ℕ × ε)} {s : Process σ τ}

/-- A task has begun. -/
theorem Keeps.kept_start (hp : p.Keeps G I) (h : Kept G I actions log s) (b : β) :
    Kept G I (actions ++ [.start b]) log (p.step s (.start b)).2 := by
  have hstarted : startedAt (actions ++ [.start b]) = startedAt actions ++ [b] :=
    List.filterMap_append
  constructor
  · exact h.shared
  · rw [hstarted, List.length_append, ← h.length]
    exact List.length_append
  · intro i b' hi
    rw [hstarted] at hi
    change ∃ t, (s.tasks ++ [p.start s.shared b])[i]? = some t ∧ _
    rcases Nat.lt_trichotomy i s.tasks.length with hlt | rfl | hgt
    · rw [List.getElem?_append_left (h.length ▸ hlt)] at hi
      rw [List.getElem?_append_left hlt]
      exact h.tasks i b' hi
    · rw [h.length, List.getElem?_concat_length] at hi
      cases hi
      have hnone : eventsOf s.tasks.length log = [] := by
        rw [eventsOf, List.filter_eq_nil_iff.2 fun e he => by simpa using Nat.ne_of_lt (h.known e he)]
        rfl
      rw [List.getElem?_concat_length, hnone]
      exact ⟨_, rfl, hp.start s.shared b⟩
    · rw [List.getElem?_eq_none (by simp [← h.length]; omega)] at hi
      cases hi
  · intro e he
    have hlt := h.known e he
    change e.1 < (s.tasks ++ [_]).length
    rw [List.length_append]
    omega

/-- A task has gone on. -/
theorem Keeps.kept_resume (hp : p.Keeps G I) (h : Kept G I actions log s) (task : ℕ) (input : α) :
    Kept G I (actions ++ [.resume task input]) (log ++ (p.step s (.resume task input)).1)
      (p.step s (.resume task input)).2 := by
  have hstarted : startedAt (actions ++ [.resume task input]) = startedAt actions :=
    List.filterMap_append.trans (List.append_nil _)
  cases ht : s.tasks[task]? with
  | none =>
      have hstep : p.step s (.resume task input) = ([], s) := by
        rw [step, ht]
      rw [hstep, List.append_nil]
      exact ⟨h.shared, by rw [hstarted]; exact h.length, by rw [hstarted]; exact h.tasks, h.known⟩
  | some t =>
      have hstep : p.step s (.resume task input) =
          ((p.resume input s.shared t).1.map (Prod.mk task),
            ⟨(p.resume input s.shared t).2.1, s.tasks.set task (p.resume input s.shared t).2.2⟩) := by
        rw [step, ht]
      have hlt : task < s.tasks.length := (List.getElem?_eq_some_iff.1 ht).1
      obtain ⟨b, hb⟩ : ∃ b, (startedAt actions)[task]? = some b :=
        ⟨_, List.getElem?_eq_getElem (h.length ▸ hlt)⟩
      obtain ⟨t', ht', hinv⟩ := h.tasks task b hb
      cases ht.symm.trans ht'
      rw [hstep]
      constructor
      · exact hp.shared log s.shared b _ t task input h.shared hinv
      · rw [hstarted, ← h.length]
        exact List.length_set
      · intro i b' hi
        rw [hstarted] at hi
        obtain ⟨u, hu, hkept⟩ := h.tasks i b' hi
        dsimp only
        rw [eventsOf_append, eventsOf_map]
        by_cases heq : i = task
        · subst heq
          cases ht.symm.trans hu
          rw [if_pos rfl, List.getElem?_set_self hlt]
          exact ⟨_, rfl, hp.own s.shared b' _ t input hkept⟩
        · rw [if_neg heq, List.append_nil, List.getElem?_set_ne (Ne.symm heq)]
          exact ⟨u, hu, hp.others s.shared b _ t b' _ u input hinv hkept⟩
      · intro e he
        change e.1 < (s.tasks.set task _).length
        rw [List.length_set]
        rcases List.mem_append.1 he with he | he
        · exact h.known e he
        · obtain ⟨e', -, rfl⟩ := List.mem_map.1 he
          exact hlt

theorem Keeps.kept_step (hp : p.Keeps G I) (h : Kept G I actions log s) (a : Action β α) :
    Kept G I (actions ++ [a]) (log ++ (p.step s a).1) (p.step s a).2 := by
  cases a with
  | start b =>
      rw [show (p.step s (.start b)).1 = [] from rfl, List.append_nil]
      exact hp.kept_start h b
  | resume task input => exact hp.kept_resume h task input

theorem Keeps.kept_run (hp : p.Keeps G I) (h : Kept G I actions log s)
    (actions' : List (Action β α)) :
    Kept G I (actions ++ actions') (log ++ (p.run s actions').1) (p.run s actions').2 := by
  induction actions' generalizing s actions log with
  | nil =>
      rw [run, List.append_nil, List.append_nil]
      exact h
  | cons a actions' ih =>
      have hrest := ih (hp.kept_step h a)
      rw [List.append_assoc, List.append_assoc] at hrest
      rw [run]
      exact hrest

/-- **What every step keeps is kept by a run**, in whatever order the tasks take their turns. -/
theorem Keeps.run (hp : p.Keeps G I) {shared : σ} (h : G [] shared) (actions : List (Action β α)) :
    Kept G I actions (p.run ⟨shared, []⟩ actions).1 (p.run ⟨shared, []⟩ actions).2 := by
  have hinit : Kept G I ([] : List (Action β α)) [] ⟨shared, []⟩ := {
    shared := h
    length := rfl
    tasks := fun i b hi => by cases hi
    known := fun e he => by cases he }
  have hrun := hp.kept_run hinit actions
  rw [List.nil_append, List.nil_append] at hrun
  exact hrun

end Program

end

end Interleaving
