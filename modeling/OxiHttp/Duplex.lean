/-
**Two parties on a connection.**

Each party is a program that writes bytes and reads as many as it asks for.  What one of them writes
is on its way for a while, arrives in pieces of any size, and is read then.  Which of the two goes on,
and when something arrives, is not in their hands.

It does not matter either: all runs of two parties end, and end in the same state.  What a party has
become is what it makes alone of all bytes that the other one has written.

Main definitions:

* `Duplex.Party`, `Duplex.Party.alone` — a party, and what it does with some input;
* `Duplex.Program` — a party that can fail, put together from what it says and what it hears;
* `Duplex.Step` — one step of two of them.

Main results:

* `Duplex.wellFounded_step`, `Duplex.step_confluent` — runs end, and in the same state;
* `Duplex.Ends.of_runs` — so that one run says what becomes of all of them;
* `Duplex.Reached.alone` — what becomes of one of the two.
-/

import Mathlib.Data.List.Basic
import Mathlib.Logic.Relation
import Mathlib.Order.WellFounded

set_option relaxedAutoImplicit false
set_option autoImplicit false

namespace Duplex

open Relation (ReflGen ReflTransGen)

variable {β ρ σ : Type}

/-! ### Parties -/

/-- A party: it has ended, or writes bytes, or waits for as many bytes as it asks for. -/
inductive Party (β ρ : Type) where
  | done (r : ρ)
  | write (bs : List β) (next : Party β ρ)
  | read (n : ℕ) (next : List β → Party β ρ)

namespace Party

/-- What a party does with some input: how it ends, if it does, what it leaves unread, and what it
writes. -/
def alone : Party β ρ → List β → Option ρ × List β × List β
  | done r, input => (some r, input, [])
  | write bs next, input =>
      ((next.alone input).1, (next.alone input).2.1, bs ++ (next.alone input).2.2)
  | read n next, input =>
      if n ≤ input.length then (next (input.take n)).alone (input.drop n) else (none, input, [])

/-- The party after it has read and written something. -/
inductive After : Party β ρ → List β → List β → Party β ρ → Prop
  | refl (p : Party β ρ) : After p [] [] p
  | write {p : Party β ρ} {c w : List β} {bs : List β} {next : Party β ρ} :
      After p c w (.write bs next) → After p c (w ++ bs) next
  | read {p : Party β ρ} {c w : List β} {next : List β → Party β ρ} (bs : List β) :
      After p c w (.read bs.length next) → After p (c ++ bs) w (next bs)

theorem alone_read (next : List β → Party β ρ) (bs input : List β) :
    (read bs.length next).alone (bs ++ input) = (next bs).alone input := by
  rw [alone, if_pos (by rw [List.length_append]; exact Nat.le_add_right _ _), List.take_left,
    List.drop_left]

/-- What it does then is the rest of what it does. -/
theorem After.alone {p p' : Party β ρ} {c w : List β} (h : After p c w p') (input : List β) :
    p.alone (c ++ input) =
      ((p'.alone input).1, (p'.alone input).2.1, w ++ (p'.alone input).2.2) := by
  induction h generalizing input with
  | refl => rfl
  | write _ ih =>
      rw [ih input, Party.alone, List.append_assoc]
  | read bs _ ih => rw [List.append_assoc, ih (bs ++ input), alone_read]

/-- One step of a party. -/
inductive Next : Party β ρ → Party β ρ → Prop
  | write (bs : List β) (next : Party β ρ) : Next next (.write bs next)
  | read (n : ℕ) (next : List β → Party β ρ) (bs : List β) : Next (next bs) (.read n next)

theorem wellFounded_next : WellFounded (Next : Party β ρ → Party β ρ → Prop) := by
  refine ⟨fun p => ?_⟩
  induction p with
  | done r => exact ⟨_, fun q h => (by cases h)⟩
  | write bs next ih =>
      refine ⟨_, fun q h => ?_⟩
      cases h
      exact ih
  | read n next ih =>
      refine ⟨_, fun q h => ?_⟩
      cases h
      exact ih _

end Party

/-! ### Programs -/

namespace Party

variable {ε α γ : Type}

/-- A party that goes on after one that ends with a value. -/
def andThen : Party β (Except ε α) → (α → Party β (Except ε γ)) → Party β (Except ε γ)
  | done (.ok a), f => f a
  | done (.error e), _ => done (.error e)
  | write bs next, f => write bs (andThen next f)
  | read n next, f => read n fun bs => andThen (next bs) f

theorem andThen_done (x : Party β (Except ε α)) : (x.andThen fun a => done (.ok a)) = x := by
  induction x with
  | done r => cases r <;> rfl
  | write bs next ih => rw [andThen, ih]
  | read n next ih =>
      rw [andThen]
      exact congrArg (read n) (funext ih)

/-- What a party does that has ended with a value, failed, or waits. -/
def resume (f : α → Party β (Except ε γ)) : Option (Except ε α) → List β →
    Option (Except ε γ) × List β × List β
  | some (.ok a), input => (f a).alone input
  | some (.error e), input => (some (.error e), input, [])
  | none, input => (none, input, [])

/-- A party goes on with what the part before it has left. -/
theorem alone_andThen (x : Party β (Except ε α)) (f : α → Party β (Except ε γ)) (input : List β) :
    (x.andThen f).alone input =
      ((resume f (x.alone input).1 (x.alone input).2.1).1,
        (resume f (x.alone input).1 (x.alone input).2.1).2.1,
        (x.alone input).2.2 ++ (resume f (x.alone input).1 (x.alone input).2.1).2.2) := by
  induction x generalizing input with
  | done r => cases r <;> rfl
  | write bs next ih => rw [andThen, alone, ih, alone, List.append_assoc]
  | read n next ih =>
      rw [andThen, alone, alone]
      split_ifs with hn
      · exact ih _ _
      · rfl

end Party

/-- A party that ends with a value or fails. -/
def Program (β ε α : Type) : Type := Party β (Except ε α)

namespace Program

variable {ε α γ : Type}

instance : Monad (Program β ε) where
  pure a := Party.done (.ok a)
  bind := Party.andThen

def fail (e : ε) : Program β ε α := Party.done (.error e)

/-- Bytes are written. -/
def say (bs : List β) : Program β ε Unit := Party.write bs (.done (.ok ()))

/-- As many bytes are read. -/
def hear (n : ℕ) : Program β ε (List β) := Party.read n fun bs => .done (.ok bs)

/-- The program reads a value at the head of the input, and says nothing. -/
def Hears (x : Program β ε α) (bs : List β) (a : α) (rest : List β) : Prop :=
  Party.alone x bs = (some (.ok a), rest, [])

theorem hears_pure (a : α) (bs : List β) : Hears (pure a : Program β ε α) bs a bs := rfl

theorem hears_hear {n : ℕ} (bs : List β) (hn : bs.length = n) (rest : List β) :
    Hears (hear n : Program β ε (List β)) (bs ++ rest) bs rest := by
  subst hn
  exact Party.alone_read _ bs rest

theorem Hears.bind {x : Program β ε α} {f : α → Program β ε γ} {bs rest rest' : List β} {a : α}
    {c : γ} (hx : Hears x bs a rest) (hf : Hears (f a) rest c rest') :
    Hears (x >>= f) bs c rest' := by
  have halone := Party.alone_andThen x f bs
  rw [hx] at halone
  refine halone.trans ?_
  change (((Party.alone (f a) rest).1, (Party.alone (f a) rest).2.1,
    [] ++ (Party.alone (f a) rest).2.2) : Option (Except ε γ) × List β × List β) = _
  rw [hf]
  rfl

/-- Bytes are read one by one, after those that are there, until they end as they should; at most one
more than `n`. -/
def hearUntil (stop : List β → Bool) (e : ε) : ℕ → List β → Program β ε (List β)
  | 0, buf => do
      let b ← hear 1
      if stop (buf ++ b) then return buf ++ b else fail e
  | n + 1, buf => do
      let b ← hear 1
      if stop (buf ++ b) then return buf ++ b else hearUntil stop e n (buf ++ b)

/-- What is made of the next byte. -/
theorem alone_hearUntil_cons (stop : List β → Bool) (e : ε) (n : ℕ) (buf : List β) (b : β)
    (input : List β) : Party.alone (hearUntil stop e n buf) (b :: input) =
      if stop (buf ++ [b]) then (some (.ok (buf ++ [b])), input, [])
      else match n with
        | 0 => (some (.error e), input, [])
        | n + 1 => Party.alone (hearUntil stop e n (buf ++ [b])) input := by
  cases n with
  | zero =>
      change Party.alone (if stop (buf ++ [b]) then pure (buf ++ [b]) else fail e :
        Program β ε (List β)) input = _
      split_ifs <;> rfl
  | succ n =>
      change Party.alone (if stop (buf ++ [b]) then pure (buf ++ [b])
        else hearUntil stop e n (buf ++ [b]) : Program β ε (List β)) input = _
      split_ifs <;> rfl

theorem alone_hearUntil_nil (stop : List β → Bool) (e : ε) (n : ℕ) (buf : List β) :
    Party.alone (hearUntil stop e n buf) [] = (none, [], []) := by
  cases n <;> rfl

theorem hears_hearUntil {stop : List β → Bool} {e : ε} {n : ℕ} {buf block : List β}
    (hstop : stop (buf ++ block) = true) (hne : block ≠ []) (hn : block.length ≤ n + 1)
    (hfirst : ∀ p, p <+: block → p ≠ [] → stop (buf ++ p) = true → p = block) (rest : List β) :
    Hears (hearUntil stop e n buf) (block ++ rest) (buf ++ block) rest := by
  induction block generalizing n buf with
  | nil => exact absurd rfl hne
  | cons b block ih =>
      rw [Hears, List.cons_append, alone_hearUntil_cons]
      by_cases hb : stop (buf ++ [b]) = true
      · -- it is the last one
        have heq := hfirst [b] ⟨block, rfl⟩ (List.cons_ne_nil b []) hb
        obtain rfl : [] = block := (List.cons.inj heq).2
        rw [if_pos hb]
        rfl
      · have hmore : block ≠ [] := by
          rintro rfl
          exact hb hstop
        have hpos := List.length_pos_of_ne_nil hmore
        rw [List.length_cons] at hn
        obtain ⟨n, rfl⟩ := Nat.exists_eq_add_of_le' (show 1 ≤ n by omega)
        have hassoc : buf ++ b :: block = buf ++ [b] ++ block := by
          rw [List.append_assoc, List.singleton_append]
        rw [if_neg hb]
        rw [hassoc] at hstop ⊢
        refine ih hstop hmore (Nat.le_of_succ_le_succ hn) fun p hp hpne hpstop => ?_
        rw [List.append_assoc] at hpstop
        exact (List.cons.inj (hfirst (b :: p) (List.cons_prefix_cons.2 ⟨rfl, hp⟩)
          (List.cons_ne_nil b p) hpstop)).2

end Program

/-! ### The connection -/

/-- One end of a connection: the party there, the bytes that have arrived and are not read, and those
that are on their way to it. -/
structure Side (β ρ : Type) where
  party : Party β ρ
  arrived : List β
  coming : List β

/-- A party before anything was said. -/
def Side.start (p : Party β ρ) : Side β ρ := ⟨p, [], []⟩

/-- Bytes are sent to the party. -/
def Side.send (a : Side β ρ) (bs : List β) : Side β ρ := { a with coming := a.coming ++ bs }

/-- Something happens at one end, by which bytes are sent to the other one. -/
inductive Acts : Side β ρ → List β → Side β ρ → Prop
  | write (bs : List β) (next : Party β ρ) (x y : List β) :
      Acts ⟨.write bs next, x, y⟩ bs ⟨next, x, y⟩
  | read (n : ℕ) (next : List β → Party β ρ) (x y : List β) (h : n ≤ x.length) :
      Acts ⟨.read n next, x, y⟩ [] ⟨next (x.take n), x.drop n, y⟩
  | arrive (p : Party β ρ) (x y : List β) (n : ℕ) (hpos : 0 < n) (h : n ≤ y.length) :
      Acts ⟨p, x, y⟩ [] ⟨p, x ++ y.take n, y.drop n⟩

/-- One step of the two. -/
inductive Step : Side β ρ × Side β σ → Side β ρ × Side β σ → Prop
  | left {a a' : Side β ρ} {bs : List β} (h : Acts a bs a') (b : Side β σ) :
      Step (a, b) (a', b.send bs)
  | right {b b' : Side β σ} {bs : List β} (a : Side β ρ) (h : Acts b bs b') :
      Step (a, b) (a.send bs, b')

/-- What is sent to a party meanwhile does not stop it. -/
theorem Acts.send {a a' : Side β ρ} {bs : List β} (h : Acts a bs a') (cs : List β) :
    Acts (a.send cs) bs (a'.send cs) := by
  cases h with
  | write _ next x y => exact .write bs next x (y ++ cs)
  | read n next x y h => exact .read n next x (y ++ cs) h
  | arrive p x y n hpos h =>
      have hle : n ≤ (y ++ cs).length := by
        rw [List.length_append]
        exact h.trans (Nat.le_add_right _ _)
      have hstep := Acts.arrive p x (y ++ cs) n hpos hle
      rwa [List.take_append_of_le_length h, List.drop_append_of_le_length h] at hstep

/-! ### Runs end -/

/-- A step of a party brings it on, or something arrives. -/
theorem Acts.progress {a a' : Side β ρ} {bs : List β} (h : Acts a bs a') :
    Party.Next a'.party a.party ∨
      a'.party = a.party ∧ bs = [] ∧ a'.coming.length < a.coming.length := by
  cases h with
  | write _ next x y => exact .inl (.write bs next)
  | read n next x y h => exact .inl (.read n next _)
  | arrive p x y n hpos h =>
      refine .inr ⟨rfl, rfl, ?_⟩
      dsimp only
      rw [List.length_drop]
      omega

@[simp] theorem Side.send_party (a : Side β ρ) (bs : List β) : (a.send bs).party = a.party := rfl

@[simp] theorem Side.send_nil (a : Side β ρ) : a.send [] = a := by
  rw [send, List.append_nil]

theorem acc_step (p : Party β ρ) (q : Party β σ) (n : ℕ) (a : Side β ρ) (b : Side β σ)
    (ha : a.party = p) (hb : b.party = q) (hn : a.coming.length + b.coming.length = n) :
    Acc (fun c' c : Side β ρ × Side β σ => Step c c') (a, b) := by
  induction p using Party.wellFounded_next.induction generalizing q n a b with
  | _ p ihp =>
  induction q using Party.wellFounded_next.induction generalizing n a b with
  | _ q ihq =>
  induction n using Nat.strong_induction_on generalizing a b with
  | _ n ihn =>
  subst ha hb hn
  refine ⟨_, fun c h => ?_⟩
  cases h with
  | left h =>
      rcases h.progress with hnext | ⟨hparty, rfl, hlt⟩
      · exact ihp _ hnext _ _ _ _ rfl rfl rfl
      · rw [Side.send_nil]
        exact ihn _ (by omega) _ _ hparty rfl rfl
  | right _ h =>
      rcases h.progress with hnext | ⟨hparty, rfl, hlt⟩
      · exact ihq _ hnext _ _ _ rfl rfl rfl
      · rw [Side.send_nil]
        exact ihn _ (by omega) _ _ rfl hparty rfl

/-- **No run goes on for ever.** -/
theorem wellFounded_step :
    WellFounded (fun c' c : Side β ρ × Side β σ => Step c c') :=
  ⟨fun c => acc_step _ _ _ c.1 c.2 rfl rfl rfl⟩

/-! ### Runs end in the same state -/

/-- Two things that can happen at one end: they are the same, or can both happen in any order, or
less arrives and then the rest. -/
theorem Acts.diamond {a a₁ a₂ : Side β ρ} {bs cs : List β} (h₁ : Acts a bs a₁)
    (h₂ : Acts a cs a₂) : (bs = cs ∧ a₁ = a₂) ∨
      ((bs = [] ∨ cs = []) ∧ ∃ d, Acts a₁ cs d ∧ Acts a₂ bs d) ∨
      (bs = [] ∧ cs = [] ∧ (Acts a₁ [] a₂ ∨ Acts a₂ [] a₁)) := by
  have harrive (p : Party β ρ) (x y : List β) {m n : ℕ} (hm : m < n) (hn : n ≤ y.length) :
      Acts ⟨p, x ++ y.take m, y.drop m⟩ [] ⟨p, x ++ y.take n, y.drop n⟩ := by
    have hle : n - m ≤ (y.drop m).length := by
      rw [List.length_drop]
      omega
    have hstep := Acts.arrive p (x ++ y.take m) (y.drop m) (n - m) (Nat.sub_pos_of_lt hm) hle
    rwa [List.append_assoc, ← List.take_add, List.drop_drop, Nat.add_sub_cancel' hm.le] at hstep
  cases h₁ with
  | write _ next x y =>
      cases h₂ with
      | write => exact .inl ⟨rfl, rfl⟩
      | arrive _ _ _ n hpos h =>
          exact .inr (.inl ⟨.inr rfl, _, .arrive next x y n hpos h, .write bs next _ _⟩)
  | read m next x y hm =>
      cases h₂ with
      | read => exact .inl ⟨rfl, rfl⟩
      | arrive _ _ _ n hpos h =>
          refine .inr (.inl ⟨.inl rfl, _, .arrive _ _ y n hpos h, ?_⟩)
          have hle : m ≤ (x ++ y.take n).length := by
            rw [List.length_append]
            exact hm.trans (Nat.le_add_right _ _)
          have hstep := Acts.read m next (x ++ y.take n) (y.drop n) hle
          rwa [List.take_append_of_le_length hm, List.drop_append_of_le_length hm] at hstep
  | arrive p x y m hpos h =>
      cases h₂ with
      | write _ next => exact .inr (.inl ⟨.inl rfl, _, .write cs next _ _, .arrive next x y m hpos h⟩)
      | read n next _ _ hn =>
          refine .inr (.inl ⟨.inl rfl, _, ?_, .arrive _ _ y m hpos h⟩)
          have hle : n ≤ (x ++ y.take m).length := by
            rw [List.length_append]
            exact hn.trans (Nat.le_add_right _ _)
          have hstep := Acts.read n next (x ++ y.take m) (y.drop m) hle
          rwa [List.take_append_of_le_length hn, List.drop_append_of_le_length hn] at hstep
      | arrive _ _ _ n hpos' h' =>
          rcases Nat.lt_trichotomy m n with hlt | rfl | hlt
          · exact .inr (.inr ⟨rfl, rfl, .inl (harrive p x y hlt h')⟩)
          · exact .inl ⟨rfl, rfl⟩
          · exact .inr (.inr ⟨rfl, rfl, .inr (harrive p x y hlt h)⟩)

theorem Side.send_comm (a : Side β ρ) {bs cs : List β} (h : bs = [] ∨ cs = []) :
    (a.send bs).send cs = (a.send cs).send bs := by
  rcases h with rfl | rfl <;> rw [send_nil, send_nil]

theorem step_diamond {a b c : Side β ρ × Side β σ} (hab : Step a b) (hac : Step a c) :
    ∃ d, ReflGen Step b d ∧ ReflTransGen Step c d := by
  cases hab with
  | @left a a₁ bs h₁ b =>
      cases hac with
      | @left _ a₂ cs h₂ =>
          rcases h₁.diamond h₂ with ⟨rfl, rfl⟩ | ⟨hempty, d, hd₁, hd₂⟩ | ⟨rfl, rfl, hmore | hmore⟩
          · exact ⟨_, .refl, .refl⟩
          · refine ⟨(d, (b.send bs).send cs), .single (.left hd₁ _), .single ?_⟩
            rw [b.send_comm hempty]
            exact .left hd₂ _
          · exact ⟨_, .single (by simpa using Step.left hmore (b.send [])), .refl⟩
          · exact ⟨_, .refl, .single (by simpa using Step.left hmore (b.send []))⟩
      | @right _ b₂ cs _ h₂ =>
          exact ⟨(a₁.send cs, b₂.send bs), .single (.right a₁ (h₂.send bs)),
            .single (.left (h₁.send cs) b₂)⟩
  | @right b b₁ bs a h₁ =>
      cases hac with
      | @left _ a₂ cs h₂ _ =>
          exact ⟨(a₂.send bs, b₁.send cs), .single (.left (h₂.send bs) b₁),
            .single (.right a₂ (h₁.send cs))⟩
      | @right _ b₂ cs _ h₂ =>
          rcases h₁.diamond h₂ with ⟨rfl, rfl⟩ | ⟨hempty, d, hd₁, hd₂⟩ | ⟨rfl, rfl, hmore | hmore⟩
          · exact ⟨_, .refl, .refl⟩
          · refine ⟨((a.send bs).send cs, d), .single (.right _ hd₁), .single ?_⟩
            rw [a.send_comm hempty]
            exact .right _ hd₂
          · exact ⟨_, .single (by simpa using Step.right (a.send []) hmore), .refl⟩
          · exact ⟨_, .refl, .single (by simpa using Step.right (a.send []) hmore)⟩

/-- **All runs that end, end in the same state**, and every run can go on to it. -/
theorem step_confluent {a b c : Side β ρ × Side β σ} (hab : ReflTransGen Step a b)
    (hac : ReflTransGen Step a c) (hc : ∀ d, ¬ Step c d) : ReflTransGen Step b c := by
  obtain ⟨d, hbd, hcd⟩ := Relation.church_rosser (fun _ _ _ => step_diamond) hab hac
  rcases Relation.ReflTransGen.cases_head hcd with rfl | ⟨e, he, -⟩
  · exact hbd
  · exact absurd he (hc e)

/-! ### What becomes of a party -/

/-- What each of the two has read is what the other one has written, as far as it has arrived. -/
def Reached (p : Party β ρ) (q : Party β σ) (c : Side β ρ × Side β σ) : Prop :=
  ∃ read read' written written', p.After read written c.1.party ∧
    q.After read' written' c.2.party ∧ written' = read ++ (c.1.arrived ++ c.1.coming) ∧
    written = read' ++ (c.2.arrived ++ c.2.coming)

/-- What happens at one end, with what has been read there and what has been written. -/
theorem Acts.after {a a' : Side β ρ} {bs : List β} (h : Acts a bs a') {p : Party β ρ}
    {c w : List β} (hafter : p.After c w a.party) :
    ∃ more, p.After (c ++ more) (w ++ bs) a'.party ∧
      a.arrived ++ a.coming = more ++ (a'.arrived ++ a'.coming) := by
  cases h with
  | write _ next x y => exact ⟨[], by rw [List.append_nil]; exact hafter.write, rfl⟩
  | read n next x y hn =>
      refine ⟨x.take n, ?_, ?_⟩
      · have hlen : (x.take n).length = n := List.length_take_of_le hn
        rw [List.append_nil]
        exact .read _ (by rw [hlen]; exact hafter)
      · rw [← List.append_assoc, List.take_append_drop]
  | arrive p x y n hpos h =>
      refine ⟨[], by rw [List.append_nil, List.append_nil]; exact hafter, ?_⟩
      dsimp only
      rw [List.nil_append, List.append_assoc, List.take_append_drop]

theorem Reached.step {p : Party β ρ} {q : Party β σ} {c c' : Side β ρ × Side β σ}
    (h : Reached p q c) (hstep : Step c c') : Reached p q c' := by
  obtain ⟨read, read', written, written', hp, hq, hwritten', hwritten⟩ := h
  cases hstep with
  | @left a a' bs hacts b =>
      obtain ⟨more, hp', hmore⟩ := hacts.after hp
      refine ⟨read ++ more, read', written ++ bs, written', hp', hq, ?_, ?_⟩
      · rw [hwritten', hmore, List.append_assoc]
      · rw [hwritten, List.append_assoc, List.append_assoc]
        rfl
  | @right b b' bs a hacts =>
      obtain ⟨more, hq', hmore⟩ := hacts.after hq
      refine ⟨read, read' ++ more, written, written' ++ bs, hp, hq', ?_, ?_⟩
      · rw [hwritten', List.append_assoc, List.append_assoc]
        rfl
      · rw [hwritten, hmore, List.append_assoc]

theorem reached_of_runs {p : Party β ρ} {q : Party β σ} {c : Side β ρ × Side β σ}
    (h : ReflTransGen Step (Side.start p, Side.start q) c) : Reached p q c := by
  induction h with
  | refl => exact ⟨[], [], [], [], .refl p, .refl q, rfl, rfl⟩
  | tail _ hstep ih => exact ih.step hstep

/-- **A party that has ended has made of the other one's bytes what it makes of them alone**, and
what it has not read of them has arrived or is on its way. -/
theorem Reached.alone {p : Party β ρ} {q : Party β σ} {c : Side β ρ × Side β σ}
    (h : Reached p q c) {r : ρ} (hdone : c.1.party = .done r) :
    ∃ written, (∃ read, q.After read written c.2.party) ∧
      (p.alone written).1 = some r ∧ (p.alone written).2.1 = c.1.arrived ++ c.1.coming := by
  obtain ⟨read, read', written, written', hp, hq, rfl, -⟩ := h
  have halone := hp.alone (c.1.arrived ++ c.1.coming)
  rw [hdone] at halone
  exact ⟨_, ⟨read', hq⟩, by rw [halone]; rfl, by rw [halone]; rfl⟩

/-! ### Runs in which everything arrives at once -/

/-- A party with nothing on its way to it. -/
abbrev Side.at (p : Party β ρ) (arrived : List β) : Side β ρ := ⟨p, arrived, []⟩

/-- Both have ended, and all has arrived. -/
structure Ends (c : Side β ρ × Side β σ) (r : ρ) (x : List β) (r' : σ) (y : List β) : Prop where
  runs : ReflTransGen Step c (Side.at (.done r) x, Side.at (.done r') y)

namespace Ends

variable {p : Party β ρ} {q : Party β σ} {x y bs u v : List β} {r : ρ} {r' : σ}

theorem done : Ends (Side.at (.done r : Party β ρ) x, Side.at (.done r' : Party β σ) y) r x r' y :=
  ⟨.refl⟩

theorem of_step {c c' : Side β ρ × Side β σ} (hstep : ReflTransGen Step c c')
    (h : Ends c' r u r' v) : Ends c r u r' v := ⟨hstep.trans h.runs⟩

/-- What is on its way arrives. -/
theorem arrives_left (p : Party β ρ) (x bs : List β) (b : Side β σ) :
    ReflTransGen Step (⟨p, x, bs⟩, b) (Side.at p (x ++ bs), b) := by
  rcases List.eq_nil_or_concat bs with rfl | ⟨l, e, hne⟩
  · rw [List.append_nil]
  · have hpos : 0 < bs.length := by rw [hne, List.length_concat]; exact Nat.succ_pos _
    have hstep := Step.left (Acts.arrive p x bs bs.length hpos le_rfl) b
    rw [List.take_length, List.drop_length, Side.send_nil] at hstep
    exact .single hstep

theorem arrives_right (q : Party β σ) (y bs : List β) (a : Side β ρ) :
    ReflTransGen Step (a, ⟨q, y, bs⟩) (a, Side.at q (y ++ bs)) := by
  rcases List.eq_nil_or_concat bs with rfl | ⟨l, e, hne⟩
  · rw [List.append_nil]
  · have hpos : 0 < bs.length := by rw [hne, List.length_concat]; exact Nat.succ_pos _
    have hstep := Step.right a (Acts.arrive q y bs bs.length hpos le_rfl)
    rw [List.take_length, List.drop_length, Side.send_nil] at hstep
    exact .single hstep

/-- The party on the left writes. -/
theorem left_writes (h : Ends (Side.at p x, Side.at q (y ++ bs)) r u r' v) :
    Ends (Side.at (.write bs p) x, Side.at q y) r u r' v :=
  .of_step (.head (.left (.write bs p x []) _) (arrives_right q y bs _)) h

/-- It reads what has arrived. -/
theorem left_reads {n : ℕ} {next : List β → Party β ρ} (hn : bs.length = n)
    (h : Ends (Side.at (next bs) x, Side.at q y) r u r' v) :
    Ends (Side.at (.read n next) (bs ++ x), Side.at q y) r u r' v := by
  subst hn
  have hstep := Step.left (Acts.read bs.length next (bs ++ x) []
    (by rw [List.length_append]; exact Nat.le_add_right _ _)) (Side.at q y)
  rw [List.take_left, List.drop_left, Side.send_nil] at hstep
  exact .of_step (.single hstep) h

/-- The party on the right writes. -/
theorem right_writes (h : Ends (Side.at p (x ++ bs), Side.at q y) r u r' v) :
    Ends (Side.at p x, Side.at (.write bs q) y) r u r' v :=
  .of_step (.head (.right _ (.write bs q y [])) (arrives_left p x bs _)) h

theorem right_reads {n : ℕ} {next : List β → Party β σ} (hn : bs.length = n)
    (h : Ends (Side.at p x, Side.at (next bs) y) r u r' v) :
    Ends (Side.at p x, Side.at (.read n next) (bs ++ y)) r u r' v := by
  subst hn
  have hstep := Step.right (Side.at p x) (Acts.read bs.length next (bs ++ y) []
    (by rw [List.length_append]; exact Nat.le_add_right _ _))
  rw [List.take_left, List.drop_left, Side.send_nil] at hstep
  exact .of_step (.single hstep) h

/-- A part of the program on the left that comes to its end. -/
theorem left_alone {ε α γ : Type} {f : α → Party β (Except ε γ)} {t : Except ε α}
    {rest w : List β} {s : Except ε γ} {part : Party β (Except ε α)}
    (hpart : part.alone x = (some t, rest, w))
    (h : Ends (Side.at ((Party.done t).andThen f) rest, Side.at q (y ++ w)) s u r' v) :
    Ends (Side.at (part.andThen f) x, Side.at q y) s u r' v := by
  induction part generalizing x y w with
  | done t =>
      cases hpart
      rwa [List.append_nil] at h
  | write bs next ih =>
      obtain ⟨hr, hpart⟩ := Prod.mk.inj hpart
      obtain ⟨hrest, rfl⟩ := Prod.mk.inj hpart
      rw [← List.append_assoc] at h
      exact left_writes (ih (Prod.ext hr (Prod.ext hrest rfl)) h)
  | read n next ih =>
      rw [Party.alone] at hpart
      split_ifs at hpart with hn
      · have hreads : Ends (Side.at (.read n fun bs => (next bs).andThen f)
            (x.take n ++ x.drop n), Side.at q y) s u r' v :=
          left_reads (List.length_take_of_le hn) (ih _ hpart h)
        rwa [List.take_append_drop] at hreads
      · cases hpart

theorem right_alone {ε α γ : Type} {f : α → Party β (Except ε γ)} {t : Except ε α}
    {rest w : List β} {s : Except ε γ} {part : Party β (Except ε α)}
    (hpart : part.alone y = (some t, rest, w))
    (h : Ends (Side.at p (x ++ w), Side.at ((Party.done t).andThen f) rest) r u s v) :
    Ends (Side.at p x, Side.at (part.andThen f) y) r u s v := by
  induction part generalizing x y w with
  | done t =>
      cases hpart
      rwa [List.append_nil] at h
  | write bs next ih =>
      obtain ⟨hr, hpart⟩ := Prod.mk.inj hpart
      obtain ⟨hrest, rfl⟩ := Prod.mk.inj hpart
      rw [← List.append_assoc] at h
      exact right_writes (ih (Prod.ext hr (Prod.ext hrest rfl)) h)
  | read n next ih =>
      rw [Party.alone] at hpart
      split_ifs at hpart with hn
      · have hreads : Ends (Side.at p x, Side.at (.read n fun bs => (next bs).andThen f)
            (y.take n ++ y.drop n)) r u s v :=
          right_reads (List.length_take_of_le hn) (ih _ hpart h)
        rwa [List.take_append_drop] at hreads
      · cases hpart

section Programs

variable {ε α γ : Type} {z : Program β ε α} {f : α → Program β ε γ} {a : α} {rest : List β}
  {s : Except ε γ}

/-- The program on the left reads a value. -/
theorem left_hears (hz : Program.Hears z x a rest)
    (h : Ends (Side.at (f a) rest, Side.at q y) s u r' v) :
    Ends (Side.at (z >>= f : Program β ε γ) x, Side.at q y) s u r' v :=
  left_alone hz (by rwa [List.append_nil])

theorem right_hears (hz : Program.Hears z y a rest)
    (h : Ends (Side.at p x, Side.at (f a) rest) r u s v) :
    Ends (Side.at p x, Side.at (z >>= f : Program β ε γ) y) r u s v :=
  right_alone hz (by rwa [List.append_nil])

/-- It ends with a value that it reads. -/
theorem left_heard {z : Party β (Except ε γ)} {c : γ}
    (hz : z.alone x = (some (.ok c), rest, []))
    (h : Ends (Side.at (.done (.ok c) : Party β (Except ε γ)) rest, Side.at q y) s u r' v) :
    Ends (Side.at z x, Side.at q y) s u r' v := by
  have hends := left_alone hz (f := fun c => .done (.ok c)) (q := q) (by rwa [List.append_nil])
  rwa [Party.andThen_done] at hends

end Programs

/-- Nothing can happen any more. -/
theorem stuck (d : Side β ρ × Side β σ) :
    ¬ Step (Side.at (.done r : Party β ρ) x, Side.at (.done r' : Party β σ) y) d := by
  rintro (⟨h, b⟩ | ⟨a, h⟩) <;> cases h <;> rename_i hpos h <;>
    exact absurd (hpos.trans_le h) (Nat.lt_irrefl 0)

/-- **One run says what becomes of all of them.** -/
theorem of_runs {c c' : Side β ρ × Side β σ} (h : Ends c r u r' v)
    (hruns : ReflTransGen Step c c') : Ends c' r u r' v :=
  ⟨step_confluent hruns h.runs stuck⟩

end Ends

end Duplex
