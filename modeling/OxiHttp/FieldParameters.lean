/-
**Parameters of a field value.**

RFC 9110 §5.6: a field value may be a token followed by parameters, each a name and a value, which
is a token or a quoted-string.  In a quoted-string a backslash stands before a character that is
meant as it is.  There are no control characters in it, tabs apart.

Main definitions:

* `Parameters.isQdtext`, `Parameters.quoted` — the characters of a quoted-string, and its reader;
* `Parameters.parse` — the token and the parameters of a field value;
* `Parameters.escape`, `Parameters.render` — writing a quoted-string and a parameter.

Main results:

* `Parameters.quoted_escape` — a quoted-string is read back, and ends where it ends;
* `Parameters.parse_render_iff` — a list of parameters is read back exactly when their values can be
  written.
-/

import Mathlib.Data.List.TakeWhile
import Mathlib.Tactic.Common

set_option relaxedAutoImplicit false
set_option autoImplicit false

namespace Parameters

/-! ### The reader -/

/-- A character of a token (§5.6.2). -/
def isTchar (c : Char) : Bool :=
  c.isAlphanum || "!#$%&'*+-.^_|~".toList.contains c || c = '\x60'

theorem toNat_of_isAlphanum {c : Char} (h : c.isAlphanum = true) :
    48 ≤ c.toNat ∧ c.toNat ≤ 122 := by
  have hranges : ((decide (c.val ≥ 'A'.val ∧ c.val ≤ 'Z'.val) ||
      (decide (c.val ≥ 'a'.val) && decide (c.val ≤ 'z'.val))) ||
        (decide (c.val ≥ '0'.val) && decide (c.val ≤ '9'.val))) = true := h
  simp only [Bool.or_eq_true, Bool.and_eq_true, decide_eq_true_eq, ge_iff_le,
    UInt32.le_iff_toNat_le] at hranges
  rw [Char.toNat]
  grind

/-- It is a printing one. -/
theorem toNat_of_isTchar {c : Char} (h : isTchar c = true) : 33 ≤ c.toNat ∧ c.toNat ≤ 126 := by
  have hmarks : "!#$%&'*+-.^_|~".toList.all fun d => 33 ≤ d.toNat ∧ d.toNat ≤ 126 := by decide
  rw [isTchar, Bool.or_eq_true, Bool.or_eq_true] at h
  rcases h with (h | h) | h
  · have hrange := toNat_of_isAlphanum h
    omega
  · exact of_decide_eq_true (List.all_eq_true.1 hmarks c (List.contains_iff_mem.1 h))
  · rw [of_decide_eq_true h]
    exact ⟨by decide, by decide⟩

/-- A character that a quoted-string has as it is (§5.6.4). -/
def isQdtext (c : Char) : Bool :=
  c = '\t' || c = ' ' || c = '!' || ('#' ≤ c && c ≤ '[') || (']' ≤ c && c ≤ '~') || 0x80 ≤ c.toNat

/-- The characters that can be written in a quoted-string. -/
def Writable (c : Char) : Prop := isQdtext c = true ∨ c = '\x22' ∨ c = '\\'

instance : DecidablePred Writable := fun _ => inferInstanceAs (Decidable (_ ∨ _))

/-- They are all but the control characters, and the tab is one of them. -/
theorem writable_iff {c : Char} : Writable c ↔ (0x20 ≤ c.toNat ∧ c.toNat ≠ 0x7F) ∨ c = '\t' := by
  have hne : ∀ d : Char, c = d ↔ c.toNat = d.toNat := fun d =>
    ⟨congrArg Char.toNat, fun h => Char.toNat_inj.1 h⟩
  have hle : ∀ a b : Char, a ≤ b ↔ a.toNat ≤ b.toNat := fun a b => Iff.rfl
  simp only [Writable, isQdtext, Bool.or_eq_true, Bool.and_eq_true, decide_eq_true_eq, hne, hle]
  simp only [Char.reduceToNat]
  omega

/-- A quoted-string behind its first quote, and what follows it. -/
def quoted : List Char → Option (List Char × List Char)
  | '\x22' :: rest => some ([], rest)
  | '\\' :: c :: rest =>
    if Writable c then (quoted rest).map fun r => (c :: r.1, r.2) else none
  | c :: rest => if isQdtext c then (quoted rest).map fun r => (c :: r.1, r.2) else none
  | [] => none

/-- Spaces and tabs are skipped. -/
def skipOws (s : List Char) : List Char := s.dropWhile fun c => c = ' ' || c = '\t'

/-- A parameter, and what follows it. -/
def parameter (s : List Char) : Option ((List Char × List Char) × List Char) :=
  let name := s.takeWhile isTchar
  if name.isEmpty then none
  else
    match s.dropWhile isTchar with
    | '=' :: '\x22' :: rest => (quoted rest).map fun r => ((name, r.1), r.2)
    | '=' :: rest =>
      let value := rest.takeWhile isTchar
      if value.isEmpty then none else some ((name, value), rest.dropWhile isTchar)
    | _ => none

/-- Less than `fuel` parameters, each behind a semicolon; some of them may be missing. -/
def parameters : ℕ → List Char → Option (List (List Char × List Char))
  | 0, _ => none
  | fuel + 1, s =>
    match skipOws s with
    | [] => some []
    | ';' :: s =>
      match skipOws s with
      | [] => some []
      | ';' :: s => parameters fuel (';' :: s)
      | s => (parameter s).bind fun r => (parameters fuel r.2).map (r.1 :: ·)
    | _ => none

/-- The token of a field value, and its parameters. -/
def parse (s : List Char) : Option (List Char × List (List Char × List Char)) :=
  let token := s.takeWhile isTchar
  if token.isEmpty then none
  else (parameters (s.length + 1) (s.dropWhile isTchar)).map fun ps => (token, ps)

/-! ### The writer -/

/-- The inside of a quoted-string. -/
def escape (s : List Char) : List Char :=
  s.flatMap fun c => if c = '\x22' || c = '\\' then ['\\', c] else [c]

theorem escape_append (a b : List Char) : escape (a ++ b) = escape a ++ escape b :=
  List.flatMap_append

/-- The escaped text has the characters of the text, and backslashes. -/
theorem mem_escape {s : List Char} {c : Char} (h : c ∈ escape s) : c = '\\' ∨ c ∈ s := by
  obtain ⟨d, hd, hc⟩ := List.mem_flatMap.1 h
  split_ifs at hc
  · rcases List.mem_cons.1 hc with hc | hc
    · exact .inl hc
    · exact .inr (List.mem_singleton.1 hc ▸ hd)
  · exact .inr (List.mem_singleton.1 hc ▸ hd)

/-- Without quotes and backslashes it is the text. -/
theorem escape_eq_self {s : List Char} (h : ∀ c ∈ s, c ≠ '\x22' ∧ c ≠ '\\') : escape s = s := by
  induction s with
  | nil => rfl
  | cons c s ih =>
      obtain ⟨hc, hs⟩ := List.forall_mem_cons.1 h
      change (if c = '\x22' || c = '\\' then ['\\', c] else [c]) ++ escape s = c :: s
      rw [if_neg (by simp [hc.1, hc.2]), ih hs, List.singleton_append]

/-- Every escaped character brings a backslash. -/
theorem count_escape (s : List Char) : (escape s).count '\\' =
    s.count '\\' + s.countP fun c => c = '\x22' || c = '\\' := by
  induction s with
  | nil => rfl
  | cons c s ih =>
      have hcons : escape (c :: s) =
          (if c = '\x22' || c = '\\' then ['\\', c] else [c]) ++ escape s := rfl
      rw [hcons, List.count_append, ih, List.count_cons, List.countP_cons]
      by_cases hslash : c = '\\'
      · subst hslash
        simp
        omega
      · by_cases hquote : c = '\x22'
        · subst hquote
          simp
          omega
        · simp [hslash, hquote]

/-- A parameter with a quoted-string. -/
def render (p : List Char × List Char) : List Char :=
  ';' :: ' ' :: (p.1 ++ '=' :: '\x22' :: (escape p.2 ++ ['\x22']))

/-! ### Reading what is written -/

theorem quoted_backslash {c : Char} (hc : Writable c) (rest : List Char) :
    quoted ('\\' :: c :: rest) = (quoted rest).map fun r => (c :: r.1, r.2) := by
  rw [quoted, if_pos hc]

theorem quoted_text {c : Char} (hquote : c ≠ '\x22') (hslash : c ≠ '\\') (hc : isQdtext c = true)
    (rest : List Char) :
    quoted (c :: rest) = (quoted rest).map fun r => (c :: r.1, r.2) := by
  rw [quoted, if_pos hc]
  · exact hquote
  · rintro c' rest' rfl
    exact absurd rfl hslash

/-- A quoted-string is read back, and ends at its own last quote. -/
theorem quoted_escape {s : List Char} (hs : ∀ c ∈ s, Writable c) (rest : List Char) :
    quoted (escape s ++ '\x22' :: rest) = some (s, rest) := by
  induction s with
  | nil => rfl
  | cons c s ih =>
      obtain ⟨hc, hs⟩ := List.forall_mem_cons.1 hs
      rw [escape, List.flatMap_cons, List.append_assoc]
      by_cases hspecial : c = '\x22' ∨ c = '\\'
      · rw [if_pos (by simpa using hspecial)]
        change quoted ('\\' :: c :: (escape s ++ '\x22' :: rest)) = _
        rw [quoted_backslash hc, ih hs]
        rfl
      · rw [if_neg (by simpa using hspecial)]
        rw [not_or] at hspecial
        change quoted (c :: (escape s ++ '\x22' :: rest)) = _
        rw [quoted_text hspecial.1 hspecial.2 (hc.resolve_right (by simpa using hspecial)), ih hs]
        rfl

/-- One that cannot be written is not read at all. -/
theorem quoted_escape_eq_none {s : List Char} (hs : ¬ ∀ c ∈ s, Writable c) (rest : List Char) :
    quoted (escape s ++ '\x22' :: rest) = none := by
  induction s with
  | nil => exact absurd (List.forall_mem_nil _) hs
  | cons c s ih =>
      rw [List.forall_mem_cons, not_and] at hs
      rw [escape, List.flatMap_cons, List.append_assoc]
      by_cases hspecial : c = '\x22' ∨ c = '\\'
      · rw [if_pos (by simpa using hspecial)]
        change quoted ('\\' :: c :: (escape s ++ '\x22' :: rest)) = _
        rw [quoted_backslash (.inr hspecial), ih (hs (.inr hspecial))]
        rfl
      · rw [if_neg (by simpa using hspecial)]
        rw [not_or] at hspecial
        change quoted (c :: (escape s ++ '\x22' :: rest)) = _
        by_cases hc : isQdtext c = true
        · rw [quoted_text hspecial.1 hspecial.2 hc, ih (hs (.inl hc))]
          rfl
        · rw [quoted, if_neg hc]
          · exact hspecial.1
          · rintro c' rest' rfl
            exact absurd rfl hspecial.2

/-- A name that is a token. -/
def IsToken (s : List Char) : Prop := s ≠ [] ∧ ∀ c ∈ s, isTchar c = true

instance (s : List Char) : Decidable (IsToken s) :=
  @instDecidableAnd _ _ _ (List.decidableBAll _ s)

/-- A token is taken up to a character that is none of a token. -/
theorem IsToken.takeWhile_append {s : List Char} (hs : IsToken s) (rest : List Char)
    (hrest : ∀ c ∈ rest.head?, isTchar c = false) :
    (s ++ rest).takeWhile isTchar = s ∧ (s ++ rest).dropWhile isTchar = rest := by
  rw [List.takeWhile_append_of_pos hs.2, List.dropWhile_append_of_pos hs.2]
  cases rest with
  | nil => exact ⟨List.append_nil _, rfl⟩
  | cons c rest =>
      have hc := hrest c rfl
      rw [List.takeWhile_cons_of_neg (by simp [hc]), List.dropWhile_cons_of_neg (by simp [hc])]
      exact ⟨List.append_nil _, rfl⟩

/-- A parameter is read as its value is. -/
theorem parameter_render {name : List Char} (hname : IsToken name) (value rest : List Char) :
    parameter (name ++ '=' :: '\x22' :: (escape value ++ '\x22' :: rest)) =
      (quoted (escape value ++ '\x22' :: rest)).map fun r => ((name, r.1), r.2) := by
  obtain ⟨htake, hdrop⟩ := hname.takeWhile_append ('=' :: '\x22' :: (escape value ++
    '\x22' :: rest)) (by rintro c ⟨⟩; decide)
  rw [parameter, htake, hdrop, if_neg (by simpa using hname.1)]
  rfl

/-- Behind a semicolon and a space a parameter begins with the next token character. -/
theorem parameters_semicolon {c : Char} (hc : isTchar c = true) (fuel : ℕ) (s : List Char) :
    parameters (fuel + 1) (';' :: ' ' :: c :: s) = (parameter (c :: s)).bind fun r =>
      (parameters fuel r.2).map (r.1 :: ·) := by
  have hne : ∀ d, isTchar d = false → c ≠ d := by
    rintro d hd rfl
    rw [hc] at hd
    cases hd
  have hspace : c ≠ ' ' := hne _ (by decide)
  have htab : c ≠ '\t' := hne _ (by decide)
  have hskip : skipOws (' ' :: c :: s) = c :: s := by
    rw [skipOws, List.dropWhile_cons_of_pos (by decide),
      List.dropWhile_cons_of_neg (by simp [hspace, htab])]
  have hfirst : skipOws (';' :: ' ' :: c :: s) = ';' :: ' ' :: c :: s :=
    List.dropWhile_cons_of_neg (by decide)
  rw [parameters, hfirst]
  simp only [hskip]
  split
  · rename_i h
    cases h
  · rename_i h
    exact absurd (List.cons.inj h).1 (hne _ (by decide))
  · rfl

/-- The first of several written parameters is read first. -/
theorem parameters_render_cons {p : List Char × List Char} (hname : IsToken p.1)
    (ps : List (List Char × List Char)) (fuel : ℕ) :
    parameters (fuel + 1) ((p :: ps).flatMap render) =
      (quoted (escape p.2 ++ '\x22' :: ps.flatMap render)).bind fun r =>
        (parameters fuel r.2).map ((p.1, r.1) :: ·) := by
  obtain ⟨c, name, hcons⟩ := List.exists_cons_of_ne_nil hname.1
  have hc : isTchar c = true := hname.2 c (by rw [hcons]; exact List.mem_cons_self)
  have hrender : (p :: ps).flatMap render = ';' :: ' ' :: (p.1 ++ '=' :: '\x22' ::
      (escape p.2 ++ '\x22' :: ps.flatMap render)) := by
    simp [render]
  rw [hrender, hcons, List.cons_append, parameters_semicolon hc, ← List.cons_append, ← hcons,
    parameter_render hname, Option.bind_map]
  rfl

/-- Written parameters are read back. -/
theorem parameters_render {ps : List (List Char × List Char)} (hnames : ∀ p ∈ ps, IsToken p.1)
    (hps : ∀ p ∈ ps, ∀ c ∈ p.2, Writable c) {fuel : ℕ} (hfuel : ps.length < fuel) :
    parameters fuel (ps.flatMap render) = some ps := by
  induction ps generalizing fuel with
  | nil =>
      cases fuel with
      | zero => omega
      | succ fuel => rfl
  | cons p ps ih =>
      obtain ⟨hname, hnames⟩ := List.forall_mem_cons.1 hnames
      obtain ⟨hvalue, hps⟩ := List.forall_mem_cons.1 hps
      cases fuel with
      | zero => omega
      | succ fuel =>
          have hrest := ih hnames hps (Nat.lt_of_succ_lt_succ hfuel)
          rw [parameters_render_cons hname, quoted_escape hvalue, Option.bind_some, hrest]
          rfl

/-- One that cannot be written spoils all of them. -/
theorem parameters_render_eq_none {ps : List (List Char × List Char)}
    (hnames : ∀ p ∈ ps, IsToken p.1) (hps : ¬ ∀ p ∈ ps, ∀ c ∈ p.2, Writable c) (fuel : ℕ) :
    parameters fuel (ps.flatMap render) = none := by
  induction ps generalizing fuel with
  | nil => exact absurd (List.forall_mem_nil _) hps
  | cons p ps ih =>
      obtain ⟨hname, hnames⟩ := List.forall_mem_cons.1 hnames
      cases fuel with
      | zero => rfl
      | succ fuel =>
          rw [parameters_render_cons hname]
          by_cases hvalue : ∀ c ∈ p.2, Writable c
          · rw [quoted_escape hvalue, Option.bind_some,
              ih hnames fun h => hps (List.forall_mem_cons.2 ⟨hvalue, h⟩)]
            rfl
          · rw [quoted_escape_eq_none hvalue]
            rfl

theorem length_le_length_flatMap_render (ps : List (List Char × List Char)) :
    ps.length ≤ (ps.flatMap render).length := by
  induction ps with
  | nil => exact le_rfl
  | cons p ps ih =>
      rw [List.flatMap_cons, List.length_append, List.length_cons, render, List.length_cons]
      omega

/-- **A token and written parameters are read back exactly when the values have no control
characters**, tabs apart. -/
theorem parse_render_iff {token : List Char} (htoken : IsToken token)
    {ps : List (List Char × List Char)} (hnames : ∀ p ∈ ps, IsToken p.1) :
    parse (token ++ ps.flatMap render) = some (token, ps) ↔ ∀ p ∈ ps, ∀ c ∈ p.2, Writable c := by
  obtain ⟨htake, hdrop⟩ := htoken.takeWhile_append (ps.flatMap render) (by
    cases ps with
    | nil => rintro c ⟨⟩
    | cons p ps =>
        rintro c ⟨⟩
        decide)
  have hfuel : ps.length < (token ++ ps.flatMap render).length + 1 := by
    have := length_le_length_flatMap_render ps
    rw [List.length_append]
    omega
  rw [parse, htake, hdrop, if_neg (by simpa using htoken.1)]
  constructor
  · intro h
    by_contra hps
    rw [parameters_render_eq_none hnames hps] at h
    cases h
  · intro hps
    rw [parameters_render hnames hps hfuel]
    rfl

end Parameters
