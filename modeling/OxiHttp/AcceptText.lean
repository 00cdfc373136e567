/-
**Reading a list with weights.**

The parsers of `Accept` and of `Accept-Encoding` split the field at its commas and trim the pieces
and what they split off from them.  On a list with weights this gives the elements without the white
space around them.

Main definitions:

* `OxiHttp.acceptParts` — the trimmed pieces of a field;
* `OxiHttp.beforeWeight` — what an element has in front of its semicolon.

Main results:

* `OxiHttp.trim_element`, `OxiHttp.trim_param` — what is left of an element and of its weight;
* `OxiHttp.acceptParts_text` — the pieces of a list are its elements.
-/

import OxiHttp.TextParse
import OxiHttp.Weighted

set_option relaxedAutoImplicit false
set_option autoImplicit false

namespace OxiHttp

/-- The pieces between the commas, trimmed; an empty one is left out. -/
def acceptParts (field : Str) : List Str := ((field.splitOn ',').map trim).filter (· ≠ [])

theorem isWhitespace_of_isOws {c : Char} (h : FieldList.isOws c = true) :
    isWhitespace c = true := by
  rcases Bool.or_eq_true_iff.1 h with h | h
  · rw [beq_iff_eq.1 h]
    rfl
  · rw [beq_iff_eq.1 h]
    rfl

theorem isWhitespace_of_printing {c : Char} (h : 33 ≤ c.toNat ∧ c.toNat ≤ 126) :
    isWhitespace c = false := by
  unfold isWhitespace
  grind

theorem isWhitespace_of_isNameChar {c : Char} (h : Weighted.isNameChar c = true) :
    isWhitespace c = false := isWhitespace_of_printing (Weighted.toNat_of_isNameChar h)

/-- The text of a weight is made of digits and the point. -/
theorem isWhitespace_of_mem_qvalue {q : Weighted.Qvalue} {c : Char} (h : c ∈ q.text) :
    isWhitespace c = false := by
  rcases q.mem_text h with hdigit | rfl
  · have hle := Char.isDigit_iff_toNat.1 hdigit
    have hzero : '0'.toNat = 48 := rfl
    have hnine : '9'.toNat = 57 := rfl
    exact isWhitespace_of_printing (by omega)
  · rfl

theorem trim_qvalue (q : Weighted.Qvalue) : trim q.text = q.text :=
  trim_eq_self (fun _ hc => isWhitespace_of_mem_qvalue (List.mem_of_head? hc))
    fun _ hc => isWhitespace_of_mem_qvalue (List.mem_of_getLast? hc)

theorem isWhitespace_last_qvalue (q : Weighted.Qvalue) {a : Str} {c : Char}
    (h : (a ++ q.text).getLast? = some c) : isWhitespace c = false := by
  rw [List.getLast?_append_of_ne_nil _ (by simp [Weighted.Qvalue.text])] at h
  exact isWhitespace_of_mem_qvalue (List.mem_of_getLast? h)

/-- A weight behind its semicolon. -/
theorem trim_param (w : Weighted.Weight) : trim (w.after ++ w.param) = w.param := by
  have haround := trim_around (fun c hc => isWhitespace_of_isOws (w.after_ows c hc))
    (List.forall_mem_nil _) w.param
  rw [List.append_nil] at haround
  rw [haround]
  refine trim_eq_self (fun c hc => ?_) fun c hc => ?_
  · cases hc
    cases w.capital <;> rfl
  · exact isWhitespace_last_qvalue w.value (a := [_, '=']) hc

namespace Element

variable (e : Weighted.Element)

/-- A name, with white space behind it. -/
theorem trim_name {ows : Str} (h : ∀ c ∈ ows, FieldList.isOws c = true) :
    trim (e.name ++ ows) = e.name := by
  have haround := trim_around (List.forall_mem_nil _)
    (fun c hc => isWhitespace_of_isOws (h c hc)) e.name
  rw [List.nil_append] at haround
  rw [haround]
  exact trim_eq_self
    (fun c hc => isWhitespace_of_isNameChar (e.name_chars c (List.mem_of_head? hc)))
    fun c hc => isWhitespace_of_isNameChar (e.name_chars c (List.mem_of_getLast? hc))

theorem core_ne_nil : e.core ≠ [] := List.append_ne_nil_of_left_ne_nil e.name_ne _

theorem trim_core : trim e.core = e.core := by
  refine trim_eq_self (fun c hc => ?_) fun c hc => ?_
  · rw [Weighted.Element.core, List.head?_append_of_ne_nil _ e.name_ne] at hc
    exact isWhitespace_of_isNameChar (e.name_chars c (List.mem_of_head? hc))
  · unfold Weighted.Element.core at hc
    cases hweight : e.weight with
    | none =>
        rw [hweight, List.append_nil] at hc
        exact isWhitespace_of_isNameChar (e.name_chars c (List.mem_of_getLast? hc))
    | some w =>
        rw [hweight] at hc
        refine isWhitespace_last_qvalue w.value
          (a := e.name ++ w.before ++ ';' :: (w.after ++ [if w.capital then 'Q' else 'q', '='])) ?_
        simpa [Weighted.Weight.text, Weighted.Weight.param] using hc

end Element

/-- What stands in front of the semicolon of an element. -/
def beforeWeight (e : Weighted.Element) : Str :=
  e.name ++ match e.weight with
    | some w => w.before
    | none => []

section Split

variable {e : Weighted.Element} {w : Weighted.Weight}

theorem semicolon_notMem_beforeWeight : ';' ∉ beforeWeight e := by
  intro h
  rcases List.mem_append.1 h with h | h
  · exact absurd (e.name_chars _ h) (by decide)
  · cases hweight : e.weight with
    | none => simp [hweight] at h
    | some w =>
        rw [hweight] at h
        exact absurd (w.before_ows _ h) (by decide)

theorem trim_beforeWeight : trim (beforeWeight e) = e.name := by
  cases hweight : e.weight with
  | none => simpa [beforeWeight, hweight] using Element.trim_name e (List.forall_mem_nil _)
  | some w => simpa [beforeWeight, hweight] using Element.trim_name e w.before_ows

theorem core_of_some (h : e.weight = some w) :
    e.core = beforeWeight e ++ ';' :: (w.after ++ w.param) := by
  simp [Weighted.Element.core, beforeWeight, h, Weighted.Weight.text]

theorem core_of_none (h : e.weight = none) : e.core = e.name := by
  simp [Weighted.Element.core, h]

theorem trim_name (e : Weighted.Element) : trim e.name = e.name := by
  have htrim := Element.trim_name e (List.forall_mem_nil _)
  rwa [List.append_nil] at htrim

theorem splitOnce_name (e : Weighted.Element) : splitOnce ';' e.name = none :=
  splitOnce_eq_none fun h => absurd (e.name_chars _ h) (by decide)

/-- An element is split at the semicolon of its weight. -/
theorem splitOnce_core_of_some (h : e.weight = some w) :
    splitOnce ';' e.core = some (beforeWeight e, w.after ++ w.param) := by
  rw [core_of_some h, splitOnce_append semicolon_notMem_beforeWeight]

theorem splitOnce_core_of_none (h : e.weight = none) : splitOnce ';' e.core = none := by
  rw [core_of_none h, splitOnce_name]

end Split

/-- An element, with the white space around it. -/
theorem trim_element (e : Weighted.Element) : trim e.text = e.core := by
  rw [Weighted.Element.text, trim_around (fun c hc => isWhitespace_of_isOws (e.lead_ows c hc))
    fun c hc => isWhitespace_of_isOws (e.trail_ows c hc)]
  exact Element.trim_core e

/-- A piece that has no element in it. -/
theorem trim_ows {ows : Str} (h : ∀ c ∈ ows, FieldList.isOws c = true) : trim ows = [] := by
  have haround := trim_around (fun c hc => isWhitespace_of_isOws (h c hc))
    (List.forall_mem_nil _) []
  rwa [List.append_nil, List.append_nil] at haround

/-- The elements of a list are the trimmed pieces that are not empty. -/
theorem acceptParts_text (pieces : List Weighted.Piece) :
    acceptParts (Weighted.text pieces) = (Weighted.elements pieces).map Weighted.Element.core := by
  by_cases hnil : pieces = []
  · subst hnil
    rfl
  rw [acceptParts, Weighted.splitOn_text hnil]
  clear hnil
  induction pieces with
  | nil => rfl
  | cons p pieces ih =>
      cases p with
      | blank ows h =>
          rw [List.map_cons, List.map_cons, Weighted.Piece.text, trim_ows h]
          exact ih
      | element e =>
          rw [List.map_cons, List.map_cons, Weighted.Piece.text, trim_element,
            List.filter_cons_of_pos (by simpa using Element.core_ne_nil e), ih]
          rfl

end OxiHttp
