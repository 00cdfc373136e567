/-
**Multipart bodies.**

RFC 2046 §5.1: the parts of a body are separated by lines that begin with two hyphens and the
boundary, the last of which ends with two more.  A receiver that is told another boundary does not
find them.

Main definitions:

* `Mime.BodyPart` — the header lines and the content of a part;
* `Mime.assemble` — the body with these parts under a boundary.

Main results:

* `Mime.assemble_head` — what follows the first boundary;
* `Mime.not_initial_of_longer` — under a longer boundary a body does not begin like one under the
  shorter.
-/

import Mathlib.Data.List.Basic
import Mathlib.Tactic.Common

set_option relaxedAutoImplicit false
set_option autoImplicit false

namespace Mime

/-- A part: its header lines, each with its line end, and its content. -/
structure BodyPart where
  header : List UInt8
  content : List UInt8
deriving DecidableEq, Repr

/-- The line end. -/
def crlf : List UInt8 := [0x0D, 0x0A]

/-- The two hyphens before a boundary, and after the last one. -/
def dashes : List UInt8 := [0x2D, 0x2D]

/-- The body with these parts. -/
def assemble (boundary : List UInt8) : List BodyPart → List UInt8
  | [] => dashes ++ boundary ++ dashes ++ crlf
  | p :: ps =>
      dashes ++ boundary ++ crlf ++ p.header ++ crlf ++ p.content ++ crlf ++ assemble boundary ps

/-- The first boundary ends the line or is the last one. -/
theorem assemble_head (boundary : List UInt8) (ps : List BodyPart) :
    ∃ b rest, assemble boundary ps = dashes ++ boundary ++ b :: rest ∧ (b = 0x0D ∨ b = 0x2D) := by
  cases ps with
  | nil => exact ⟨0x2D, 0x2D :: crlf, by simp [assemble, dashes], .inr rfl⟩
  | cons p ps =>
      exact ⟨0x0D, 0x0A :: (p.header ++ crlf ++ p.content ++ crlf ++ assemble boundary ps),
        by simp [assemble, crlf], .inl rfl⟩

/-- A body does not begin with its boundary and a byte that belongs to a longer one. -/
theorem not_initial_of_longer {boundary s : List UInt8} {b : UInt8} (hcr : b ≠ 0x0D)
    (hdash : b ≠ 0x2D) (hs : dashes ++ boundary ++ [b] <+: s) (ps : List BodyPart) :
    ¬ s <+: assemble boundary ps := by
  intro h
  obtain ⟨c, rest, heq, hc⟩ := assemble_head boundary ps
  rw [heq] at h
  -- the two differ in the byte after the boundary
  have hb : [b] <+: c :: rest := (List.prefix_append_right_inj _).1 (hs.trans h)
  obtain rfl : b = c := (List.cons_prefix_cons.1 hb).1
  exact hc.elim hcr hdash

end Mime
