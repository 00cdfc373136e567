/-
**Reading a multipart body.**

RFC 2046 §5.1 takes a multipart body line by line.  A line that begins with two hyphens and the
boundary delimits the parts, and the one where two more hyphens follow ends the last of them; the
line end before a delimiter belongs to the delimiter.  What stands before the first delimiter and
after the last is no part.  The lines of a part up to the first empty one are its header lines, and
the rest is its content.

Main definitions:

* `Mime.lines` — the lines of a body;
* `Mime.LinePart`, `Mime.LinePart.Fits` — a part as its receiver sees it, and when it can be sent
  under a boundary;
* `Mime.decode` — the parts of a body;
* `Mime.field` — the name and the body of a header line.

Main results:

* `Mime.lines_append_crlf` — a line end in front of a text is a line end, whatever the text before
  it ends in;
* `Mime.decode_assemble` — parts that fit the boundary are read back from the body they are
  assembled into.
-/

import OxiHttp.Mime

set_option relaxedAutoImplicit false
set_option autoImplicit false

namespace Mime

/-! ### Lines -/

/-- The lines of a body: what stands before, between and after its line ends. -/
def lines : List UInt8 → List (List UInt8)
  | [] => [[]]
  | 0x0D :: 0x0A :: bs => [] :: lines bs
  | b :: bs => (lines bs).modifyHead (b :: ·)

@[simp] theorem lines_nil : lines [] = [[]] := rfl

@[simp] theorem lines_crlf (bs : List UInt8) : lines (0x0D :: 0x0A :: bs) = [] :: lines bs := rfl

theorem lines_cons {b : UInt8} {bs : List UInt8} (h : b = 0x0D → bs.head? ≠ some 0x0A) :
    lines (b :: bs) = (lines bs).modifyHead (b :: ·) := by
  rw [lines]
  rintro t rfl rfl
  exact h rfl rfl

/-- Induction along the lines of a body. -/
@[elab_as_elim]
theorem lineInduction {P : List UInt8 → Prop} (nil : P [])
    (crlf : ∀ bs, P bs → P (0x0D :: 0x0A :: bs))
    (byte : ∀ b bs, (b = 0x0D → bs.head? ≠ some 0x0A) → P bs → P (b :: bs)) (bs : List UInt8) :
    P bs := by
  induction bs using lines.induct with
  | case1 => exact nil
  | case2 bs ih => exact crlf bs ih
  | case3 b bs h ih =>
      refine byte b bs (fun hb hhead => ?_) ih
      obtain ⟨t, rfl⟩ := List.head?_eq_some_iff.1 hhead
      exact h t hb rfl

theorem lines_ne_nil (bs : List UInt8) : lines bs ≠ [] := by
  induction bs using lineInduction with
  | nil => simp
  | crlf bs ih => simp
  | byte b bs h ih => simpa [lines_cons h] using ih

/-- A line end separates the lines before it from those after it. -/
theorem lines_append_crlf (a b : List UInt8) : lines (a ++ crlf ++ b) = lines a ++ lines b := by
  rw [List.append_assoc]
  induction a using lineInduction with
  | nil => rfl
  | crlf a ih => simpa using ih
  | byte x a h ih =>
      -- a carriage return before the line end does not form one with it
      have hx : x = 0x0D → (a ++ (crlf ++ b)).head? ≠ some 0x0A := by
        intro hx
        cases a with
        | nil => simp [crlf]
        | cons y a => simpa using h hx
      rw [List.cons_append, lines_cons hx, ih, lines_cons h]
      cases ha : lines a with
      | nil => exact absurd ha (lines_ne_nil a)
      | cons l ls => rfl

/-- A text without carriage returns is one line. -/
theorem lines_of_notMem {l : List UInt8} (h : 0x0D ∉ l) : lines l = [l] := by
  induction l with
  | nil => rfl
  | cons b l ih =>
      rw [List.mem_cons, not_or] at h
      rw [lines_cons fun hb => absurd hb.symm h.1, ih h.2]
      rfl

/-- The lines with their ends are the body. -/
theorem intercalate_lines (bs : List UInt8) : crlf.intercalate (lines bs) = bs := by
  induction bs using lineInduction with
  | nil => rfl
  | crlf bs ih =>
      rw [lines_crlf]
      cases hl : lines bs with
      | nil => exact absurd hl (lines_ne_nil bs)
      | cons l ls =>
          rw [hl] at ih
          rw [List.intercalate_cons_cons, ih]
          rfl
  | byte b bs h ih =>
      rw [lines_cons h]
      cases hl : lines bs with
      | nil => exact absurd hl (lines_ne_nil bs)
      | cons l ls =>
          rw [hl] at ih
          cases ls with
          | nil =>
              rw [List.intercalate_singleton] at ih
              rw [List.modifyHead_cons, List.intercalate_singleton, ih]
          | cons l' ls =>
              rw [List.intercalate_cons_cons] at ih
              rw [List.modifyHead_cons, List.intercalate_cons_cons, List.cons_append,
                List.cons_append, ih]

/-- What is joined stands in the result. -/
theorem infix_intercalate {sep l : List UInt8} {ls : List (List UInt8)} (h : l ∈ ls) :
    l <:+: sep.intercalate ls := by
  induction ls with
  | nil => cases h
  | cons x ls ih =>
      cases ls with
      | nil =>
          obtain rfl := List.mem_singleton.1 h
          exact ⟨[], [], by rw [List.intercalate_singleton, List.nil_append, List.append_nil]⟩
      | cons y ls =>
          rw [List.intercalate_cons_cons]
          rcases List.mem_cons.1 h with rfl | h
          · exact ⟨[], sep ++ sep.intercalate (y :: ls), by simp⟩
          · exact (ih h).trans (List.suffix_append _ _).isInfix

/-- A line of a body stands in it. -/
theorem infix_of_mem_lines {bs l : List UInt8} (h : l ∈ lines bs) : l <:+: bs := by
  have hjoin : l <:+: crlf.intercalate (lines bs) := infix_intercalate h
  rwa [intercalate_lines] at hjoin

/-! ### Parts -/

/-- A part as its receiver sees it: its header lines without their ends, and its content. -/
structure LinePart where
  headerLines : List (List UInt8)
  content : List UInt8
deriving DecidableEq, Repr

/-- The part with its header lines ended. -/
def LinePart.toBodyPart (p : LinePart) : BodyPart where
  header := p.headerLines.flatMap (· ++ crlf)
  content := p.content

/-- The line delimits parts. -/
def isDelimiter (boundary line : List UInt8) : Bool := (dashes ++ boundary).isPrefixOf line

/-- The line delimits the last part. -/
def isClose (boundary line : List UInt8) : Bool := (dashes ++ boundary ++ dashes).isPrefixOf line

/-- The part can be sent under the boundary: its header lines are lines and not empty, and no line
of it delimits parts. -/
structure LinePart.Fits (boundary : List UInt8) (p : LinePart) : Prop where
  line : ∀ l ∈ p.headerLines, l ≠ [] ∧ 0x0D ∉ l
  header : ∀ l ∈ p.headerLines, isDelimiter boundary l = false
  content : ∀ l ∈ lines p.content, isDelimiter boundary l = false

/-- The lines up to the first delimiter, and the lines of each part after it; `none` when no
delimiter ends the last part. -/
def sections (boundary : List UInt8) : List (List UInt8) →
    Option (List (List UInt8) × List (List (List UInt8)))
  | [] => none
  | l :: ls =>
      if isClose boundary l then some ([], [])
      else (sections boundary ls).map fun r =>
        if isDelimiter boundary l then ([], r.1 :: r.2) else (l :: r.1, r.2)

/-- The part with these lines. -/
def partOfLines (ls : List (List UInt8)) : LinePart where
  headerLines := ls.takeWhile (· ≠ [])
  content := crlf.intercalate ((ls.dropWhile (· ≠ [])).drop 1)

/-- The parts of a body. -/
def decode (boundary body : List UInt8) : Option (List LinePart) :=
  (sections boundary (lines body)).map fun r => r.2.map partOfLines

/-- The name of a header line and what follows the colon. -/
def field (line : List UInt8) : List UInt8 × List UInt8 :=
  (line.takeWhile (· ≠ 0x3A), (line.dropWhile (· ≠ 0x3A)).drop 1)

theorem isClose_isDelimiter {boundary l : List UInt8} (h : isClose boundary l = true) :
    isDelimiter boundary l = true := by
  rw [isClose, List.isPrefixOf_iff_prefix] at h
  rw [isDelimiter, List.isPrefixOf_iff_prefix]
  exact (List.prefix_append _ _).trans h

/-- Lines that delimit nothing belong to what is collected. -/
theorem sections_append {boundary : List UInt8} {ls : List (List UInt8)}
    (h : ∀ l ∈ ls, isDelimiter boundary l = false) (rest : List (List UInt8)) :
    sections boundary (ls ++ rest)
      = (sections boundary rest).map fun r => (ls ++ r.1, r.2) := by
  induction ls with
  | nil => simp
  | cons l ls ih =>
      have hl := h l List.mem_cons_self
      have hclose : isClose boundary l = false := by
        by_contra hc
        rw [isClose_isDelimiter (by simpa using hc)] at hl
        cases hl
      rw [List.cons_append, sections, if_neg (by simp [hclose]),
        ih fun l' hl' => h l' (List.mem_cons_of_mem _ hl')]
      simp [hl, Option.map_map, Function.comp_def]

/-- The header lines with their ends are lines. -/
theorem lines_header {ls : List (List UInt8)} (h : ∀ l ∈ ls, 0x0D ∉ l) (rest : List UInt8) :
    lines (ls.flatMap (· ++ crlf) ++ rest) = ls ++ lines rest := by
  induction ls with
  | nil => rfl
  | cons l ls ih =>
      rw [List.flatMap_cons, List.append_assoc, lines_append_crlf,
        lines_of_notMem (h l List.mem_cons_self),
        ih fun l' hl' => h l' (List.mem_cons_of_mem _ hl')]
      rfl

/-- The lines of a part, as they are sent. -/
def LinePart.lines (p : LinePart) : List (List UInt8) := p.headerLines ++ [] :: Mime.lines p.content

theorem partOfLines_lines {p : LinePart} (h : ∀ l ∈ p.headerLines, l ≠ []) :
    partOfLines p.lines = p := by
  have htake : p.lines.takeWhile (· ≠ []) = p.headerLines := by
    rw [LinePart.lines, List.takeWhile_append_of_pos (by simpa using h)]
    simp
  have hdrop : p.lines.dropWhile (· ≠ []) = [] :: Mime.lines p.content := by
    rw [LinePart.lines, List.dropWhile_append_of_pos (by simpa using h)]
    simp
  rw [partOfLines, htake, hdrop, List.drop_succ_cons, List.drop_zero, intercalate_lines]

/-- The lines of a body that begins with a part. -/
theorem lines_assemble_cons {boundary : List UInt8} (hb : 0x0D ∉ boundary) {p : LinePart}
    (hp : ∀ l ∈ p.headerLines, 0x0D ∉ l) (ps : List BodyPart) :
    lines (assemble boundary (p.toBodyPart :: ps))
      = (dashes ++ boundary) :: (p.lines ++ lines (assemble boundary ps)) := by
  have hdash : 0x0D ∉ dashes ++ boundary := by simpa [dashes] using hb
  have hassoc : assemble boundary (p.toBodyPart :: ps)
      = dashes ++ boundary ++ crlf ++ (p.headerLines.flatMap (· ++ crlf) ++
          ([] ++ crlf ++ (p.content ++ crlf ++ assemble boundary ps))) := by
    simp only [assemble, LinePart.toBodyPart, List.append_assoc, List.nil_append]
  rw [hassoc, lines_append_crlf, lines_of_notMem hdash, lines_header hp, lines_append_crlf,
    lines_append_crlf, LinePart.lines]
  simp

/-- The lines of a body without parts. -/
theorem lines_assemble_nil {boundary : List UInt8} (hb : 0x0D ∉ boundary) :
    lines (assemble boundary []) = [dashes ++ boundary ++ dashes, []] := by
  have hdash : 0x0D ∉ dashes ++ boundary ++ dashes := by simpa [dashes] using hb
  have h := lines_append_crlf (dashes ++ boundary ++ dashes) []
  rw [List.append_nil, lines_of_notMem hdash] at h
  exact h

/-- Parts that fit the boundary are read back, in order, from the body they are assembled into. -/
theorem decode_assemble {boundary : List UInt8} (hb : 0x0D ∉ boundary) {ps : List LinePart}
    (h : ∀ p ∈ ps, p.Fits boundary) :
    decode boundary (assemble boundary (ps.map LinePart.toBodyPart)) = some ps := by
  have hdelim : isDelimiter boundary (dashes ++ boundary) = true :=
    List.isPrefixOf_iff_prefix.2 (List.prefix_refl _)
  have hopen : isClose boundary (dashes ++ boundary) = false := by
    rw [isClose, ← Bool.not_eq_true, List.isPrefixOf_iff_prefix]
    intro hp
    have hlen := hp.length_le
    simp only [List.length_append, dashes, List.length_cons, List.length_nil] at hlen
    omega
  have hclose : isClose boundary (dashes ++ boundary ++ dashes) = true :=
    List.isPrefixOf_iff_prefix.2 (List.prefix_refl _)
  -- the lines before the first delimiter are none, and those after it are the parts
  suffices hsections : sections boundary (lines (assemble boundary (ps.map LinePart.toBodyPart)))
      = some ([], ps.map LinePart.lines) by
    rw [decode, hsections, Option.map_some, List.map_map]
    congr 1
    refine (List.map_congr_left fun p hp => ?_).trans (List.map_id ps)
    exact partOfLines_lines fun l hl => ((h p hp).line l hl).1
  induction ps with
  | nil =>
      rw [List.map_nil, lines_assemble_nil hb, sections, if_pos hclose]
      rfl
  | cons p ps ih =>
      have hp := h p List.mem_cons_self
      have hlines : ∀ l ∈ p.lines, isDelimiter boundary l = false := by
        intro l hl
        rcases List.mem_append.1 hl with hl | hl
        · exact hp.header l hl
        rcases List.mem_cons.1 hl with rfl | hl
        · simp [isDelimiter, dashes]
        · exact hp.content l hl
      rw [List.map_cons, lines_assemble_cons hb fun l hl => (hp.line l hl).2, sections,
        if_neg (by simp [hopen]), sections_append hlines,
        ih fun p' hp' => h p' (List.mem_cons_of_mem _ hp')]
      simp [hdelim]

end Mime
