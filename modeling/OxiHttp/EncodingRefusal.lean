/-
**Encodings that a client refuses.**

RFC 9110 §12.5.3: a coding has the weight of its own element of an `Accept-Encoding`, and without
one that of `*`; a weight of zero refuses it.  `negotiate` takes an algorithm as soon as some
element that has its name or `*` is read with a positive weight, so that `*` overrides a refusal,
and the weight behind a capital letter, which is not read, is one.

Main definitions:

* `OxiHttp.CodingList`, `OxiHttp.CodingList.weight` — what a client asks for;
* `OxiHttp.HonoursRefusals` — the first algorithm with a positive weight is chosen;
* `OxiHttp.CodingList.IsMisjudged` — a refused algorithm that an element allows.

Main results:

* `OxiHttp.isAllowed_iff` — the algorithms that are allowed;
* `OxiHttp.honoursRefusals_iff` — refusals are honoured when each algorithm that is misjudged stands
  behind one with a positive weight.
-/

import OxiHttp.AcceptEncoding
import OxiHttp.AcceptText
import OxiHttp.Positions

set_option relaxedAutoImplicit false
set_option autoImplicit false

namespace OxiHttp

/-! ### What a client asks for -/

/-- The value of an `Accept-Encoding`, which lists no coding twice. -/
structure CodingList where
  pieces : List Weighted.Piece
  distinct : ((Weighted.elements pieces).map fun e => lower e.name).Nodup

namespace CodingList

variable (codings : CodingList)

def text : Str := Weighted.text codings.pieces

/-- The element with a name. -/
def element (name : Str) : Option Weighted.Element :=
  (Weighted.elements codings.pieces).find? fun e => lower e.name = name

/-- The weight of an algorithm, in thousandths. -/
def weight (algo : CompressionAlgorithm) : ℕ :=
  match codings.element algo.asStr with
  | some e => e.thousandths
  | none => ((codings.element "*".toList).map Weighted.Element.thousandths).getD 0

end CodingList

/-- The first of the preferred algorithms that has a positive weight is chosen, if there is one. -/
def HonoursRefusals (disorder : SortBy.Disorder AcceptEntry) (codings : CodingList)
    (preferred : List CompressionAlgorithm) : Prop :=
  negotiate disorder codings.text preferred =
    some (preferred.find? fun algo => 0 < codings.weight algo)

/-- The weight of an element stands behind a capital letter. -/
def HasCapital (e : Weighted.Element) : Prop := ∃ w ∈ e.weight, w.capital = true

/-- The element is for the algorithm: it has its name, or stands for any. -/
def IsFor (algo : CompressionAlgorithm) (e : Weighted.Element) : Prop :=
  lower e.name = algo.asStr ∨ lower e.name = "*".toList

/-- The algorithm has a weight of zero, and some element for it has another one, or has its weight
behind a capital letter. -/
def CodingList.IsMisjudged (codings : CodingList) (algo : CompressionAlgorithm) : Prop :=
  codings.weight algo = 0 ∧
    ∃ e ∈ Weighted.elements codings.pieces, IsFor algo e ∧ (0 < e.thousandths ∨ HasCapital e)

/-! ### What is read -/

theorem toLowercase_name {s : Str} (h : ∀ c ∈ s, Weighted.isNameChar c = true) :
    toLowercase s = lower s := by
  induction s with
  | nil => rfl
  | cons c s ih =>
      rw [List.forall_mem_cons] at h
      have hc := (Weighted.toNat_of_isNameChar h.1).2
      have hchar : lowercaseChar c = [c.toLower] := by
        rw [lowercaseChar, if_neg, if_neg]
        · rintro rfl
          exact absurd hc (by decide)
        · rintro rfl
          exact absurd hc (by decide)
      rw [toLowercase, List.flatMap_cons, hchar]
      exact congrArg _ (ih h.2)

/-- The weight as it is read. -/
def readWeight (e : Weighted.Element) : Binary32.Value :=
  match e.weight with
  | some w => if w.capital then Binary32.one else .num (Weighted.units w.value.thousandths)
  | none => Binary32.one

theorem parseWeight_param (w : Weighted.Weight) : parseWeight (w.after ++ w.param) =
    if w.capital then Binary32.one else .num (Weighted.units w.value.thousandths) := by
  rw [parseWeight, trim_param, Weighted.Weight.param]
  cases w.capital with
  | true => rfl
  | false =>
      have hstrip : stripPfx "q=".toList ('q' :: '=' :: w.value.text) = some w.value.text :=
        stripPfx_eq_some_iff.2 rfl
      rw [if_neg Bool.false_ne_true, hstrip, Option.bind_some, w.value.parse_text]
      rfl

/-- An element is read with its name and its weight. -/
theorem parseEntry_core (e : Weighted.Element) :
    parseEntry e.core = some ⟨lower e.name, readWeight e⟩ := by
  have hlower := toLowercase_name e.name_chars
  rw [parseEntry, Element.trim_core, if_neg (Element.core_ne_nil e)]
  cases hweight : e.weight with
  | none =>
      rw [splitOnce_core_of_none hweight]
      simp [core_of_none hweight, trim_name e, hlower, readWeight, hweight]
  | some w =>
      rw [splitOnce_core_of_some hweight]
      simp [trim_beforeWeight, hlower, parseWeight_param, readWeight, hweight]

theorem acceptEntries_eq (s : Str) : acceptEntries s = (acceptParts s).filterMap parseEntry := by
  rw [acceptEntries, acceptParts]
  induction s.splitOn ',' with
  | nil => rfl
  | cons part parts ih =>
      have htrim : parseEntry part = parseEntry (trim part) := by
        simp only [parseEntry, trim_trim]
      by_cases hnil : trim part = []
      · have hnone : parseEntry part = none := by rw [parseEntry, if_pos hnil]
        rw [List.filterMap_cons_none hnone, List.map_cons, hnil]
        exact ih
      · rw [List.filterMap_cons, List.map_cons, List.filter_cons_of_pos (by simpa using hnil),
          List.filterMap_cons, htrim, ih]

theorem acceptEntries_text (pieces : List Weighted.Piece) :
    acceptEntries (Weighted.text pieces) =
      (Weighted.elements pieces).map fun e => ⟨lower e.name, readWeight e⟩ := by
  rw [acceptEntries_eq, acceptParts_text, List.filterMap_map]
  refine (List.filterMap_congr fun e _ => ?_).trans (congrFun List.filterMap_eq_map _)
  exact parseEntry_core e

/-- A weight that is not read as zero is another one, or stands behind a capital letter. -/
theorem isPositive_readWeight (e : Weighted.Element) :
    (readWeight e).IsPositive ↔ 0 < e.thousandths ∨ HasCapital e := by
  have hone : Binary32.one.IsPositive := by
    unfold Binary32.one Binary32.Value.IsPositive
    omega
  cases hweight : e.weight with
  | none => simp [readWeight, Weighted.Element.thousandths, HasCapital, hweight, hone]
  | some w =>
      have hunits : 0 < Weighted.units w.value.thousandths ↔ 0 < w.value.thousandths := by
        have hlt := Weighted.units_lt_iff (j := 0) (by omega) w.value.thousandths_le
        rwa [Weighted.units_zero] at hlt
      cases hcapital : w.capital with
      | true => simp [readWeight, HasCapital, hweight, hcapital, hone]
      | false =>
          simp [readWeight, Weighted.Element.thousandths, HasCapital, hweight, hcapital,
            Binary32.Value.IsPositive, hunits]

/-! ### What is allowed -/

variable {codings : CodingList} {algo : CompressionAlgorithm}

/-- An algorithm with a positive weight has it from an element that is for it. -/
theorem CodingList.exists_of_weight_pos (h : 0 < codings.weight algo) :
    ∃ e ∈ Weighted.elements codings.pieces, IsFor algo e ∧ 0 < e.thousandths := by
  unfold weight at h
  cases hown : codings.element algo.asStr with
  | some e =>
      rw [hown] at h
      exact ⟨e, List.mem_of_find?_eq_some hown, .inl (by simpa using List.find?_some hown), h⟩
  | none =>
      rw [hown] at h
      cases hany : codings.element "*".toList with
      | none =>
          rw [hany] at h
          exact absurd h (Nat.lt_irrefl 0)
      | some e =>
          rw [hany] at h
          exact ⟨e, List.mem_of_find?_eq_some hany, .inr (by simpa using List.find?_some hany), h⟩

/-- The algorithms that are allowed are those with a positive weight and those misjudged. -/
theorem isAllowed_iff : isAllowed (acceptEntries codings.text) algo = true ↔
    0 < codings.weight algo ∨ codings.IsMisjudged algo := by
  have hread : isAllowed (acceptEntries codings.text) algo = true ↔
      ∃ e ∈ Weighted.elements codings.pieces,
        IsFor algo e ∧ (0 < e.thousandths ∨ HasCapital e) := by
    simp [isAllowed, CodingList.text, acceptEntries_text, isPositive_readWeight, IsFor]
  rw [hread]
  constructor
  · intro h
    rcases Nat.eq_zero_or_pos (codings.weight algo) with hzero | hpos
    · exact .inr ⟨hzero, h⟩
    · exact .inl hpos
  · rintro (hpos | ⟨-, h⟩)
    · obtain ⟨e, he, hfor, hweight⟩ := CodingList.exists_of_weight_pos hpos
      exact ⟨e, he, hfor, .inl hweight⟩
    · exact h

variable {disorder : SortBy.Disorder AcceptEntry} {preferred : List CompressionAlgorithm}

/-- There is always an outcome: every weight is read as a number. -/
theorem negotiate_codings : negotiate disorder codings.text preferred =
    some (preferred.find? (isAllowed (acceptEntries codings.text))) := by
  refine negotiate_of_numbers fun entry hentry => ?_
  rw [CodingList.text, acceptEntries_text] at hentry
  obtain ⟨e, -, rfl⟩ := List.mem_map.1 hentry
  intro h
  unfold readWeight Binary32.one at h
  split at h
  · split_ifs at h
  · cases h

/-- Refusals are honoured when in front of each algorithm that is misjudged there is one with a
positive weight. -/
theorem honoursRefusals_iff : HonoursRefusals disorder codings preferred ↔
    ∀ front algo back, preferred = front ++ algo :: back → codings.IsMisjudged algo →
      ∃ other ∈ front, 0 < codings.weight other := by
  have himp : ∀ a, decide (0 < codings.weight a) = true →
      isAllowed (acceptEntries codings.text) a = true := fun a ha =>
    isAllowed_iff.2 (.inl (of_decide_eq_true ha))
  rw [HonoursRefusals, negotiate_codings, Option.some.injEq, Positions.find?_eq_find?_iff himp]
  constructor
  · intro h front algo back heq hmis
    obtain ⟨other, hother, hpos⟩ := h front algo back heq (isAllowed_iff.2 (.inr hmis))
      (by simp [hmis.1])
    exact ⟨other, hother, of_decide_eq_true hpos⟩
  · intro h front algo back heq hallowed hzero
    rcases isAllowed_iff.1 hallowed with hpos | hmis
    · exact absurd hpos (of_decide_eq_false hzero)
    · obtain ⟨other, hother, hpos⟩ := h front algo back heq hmis
      exact ⟨other, hother, decide_eq_true hpos⟩

/-- A client that refuses one coding and takes any other. -/
def anyButGzip : CodingList where
  pieces := [
    .element (.bare "gzip".toList (some .zero) (by decide)),
    .element (.bare "*".toList none (by decide))]
  distinct := by decide

/-- It is sent the one that it refused. -/
theorem not_honoursRefusals_anyButGzip : anyButGzip.text = "gzip;q=0,*".toList ∧
    ¬ HonoursRefusals SortBy.Disorder.panics anyButGzip [.gzip] := by
  refine ⟨by decide, ?_⟩
  have hweight : anyButGzip.weight .gzip = 0 := by decide
  have hallowed : isAllowed (acceptEntries anyButGzip.text) .gzip = true := by
    refine isAllowed_iff.2 (.inr ⟨hweight, _, List.mem_cons_of_mem _ List.mem_cons_self,
      .inr (by decide), .inl (by decide)⟩)
  rw [HonoursRefusals, negotiate_codings]
  simp [hallowed, hweight]

end OxiHttp
