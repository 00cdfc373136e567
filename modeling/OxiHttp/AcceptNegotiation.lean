/-
**Choosing a media type.**

RFC 9110 §12.5.1: a media type has the weight of the most specific range of an `Accept` that matches
it, which is one with its type and subtype, one with its type, or `*/*`; without any it has none.
A server may choose among the types of the greatest weight.

`negotiate_content_type` goes through the ranges by weight, as it reads them, and takes the first
type that one of them matches.  Thus a range hides the more specific ones with smaller weights, and
a weight of zero is one like the others.  A weight is read only where `q` follows the semicolon at
once, and is one otherwise.  The names of types are compared as they are written, but the ranges in
lower case.

Main definitions:

* `OxiHttp.MediaRanges`, `OxiHttp.MediaRanges.weight` — what a client asks for;
* `OxiHttp.FollowsWeights` — a type of the greatest weight is chosen;
* `OxiHttp.readThousandths`, `OxiHttp.firstMatch` — the weight of a range as it is read, and the
  type that it leads to;
* `OxiHttp.Covers`, `OxiHttp.Overtaken` — the types a range is for by name, and the ranges that
  another one for a supported type comes before;
* `OxiHttp.ReadsRightly` — no weight is misread, hidden or zero where it matters.

Main results:

* `OxiHttp.negotiateContentType_ranges` — the choice goes through the ranges in order;
* `OxiHttp.followsWeights_iff` — when the weights are followed;
* `OxiHttp.followsWeights_of_nested` — they are, where no range has a greater weight than a more
  specific one and no white space stands in front of a weight;
* `OxiHttp.negotiateFromHeaders_of_none` — the answer to a request that asks for no type.
-/

import OxiHttp.AcceptSafety
import OxiHttp.Http

set_option relaxedAutoImplicit false
set_option autoImplicit false

namespace OxiHttp

/-! ### What a client asks for -/

/-- A media range: a type and a subtype, either of which may be `*`, the type only with the
subtype. -/
def IsMediaRange (name : Str) : Prop :=
  ∃ type subtype, name = type ++ '/' :: subtype ∧ type ≠ [] ∧ '/' ∉ type ∧ subtype ≠ [] ∧
    '/' ∉ subtype ∧ (type = ['*'] → subtype = ['*'])

/-- The value of an `Accept`. -/
structure MediaRanges where
  pieces : List Weighted.Piece
  isMediaRange : ∀ e ∈ Weighted.elements pieces, IsMediaRange e.name

/-- The range names the type; `ContentType::Xml` has two names. -/
def IsExact (range : Str) (sup : ContentType) : Prop :=
  lower range = lower sup.mimeType ∨ (sup = .xml ∧ lower range = "text/xml".toList)

/-- The range is for all subtypes of the type. -/
def IsForType (range : Str) (sup : ContentType) : Prop :=
  lower range = lower (ContentType.beforeSlash sup.mimeType) ++ "/*".toList

instance (range : Str) (sup : ContentType) : Decidable (IsExact range sup) :=
  inferInstanceAs (Decidable (_ ∨ _))

instance (range : Str) (sup : ContentType) : Decidable (IsForType range sup) :=
  inferInstanceAs (Decidable (_ = _))

namespace MediaRanges

variable (ranges : MediaRanges)

def text : Str := Weighted.text ranges.pieces

def elements : List Weighted.Element := Weighted.elements ranges.pieces

/-- The most specific range that matches a type. -/
def range (sup : ContentType) : Option Weighted.Element :=
  (ranges.elements.find? fun e => IsExact e.name sup).or <|
    (ranges.elements.find? fun e => IsForType e.name sup).or <|
      ranges.elements.find? fun e => e.name = "*/*".toList

/-- The weight of a type, in thousandths. -/
def weight (sup : ContentType) : ℕ := ((ranges.range sup).map Weighted.Element.thousandths).getD 0

/-- The type is of the greatest weight, which is positive. -/
def IsBest (supported : List ContentType) (sup : ContentType) : Prop :=
  sup ∈ supported ∧ 0 < ranges.weight sup ∧
    ∀ other ∈ supported, ranges.weight other ≤ ranges.weight sup

end MediaRanges

/-- A type of the greatest weight is chosen, if any has a positive one. -/
def FollowsWeights (table : UnicodeText.CaseTable)
    (disorder : SortBy.Disorder ContentType.AcceptEntry) (ranges : MediaRanges)
    (supported : List ContentType) : Prop :=
  ∃ outcome, negotiateContentType table disorder ranges.text supported = some outcome ∧
    (∀ sup, outcome = some sup → ranges.IsBest supported sup) ∧
    (outcome = none → ∀ sup ∈ supported, ranges.weight sup = 0)

/-! ### How it is read -/

/-- The weight is found only where the letter follows the semicolon. -/
def readThousandths (e : Weighted.Element) : ℕ :=
  match e.weight with
  | some w => if w.after = [] then w.value.thousandths else 1000
  | none => 1000

/-- The first supported type that a range matches. -/
def firstMatch (supported : List ContentType) (e : Weighted.Element) : Option ContentType :=
  supported.find? fun sup =>
    ContentType.IsMatch (ContentType.canonical (lower e.name)) sup.mimeType

/-- A range is for a type by their names as they are written: in lower case it is the name, or the
name with `*` for what is behind the slash, or it is `*/*`.  The range `text/xml` is for
`application/xml`. -/
def Covers (range : Str) (sup : ContentType) : Prop :=
  lower range = "*/*".toList ∨
    lower range = ContentType.beforeSlash sup.mimeType ++ "/*".toList ∨
    (lower range = sup.mimeType ∧ lower range ≠ "text/xml".toList) ∨
    (lower range = "text/xml".toList ∧ sup.mimeType = "application/xml".toList)

/-- The type is the first of the supported ones that a range is for. -/
def FirstFor (supported : List ContentType) (e : Weighted.Element) (sup : ContentType) : Prop :=
  ∃ before after, supported = before ++ sup :: after ∧ Covers e.name sup ∧
    ∀ other ∈ before, ¬ Covers e.name other

/-- A range for some supported type comes before this one: it is read with a greater weight, or with
the same and stands before it in the field. -/
def Overtaken (ranges : MediaRanges) (supported : List ContentType) (p : Weighted.Element × ℕ) :
    Prop :=
  ∃ q : Weighted.Element × ℕ, ranges.elements[q.2]? = some q.1 ∧
    (∃ sup ∈ supported, Covers q.1.name sup) ∧ SortBy.Before readThousandths q p

/-- What must not happen to the ranges. -/
structure ReadsRightly (ranges : MediaRanges) (supported : List ContentType) : Prop where
  /-- A range that is read with a greater weight than its first type has, since its own weight is
  misread or a more specific range has a smaller one, is overtaken, or no type has a greater
  weight. -/
  overread : ∀ (p : Weighted.Element × ℕ) (sup : ContentType), ranges.elements[p.2]? = some p.1 →
    FirstFor supported p.1 sup → ranges.weight sup < readThousandths p.1 →
      Overtaken ranges supported p ∨
        ∀ other ∈ supported, ranges.weight other ≤ ranges.weight sup
  /-- A range whose first type is refused is overtaken. -/
  refused : ∀ (p : Weighted.Element × ℕ) (sup : ContentType), ranges.elements[p.2]? = some p.1 →
    FirstFor supported p.1 sup → ranges.weight sup = 0 → Overtaken ranges supported p
  /-- A type that its most specific range is not for by name, as it is written with capitals, is not
  needed: there is a range for another one, and those for types of a smaller weight are
  overtaken. -/
  unnamed : ∀ sup ∈ supported, (∀ e ∈ ranges.range sup, ¬ Covers e.name sup) →
    0 < ranges.weight sup →
      (∃ e ∈ ranges.elements, ∃ other ∈ supported, Covers e.name other) ∧
        ∀ (p : Weighted.Element × ℕ) (other : ContentType), ranges.elements[p.2]? = some p.1 →
          FirstFor supported p.1 other → ranges.weight other < ranges.weight sup →
            Overtaken ranges supported p

/-! ### The entries -/

theorem isAscii_of_toNat {c : Char} (h : c.toNat ≤ 127) : Utf8.IsAscii c := by
  rw [Utf8.IsAscii, Char.utf8Size_eq_one_iff, UInt32.le_iff_toNat_le]
  exact h

theorem isAscii_of_isOws {c : Char} (h : FieldList.isOws c = true) : Utf8.IsAscii c := by
  rcases Bool.or_eq_true_iff.1 h with h | h
  · rw [beq_iff_eq.1 h]
    decide
  · rw [beq_iff_eq.1 h]
    decide

theorem isAscii_qvalue {q : Weighted.Qvalue} {c : Char} (h : c ∈ q.text) : Utf8.IsAscii c := by
  rcases q.mem_text h with hdigit | rfl
  · have hle := (Char.isDigit_iff_toNat.1 hdigit).2
    have hnine : '9'.toNat = 57 := rfl
    exact isAscii_of_toNat (by omega)
  · decide

section Pieces

variable {e : Weighted.Element} {w : Weighted.Weight}

theorem isAscii_beforeWeight {c : Char} (h : c ∈ beforeWeight e) : Utf8.IsAscii c := by
  rcases List.mem_append.1 h with h | h
  · have hle := (Weighted.toNat_of_isNameChar (e.name_chars c h)).2
    exact isAscii_of_toNat (by omega)
  · cases hweight : e.weight with
    | none => simp [hweight] at h
    | some w =>
        rw [hweight] at h
        exact isAscii_of_isOws (w.before_ows c h)

theorem isAscii_param {c : Char} (h : c ∈ w.after ++ w.param) : Utf8.IsAscii c := by
  rcases List.mem_append.1 h with h | h
  · exact isAscii_of_isOws (w.after_ows c h)
  · rw [Weighted.Weight.param, List.mem_cons, List.mem_cons] at h
    rcases h with rfl | rfl | h
    · cases w.capital <;> decide
    · decide
    · exact isAscii_qvalue h

theorem semicolon_notMem_param : ';' ∉ w.after ++ w.param := by
  intro h
  rcases List.mem_append.1 h with h | h
  · exact absurd (w.after_ows _ h) (by decide)
  · rw [Weighted.Weight.param, List.mem_cons, List.mem_cons] at h
    rcases h with h | h | h
    · cases hcapital : w.capital <;> simp [hcapital] at h
    · exact absurd h (by decide)
    · exact absurd (w.value.mem_text h) (by decide)

variable (table : UnicodeText.CaseTable)

/-- In lower case a range is as long as it is. -/
theorem lower_beforeWeight (s : Str) (hs : ∀ c ∈ s, Utf8.IsAscii c) :
    table.lower (beforeWeight e ++ s) = lower (beforeWeight e) ++ lower s := by
  have hascii : ∀ c ∈ beforeWeight e ++ s, Utf8.IsAscii c := by
    intro c hc
    rcases List.mem_append.1 hc with h | h
    · exact isAscii_beforeWeight h
    · exact hs c h
  rw [UnicodeText.CaseTable.lower, table.lowerFrom_of_isAscii hascii, List.map_append]
  rfl

theorem length_encode_lower {s : Str} (hs : ∀ c ∈ s, Utf8.IsAscii c) :
    (Utf8.encode (lower s)).length = (Utf8.encode s).length := by
  have hlower : ∀ c ∈ lower s, Utf8.IsAscii c := by
    intro c hc
    obtain ⟨d, hd, rfl⟩ := List.mem_map.1 hc
    exact isAscii_toLower.2 (hs d hd)
  rw [Utf8.length_encode_eq_iff.2 hlower, Utf8.length_encode_eq_iff.2 hs, length_lower]

theorem semicolon_notMem_lower : ';' ∉ lower (beforeWeight e) := by
  rw [mem_lower_iff (by decide)]
  exact semicolon_notMem_beforeWeight

/-- Where the letter follows the semicolon, the weight is found and read. -/
theorem extractQuality_near (h : e.weight = some w) (hafter : w.after = []) :
    extractQuality table e.core =
      some (e.name, .num (Weighted.units w.value.thousandths)) := by
  have hcore := core_of_some h
  have hascii : ∀ c ∈ ';' :: (w.after ++ w.param), Utf8.IsAscii c :=
    List.forall_mem_cons.2 ⟨by decide, fun c => isAscii_param⟩
  have hletter : (if w.capital then 'Q' else 'q').toLower = 'q' := by cases w.capital <;> rfl
  have hlower : table.lower e.core =
      lower (beforeWeight e) ++ (";q=".toList ++ lower w.value.text) := by
    rw [hcore, lower_beforeWeight table _ hascii, hafter, List.nil_append, Weighted.Weight.param,
      lower, lower, List.map_cons, List.map_cons, List.map_cons, hletter]
    rfl
  have hfind : findStr ";q=".toList (table.lower e.core) =
      some (Utf8.encode (beforeWeight e)).length := by
    rw [hlower, findStr]
    refine Option.map_eq_some_iff.2 ⟨_, splitOnceStr_append semicolon_notMem_lower _, ?_⟩
    exact length_encode_lower fun c => isAscii_beforeWeight
  have htake : w.value.text.takeWhile (· ≠ ';') = w.value.text := by
    refine List.takeWhile_eq_self_iff.2 fun c hc => decide_eq_true ?_
    rintro rfl
    exact absurd (w.value.mem_text hc) (by decide)
  refine (extractQuality_eq_some_iff hfind).2 ⟨beforeWeight e,
    [';', if w.capital then 'Q' else 'q', '='], w.value.text, ?_, ?_, rfl, trim_beforeWeight.symm,
    ?_⟩
  · rw [hcore, hafter]
    rfl
  · cases w.capital <;> decide
  · rw [readQuality, htake, trim_qvalue, w.value.parse_text]
    rfl

theorem extractQuality_of_find (h : splitOnceStr ";q=".toList (table.lower e.core) = none) :
    extractQuality table e.core = some (e.core, Binary32.one) := by
  rw [extractQuality, findStr, h, Option.map_none]

/-- Where white space does, it is not found. -/
theorem extractQuality_far (h : e.weight = some w) (hafter : w.after ≠ []) :
    extractQuality table e.core = some (e.core, Binary32.one) := by
  have hascii : ∀ c ∈ ';' :: (w.after ++ w.param), Utf8.IsAscii c :=
    List.forall_mem_cons.2 ⟨by decide, fun c => isAscii_param⟩
  obtain ⟨o, ows, hows⟩ := List.exists_cons_of_ne_nil hafter
  have ho : o.toLower ≠ 'q' := by
    intro hq
    rcases Bool.or_eq_true_iff.1 (w.after_ows o (by simp [hows])) with ho | ho
    · rw [beq_iff_eq.1 ho] at hq
      exact absurd hq (by decide)
    · rw [beq_iff_eq.1 ho] at hq
      exact absurd hq (by decide)
  have hrest : ';' ∉ lower (w.after ++ w.param) := by
    rw [mem_lower_iff (by decide)]
    exact semicolon_notMem_param
  have hnone : splitOnceStr ";q=".toList (lower (';' :: (w.after ++ w.param))) = none := by
    have hlower : lower (';' :: (w.after ++ w.param)) = ';' :: lower (w.after ++ w.param) := rfl
    rw [hlower, splitOnceStr]
    cases hstrip : stripPfx ";q=".toList (';' :: lower (w.after ++ w.param)) with
    | none => exact Option.map_eq_none_iff.2 (splitOnceStr_eq_none hrest)
    | some rest =>
        rw [hows] at hstrip
        have heq : ';' :: o.toLower :: lower (ows ++ w.param) = ';' :: 'q' :: '=' :: rest :=
          stripPfx_eq_some_iff.1 hstrip
        exact absurd (List.cons.inj (List.cons.inj heq).2).1 ho
  refine extractQuality_of_find table ?_
  rw [core_of_some h, lower_beforeWeight table _ hascii]
  exact (splitOnceStr_append_left semicolon_notMem_lower _).trans (congrArg _ hnone)

theorem extractQuality_plain (h : e.weight = none) :
    extractQuality table e.core = some (e.core, Binary32.one) := by
  refine extractQuality_of_find table ?_
  have hcore : e.core = beforeWeight e ++ [] := by simp [beforeWeight, core_of_none h, h]
  have hnil : lower [] = [] := rfl
  rw [hcore, lower_beforeWeight table [] (List.forall_mem_nil _), hnil, List.append_nil]
  exact splitOnceStr_eq_none semicolon_notMem_lower

end Pieces

/-- What is left of a range as its media type. -/
def mimePart (e : Weighted.Element) : Str :=
  match e.weight with
  | some w => if w.after = [] then e.name else e.core
  | none => e.core

/-- The entry of a range. -/
def entryOf (table : UnicodeText.CaseTable) (e : Weighted.Element) : ContentType.AcceptEntry :=
  ⟨ContentType.fromStr table (mimePart e), .num (Weighted.units (readThousandths e))⟩

theorem parsePiece_core (table : UnicodeText.CaseTable) (e : Weighted.Element) :
    parsePiece table e.core = some (entryOf table e) := by
  have hone : Binary32.one = .num (Weighted.units 1000) := by rw [Weighted.units_thousand]; rfl
  rw [parsePiece, entryOf, mimePart, readThousandths]
  cases hweight : e.weight with
  | none => rw [extractQuality_plain table hweight, hone]; rfl
  | some w =>
      by_cases hafter : w.after = []
      · simp only [extractQuality_near table hweight hafter, if_pos hafter]
        rfl
      · simp only [extractQuality_far table hweight hafter, if_neg hafter, hone]
        rfl

theorem essence_name (e : Weighted.Element) : ContentType.essence e.name = e.name := by
  rw [ContentType.essence, trim_name, splitOnce_name]

theorem essence_core (e : Weighted.Element) : ContentType.essence e.core = e.name := by
  cases hweight : e.weight with
  | none => rw [core_of_none hweight, essence_name]
  | some w =>
      rw [ContentType.essence, Element.trim_core, splitOnce_core_of_some hweight]
      exact trim_beforeWeight

/-- The type of an entry is named as the range is, in lower case. -/
theorem mimeType_entryOf (table : UnicodeText.CaseTable) (e : Weighted.Element) :
    (entryOf table e).contentType.mimeType = ContentType.canonical (lower e.name) := by
  have hessence : ContentType.essence (mimePart e) = e.name := by
    rw [mimePart]
    split
    · split_ifs
      · exact essence_name e
      · exact essence_core e
    · exact essence_core e
  have hascii : ∀ c ∈ e.name, Utf8.IsAscii c := fun c hc =>
    isAscii_beforeWeight (List.mem_append_left _ hc)
  rw [entryOf, ContentType.mimeType_fromStr, hessence, UnicodeText.CaseTable.lower,
    table.lowerFrom_of_isAscii hascii]
  rfl

theorem readThousandths_le (e : Weighted.Element) : readThousandths e ≤ 1000 := by
  rw [readThousandths]
  split
  case h_1 w hweight =>
      split_ifs
      · exact w.value.thousandths_le
      · exact le_rfl
  case h_2 => exact le_rfl

/-- The entries are in the order of the weights as they are read. -/
theorem byQuality_entryOf (table : UnicodeText.CaseTable) (a b : Weighted.Element) :
    decide (readThousandths b ≤ readThousandths a) =
      (byQuality (entryOf table a) (entryOf table b) != .gt) := by
  have hunits := Weighted.units_lt_iff (readThousandths_le a) (readThousandths_le b)
  have hcompare : byQuality (entryOf table a) (entryOf table b) =
      compare (Weighted.units (readThousandths b) : ℤ) (Weighted.units (readThousandths a)) :=
    byQuality_num rfl rfl
  have hle : byQuality (entryOf table a) (entryOf table b) ≠ .gt ↔
      readThousandths b ≤ readThousandths a := by
    rw [hcompare, compare_le_iff_le]
    omega
  rw [Bool.eq_iff_iff, decide_eq_true_iff, bne_iff_ne, hle]

/-- The ranges are tried in the order of these weights, and in that of the field for the same. -/
theorem negotiateContentType_ranges (table : UnicodeText.CaseTable)
    (disorder : SortBy.Disorder ContentType.AcceptEntry) (ranges : MediaRanges)
    (supported : List ContentType) :
    negotiateContentType table disorder ranges.text supported =
      some ((ranges.elements.mergeSort fun a b =>
        decide (readThousandths b ≤ readThousandths a)).findSome? (firstMatch supported)) := by
  have hentries : (acceptParts ranges.text).map (parsePiece table) =
      (ranges.elements.map (entryOf table)).map some := by
    rw [MediaRanges.text, acceptParts_text, List.map_map, List.map_map]
    exact List.map_congr_left fun e _ => parsePiece_core table e
  have hsorted := List.map_mergeSort (s := fun a b => byQuality a b != .gt) (f := entryOf table)
    (l := ranges.elements) fun a _ b _ => byQuality_entryOf table a b
  have hnumbers : ∀ entry ∈ ranges.elements.map (entryOf table), entry.quality ≠ .nan := by
    intro entry hentry h
    obtain ⟨e, -, rfl⟩ := List.mem_map.1 hentry
    cases h
  have hparse : parseAccept table disorder ranges.text = _ :=
    parseAccept_of_numbers hentries hnumbers
  rw [negotiateContentType, hparse, Option.map_some, ← hsorted, List.findSome?_map]
  refine congrArg (fun f => some (List.findSome? f _)) ?_
  funext e
  simp only [Function.comp_apply, mimeType_entryOf, firstMatch]

/-! ### The choice -/

variable {table : UnicodeText.CaseTable} {disorder : SortBy.Disorder ContentType.AcceptEntry}
  {ranges : MediaRanges} {supported : List ContentType}

/-- The type of a name in lower case is in lower case. -/
theorem lower_beforeSlash {s : Str} (h : lower s = s) :
    lower (ContentType.beforeSlash s) = ContentType.beforeSlash s := by
  have hfixed : ∀ c ∈ s, c.toLower = id c := List.map_eq_map_iff.1 (h.trans (List.map_id s).symm)
  exact (List.map_congr_left fun c hc => hfixed c (List.takeWhile_subset _ hc)).trans
    (List.map_id _)

theorem beforeSlash_append {type : Str} (h : '/' ∉ type) (s : Str) :
    ContentType.beforeSlash (type ++ '/' :: s) = type := by
  have hall : ∀ c ∈ type, decide (c ≠ '/') = true := by
    intro c hc
    refine decide_eq_true ?_
    rintro rfl
    exact h hc
  rw [ContentType.beforeSlash, List.takeWhile_append_of_pos hall,
    List.takeWhile_cons_of_neg (by simp), List.append_nil]

theorem slash_notMem_beforeSlash (s : Str) : '/' ∉ ContentType.beforeSlash s := by
  intro h
  have := List.mem_takeWhile_imp h
  simp at this

/-- The tests on the names are the ones of the code. -/
theorem isMatch_iff_covers {name : Str} (h : IsMediaRange name) (sup : ContentType) :
    ContentType.IsMatch (ContentType.canonical (lower name)) sup.mimeType ↔ Covers name sup := by
  obtain ⟨type, subtype, rfl, -, htype, -, hsubtype, -⟩ := h
  have hlower : lower (type ++ '/' :: subtype) = lower type ++ '/' :: lower subtype := by
    rw [lower, List.map_append]
    rfl
  have hnone : '/' ∉ lower type ∧ '/' ∉ lower subtype := by
    rw [mem_lower_iff (by decide), mem_lower_iff (by decide)]
    exact ⟨htype, hsubtype⟩
  rw [ContentType.IsMatch, Covers, hlower]
  generalize lower type = t at hnone ⊢
  generalize lower subtype = s at hnone ⊢
  have hstar : ("/*".toList <:+ t ++ '/' :: s ∧
      ContentType.beforeSlash (t ++ '/' :: s) = ContentType.beforeSlash sup.mimeType) ↔
        t ++ '/' :: s = ContentType.beforeSlash sup.mimeType ++ "/*".toList := by
    rw [beforeSlash_append hnone.1]
    constructor
    · rintro ⟨⟨u, hu⟩, hbefore⟩
      -- there is one slash only
      have hfirst := rsplitOnce_append hnone.2 t
      rw [← hu] at hfirst
      have hsecond := rsplitOnce_append (show '/' ∉ ['*'] by decide) u
      have hsame := hsecond.symm.trans hfirst
      rw [Option.some.injEq, Prod.mk.injEq] at hsame
      rw [← hbefore, ← hsame.2]
      rfl
    · intro heq
      have hbefore := congrArg ContentType.beforeSlash heq
      have hright : ContentType.beforeSlash (ContentType.beforeSlash sup.mimeType ++ "/*".toList) =
          ContentType.beforeSlash sup.mimeType := beforeSlash_append (slash_notMem_beforeSlash _) _
      rw [beforeSlash_append hnone.1, hright] at hbefore
      exact ⟨heq ▸ List.suffix_append _ _, hbefore⟩
  by_cases hxml : t ++ '/' :: s = "text/xml".toList
  · have hplain : ContentType.canonical "text/xml".toList = "application/xml".toList := if_pos rfl
    have hnostar : "text/xml".toList ≠
        ContentType.beforeSlash sup.mimeType ++ "/*".toList := by
      intro heq
      have hlast := congrArg List.getLast? heq
      rw [List.getLast?_append_of_ne_nil _ (by decide)] at hlast
      exact absurd hlast (by decide)
    rw [hxml, hplain]
    constructor
    · rintro (h | h | h)
      · exact .inr (.inr (.inr ⟨rfl, h.symm⟩))
      · exact absurd h (by decide)
      · exact absurd h.1 (by decide)
    · rintro (h | h | h | h)
      · exact absurd h (by decide)
      · exact absurd h hnostar
      · exact absurd rfl h.2
      · exact .inl h.2.symm
  · rw [ContentType.canonical_of_ne hxml, hstar]
    constructor
    · rintro (h | h | h)
      · exact .inr (.inr (.inl ⟨h, hxml⟩))
      · exact .inl h
      · exact .inr (.inl h)
    · rintro (h | h | h | h)
      · exact .inr (.inl h)
      · exact .inr (.inr h)
      · exact .inl h.1
      · exact absurd h.1 hxml

section Ranges

variable {e : Weighted.Element} {sup : ContentType}

theorem firstMatch_eq_some_iff (he : e ∈ ranges.elements) :
    firstMatch supported e = some sup ↔ FirstFor supported e sup := by
  have hmatch : ∀ other : ContentType,
      ContentType.IsMatch (ContentType.canonical (lower e.name)) other.mimeType ↔
        Covers e.name other := isMatch_iff_covers (ranges.isMediaRange e he)
  simp only [firstMatch, FirstFor, List.find?_eq_some_iff_append, hmatch, decide_eq_true_eq,
    Bool.not_eq_true', decide_eq_false_iff_not]
  constructor
  · rintro ⟨hfor, before, after, hsplit, hnone⟩
    exact ⟨before, after, hsplit, hfor, hnone⟩
  · rintro ⟨before, after, hsplit, hfor, hnone⟩
    exact ⟨hfor, before, after, hsplit, hnone⟩

theorem isSome_firstMatch_iff (he : e ∈ ranges.elements) :
    (firstMatch supported e).isSome = true ↔ ∃ other ∈ supported, Covers e.name other := by
  rw [firstMatch, List.find?_isSome]
  refine exists_congr fun other => and_congr_right fun _ => ?_
  rw [decide_eq_true_eq, isMatch_iff_covers (ranges.isMediaRange e he)]

theorem FirstFor.covers (h : FirstFor supported e sup) : sup ∈ supported ∧ Covers e.name sup := by
  obtain ⟨before, after, rfl, hfor, -⟩ := h
  exact ⟨by simp, hfor⟩

theorem mem_of_range (h : ranges.range sup = some e) : e ∈ ranges.elements := by
  rcases Option.or_eq_some_iff.1 h with hexact | ⟨-, h⟩
  · exact List.mem_of_find?_eq_some hexact
  rcases Option.or_eq_some_iff.1 h with htype | ⟨-, hany⟩
  · exact List.mem_of_find?_eq_some htype
  · exact List.mem_of_find?_eq_some hany

theorem thousandths_le_readThousandths (e : Weighted.Element) :
    e.thousandths ≤ readThousandths e := by
  unfold Weighted.Element.thousandths readThousandths
  cases e.weight with
  | none => exact le_rfl
  | some w =>
      dsimp only
      split_ifs
      · exact le_rfl
      · exact w.value.thousandths_le

/-- A positive weight is that of a range, which is read with this weight or a greater one. -/
theorem exists_range_of_pos (h : 0 < ranges.weight sup) :
    ∃ e ∈ ranges.elements, ranges.range sup = some e ∧ ranges.weight sup ≤ readThousandths e := by
  unfold MediaRanges.weight at h ⊢
  cases hrange : ranges.range sup with
  | none =>
      rw [hrange] at h
      exact absurd h (Nat.lt_irrefl 0)
  | some e =>
      exact ⟨e, mem_of_range hrange, rfl, thousandths_le_readThousandths e⟩

end Ranges

/-- The scan ends at the one range for a supported type that is not overtaken, if there is any. -/
theorem negotiateContentType_cases (table : UnicodeText.CaseTable)
    (disorder : SortBy.Disorder ContentType.AcceptEntry) (ranges : MediaRanges)
    (supported : List ContentType) :
    (negotiateContentType table disorder ranges.text supported = some none ∧
        ∀ e ∈ ranges.elements, ∀ sup ∈ supported, ¬ Covers e.name sup) ∨
      ∃ (p : Weighted.Element × ℕ) (sup : ContentType),
        negotiateContentType table disorder ranges.text supported = some (some sup) ∧
          ranges.elements[p.2]? = some p.1 ∧ FirstFor supported p.1 sup ∧
            ¬ Overtaken ranges supported p := by
  rw [negotiateContentType_ranges]
  cases hfound : (ranges.elements.mergeSort fun a b =>
      decide (readThousandths b ≤ readThousandths a)).findSome? (firstMatch supported) with
  | none =>
      refine .inl ⟨rfl, fun e he sup hsup hfor => ?_⟩
      have hnone := List.findSome?_eq_none_iff.1 hfound e (List.mem_mergeSort.2 he)
      have hsome := (isSome_firstMatch_iff he).2 ⟨sup, hsup, hfor⟩
      rw [hnone] at hsome
      cases hsome
  | some sup =>
      obtain ⟨p, hp, hsup, hfirst⟩ := SortBy.exists_first_of_findSome?_mergeSort hfound
      refine .inr ⟨p, sup, rfl, hp, (firstMatch_eq_some_iff (List.mem_of_getElem? hp)).1 hsup, ?_⟩
      rintro ⟨q, hq, hreach, hbefore⟩
      exact hfirst q hq ((isSome_firstMatch_iff (List.mem_of_getElem? hq)).2 hreach) hbefore

/-- One that is not overtaken comes before every other range for a supported type. -/
theorem before_of_not_overtaken {p q : Weighted.Element × ℕ}
    (hp : ¬ Overtaken ranges supported p) (hq : ranges.elements[q.2]? = some q.1)
    (hreach : ∃ sup ∈ supported, Covers q.1.name sup) (hne : q.2 ≠ p.2) :
    SortBy.Before readThousandths p q :=
  SortBy.before_of_not_before hne fun hbefore => hp ⟨q, hq, hreach, hbefore⟩

/-- It is read with the greatest weight. -/
theorem readThousandths_le_of_not_overtaken {p q : Weighted.Element × ℕ}
    (hp : ¬ Overtaken ranges supported p) (hat : ranges.elements[p.2]? = some p.1)
    (hq : ranges.elements[q.2]? = some q.1) (hreach : ∃ sup ∈ supported, Covers q.1.name sup) :
    readThousandths q.1 ≤ readThousandths p.1 := by
  by_cases hindex : q.2 = p.2
  · rw [hindex, hat, Option.some.injEq] at hq
    rw [hq]
  · rcases before_of_not_overtaken hp hq hreach hindex with hlt | ⟨heq, -⟩
    · exact hlt.le
    · exact heq.ge

/-- Where the weights are followed, the ranges are read rightly. -/
theorem FollowsWeights.readsRightly (h : FollowsWeights table disorder ranges supported) :
    ReadsRightly ranges supported := by
  obtain ⟨outcome, houtcome, hbest, hzero⟩ := h
  rcases negotiateContentType_cases table disorder ranges supported with
    ⟨hnone, hreach⟩ | ⟨p, sup, hsome, hp, hfor, hfirst⟩
  · rw [hnone, Option.some.injEq] at houtcome
    have hvacuous : ∀ (q : Weighted.Element × ℕ) (other : ContentType),
        ranges.elements[q.2]? = some q.1 → ¬ FirstFor supported q.1 other :=
      fun q other hq hother =>
        hreach q.1 (List.mem_of_getElem? hq) other hother.covers.1 hother.covers.2
    refine ⟨fun q other hq hother => absurd hother (hvacuous q other hq),
      fun q other hq hother => absurd hother (hvacuous q other hq), fun other hother _ hpos => ?_⟩
    exact absurd (hzero houtcome.symm other hother) hpos.ne'
  · rw [hsome, Option.some.injEq] at houtcome
    have hchosen := hbest sup houtcome.symm
    -- every other range for a supported type is overtaken
    have hothers : ∀ (q : Weighted.Element × ℕ) (other : ContentType),
        ranges.elements[q.2]? = some q.1 → FirstFor supported q.1 other →
          Overtaken ranges supported q ∨ other = sup := by
      intro q other hq hother
      by_cases hindex : q.2 = p.2
      · right
        have hmem := List.mem_of_getElem? hp
        rw [hindex, hp, Option.some.injEq] at hq
        rw [← hq] at hother
        exact Option.some.inj (((firstMatch_eq_some_iff hmem).2 hother).symm.trans
          ((firstMatch_eq_some_iff hmem).2 hfor))
      · exact .inl ⟨p, hp, ⟨sup, hfor.covers⟩, before_of_not_overtaken hfirst hq
          ⟨other, hother.covers⟩ hindex⟩
    constructor
    · intro q other hq hother _
      refine (hothers q other hq hother).imp_right fun heq => ?_
      rw [heq]
      exact hchosen.2.2
    · intro q other hq hother hweight
      refine (hothers q other hq hother).resolve_right fun heq => ?_
      rw [heq] at hweight
      exact hchosen.2.1.ne' hweight
    · intro needed hneeded _ _
      refine ⟨⟨p.1, List.mem_of_getElem? hp, sup, hfor.covers⟩, fun q other hq hother hless => ?_⟩
      refine (hothers q other hq hother).resolve_right fun heq => ?_
      rw [heq] at hless
      exact absurd (hchosen.2.2 needed hneeded) (Nat.not_le.2 hless)

/-- Where they are, the weights are followed. -/
theorem ReadsRightly.followsWeights (h : ReadsRightly ranges supported) :
    FollowsWeights table disorder ranges supported := by
  rcases negotiateContentType_cases table disorder ranges supported with
    ⟨hnone, hreach⟩ | ⟨p, sup, hsome, hp, hfor, hfirst⟩
  · refine ⟨none, hnone, fun sup hnot => (by cases hnot), fun _ sup hsup => ?_⟩
    by_contra hweight
    have hpos := Nat.pos_of_ne_zero hweight
    obtain ⟨⟨e, he, other, hother, hfor⟩, -⟩ := h.unnamed sup hsup (fun e he hfor =>
      hreach e (mem_of_range he) sup hsup hfor) hpos
    exact hreach e he other hother hfor
  · refine ⟨some sup, hsome, fun chosen hchosen => ?_, fun hnot => by cases hnot⟩
    obtain rfl := Option.some.inj hchosen
    refine ⟨hfor.covers.1, ?_, fun other hother => ?_⟩
    · exact Nat.pos_of_ne_zero fun hweight => hfirst (h.refused p sup hp hfor hweight)
    · by_contra hless
      rw [Nat.not_le] at hless
      have hpos : 0 < ranges.weight other := (Nat.zero_le _).trans_lt hless
      by_cases hnamed : ∀ e ∈ ranges.range other, ¬ Covers e.name other
      · exact hfirst ((h.unnamed other hother hnamed hpos).2 p sup hp hfor hless)
      · -- the range that gives the other type its weight is read with no less than that
        obtain ⟨e, he, hrange, hweight⟩ := exists_range_of_pos hpos
        have hnamed' : Covers e.name other := by
          by_contra hnot
          refine hnamed fun e' he' => ?_
          rw [hrange, Option.mem_def, Option.some.injEq] at he'
          rwa [← he']
        obtain ⟨i, hi⟩ := List.getElem?_of_mem he
        have hread := @readThousandths_le_of_not_overtaken _ _ p (e, i) hfirst hp hi
          ⟨other, hother, hnamed'⟩
        rcases h.overread p sup hp hfor (hless.trans_le (hweight.trans hread)) with hover | hall
        · exact hfirst hover
        · exact absurd (hall other hother) (Nat.not_le.2 hless)

/-- **The weights are followed exactly when** each range is overtaken that is read with a greater
weight than its first type has while another type has a greater one, and each whose first type is
refused; and no type is needed that its most specific range is not for by name. -/
theorem followsWeights_iff :
    FollowsWeights table disorder ranges supported ↔ ReadsRightly ranges supported :=
  ⟨FollowsWeights.readsRightly, ReadsRightly.followsWeights⟩

/-- A type whose name has no capitals is named by its most specific range. -/
theorem covers_of_range {sup : ContentType} {e : Weighted.Element} (h : ranges.range sup = some e)
    (hlower : lower sup.mimeType = sup.mimeType) (hxml : sup.mimeType ≠ "text/xml".toList) :
    Covers e.name sup := by
  rcases Option.or_eq_some_iff.1 h with hexact | ⟨-, h⟩
  · have hnamed : IsExact e.name sup := by simpa using List.find?_some hexact
    rcases hnamed with hname | ⟨rfl, hname⟩
    · rw [hlower] at hname
      exact .inr (.inr (.inl ⟨hname, hname ▸ hxml⟩))
    · exact .inr (.inr (.inr ⟨hname, rfl⟩))
  rcases Option.or_eq_some_iff.1 h with htype | ⟨-, hany⟩
  · have hnamed : IsForType e.name sup := by simpa using List.find?_some htype
    rw [IsForType, lower_beforeSlash hlower] at hnamed
    exact .inr (.inl hnamed)
  · have hname : e.name = "*/*".toList := by simpa using List.find?_some hany
    rw [Covers, hname]
    exact .inl (by decide)

/-- **In a simple field the weights are followed**: one in which no white space stands between a
semicolon and its `q`, and no range has a greater weight than a more specific one for a supported
type; the supported types have no capitals in their names, and one of them is not refused. -/
theorem followsWeights_of_nested (hnear : ∀ e ∈ ranges.elements, ∀ w ∈ e.weight, w.after = [])
    (hnames : ∀ sup ∈ supported,
      lower sup.mimeType = sup.mimeType ∧ sup.mimeType ≠ "text/xml".toList)
    (hnested : ∀ sup ∈ supported, ∀ e ∈ ranges.elements, Covers e.name sup →
      e.thousandths ≤ ranges.weight sup)
    (hpos : ∃ sup ∈ supported, 0 < ranges.weight sup) :
    FollowsWeights table disorder ranges supported := by
  have hread : ∀ e ∈ ranges.elements, readThousandths e = e.thousandths := by
    intro e he
    unfold readThousandths Weighted.Element.thousandths
    cases hweight : e.weight with
    | none => rfl
    | some w => exact if_pos (hnear e he w hweight)
  have hbound : ∀ (p : Weighted.Element × ℕ) (sup : ContentType),
      ranges.elements[p.2]? = some p.1 → FirstFor supported p.1 sup →
        readThousandths p.1 ≤ ranges.weight sup := by
    intro p sup hp hfor
    rw [hread p.1 (List.mem_of_getElem? hp)]
    exact hnested sup hfor.covers.1 p.1 (List.mem_of_getElem? hp) hfor.covers.2
  refine ReadsRightly.followsWeights ⟨?_, ?_, ?_⟩
  · exact fun p sup hp hfor hless => absurd (hbound p sup hp hfor) (Nat.not_le.2 hless)
  · -- the range of the type that is not refused comes first
    intro p sup hp hfor hzero
    obtain ⟨best, hbest, hweight⟩ := hpos
    obtain ⟨e, he, hrange, hle⟩ := exists_range_of_pos hweight
    obtain ⟨i, hi⟩ := List.getElem?_of_mem he
    have hnamed := covers_of_range hrange (hnames best hbest).1 (hnames best hbest).2
    have hsmall := hbound p sup hp hfor
    exact ⟨(e, i), hi, ⟨best, hbest, hnamed⟩, .inl (by dsimp only; omega)⟩
  · intro sup hsup hnone hweight
    obtain ⟨e, -, hrange, -⟩ := exists_range_of_pos hweight
    exact absurd (covers_of_range hrange (hnames sup hsup).1 (hnames sup hsup).2) (hnone e hrange)

/-- A range with a weight of zero. -/
def htmlRange : Weighted.Element :=
  .bare "text/html".toList (some .zero) (by decide)

/-- A client that takes no HTML. -/
def refusedHtml : MediaRanges where
  pieces := [.element htmlRange]
  isMediaRange := by
    intro e he
    rw [List.mem_singleton.1 he]
    exact ⟨"text".toList, "html".toList, by decide, by decide, by decide, by decide, by decide,
      by decide⟩

/-- It is sent HTML. -/
theorem not_followsWeights_refusedHtml : refusedHtml.text = "text/html;q=0".toList ∧
    ¬ FollowsWeights letterTable SortBy.Disorder.panics refusedHtml [.html none] := by
  refine ⟨by decide, ?_⟩
  rintro ⟨outcome, houtcome, hbest, -⟩
  have helements : refusedHtml.elements = [htmlRange] := rfl
  have hfirst : firstMatch [.html none] htmlRange = some (.html none) := by decide
  have hweight : refusedHtml.weight (.html none) = 0 := by decide
  rw [negotiateContentType_ranges, helements, List.mergeSort_singleton, List.findSome?_cons,
    hfirst] at houtcome
  have hpos := (hbest (.html none) (Option.some.inj houtcome).symm).2.1
  rw [hweight] at hpos
  exact Nat.lt_irrefl 0 hpos

/-! ### A request -/

/-- `negotiate_from_headers`. -/
def negotiateFromHeaders (table : UnicodeText.CaseTable)
    (disorder : SortBy.Disorder ContentType.AcceptEntry) (headers : HeaderMap)
    (supported : List ContentType) : Option (Option ContentType) :=
  negotiateContentType table disorder ((headerText headers "accept").getD "*/*".toList) supported

/-- The range of all types. -/
def anyRange : Weighted.Element := .bare "*/*".toList none (by decide)

def anyType : MediaRanges where
  pieces := [.element anyRange]
  isMediaRange := by
    intro e he
    rw [List.mem_singleton.1 he]
    exact ⟨['*'], ['*'], by decide, by decide, by decide, by decide, by decide, by decide⟩

/-- A request that asks for no type is answered with the first supported one. -/
theorem negotiateFromHeaders_of_none {headers : HeaderMap}
    (h : headerText headers "accept" = none) :
    negotiateFromHeaders table disorder headers supported = some supported.head? := by
  have htext : "*/*".toList = anyType.text := by decide
  have hname : ContentType.canonical (lower anyRange.name) = "*/*".toList := by decide
  have helements : anyType.elements = [anyRange] := rfl
  have hfirst : firstMatch supported anyRange = supported.head? := by
    cases supported with
    | nil => rfl
    | cons sup supported =>
        rw [firstMatch, hname]
        exact List.find?_cons_of_pos (decide_eq_true (.inr (.inl rfl)))
  rw [negotiateFromHeaders, h, Option.getD_none, htext, negotiateContentType_ranges, helements,
    List.mergeSort_singleton, List.findSome?_cons, hfirst]
  cases supported <;> rfl

end OxiHttp
