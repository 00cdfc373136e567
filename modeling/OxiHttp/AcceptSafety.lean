/-
**Slicing the quality of a piece.**

`extract_quality` finds `;q=` in the lower case of a piece and slices the piece at the same offset.
The lower case of a character may be longer or shorter than the character, and then the offset can
be inside of another one, or behind the end.  What is sliced is read as a number, which may be any
that `f32` has a text for, and so none between zero and one.

Main definitions:

* `OxiHttp.splitMarker` — the first `;q=` or `;Q=` of a text;
* `OxiHttp.ReadsSafely` — a piece from which a quality can be sliced and read;
* `OxiHttp.IsSafeAccept` — `parse_accept` returns, with qualities from zero to one.

Main results:

* `OxiHttp.splitOnceStr_lowerFrom` — where the lower case of a text has its `;q=`;
* `OxiHttp.isSafeAccept_iff` — `parse_accept` is safe when every piece can be read.
-/

import OxiHttp.AcceptEncoding
import OxiHttp.ContentType
import Mathlib.Algebra.Group.Int.Defs

set_option relaxedAutoImplicit false
set_option autoImplicit false

namespace OxiHttp

/-- A quality: a number from zero to one. -/
def IsQuality : Binary32.Value → Prop
  | .num units => 0 ≤ units ∧ units ≤ 2 ^ 149
  | .nan => False

/-- A text begins with `;q=`, in any case. -/
def IsMarker (s : Str) : Prop := ";q=".toList <+: lower s

instance : DecidablePred IsMarker := fun _ => inferInstanceAs (Decidable (_ <+: _))

/-- What stands in front of the first `;q=` and behind it. -/
def splitMarker : Str → Option (Str × Str)
  | [] => none
  | c :: s =>
      if IsMarker (c :: s) then some ([], (c :: s).drop 3)
      else (splitMarker s).map fun p => (c :: p.1, p.2)

/-- From a piece with a marker three bytes can be sliced off at the offset that the marker has in
its lower case, and what stands behind them is no number or a quality. -/
def ReadsSafely (table : UnicodeText.CaseTable) (part : Str) : Prop :=
  ∀ front behind, splitMarker part = some (front, behind) →
    ∃ mime mark rest, part = mime ++ (mark ++ rest) ∧ (Utf8.encode mark).length = 3 ∧
      (Utf8.encode mime).length =
        (Utf8.encode (table.lowerFrom [] front (part.drop front.length))).length ∧
      ∀ q, Binary32.parse (trim (rest.takeWhile (· ≠ ';'))) = some q → IsQuality q

/-- `parse_accept` returns, with qualities only, and so does `negotiate_content_type`. -/
def IsSafeAccept (table : UnicodeText.CaseTable)
    (disorder : SortBy.Disorder ContentType.AcceptEntry) (header : Str) : Prop :=
  (∃ entries, parseAccept table disorder header = some entries ∧
      ∀ e ∈ entries, IsQuality e.quality) ∧
    ∀ supported, (negotiateContentType table disorder header supported).isSome = true

/-! ### The marker -/

theorem isMarker_iff {s : Str} :
    IsMarker s ↔ ∃ x v, s = ';' :: x :: '=' :: v ∧ x.toLower = 'q' := by
  constructor
  · rintro ⟨t, ht⟩
    have hlower : lower s = ';' :: 'q' :: '=' :: t := ht.symm
    obtain ⟨a, s, rfl, ha, hs⟩ := List.map_eq_cons_iff.1 hlower
    obtain ⟨x, s, rfl, hx, hs⟩ := List.map_eq_cons_iff.1 hs
    obtain ⟨b, v, rfl, hb, -⟩ := List.map_eq_cons_iff.1 hs
    rw [toLower_eq_iff (by decide)] at ha hb
    rw [ha, hb]
    exact ⟨x, v, rfl, hx⟩
  · rintro ⟨x, v, rfl, hx⟩
    have hlower : lower (';' :: x :: '=' :: v) = ';' :: 'q' :: '=' :: lower v := by
      rw [← hx]
      rfl
    exact ⟨lower v, hlower.symm⟩

/-- The marker is as long in bytes as it is in characters. -/
theorem splitMarker_eq_some {s front behind : Str} (h : splitMarker s = some (front, behind)) :
    ∃ mark, s = front ++ (mark ++ behind) ∧ (Utf8.encode mark).length = 3 := by
  induction s generalizing front with
  | nil => cases h
  | cons c s ih =>
      rw [splitMarker] at h
      split_ifs at h with hmarker
      · cases h
        obtain ⟨x, v, heq, hx⟩ := isMarker_iff.1 hmarker
        have hx' : x.utf8Size = 1 := isAscii_toLower.1 (by rw [hx]; decide)
        refine ⟨[';', x, '='], by rw [heq]; rfl, ?_⟩
        simp only [UnicodeText.length_encode_cons, hx']
        rfl
      · obtain ⟨⟨f, b⟩, hf, heq⟩ := Option.map_eq_some_iff.1 h
        cases heq
        obtain ⟨mark, rfl, hlen⟩ := ih hf
        exact ⟨mark, rfl, hlen⟩

variable (table : UnicodeText.CaseTable)

/-- Where the lower case of a text begins with `;q=`, the text begins with it in some case. -/
theorem isMarker_of_stripPfx {before s rest : Str} {c : Char}
    (h : stripPfx ";q=".toList (c.toLower :: table.lowerFrom (before ++ [c]) s []) = some rest) :
    IsMarker (c :: s) := by
  have hcons : c.toLower :: table.lowerFrom (before ++ [c]) s [] = ';' :: 'q' :: '=' :: rest :=
    stripPfx_eq_some_iff.1 h
  obtain ⟨hc, hs⟩ := List.cons.inj hcons
  obtain ⟨x, s', rfl, hx, hs'⟩ := table.eq_cons_of_lowerFrom_eq_cons (by decide) (by decide)
    (by decide) hs
  obtain ⟨y, v, rfl, hy, -⟩ := table.eq_cons_of_lowerFrom_eq_cons (by decide) (by decide)
    (by decide) hs'.symm
  rw [toLower_eq_iff (by decide)] at hc hy
  exact isMarker_iff.2 ⟨x, v, by rw [hc, hy], hx⟩

/-- The `;q=` of a lower case stands behind the lower case of what is in front of the marker. -/
theorem splitOnceStr_lowerFrom (before s : Str) :
    (splitOnceStr ";q=".toList (table.lowerFrom before s [])).map Prod.fst =
      (splitMarker s).map fun p => table.lowerFrom before p.1 (s.drop p.1.length) := by
  induction s generalizing before with
  | nil => rfl
  | cons c s ih =>
      rw [splitMarker]
      split_ifs with hmarker
      · obtain ⟨x, v, heq, hx⟩ := isMarker_iff.1 hmarker
        obtain ⟨rfl, rfl⟩ := List.cons.inj heq
        have hx' : Utf8.IsAscii x := isAscii_toLower.1 (by rw [hx]; decide)
        have hascii : ∀ c ∈ [';', x, '='], Utf8.IsAscii c := by
          simpa using ⟨by decide, hx', by decide⟩
        have hmark : table.lowerFrom before [';', x, '='] (v ++ []) = ";q=".toList := by
          rw [table.lowerFrom_of_isAscii hascii, List.map_cons, List.map_cons, hx]
          rfl
        have hlower := table.lowerFrom_append before [';', x, '='] v []
        rw [hmark] at hlower
        have hfound : splitOnceStr ";q=".toList (table.lowerFrom before (';' :: x :: '=' :: v) []) =
            some ([], table.lowerFrom (before ++ [';', x, '=']) v []) :=
          (congrArg _ hlower).trans (splitOnceStr_append List.not_mem_nil _)
        rw [hfound]
        rfl
      · -- in front of the marker the characters are passed over one by one
        have hskip : splitOnceStr ";q=".toList (table.lowerFrom before (c :: s) []) =
            (splitOnceStr ";q=".toList (table.lowerFrom (before ++ [c]) s [])).map
              fun p => (table.lowerChar before c s ++ p.1, p.2) := by
          rw [UnicodeText.CaseTable.lowerFrom, List.append_nil]
          by_cases hc : Utf8.IsAscii c
          · rw [UnicodeText.CaseTable.lowerChar, if_pos hc, List.singleton_append, splitOnceStr]
            cases hstrip : stripPfx ";q=".toList
                (c.toLower :: table.lowerFrom (before ++ [c]) s []) with
            | none => rfl
            | some rest => exact absurd (isMarker_of_stripPfx table hstrip) hmarker
          · rw [UnicodeText.CaseTable.lowerChar, if_neg hc]
            refine splitOnceStr_append_left (fun hmem => ?_) _
            rcases table.ascii before c s hc ';' hmem (by decide) with h | h
            · exact absurd h (by decide)
            · exact absurd h (by decide)
        rw [hskip, Option.map_map, Option.map_map]
        have hih := congrArg (Option.map (table.lowerChar before c s ++ ·)) (ih (before ++ [c]))
        rw [Option.map_map, Option.map_map] at hih
        refine hih.trans ?_
        cases hsplit : splitMarker s with
        | none => rfl
        | some p =>
            obtain ⟨mark, rfl, -⟩ := splitMarker_eq_some hsplit
            simp [UnicodeText.CaseTable.lowerFrom]

/-! ### The pieces -/

variable {table}

theorem isQuality_one : IsQuality Binary32.one := by
  rw [Binary32.one, IsQuality]
  omega

/-- What is read behind a marker is one, or the number that stands there. -/
theorem isQuality_readQuality_iff {rest : Str} : IsQuality (readQuality rest) ↔
    ∀ q, Binary32.parse (trim (rest.takeWhile (· ≠ ';'))) = some q → IsQuality q := by
  rw [readQuality]
  cases hparse : Binary32.parse (trim (rest.takeWhile (· ≠ ';'))) with
  | none => simpa using isQuality_one
  | some q => simp

/-- A piece has an entry with a quality when it can be read. -/
theorem readsSafely_iff {part : Str} :
    (∃ e, parsePiece table part = some e ∧ IsQuality e.quality) ↔ ReadsSafely table part := by
  have hlower := splitOnceStr_lowerFrom table [] part
  have hextract : (∃ e, parsePiece table part = some e ∧ IsQuality e.quality) ↔
      ∃ mime q, extractQuality table part = some (mime, q) ∧ IsQuality q := by
    simp [parsePiece]
  rw [hextract]
  cases hmarker : splitMarker part with
  | none =>
      rw [hmarker, Option.map_none, Option.map_eq_none_iff] at hlower
      have hfind : findStr ";q=".toList (table.lower part) = none :=
        Option.map_eq_none_iff.2 hlower
      refine iff_of_true ⟨part, Binary32.one, ?_, isQuality_one⟩ fun front behind h => ?_
      · rw [extractQuality, hfind]
      · rw [hmarker] at h
        cases h
  | some p =>
      obtain ⟨front, behind⟩ := p
      rw [hmarker, Option.map_some] at hlower
      obtain ⟨q, hq, hfst⟩ := Option.map_eq_some_iff.1 hlower
      have hfind : findStr ";q=".toList (table.lower part) =
          some (Utf8.encode (table.lowerFrom [] front (part.drop front.length))).length :=
        Option.map_eq_some_iff.2 ⟨q, hq, by rw [hfst]⟩
      constructor
      · rintro ⟨mime, q, h, hquality⟩ front' behind' h'
        obtain ⟨m, mark, rest, heq, hmark, hlen, -, rfl⟩ := (extractQuality_eq_some_iff hfind).1 h
        rw [hmarker] at h'
        cases h'
        exact ⟨m, mark, rest, heq, hmark, hlen, isQuality_readQuality_iff.1 hquality⟩
      · intro h
        obtain ⟨m, mark, rest, heq, hmark, hlen, hquality⟩ := h front behind hmarker
        exact ⟨trim m, readQuality rest,
          (extractQuality_eq_some_iff hfind).2 ⟨m, mark, rest, heq, hmark, hlen, rfl, rfl⟩,
          isQuality_readQuality_iff.2 hquality⟩

/-! ### The header -/

variable {disorder : SortBy.Disorder ContentType.AcceptEntry} {header : Str}

/-- `parse_accept` is safe when every piece of the header can be read. -/
theorem isSafeAccept_iff : IsSafeAccept table disorder header ↔
    ∀ part ∈ acceptParts header, ReadsSafely table part := by
  constructor
  · rintro ⟨⟨entries, hentries, hquality⟩, -⟩ part hpart
    obtain ⟨es, hes, hperm⟩ := perm_of_parseAccept hentries
    have hmem : parsePiece table part ∈ es.map some := by
      rw [← hes]
      exact List.mem_map_of_mem hpart
    obtain ⟨e, he, heq⟩ := List.mem_map.1 hmem
    exact readsSafely_iff.1 ⟨e, heq.symm, hquality e (hperm.mem_iff.2 he)⟩
  · intro h
    obtain ⟨es, hes, hquality⟩ := exists_map_eq_map_some
      fun part hpart => readsSafely_iff.2 (h part hpart)
    have hnumbers : ∀ e ∈ es, e.quality ≠ .nan := by
      intro e he hnan
      have hq := hquality e he
      rw [hnan] at hq
      exact hq
    have hparse : parseAccept table disorder header = _ := parseAccept_of_numbers hes hnumbers
    refine ⟨⟨_, hparse, fun e he => hquality e (List.mem_mergeSort.1 he)⟩, fun supported => ?_⟩
    rw [negotiateContentType, hparse]
    rfl

/-! ### A longer lower case -/

/-- The characters that have ASCII letters in their lower case. -/
def letterTable : UnicodeText.CaseTable where
  form _ c _ := lowercaseChar c
  form_ne _ c _ _ := by
    unfold lowercaseChar
    split_ifs <;> exact List.cons_ne_nil _ _
  ascii _ c _ hc d hd hascii := by
    unfold lowercaseChar at hd
    split_ifs at hd
    · exact .inl (List.mem_singleton.1 hd)
    · rcases List.mem_cons.1 hd with rfl | hd
      · exact .inr rfl
      · rw [List.mem_singleton.1 hd] at hascii
        exact absurd hascii (by decide)
    · rw [List.mem_singleton.1 hd] at hascii
      exact absurd (isAscii_toLower.1 hascii) hc

/-- The lower case of the dotted capital I has one more byte: there are no three bytes left to be
skipped. -/
theorem not_isSafeAccept_dottedI :
    ¬ IsSafeAccept letterTable SortBy.Disorder.panics "\u0130;q=".toList := by
  rintro ⟨⟨entries, h, -⟩, -⟩
  have hparts : acceptParts "\u0130;q=".toList = ["\u0130;q=".toList] := by decide
  have hpiece : parsePiece letterTable "\u0130;q=".toList = none :=
    Option.map_eq_none_iff.2 (by decide)
  rw [parseAccept, hparts, List.mapM_cons, hpiece] at h
  cases h

end OxiHttp
