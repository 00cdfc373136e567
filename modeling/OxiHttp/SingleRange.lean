/-
**The `Range` header.**

`parse_single_range` reads a range of a file as the machine's integers read their numbers: with a
plus sign if there is one, and below `2 ^ 64`.  A last position behind the end of the file is
refused; a suffix that is longer than the file is the whole file.

Main definitions:

* `OxiHttp.parseSingleRange` — `parse_single_range`;
* `OxiHttp.LooseRange`, `OxiHttp.WithinFile` — the texts and ranges it accepts;
* `OxiHttp.FollowsRangeRfc` — what RFC 7233 wants of it.

Main results:

* `OxiHttp.parseSingleRange_eq_ok_iff` — what it accepts, and as what;
* `OxiHttp.followsRangeRfc_iff` — where this is what the RFC wants.
-/

import OxiHttp.ByteRange
import OxiHttp.TextParse

set_option relaxedAutoImplicit false
set_option autoImplicit false

namespace OxiHttp

/-- `RangeError`. -/
inductive RangeError where
  | multiRange
  | invalid
deriving DecidableEq, Repr

/-- The first and the last position that are asked for. -/
def rangeBounds (startStr endStr : Str) (fileLen : ℕ) : Except RangeError (ℕ × ℕ) :=
  if startStr.isEmpty then
    -- the last bytes of the file
    match parseU64 endStr with
    | none => .error .invalid
    | some suffix =>
        if suffix = 0 then .error .invalid else .ok (fileLen - suffix, fileLen - 1)
  else
    match parseU64 startStr with
    | none => .error .invalid
    | some start =>
        if endStr.isEmpty then .ok (start, fileLen - 1)
        else
          match parseU64 endStr with
          | none => .error .invalid
          | some last => .ok (start, last)

/-- `parse_single_range`, for a file length below `2 ^ 64`. -/
def parseSingleRange (range : Str) (fileLen : ℕ) : Except RangeError (ℕ × ℕ) :=
  match stripPfx "bytes=".toList (trim range) with
  | none => .error .invalid
  | some spec =>
      if spec.contains ',' then .error .multiRange
      else
        match splitOnce '-' spec with
        | none => .error .invalid
        | some (startStr, endStr) =>
            match rangeBounds startStr endStr fileLen with
            | .error e => .error e
            | .ok (start, last) =>
                if fileLen = 0 ∨ fileLen ≤ start ∨ fileLen ≤ last ∨ last < start then
                  .error .invalid
                else .ok (start, last)

example : parseSingleRange "bytes=-5".toList 20 = .ok (15, 19) := by decide
example : parseSingleRange "bytes=0-9,20-29".toList 100 = .error .multiRange := by decide

/-! ### What is accepted -/

open ByteRange (Spec)

/-- A text that would be a range without its plus signs. -/
inductive LooseRange : Str → Spec → Prop where
  | firstLast {a b : Str} : Decimal.IsNumeral (dropPlus a) → Decimal.IsNumeral (dropPlus b) →
      LooseRange (a ++ '-' :: b)
        (.firstLast (Decimal.value (dropPlus a)) (Decimal.value (dropPlus b)))
  | start {a : Str} : Decimal.IsNumeral (dropPlus a) →
      LooseRange (a ++ ['-']) (.start (Decimal.value (dropPlus a)))
  | suffix {k : Str} : Decimal.IsNumeral (dropPlus k) →
      LooseRange ('-' :: k) (.suffix (Decimal.value (dropPlus k)))

/-- The positions lie within a file of this length, and a suffix has a length that is a `usize`. -/
def WithinFile (fileLen : ℕ) : Spec → Prop
  | .firstLast first last => first ≤ last ∧ last < fileLen
  | .start first => first < fileLen
  | .suffix length => 0 < length ∧ length < 2 ^ 64 ∧ 0 < fileLen

instance (fileLen : ℕ) : (spec : Spec) → Decidable (WithinFile fileLen spec)
  | .firstLast first last => inferInstanceAs (Decidable (first ≤ last ∧ last < fileLen))
  | .start first => inferInstanceAs (Decidable (first < fileLen))
  | .suffix length => inferInstanceAs (Decidable (0 < length ∧ length < 2 ^ 64 ∧ 0 < fileLen))

/-- The two sides of the dash are those of a range, plus signs aside. -/
def RangeSides (a b : Str) (spec : Spec) : Prop :=
  (Decimal.IsNumeral (dropPlus a) ∧ Decimal.IsNumeral (dropPlus b) ∧
      spec = .firstLast (Decimal.value (dropPlus a)) (Decimal.value (dropPlus b))) ∨
    (Decimal.IsNumeral (dropPlus a) ∧ b = [] ∧ spec = .start (Decimal.value (dropPlus a))) ∨
    (a = [] ∧ Decimal.IsNumeral (dropPlus b) ∧ spec = .suffix (Decimal.value (dropPlus b)))

/-- The first dash is that of the range. -/
theorem LooseRange.split {text : Str} {spec : Spec} (h : LooseRange text spec) :
    ∃ a b, splitOnce '-' text = some (a, b) ∧ RangeSides a b spec := by
  cases h with
  | firstLast ha hb =>
      exact ⟨_, _, splitOnce_append (notMem_of_isNumeral_dropPlus ha (by decide) rfl) _,
        .inl ⟨ha, hb, rfl⟩⟩
  | start ha =>
      exact ⟨_, _, splitOnce_append (notMem_of_isNumeral_dropPlus ha (by decide) rfl) _,
        .inr (.inl ⟨ha, rfl, rfl⟩)⟩
  | suffix hk => exact ⟨_, _, splitOnce_append List.not_mem_nil _, .inr (.inr ⟨rfl, hk, rfl⟩)⟩

theorem looseRange_iff {text a b : Str} {spec : Spec} (hsplit : splitOnce '-' text = some (a, b)) :
    LooseRange text spec ↔ RangeSides a b spec := by
  constructor
  · intro h
    obtain ⟨a', b', hsplit', hsides⟩ := h.split
    rw [hsplit] at hsplit'
    cases hsplit'
    exact hsides
  · intro h
    obtain ⟨rfl, -⟩ := splitOnce_eq_some hsplit
    rcases h with ⟨ha, hb, rfl⟩ | ⟨ha, rfl, rfl⟩ | ⟨rfl, hb, rfl⟩
    · exact .firstLast ha hb
    · exact .start ha
    · exact .suffix hb

/-- A text is one range at most. -/
theorem LooseRange.unique {text : Str} {spec spec' : Spec} (h : LooseRange text spec)
    (h' : LooseRange text spec') : spec = spec' := by
  obtain ⟨a, b, hsplit, hsides⟩ := h.split
  have hsides' := (looseRange_iff hsplit).1 h'
  have hempty : ¬ Decimal.IsNumeral (dropPlus []) := fun h => h.1 rfl
  rcases hsides with ⟨ha, hb, rfl⟩ | ⟨ha, rfl, rfl⟩ | ⟨rfl, hb, rfl⟩ <;>
    rcases hsides' with ⟨ha', hb', rfl⟩ | ⟨ha', hb', rfl⟩ | ⟨ha', hb', rfl⟩
  · rfl
  · exact absurd (hb' ▸ hb) hempty
  · exact absurd (ha' ▸ ha) hempty
  · exact absurd hb' hempty
  · rfl
  · exact absurd hb' hempty
  · exact absurd ha' hempty
  · exact absurd ha' hempty
  · rfl

/-- A range is loosely one. -/
theorem looseRange_of_reads {text : Str} {spec : Spec} (h : spec.Reads text) :
    LooseRange text spec := by
  cases h with
  | @firstLast a b ha hb =>
      have hloose := LooseRange.firstLast (a := a) (b := b) (by rwa [dropPlus_of_isNumeral ha])
        (by rwa [dropPlus_of_isNumeral hb])
      rwa [dropPlus_of_isNumeral ha, dropPlus_of_isNumeral hb] at hloose
  | @start a ha =>
      have hloose := LooseRange.start (a := a) (by rwa [dropPlus_of_isNumeral ha])
      rwa [dropPlus_of_isNumeral ha] at hloose
  | @suffix k hk =>
      have hloose := LooseRange.suffix (k := k) (by rwa [dropPlus_of_isNumeral hk])
      rwa [dropPlus_of_isNumeral hk] at hloose

/-- No range is a list. -/
theorem LooseRange.comma_notMem {text : Str} {spec : Spec} (h : LooseRange text spec) :
    ',' ∉ text := by
  cases h with
  | firstLast ha hb =>
      have ha' := notMem_of_isNumeral_dropPlus ha (c := ',') (by decide) rfl
      have hb' := notMem_of_isNumeral_dropPlus hb (c := ',') (by decide) rfl
      simp [ha', hb']
  | start ha =>
      have ha' := notMem_of_isNumeral_dropPlus ha (c := ',') (by decide) rfl
      simp [ha']
  | suffix hk =>
      have hk' := notMem_of_isNumeral_dropPlus hk (c := ',') (by decide) rfl
      simp [hk']

/-- The bounds that come out of the two sides of the dash. -/
theorem rangeBounds_eq_ok_iff {a b : Str} {fileLen : ℕ} {p : ℕ × ℕ} :
    rangeBounds a b fileLen = .ok p ↔
      (∃ first last, parseU64 a = some first ∧ parseU64 b = some last ∧ p = (first, last)) ∨
        (∃ first, parseU64 a = some first ∧ b = [] ∧ p = (first, fileLen - 1)) ∨
        (∃ suffix, a = [] ∧ parseU64 b = some suffix ∧ 0 < suffix ∧
          p = (fileLen - suffix, fileLen - 1)) := by
  have hnil : parseU64 [] = none := rfl
  unfold rangeBounds
  cases a with
  | nil =>
      cases hb : parseU64 b with
      | none => simp [hnil]
      | some suffix =>
          by_cases hzero : suffix = 0
          · simp [hnil, hzero]
          · simp [hnil, hzero, Nat.pos_of_ne_zero hzero, eq_comm]
  | cons x a =>
      cases ha : parseU64 (x :: a) with
      | none => simp
      | some first =>
          cases b with
          | nil => simp [hnil, eq_comm]
          | cons y b =>
              cases hb : parseU64 (y :: b) with
              | none => simp
              | some last => simp [eq_comm]

/-- What is accepted, with positions in the file. -/
theorem rangeBounds_within_iff {a b : Str} {fileLen s e : ℕ} (hlen : fileLen < 2 ^ 64) :
    (rangeBounds a b fileLen = .ok (s, e) ∧
        ¬ (fileLen = 0 ∨ fileLen ≤ s ∨ fileLen ≤ e ∨ e < s)) ↔
      ∃ spec, RangeSides a b spec ∧ WithinFile fileLen spec ∧
        spec.select fileLen = some (s, e) := by
  rw [rangeBounds_eq_ok_iff]
  constructor
  · rintro ⟨⟨first, last, ha, hb, hp⟩ | ⟨first, ha, rfl, hp⟩ | ⟨suffix, rfl, hb, hpos, hp⟩, hin⟩
    · obtain ⟨hnum, rfl, -⟩ := parseU64_eq_some_iff.1 ha
      obtain ⟨hnum', rfl, -⟩ := parseU64_eq_some_iff.1 hb
      obtain ⟨rfl, rfl⟩ := Prod.mk.inj hp
      refine ⟨_, .inl ⟨hnum, hnum', rfl⟩, ⟨by omega, by omega⟩, ?_⟩
      rw [Spec.select, if_pos (by omega), Nat.min_eq_left (by omega)]
    · obtain ⟨hnum, rfl, -⟩ := parseU64_eq_some_iff.1 ha
      obtain ⟨rfl, rfl⟩ := Prod.mk.inj hp
      have hlt : Decimal.value (dropPlus a) < fileLen := by omega
      exact ⟨_, .inr (.inl ⟨hnum, rfl, rfl⟩), hlt, if_pos hlt⟩
    · obtain ⟨hnum, rfl, hlt⟩ := parseU64_eq_some_iff.1 hb
      obtain ⟨rfl, rfl⟩ := Prod.mk.inj hp
      refine ⟨_, .inr (.inr ⟨rfl, hnum, rfl⟩), ⟨hpos, hlt, by omega⟩, ?_⟩
      -- a suffix longer than the file begins at its first byte
      rw [Spec.select, if_pos ⟨hpos, by omega⟩, Nat.min_comm, ← Nat.sub_eq_sub_min]
  · rintro ⟨spec, ⟨ha, hb, rfl⟩ | ⟨ha, rfl, rfl⟩ | ⟨rfl, hb, rfl⟩, hwithin, hselect⟩
    · obtain ⟨hle, hlt⟩ : _ ≤ _ ∧ _ < fileLen := hwithin
      rw [Spec.select, if_pos ⟨hle, by omega⟩, Nat.min_eq_left (by omega)] at hselect
      cases hselect
      exact ⟨.inl ⟨_, _, parseU64_eq_some_iff.2 ⟨ha, rfl, by omega⟩,
        parseU64_eq_some_iff.2 ⟨hb, rfl, by omega⟩, rfl⟩, by omega⟩
    · have hlt : _ < fileLen := hwithin
      rw [Spec.select, if_pos hlt] at hselect
      cases hselect
      exact ⟨.inr (.inl ⟨_, parseU64_eq_some_iff.2 ⟨ha, rfl, by omega⟩, rfl, rfl⟩), by omega⟩
    · obtain ⟨hpos, hlt, hlen'⟩ : 0 < _ ∧ _ < _ ∧ 0 < fileLen := hwithin
      rw [Spec.select, if_pos ⟨hpos, hlen'⟩, Nat.min_comm, ← Nat.sub_eq_sub_min] at hselect
      cases hselect
      exact ⟨.inr (.inr ⟨_, rfl, parseU64_eq_some_iff.2 ⟨hb, rfl, hlt⟩, hpos, rfl⟩), by omega⟩

/-- A range is accepted when, plus signs aside, it is one that lies within the file. -/
theorem parseSingleRange_eq_ok_iff {range : Str} {fileLen : ℕ} {p : ℕ × ℕ}
    (hlen : fileLen < 2 ^ 64) :
    parseSingleRange range fileLen = .ok p ↔
      ∃ text spec, trim range = "bytes=".toList ++ text ∧ LooseRange text spec ∧
        WithinFile fileLen spec ∧ spec.select fileLen = some p := by
  obtain ⟨s, e⟩ := p
  unfold parseSingleRange
  cases hstrip : stripPfx "bytes=".toList (trim range) with
  | none =>
      refine iff_of_false (fun h => by cases h) ?_
      rintro ⟨text, spec, htrim, -⟩
      rw [stripPfx_eq_some_iff.2 htrim] at hstrip
      cases hstrip
  | some text =>
      have htext : ∀ text', trim range = "bytes=".toList ++ text' ↔ text' = text := by
        intro text'
        rw [stripPfx_eq_some_iff.1 hstrip, List.append_right_inj, eq_comm]
      simp only [htext, exists_and_left, exists_eq_left, List.contains_iff_mem]
      split_ifs with hcomma
      · refine iff_of_false (fun h => by cases h) ?_
        rintro ⟨spec, hloose, -⟩
        exact hloose.comma_notMem hcomma
      · cases hsplit : splitOnce '-' text with
        | none =>
            refine iff_of_false (fun h => by cases h) ?_
            rintro ⟨spec, hloose, -⟩
            obtain ⟨a, b, hab, -⟩ := hloose.split
            rw [hsplit] at hab
            cases hab
        | some ab =>
            obtain ⟨a, b⟩ := ab
            simp only [looseRange_iff hsplit]
            rw [← rangeBounds_within_iff hlen]
            cases rangeBounds a b fileLen with
            | error err => simp
            | ok p =>
                obtain ⟨start, last⟩ := p
                dsimp only
                split_ifs with hout
                · refine iff_of_false (fun h => by cases h) ?_
                  rintro ⟨h, hin⟩
                  cases h
                  exact hin hout
                · refine ⟨fun h => ?_, fun h => h.1⟩
                  cases h
                  exact ⟨rfl, hout⟩

/-! ### What the RFC wants -/

/-- What RFC 7233 wants of a `Range` header, for a file of this length: a range that can be
satisfied is accepted as what it selects, and nothing else is accepted. -/
structure FollowsRangeRfc (fileLen : ℕ) (range : Str) : Prop where
  accepts : ∀ text (spec : Spec) p, trim range = "bytes=".toList ++ text → spec.Reads text →
    spec.select fileLen = some p → parseSingleRange range fileLen = .ok p
  refuses : ∀ text, trim range = "bytes=".toList ++ text →
    (∀ spec : Spec, spec.Reads text → spec.select fileLen = none) →
      ∃ e, parseSingleRange range fileLen = .error e
  bounds : ∀ s e, parseSingleRange range fileLen = .ok (s, e) → s ≤ e ∧ e < fileLen

/-- A range that lies within the file selects something. -/
theorem WithinFile.select_isSome {fileLen : ℕ} {spec : Spec} (h : WithinFile fileLen spec) :
    (spec.select fileLen).isSome = true := by
  cases spec with
  | firstLast first last =>
      obtain ⟨hle, hlt⟩ : first ≤ last ∧ last < fileLen := h
      rw [Spec.select, if_pos ⟨hle, by omega⟩]
      rfl
  | start first =>
      have hlt : first < fileLen := h
      rw [Spec.select, if_pos hlt]
      rfl
  | suffix length =>
      obtain ⟨hpos, -, hlen⟩ : 0 < length ∧ length < 2 ^ 64 ∧ 0 < fileLen := h
      rw [Spec.select, if_pos ⟨hpos, hlen⟩]
      rfl

/-- A `Range` header is taken as the RFC has it exactly when it asks for no range, plus signs aside;
or its positions lie within the file, and its suffix is of a length below `2 ^ 64`, just in case it
is written without a plus sign and can be satisfied. -/
theorem followsRangeRfc_iff {fileLen : ℕ} (hlen : fileLen < 2 ^ 64) (range : Str) :
    FollowsRangeRfc fileLen range ↔
      ∀ text spec, trim range = "bytes=".toList ++ text → LooseRange text spec →
        (WithinFile fileLen spec ↔ spec.Reads text ∧ (spec.select fileLen).isSome = true) := by
  constructor
  · intro h text spec htrim hloose
    constructor
    · intro hwithin
      obtain ⟨p, hp⟩ := Option.isSome_iff_exists.1 hwithin.select_isSome
      have hok := (parseSingleRange_eq_ok_iff hlen).2 ⟨text, spec, htrim, hloose, hwithin, hp⟩
      -- what is accepted is asked for, and the text asks for one range at most
      by_contra hnot
      have hnone : ∀ spec' : Spec, spec'.Reads text → spec'.select fileLen = none := by
        intro spec' hreads
        obtain rfl := hloose.unique (looseRange_of_reads hreads)
        exact absurd ⟨hreads, hwithin.select_isSome⟩ hnot
      obtain ⟨e, herror⟩ := h.refuses text htrim hnone
      rw [hok] at herror
      cases herror
    · rintro ⟨hreads, hsome⟩
      obtain ⟨p, hp⟩ := Option.isSome_iff_exists.1 hsome
      have hok := h.accepts text spec p htrim hreads hp
      obtain ⟨text', spec', htrim', hloose', hwithin, -⟩ := (parseSingleRange_eq_ok_iff hlen).1 hok
      obtain rfl := List.append_cancel_left (htrim.symm.trans htrim')
      obtain rfl := hloose.unique hloose'
      exact hwithin
  · intro h
    refine ⟨fun text spec p htrim hreads hp => ?_, fun text htrim hnone => ?_, fun s e hok => ?_⟩
    · have hloose := looseRange_of_reads hreads
      have hwithin := (h text spec htrim hloose).2 ⟨hreads, by rw [hp]; rfl⟩
      exact (parseSingleRange_eq_ok_iff hlen).2 ⟨text, spec, htrim, hloose, hwithin, hp⟩
    · cases hparse : parseSingleRange range fileLen with
      | error e => exact ⟨e, rfl⟩
      | ok p =>
          obtain ⟨text', spec, htrim', hloose, hwithin, -⟩ :=
            (parseSingleRange_eq_ok_iff hlen).1 hparse
          obtain rfl := List.append_cancel_left (htrim.symm.trans htrim')
          obtain ⟨hreads, hsome⟩ := (h text spec htrim hloose).1 hwithin
          rw [hnone spec hreads] at hsome
          cases hsome
    · obtain ⟨_, spec, -, -, -, hselect⟩ := (parseSingleRange_eq_ok_iff hlen).1 hok
      exact Spec.lt_of_select hselect

/-- A first range is read as the RFC has it. -/
theorem followsRangeRfc_firstTen : FollowsRangeRfc 100 "bytes=0-9".toList := by
  refine (followsRangeRfc_iff (by decide) _).2 fun text spec htrim hloose => ?_
  obtain rfl : text = "0-9".toList := List.append_cancel_left (htrim.symm.trans (by decide))
  have hreads : Spec.Reads "0-9".toList (.firstLast 0 9) :=
    Spec.Reads.firstLast (a := ['0']) (b := ['9']) (by decide) (by decide)
  obtain rfl := (looseRange_of_reads hreads).unique hloose
  exact iff_of_true (by decide) ⟨hreads, by decide⟩

/-- A last position behind the end of the file is refused. -/
theorem not_followsRangeRfc_pastEnd : ¬ FollowsRangeRfc 100 "bytes=0-100".toList := by
  intro h
  have hreads : Spec.Reads "0-100".toList (.firstLast 0 100) :=
    Spec.Reads.firstLast (a := ['0']) (b := "100".toList) (by decide) (by decide)
  have hok := h.accepts "0-100".toList _ (0, 99) (by decide) hreads (by decide)
  revert hok
  decide

end OxiHttp
