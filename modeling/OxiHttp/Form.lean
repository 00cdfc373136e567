/-
**Form bodies, and whether the server reads them back.**

`FormBody` writes name–value pairs as `application/x-www-form-urlencoded`, percent-encoding every
byte of the UTF-8 form of a text that is not an ASCII letter or digit.  The server decodes byte by
byte into characters, so what it makes of a text is the Latin-1 reading of its UTF-8 bytes.  The two
agree on ASCII and on nothing else.

Main definitions:

* `OxiHttp.FormBody`, `OxiHttp.FormBody.build` — the builder;
* `OxiHttp.percentEncode` — `utf8_percent_encode` with `NON_ALPHANUMERIC`;
* `OxiHttp.latin1` — the characters whose codes are the UTF-8 bytes of a text.

Main results:

* `OxiHttp.percentDecode_percentEncode` — decoding what was encoded gives the Latin-1 reading;
* `OxiHttp.latin1_eq_iff` — which is the text itself exactly for ASCII;
* `OxiHttp.queryPairs_encoded` — the pairs the server finds in a form.
-/

import OxiHttp.Query
import Mathlib.Algebra.GroupWithZero.Nat
import Mathlib.Algebra.Order.BigOperators.Group.List
import Mathlib.Algebra.Order.Group.Nat

set_option relaxedAutoImplicit false
set_option autoImplicit false

namespace OxiHttp

/-! ### The encoder -/

/-- An ASCII letter or digit. -/
def isAlphanumeric (b : UInt8) : Bool :=
  (0x30 ≤ b && b ≤ 0x39) || (0x41 ≤ b && b ≤ 0x5A) || (0x61 ≤ b && b ≤ 0x7A)

/-- The upper-case hex digit of a number below 16. -/
def hexUpper (n : ℕ) : Char := if n < 10 then Char.ofNat (0x30 + n) else Char.ofNat (0x37 + n)

/-- One byte under `NON_ALPHANUMERIC`. -/
def percentEncodeByte (b : UInt8) : Str :=
  if isAlphanumeric b then [asChar b]
  else ['%', hexUpper (b.toNat / 16), hexUpper (b.toNat % 16)]

/-- `utf8_percent_encode(_, NON_ALPHANUMERIC)`. -/
def percentEncode (s : Str) : Str := (Utf8.encode s).flatMap percentEncodeByte

/-- A form under construction. -/
structure FormBody where
  fields : List (Str × Str) := []
deriving DecidableEq

/-- `FormBody::field`. -/
def FormBody.field (form : FormBody) (name value : Str) : FormBody :=
  { fields := form.fields ++ [(name, value)] }

/-- The text of a form. -/
def FormBody.encoded (form : FormBody) : Str :=
  ['&'].intercalate (form.fields.map fun p => percentEncode p.1 ++ '=' :: percentEncode p.2)

/-- `FormBody::build`. -/
def FormBody.build (form : FormBody) : List UInt8 := Utf8.encode form.encoded

/-! ### The Latin-1 reading -/

/-- The characters whose codes are the UTF-8 bytes of a text. -/
def latin1 (s : Str) : Str := (Utf8.encode s).map asChar

theorem asChar_injective : Function.Injective asChar := by
  intro a b h
  have hv : ∀ c : UInt8, (asChar c).toNat = c.toNat := by
    intro c
    have := c.toNat_lt
    rw [asChar, Char.ofNat, dif_pos (.inl (by omega))]
    rfl
  have := congrArg Char.toNat h
  rw [hv, hv] at this
  exact UInt8.toNat_inj.1 this

theorem latin1_injective : Function.Injective latin1 :=
  asChar_injective.list_map.comp Utf8.encode_injective

@[simp] theorem length_latin1 (s : Str) : (latin1 s).length = (Utf8.encode s).length := by
  simp [latin1]

theorem asChar_of_isAscii {c : Char} (h : Utf8.IsAscii c) : asChar c.val.toUInt8 = c := by
  have hle : c.val ≤ 127 := Char.utf8Size_eq_one_iff.1 h
  have hlt : c.val.toNat < 256 := by
    have : c.val.toNat ≤ 127 := hle
    omega
  rw [asChar, UInt32.toNat_toUInt8, Nat.mod_eq_of_lt hlt]
  exact Char.ofNat_toNat c

/-- The Latin-1 reading of a text is the text itself exactly if it is ASCII. -/
theorem latin1_eq_iff {s : Str} : latin1 s = s ↔ ∀ c ∈ s, Utf8.IsAscii c := by
  constructor
  · intro h
    rw [← Utf8.length_encode_eq_iff, ← length_latin1, h]
  · intro h
    induction s with
    | nil => rfl
    | cons c s ih =>
        rw [List.forall_mem_cons] at h
        rw [latin1, Utf8.encode_cons, h.1.encode, List.singleton_append, List.map_cons,
          asChar_of_isAscii h.1]
        exact congrArg (c :: ·) (ih h.2)

/-! ### Decoding what was encoded -/

/-- The bytes of an encoded byte: itself, or `%` and two digits that are read as this byte. -/
theorem encode_percentEncodeByte : ∀ b : UInt8,
    if isAlphanumeric b then
      Utf8.encode (percentEncodeByte b) = [b] ∧ b ≠ 0x25 ∧ b ≠ 0x2B
    else
      Utf8.encode (percentEncodeByte b)
        = [0x25, (hexUpper (b.toNat / 16)).val.toUInt8, (hexUpper (b.toNat % 16)).val.toUInt8] ∧
      fromStrRadix16 (hexUpper (b.toNat / 16)).val.toUInt8 (hexUpper (b.toNat % 16)).val.toUInt8
        = some b.toNat :=
  forall_byte (by decide +kernel)

theorem decodeBytes_percentEncodeByte (b : UInt8) (rest : List UInt8) :
    decodeBytes (Utf8.encode (percentEncodeByte b) ++ rest) = asChar b :: decodeBytes rest := by
  have h := encode_percentEncodeByte b
  split at h
  case isTrue =>
      obtain ⟨hbytes, hpercent, hplus⟩ := h
      rw [hbytes, List.singleton_append, decodeBytes_plain hpercent hplus]
  case isFalse =>
      obtain ⟨hbytes, hvalue⟩ := h
      rw [hbytes]
      exact decodeBytes_escape hvalue rest

/-- Decoding what was encoded gives the Latin-1 reading. -/
theorem percentDecode_percentEncode (s : Str) : percentDecode (percentEncode s) = latin1 s := by
  rw [percentDecode, percentEncode, latin1]
  -- byte by byte: no byte reads on into what the next one was encoded as
  induction Utf8.encode s with
  | nil => rfl
  | cons b bs ih =>
      rw [List.flatMap_cons, Utf8.encode_append, decodeBytes_percentEncodeByte, ih]
      rfl

theorem delimiters_notMem_percentEncodeByte :
    ∀ b, '&' ∉ percentEncodeByte b ∧ '=' ∉ percentEncodeByte b :=
  forall_byte (by decide +kernel)

/-- The two delimiters do not occur in an encoded text. -/
theorem delimiters_notMem_percentEncode (s : Str) :
    '&' ∉ percentEncode s ∧ '=' ∉ percentEncode s := by
  have h := delimiters_notMem_percentEncodeByte
  simp only [percentEncode, List.mem_flatMap, not_exists, not_and]
  exact ⟨fun b _ => (h b).1, fun b _ => (h b).2⟩

/-- The pairs the server finds in a form are the Latin-1 readings of the fields. -/
theorem queryPairs_encoded (form : FormBody) :
    queryPairs form.encoded = form.fields.map fun p => (latin1 p.1, latin1 p.2) := by
  obtain ⟨fields⟩ := form
  by_cases hne : fields = []
  · subst hne
    rfl
  · let piece : Str × Str → Str := fun p => percentEncode p.1 ++ '=' :: percentEncode p.2
    have hsplit : (['&'].intercalate (fields.map piece)).splitOn '&' = fields.map piece := by
      refine List.splitOn_intercalate '&' ?_ (by simpa using hne)
      intro l hl
      obtain ⟨p, -, rfl⟩ := List.mem_map.1 hl
      simp [piece, (delimiters_notMem_percentEncode _).1]
    have hpair : ∀ p, (splitOnce '=' (piece p)).map
        (fun p => (percentDecode p.1, percentDecode p.2)) = some (latin1 p.1, latin1 p.2) := by
      intro p
      rw [splitOnce_append (delimiters_notMem_percentEncode p.1).2, Option.map_some,
        percentDecode_percentEncode, percentDecode_percentEncode]
    rw [queryPairs, FormBody.encoded, hsplit, List.filterMap_map, ← List.filterMap_eq_map]
    exact List.filterMap_congr fun p _ => hpair p

/-! ### When the server reads a form back -/

/-- Two functions of which one bounds the other and which have the same sum over a list agree on
it. -/
theorem eq_of_sum_map_eq {α : Type} {f g : α → ℕ} {l : List α} (hle : ∀ x ∈ l, f x ≤ g x)
    (hsum : (l.map f).sum = (l.map g).sum) : ∀ x ∈ l, f x = g x := by
  by_contra hne
  obtain ⟨x, hx, hxne⟩ : ∃ x ∈ l, f x ≠ g x := by simpa using hne
  have hlt := List.sum_lt_sum f g hle ⟨x, hx, lt_of_le_of_ne (hle x hx) hxne⟩
  omega

/-- Where the Latin-1 readings of some distinct names are those names in some order, every one of
them is ASCII: a name that is not grows. -/
theorem latin1_eq_of_perm {names : List Str} (h : (names.map latin1).Perm names) :
    ∀ name ∈ names, latin1 name = name := by
  have hsum : (names.map List.length).sum
      = (names.map fun name => (Utf8.encode name).length).sum := by
    have := (h.map List.length).sum_eq
    rw [List.map_map] at this
    simpa [Function.comp_def] using this.symm
  intro name hname
  rw [latin1_eq_iff, ← Utf8.length_encode_eq_iff]
  exact (eq_of_sum_map_eq (fun x _ => Utf8.length_le_length_encode x) hsum name hname).symm

/-- The map the server finds in a form whose names are distinct is the map of its fields exactly
if every name and value is ASCII. -/
theorem queryParams_build_iff (form : FormBody) {q : Str} (hq : Utf8.encode q = form.build)
    (hd : (form.fields.map Prod.fst).Nodup) :
    queryParams (some q) = collectMap form.fields ↔
      ∀ p ∈ form.fields, (∀ c ∈ p.1, Utf8.IsAscii c) ∧ ∀ c ∈ p.2, Utf8.IsAscii c := by
  obtain rfl := Utf8.encode_injective hq
  rw [queryParams, queryPairs_encoded]
  constructor
  · intro h
    -- the two maps have the same keys, so the readings of the names are the names in some order
    have hnames : (form.fields.map fun p => (latin1 p.1, latin1 p.2)).map Prod.fst
        = (form.fields.map Prod.fst).map latin1 := by simp
    have hd' : ((form.fields.map Prod.fst).map latin1).Nodup := hd.map latin1_injective
    have hperm : ((form.fields.map Prod.fst).map latin1).Perm (form.fields.map Prod.fst) := by
      rw [List.perm_ext_iff_of_nodup hd' hd]
      intro name
      rw [← hnames, ← mem_collectMap, h, mem_collectMap]
    intro p hp
    have hname : latin1 p.1 = p.1 := latin1_eq_of_perm hperm _ (List.mem_map_of_mem hp)
    -- under a name that is read back the map holds one value
    have hvalue : latin1 p.2 = p.2 := by
      have h₁ := lookup_collectMap (hnames ▸ hd')
        (List.mem_map_of_mem (f := fun p => (latin1 p.1, latin1 p.2)) hp)
      rw [h, hname, lookup_collectMap hd hp] at h₁
      exact (Option.some_inj.1 h₁).symm
    exact ⟨latin1_eq_iff.1 hname, latin1_eq_iff.1 hvalue⟩
  · intro h
    have hsame : ∀ p ∈ form.fields, (latin1 p.1, latin1 p.2) = p := fun p hp => by
      rw [latin1_eq_iff.2 (h p hp).1, latin1_eq_iff.2 (h p hp).2]
    rw [List.map_congr_left hsame, List.map_id']

/-- A form with reserved characters in its names and values. -/
def asciiForm : FormBody :=
  { fields := [("a&b".toList, "1=1+%".toList), ("".toList, "x y".toList)] }

theorem queryParams_build_asciiForm :
    queryParams (some asciiForm.encoded) = collectMap asciiForm.fields :=
  (queryParams_build_iff asciiForm rfl (by decide)).2 (by decide)

/-- A form with one value that is not ASCII. -/
def accentedForm : FormBody := { fields := [("name".toList, "é".toList)] }

/-- The server reads two characters for the one that was sent. -/
theorem queryParams_build_accentedForm :
    queryParams (some accentedForm.encoded) = collectMap [("name".toList, "Ã©".toList)] ∧
      queryParams (some accentedForm.encoded) ≠ collectMap accentedForm.fields := by
  decide +kernel

end OxiHttp
