/-
**The vocabulary of HTTP.**

The types of the `http` crate that client and server are written against: methods, header fields
and URIs.  A header map is the list of its fields in order of insertion, under lower-case names.
A URI is what the accessors of `http::Uri` report of it; how text becomes a URI is the business of
that crate, and the modules that parse URIs take the parser as a parameter.

Main definitions:

* `OxiHttp.Method`, `OxiHttp.HeaderValue`, `OxiHttp.HeaderMap`, `OxiHttp.Uri` — the types.

Main results:

* `OxiHttp.HeaderMap.getAll_insert`, `OxiHttp.HeaderMap.getAll_append`,
  `OxiHttp.HeaderMap.getAll_remove` — the values under a name after each operation.
-/

import OxiHttp.Error
import OxiHttp.FieldList
import OxiHttp.Text
import OxiHttp.Utf8
import Mathlib.Tactic.IntervalCases

set_option relaxedAutoImplicit false
set_option autoImplicit false

namespace OxiHttp

/-- `http::Method`. -/
inductive Method where
  | get
  | post
  | put
  | delete
  | patch
  | head
  | options
  | connect
  | trace
  | extension (name : Str)
deriving DecidableEq, Repr

/-! ### Header fields -/

/-- `http::HeaderValue`: its bytes. -/
structure HeaderValue where
  bytes : List UInt8
deriving DecidableEq, Repr

namespace HeaderValue

/-- `HeaderValue::to_str`: the value as text, when it has visible ASCII, spaces and tabs only. -/
def toStr (v : HeaderValue) : Option Str :=
  if v.bytes.all fun b => (0x20 ≤ b && b < 0x7F) || b == 0x09 then
    some (v.bytes.map fun b => Char.ofNat b.toNat)
  else none

/-- `HeaderValue::from_str`: a text without control characters, tabs apart. -/
def fromStr (s : Str) : Option HeaderValue :=
  if (Utf8.encode s).all fun b => (0x20 ≤ b && b != 0x7F) || b == 0x09 then
    some ⟨Utf8.encode s⟩
  else none

/-- The bytes of a value as the characters of the same numbers. -/
def latin1 (v : HeaderValue) : Str := v.bytes.map fun b => Char.ofNat b.toNat

/-- A text of visible ASCII characters and spaces. -/
def IsVisible (s : Str) : Prop := ∀ c ∈ s, 0x20 ≤ c.val.toNat ∧ c.val.toNat < 0x7F

instance (s : Str) : Decidable (IsVisible s) := List.decidableBAll _ s

/-- A text of visible ASCII characters, spaces and tabs, which is what `to_str` gives. -/
def IsReadable (s : Str) : Prop :=
  ∀ c ∈ s, (0x20 ≤ c.val.toNat ∧ c.val.toNat < 0x7F) ∨ c.val.toNat = 0x09

instance (s : Str) : Decidable (IsReadable s) := List.decidableBAll _ s

theorem isReadable_of_isVisible {s : Str} (h : IsVisible s) : IsReadable s :=
  fun c hc => .inl (h c hc)

theorem isReadable_append {a b : Str} (ha : IsReadable a) (hb : IsReadable b) :
    IsReadable (a ++ b) :=
  fun c hc => (List.mem_append.1 hc).elim (ha c) (hb c)

theorem IsReadable.isAscii {s : Str} (h : IsReadable s) : ∀ c ∈ s, Utf8.IsAscii c := by
  intro c hc
  refine Char.utf8Size_eq_one_iff.2 ?_
  have := h c hc
  rw [UInt32.le_iff_toNat_le]
  change _ ≤ 127
  omega

theorem encode_of_isReadable {s : Str} (h : IsReadable s) :
    Utf8.encode s = s.map fun c => c.val.toUInt8 := Utf8.encode_of_isAscii h.isAscii

/-- The byte of a readable character. -/
theorem toUInt8_of_readable {c : Char}
    (h : (0x20 ≤ c.val.toNat ∧ c.val.toNat < 0x7F) ∨ c.val.toNat = 0x09) :
    ((0x20 ≤ c.val.toUInt8 && c.val.toUInt8 < 0x7F) || c.val.toUInt8 == 0x09) = true ∧
      Char.ofNat c.val.toUInt8.toNat = c := by
  have hval : c.val.toUInt8.toNat = c.val.toNat := by
    rw [UInt32.toNat_toUInt8]
    exact Nat.mod_eq_of_lt (by omega)
  refine ⟨?_, ?_⟩
  · simp only [Bool.or_eq_true, Bool.and_eq_true, decide_eq_true_eq, beq_iff_eq,
      UInt8.le_iff_toNat_le, UInt8.lt_iff_toNat_lt, ← UInt8.toNat_inj, hval]
    exact h
  · rw [hval]
    exact Char.ofNat_toNat c

/-- A readable text is read back. -/
theorem toStr_of_isReadable {s : Str} (h : IsReadable s) : toStr ⟨Utf8.encode s⟩ = some s := by
  have hall : (Utf8.encode s).all (fun b => (0x20 ≤ b && b < 0x7F) || b == 0x09) = true := by
    rw [encode_of_isReadable h, List.all_eq_true]
    intro b hb
    obtain ⟨c, hc, rfl⟩ := List.mem_map.1 hb
    exact (toUInt8_of_readable (h c hc)).1
  rw [toStr, if_pos hall, encode_of_isReadable h, List.map_map, Option.some_inj]
  conv_rhs => rw [← List.map_id s]
  exact List.map_congr_left fun c hc => (toUInt8_of_readable (h c hc)).2

theorem toStr_of_isVisible {s : Str} (h : IsVisible s) : toStr ⟨Utf8.encode s⟩ = some s :=
  toStr_of_isReadable (isReadable_of_isVisible h)

theorem utf8EncodeChar_ofNat :
    ∀ n < 128, String.utf8EncodeChar (Char.ofNat n) = [UInt8.ofNat n] := by decide +kernel

/-- The bytes of a value that is text are the bytes of that text. -/
theorem encode_of_toStr {v : HeaderValue} {s : Str} (h : toStr v = some s) :
    Utf8.encode s = v.bytes := by
  unfold toStr at h
  split at h
  case isTrue hall =>
      cases h
      have hbyte : ∀ b ∈ v.bytes, String.utf8EncodeChar (Char.ofNat b.toNat) = [b] := by
        intro b hb
        have hb' := List.all_eq_true.1 hall b hb
        have hlt : b.toNat < 128 := by
          simp only [Bool.or_eq_true, Bool.and_eq_true, decide_eq_true_eq, beq_iff_eq] at hb'
          rcases hb' with ⟨-, h⟩ | rfl
          · have := UInt8.lt_iff_toNat_lt.1 h
            simp only [UInt8.reduceToNat] at this
            omega
          · decide
        rw [utf8EncodeChar_ofNat _ hlt, UInt8.ofNat_toNat]
      rw [Utf8.encode, List.flatMap_map]
      calc v.bytes.flatMap (fun b => String.utf8EncodeChar (Char.ofNat b.toNat))
          = v.bytes.flatMap (fun b => [b]) := List.flatMap_congr hbyte
        _ = v.bytes := List.flatMap_singleton' _
  case isFalse => cases h

/-- A text that was read off a header value is one. -/
theorem fromStr_of_toStr {v : HeaderValue} {s : Str} (h : v.toStr = some s) :
    fromStr s = some v := by
  have hbytes := encode_of_toStr h
  have hvisible : v.bytes.all (fun b => (0x20 ≤ b && b < 0x7F) || b == 0x09) = true := by
    unfold toStr at h
    split at h
    · assumption
    · cases h
  rw [fromStr, hbytes, if_pos]
  rw [List.all_eq_true] at hvisible ⊢
  intro b hb
  have hb' := hvisible b hb
  grind

/-- A readable text is taken as it is. -/
theorem fromStr_of_isReadable {s : Str} (h : IsReadable s) : fromStr s = some ⟨Utf8.encode s⟩ :=
  fromStr_of_toStr (toStr_of_isReadable h)

theorem fromStr_of_isVisible {s : Str} (h : IsVisible s) : fromStr s = some ⟨Utf8.encode s⟩ :=
  fromStr_of_isReadable (isReadable_of_isVisible h)

/-- A value that is text is the characters of its bytes. -/
theorem latin1_of_toStr {v : HeaderValue} {s : Str} (h : toStr v = some s) : v.latin1 = s := by
  unfold toStr at h
  split_ifs at h
  cases h
  rfl

theorem val_ofNat : ∀ n < 256, (Char.ofNat n).val.toNat = n := by decide +kernel

/-- What is read off a header value is readable. -/
theorem isReadable_of_toStr {v : HeaderValue} {s : Str} (h : v.toStr = some s) :
    IsReadable s := by
  unfold toStr at h
  split_ifs at h with hall
  cases h
  intro c hc
  obtain ⟨b, hb, rfl⟩ := List.mem_map.1 hc
  have hb' := List.all_eq_true.1 hall b hb
  rw [val_ofNat b.toNat b.toNat_lt]
  simp only [Bool.or_eq_true, Bool.and_eq_true, decide_eq_true_eq, beq_iff_eq] at hb'
  rcases hb' with ⟨hlow, hhigh⟩ | rfl
  · exact .inl ⟨UInt8.le_iff_toNat_le.1 hlow, UInt8.lt_iff_toNat_lt.1 hhigh⟩
  · exact .inr rfl

theorem isWhitespace_eq_isOws :
    ∀ n < 128, ((0x20 ≤ n ∧ n < 0x7F) ∨ n = 0x09) →
      isWhitespace (Char.ofNat n) = FieldList.isOws (Char.ofNat n) := by decide +kernel

/-- The only white space of a readable text is spaces and tabs. -/
theorem IsReadable.isWhitespace {s : Str} (h : IsReadable s) :
    ∀ c ∈ s, isWhitespace c = FieldList.isOws c := by
  intro c hc
  have hrange := h c hc
  have hchar : Char.ofNat c.val.toNat = c := Char.ofNat_toNat c
  have heq := isWhitespace_eq_isOws c.val.toNat (by omega) hrange
  rwa [hchar] at heq

/-- On such a text the two ways to trim are one. -/
theorem trim_eq_trimOws {s : Str} (h : ∀ c ∈ s, OxiHttp.isWhitespace c = FieldList.isOws c) :
    trim s = FieldList.trimOws s := FieldList.trim_congr h

end HeaderValue

open HeaderValue (IsVisible)

/-- A digit of any base is visible. -/
theorem mem_toDigits_visible {b n : ℕ} (hb : 1 < b) {c : Char} (h : c ∈ Nat.toDigits b n) :
    0x20 ≤ c.val.toNat ∧ c.val.toNat < 0x7F := by
  have hdigit : ∀ d, 0x20 ≤ (Nat.digitChar d).val.toNat ∧ (Nat.digitChar d).val.toNat < 0x7F := by
    intro d
    by_cases hd : d < 16
    · interval_cases d <;> decide
    · rw [Nat.digitChar_eq_star.2 (not_lt.1 hd)]
      decide
  induction n using Nat.strongRecOn with
  | ind n ih =>
      rw [Nat.toDigits_eq_if hb] at h
      split_ifs at h with hlt
      · rw [List.mem_singleton.1 h]
        exact hdigit _
      · rcases List.mem_append.1 h with h | h
        · exact ih _ (Nat.div_lt_self (by omega) hb) h
        · rw [List.mem_singleton.1 h]
          exact hdigit _

theorem isVisible_toDigits {b : ℕ} (hb : 1 < b) (n : ℕ) : IsVisible (Nat.toDigits b n) :=
  fun _ hc => mem_toDigits_visible hb hc

theorem isVisible_toString (n : ℕ) : IsVisible (toString n).toList := by
  rw [Nat.toString_eq_repr, Nat.toList_repr]
  exact isVisible_toDigits (by decide) n

theorem isVisible_append {a b : Str} (ha : IsVisible a) (hb : IsVisible b) : IsVisible (a ++ b) :=
  fun c hc => (List.mem_append.1 hc).elim (ha c) (hb c)

theorem isVisible_cons {c : Char} {s : Str} (hc : 0x20 ≤ c.val.toNat ∧ c.val.toNat < 0x7F)
    (hs : IsVisible s) : IsVisible (c :: s) := by
  intro x hx
  rcases List.mem_cons.1 hx with rfl | hx
  · exact hc
  · exact hs x hx

/-- The value of a header field that the response builder is given as text. -/
def headerValue (s : Str) : Except OxiHttpError HeaderValue :=
  match HeaderValue.fromStr s with
  | some v => .ok v
  | none => .error (.http "failed to parse header value")

/-- `http::HeaderMap`: its fields, with their names in lower case. -/
structure HeaderMap where
  fields : List (Str × HeaderValue) := []
deriving DecidableEq, Repr

namespace HeaderMap

/-- `get_all`: the values under a name, in order. -/
def getAll (headers : HeaderMap) (name : Str) : List HeaderValue :=
  (headers.fields.filter fun p => p.1 = name).map Prod.snd

/-- `get`: the first value under a name. -/
def get (headers : HeaderMap) (name : Str) : Option HeaderValue := (headers.getAll name).head?

/-- `contains_key`. -/
def containsKey (headers : HeaderMap) (name : Str) : Bool := (headers.get name).isSome

/-- `remove`: no value is left under the name. -/
def remove (headers : HeaderMap) (name : Str) : HeaderMap :=
  ⟨headers.fields.filter fun p => p.1 ≠ name⟩

/-- `append`: one more value under the name. -/
def append (headers : HeaderMap) (name : Str) (v : HeaderValue) : HeaderMap :=
  ⟨headers.fields ++ [(name, v)]⟩

/-- `insert`: the one value under the name. -/
def insert (headers : HeaderMap) (name : Str) (v : HeaderValue) : HeaderMap :=
  (headers.remove name).append name v

variable {headers : HeaderMap} {name name' : Str} {v : HeaderValue}

@[simp] theorem getAll_append :
    (headers.append name v).getAll name'
      = headers.getAll name' ++ if name = name' then [v] else [] := by
  by_cases h : name = name' <;> simp [append, getAll, h]

@[simp] theorem getAll_remove :
    (headers.remove name).getAll name' = if name = name' then [] else headers.getAll name' := by
  by_cases h : name = name'
  · subst h
    simp [remove, getAll, List.filter_filter]
  · rw [if_neg h, getAll, getAll, remove, List.filter_filter]
    congr 1
    refine List.filter_congr fun p _ => ?_
    by_cases hp : p.1 = name' <;> simp [hp, Ne.symm h]

@[simp] theorem getAll_insert :
    (headers.insert name v).getAll name' = if name = name' then [v] else headers.getAll name' := by
  rw [insert, getAll_append, getAll_remove]
  split <;> simp

end HeaderMap

/-- The first value under a name, where it is text. -/
def headerText (headers : HeaderMap) (name : String) : Option Str :=
  (headers.get name.toList).bind HeaderValue.toStr

/-! ### URIs -/

/-- `http::uri::Authority`: its text, and the host and the port that are read off it.  The host
ends before the first colon unless it is a literal in brackets. -/
structure Authority where
  text : Str
  host : Str
  port : Option ℕ := none
  host_delimited : ':' ∈ host → host.head? = some '['
deriving DecidableEq

/-- `http::Uri`.  The parser ends a path at the first `?` or `#` and a query at the first `#`. -/
structure Uri where
  scheme : Option Str := none
  authority : Option Authority := none
  path : Str
  query : Option Str := none
  path_delimited : '?' ∉ path ∧ '#' ∉ path
  query_delimited : ∀ q ∈ query, '#' ∉ q
deriving DecidableEq

theorem root_delimited : '?' ∉ "/".toList ∧ '#' ∉ "/".toList := by decide

theorem noQuery_delimited : ∀ q ∈ (none : Option Str), '#' ∉ q := by simp

/-- `Uri::host`. -/
def Uri.host (uri : Uri) : Option Str := uri.authority.map Authority.host

/-- `Uri::port_u16`. -/
def Uri.port (uri : Uri) : Option ℕ := uri.authority.bind Authority.port

end OxiHttp
