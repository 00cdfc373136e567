/-
**Query parameters.**

`Request::query_params` splits the raw query of a request into pairs and decodes both halves of
each with `percent_decode`, which works on bytes and makes a character of every byte it decodes.

Main definitions:

* `OxiHttp.percentDecode` — `percent_decode`;
* `OxiHttp.collectMap` — `collect` into a `HashMap`;
* `OxiHttp.queryParams` — `Request::query_params`.

Main results:

* `OxiHttp.mem_collectMap`, `OxiHttp.lookup_collectMap` — the entries of the map of a list of pairs.
-/

import OxiHttp.Text
import OxiHttp.Utf8
import Mathlib.Data.Finmap

set_option relaxedAutoImplicit false
set_option autoImplicit false

namespace OxiHttp

/-- The value of an ASCII hex digit. -/
def hexDigit (b : UInt8) : Option ℕ :=
  if 0x30 ≤ b && b ≤ 0x39 then some (b.toNat - 0x30)
  else if 0x41 ≤ b && b ≤ 0x46 then some (b.toNat - 0x41 + 10)
  else if 0x61 ≤ b && b ≤ 0x66 then some (b.toNat - 0x61 + 10)
  else none

/-- `u8::from_str_radix(_, 16)` on the text of two bytes.  A leading `+` is a sign. -/
def fromStrRadix16 (h l : UInt8) : Option ℕ :=
  if h = 0x2B then hexDigit l
  else (hexDigit h).bind fun h => (hexDigit l).map fun l => 16 * h + l

/-- `b as char`. -/
def asChar (b : UInt8) : Char := Char.ofNat b.toNat

/-- The loop of `percent_decode` over the bytes of its argument. -/
def decodeBytes : List UInt8 → Str
  | [] => []
  | b :: rest =>
      if b = 0x25 then
        match rest with
        | h :: l :: rest =>
            match fromStrRadix16 h l with
            | some decoded => Char.ofNat decoded :: decodeBytes rest
            -- the two bytes are lost with the `%` that they follow
            | none => '%' :: decodeBytes rest
        | _ => ['%']
      else if b = 0x2B then ' ' :: decodeBytes rest
      else asChar b :: decodeBytes rest

/-- What holds of the numbers below 256 as bytes holds of every byte. -/
theorem forall_byte {p : UInt8 → Prop} (h : ∀ n < 256, p (UInt8.ofNat n)) (b : UInt8) : p b := by
  have := h b.toNat b.toNat_lt
  rwa [UInt8.ofNat_toNat] at this

/-- A byte that is neither `%` nor `+` becomes the character with its code. -/
theorem decodeBytes_plain {b : UInt8} (hpercent : b ≠ 0x25) (hplus : b ≠ 0x2B)
    (rest : List UInt8) : decodeBytes (b :: rest) = asChar b :: decodeBytes rest := by
  rcases rest with _ | ⟨h, _ | ⟨l, rest⟩⟩ <;> simp [decodeBytes, hpercent, hplus]

/-- A `%` and two digits become the character with their value for its code. -/
theorem decodeBytes_escape {h l : UInt8} {decoded : ℕ}
    (hvalue : fromStrRadix16 h l = some decoded) (rest : List UInt8) :
    decodeBytes (0x25 :: h :: l :: rest) = Char.ofNat decoded :: decodeBytes rest := by
  simp [decodeBytes, hvalue]

/-- `percent_decode`. -/
def percentDecode (s : Str) : Str := decodeBytes (Utf8.encode s)

/-- `collect` into a `HashMap`: of two entries with one key the later one stays. -/
def collectMap (pairs : List (Str × Str)) : Finmap fun _ : Str => Str :=
  pairs.foldl (fun m p => m.insert p.1 p.2) ∅

/-- The pairs of a raw query.  A piece without `=` is dropped. -/
def queryPairs (q : Str) : List (Str × Str) :=
  (q.splitOn '&').filterMap fun pair =>
    (splitOnce '=' pair).map fun p => (percentDecode p.1, percentDecode p.2)

/-- `Request::query_params`, from the query of the request's URI. -/
def queryParams (query : Option Str) : Finmap fun _ : Str => Str :=
  match query with
  | some q => collectMap (queryPairs q)
  | none => ∅

/-- `Request::query`, from the query of the request's URI. -/
def queryParam (query : Option Str) (name : Str) : Option Str := (queryParams query).lookup name

example : percentDecode "a%20b+c%zz%+f".toList = "a b c%\x0f".toList := by decide +kernel

/-! ### The map of a list of pairs -/

theorem collectMap_concat (pairs : List (Str × Str)) (p : Str × Str) :
    collectMap (pairs ++ [p]) = (collectMap pairs).insert p.1 p.2 := by simp [collectMap]

/-- The keys are the names that occur. -/
theorem mem_collectMap {pairs : List (Str × Str)} {name : Str} :
    name ∈ collectMap pairs ↔ name ∈ pairs.map Prod.fst := by
  induction pairs using List.reverseRecOn with
  | nil => simp [collectMap, Finmap.notMem_empty]
  | append_singleton pairs p ih =>
      rw [collectMap_concat, Finmap.mem_insert, ih]
      simp [or_comm]

/-- Where the names are distinct, every pair is an entry. -/
theorem lookup_collectMap {pairs : List (Str × Str)} (hd : (pairs.map Prod.fst).Nodup)
    {p : Str × Str} (hp : p ∈ pairs) : (collectMap pairs).lookup p.1 = some p.2 := by
  induction pairs using List.reverseRecOn with
  | nil => cases hp
  | append_singleton pairs q ih =>
      rw [List.map_append, List.nodup_append] at hd
      rw [collectMap_concat]
      rcases List.mem_append.1 hp with hp | hp
      · have hne : p.1 ≠ q.1 := hd.2.2 _ (List.mem_map_of_mem hp) _ (by simp)
        rw [Finmap.lookup_insert_of_ne _ hne, ih hd.1 hp]
      · rw [List.mem_singleton.1 hp, Finmap.lookup_insert]

end OxiHttp
