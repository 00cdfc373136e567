/-
**The search for a boundary.**

`find_unique_boundary` tries the boundary it is given, and then that one with the numbers from 1 on
appended in hexadecimal.  These candidates differ, so that each turn of the loop that finds its
candidate in a part meets another one of those that occur there, and the search ends one turn after
the last of them at most.

Main definitions:

* `OxiHttp.candidate` — the candidates in the order in which they are tried;
* `OxiHttp.countedSearch`, `OxiHttp.freshBoundary` — the search, with the number of its turns;
* `OxiHttp.occurring` — the candidates that occur in some bodies.

Main results:

* `OxiHttp.candidate_injOn` — the candidates differ;
* `OxiHttp.findUniqueBoundary_fresh` — where both copies of the search end.
-/

import Mathlib.Tactic.Ring
import OxiHttp.FirstFree
import OxiHttp.MultipartStream

set_option relaxedAutoImplicit false
set_option autoImplicit false

namespace OxiHttp

/-! ### The candidates -/

/-- The value of a hexadecimal digit. -/
def hexDigitValue (c : Char) : ℕ := if c.toNat < 0x3A then c.toNat - 0x30 else c.toNat - 0x57

/-- The number that hexadecimal digits stand for, behind those of `acc`. -/
def hexValue (acc : ℕ) (s : Str) : ℕ := s.foldl (fun acc c => acc * 16 + hexDigitValue c) acc

theorem hexDigitValue_hexLower : ∀ d < 16, hexDigitValue (hexLower d) = d := by decide

theorem hexValue_append (acc : ℕ) (a b : Str) :
    hexValue acc (a ++ b) = hexValue (hexValue acc a) b := List.foldl_append

theorem hexValue_zeros (n : ℕ) : hexValue 0 (List.replicate n '0') = 0 := by
  induction n with
  | zero => rfl
  | succ n ih =>
      rw [List.replicate_succ]
      exact ih

/-- Zeros in front do not count. -/
theorem hexValue_dropWhile (ds : List ℕ) :
    hexValue 0 ((ds.dropWhile (· = 0)).map hexLower) = hexValue 0 (ds.map hexLower) := by
  induction ds with
  | nil => rfl
  | cons d ds ih =>
      by_cases hd : d = 0
      · rw [List.dropWhile_cons_of_pos (by simpa using hd), ih, hd]
        rfl
      · rw [List.dropWhile_cons_of_neg (by simpa using hd)]

/-- Some digits of a number, from the least significant on. -/
theorem hexValue_digits (acc n m : ℕ) :
    hexValue acc (((List.range m).reverse.map fun i => n / 16 ^ i % 16).map hexLower)
      = acc * 16 ^ m + n % 16 ^ m := by
  induction m generalizing acc with
  | zero => simp [hexValue, Nat.mod_one]
  | succ m ih =>
      have hdigit : n / 16 ^ m % 16 < 16 := Nat.mod_lt _ (by decide)
      rw [List.range_succ, List.reverse_append, List.reverse_singleton, List.singleton_append,
        List.map_cons, List.map_cons]
      change hexValue (acc * 16 + hexDigitValue _) _ = _
      rw [hexDigitValue_hexLower _ hdigit, ih, Nat.mod_pow_succ, pow_succ]
      ring

/-- A number of sixteen digits is read back. -/
theorem hexValue_formatHex (width : ℕ) {n : ℕ} (h : n < 16 ^ 16) :
    hexValue 0 (formatHex width n) = n := by
  rw [formatHex, List.leftpad, hexValue_append, hexValue_zeros, hexDigits, hexValue_dropWhile,
    hexValue_digits, Nat.mod_eq_of_lt h]
  exact Nat.zero_add n

/-- The candidates in the order in which they are tried. -/
def candidate (stored : Str) (n : ℕ) : Str :=
  if n = 0 then stored else stored ++ formatHex 4 n

theorem length_candidate (stored : Str) {n : ℕ} (h : n ≠ 0) :
    stored.length + 4 ≤ (candidate stored n).length := by
  rw [candidate, if_neg h, List.length_append]
  exact Nat.add_le_add_left (width_le_length_formatHex 4 n) _

theorem prefix_candidate (stored : Str) (n : ℕ) : stored <+: candidate stored n := by
  rw [candidate]
  split_ifs
  · exact List.prefix_rfl
  · exact List.prefix_append _ _

/-- The candidates differ. -/
theorem candidate_injOn (stored : Str) : Set.InjOn (candidate stored) (Set.Iio (2 ^ 32)) := by
  intro m hm n hn h
  by_cases hm0 : m = 0
  · by_cases hn0 : n = 0
    · rw [hm0, hn0]
    · have hlen := length_candidate stored hn0
      rw [← h, hm0, candidate, if_pos rfl] at hlen
      omega
  · by_cases hn0 : n = 0
    · have hlen := length_candidate stored hm0
      rw [h, hn0, candidate, if_pos rfl] at hlen
      omega
    · rw [candidate, candidate, if_neg hm0, if_neg hn0, List.append_cancel_left_eq] at h
      have hbound : (2 : ℕ) ^ 32 ≤ 16 ^ 16 := by decide
      rw [← hexValue_formatHex 4 (lt_of_lt_of_le hm hbound), h,
        hexValue_formatHex 4 (lt_of_lt_of_le hn hbound)]

/-! ### The turns of the search -/

/-- `searchBoundary`, with the number of turns of the loop. -/
def countedSearch (hasCollision : Str → Bool) (stored : Str) : (left : ℕ) → Str → Option (Str × ℕ)
  | 0, boundary => if hasCollision boundary then none else some (boundary, 1)
  | left + 1, boundary =>
      if hasCollision boundary then
        (countedSearch hasCollision stored left
          (stored ++ formatHex 4 (2 ^ 32 - 1 - left))).map fun r => (r.1, r.2 + 1)
      else some (boundary, 1)

variable {hasCollision : Str → Bool} {stored : Str}

/-- Counting does not change what is found. -/
theorem countedSearch_fst (left : ℕ) (boundary : Str) :
    (countedSearch hasCollision stored left boundary).map Prod.fst
      = searchBoundary hasCollision stored left boundary := by
  induction left generalizing boundary with
  | zero =>
      rw [countedSearch, searchBoundary]
      split_ifs <;> rfl
  | succ left ih =>
      rw [countedSearch, searchBoundary, ← ih]
      split_ifs
      · rw [Option.map_map]
        rfl
      · rfl

/-- The search finds the first candidate without a collision, in as many turns as it has tried
candidates. -/
theorem countedSearch_eq {n left k : ℕ} (hleft : n + left = 2 ^ 32 - 1) (hn : n ≤ k)
    (hk : k < 2 ^ 32) (htaken : ∀ i, n ≤ i → i < k → hasCollision (candidate stored i) = true)
    (hfree : hasCollision (candidate stored k) = false) :
    countedSearch hasCollision stored left (candidate stored n)
      = some (candidate stored k, k - n + 1) := by
  -- induction on the increments that are left; the number of the candidate goes up meanwhile
  induction left generalizing n with
  | zero =>
      obtain rfl : n = k := by omega
      rw [countedSearch, hfree, Nat.sub_self]
      rfl
  | succ left ih =>
      rcases Nat.eq_or_lt_of_le hn with rfl | hlt
      · rw [countedSearch, hfree, Nat.sub_self]
        rfl
      · have hnext : stored ++ formatHex 4 (2 ^ 32 - 1 - left) = candidate stored (n + 1) := by
          have hnumber : 2 ^ 32 - 1 - left = n + 1 := by omega
          rw [candidate, if_neg (Nat.succ_ne_zero n), hnumber]
        have hturns : k - (n + 1) + 1 + 1 = k - n + 1 := by omega
        rw [countedSearch, htaken n le_rfl hlt, if_pos rfl, hnext,
          ih (by omega) hlt fun i hi => htaken i (Nat.le_of_succ_le hi), Option.map_some, hturns]

/-! ### The search in some bodies -/

/-- A boundary that is not empty: `windows` panics for no length. -/
abbrev Boundary : Type := { s : Str // s ≠ [] }

/-- Some body contains the boundary. -/
def collides (bodies : List (List UInt8)) (boundary : Str) : Bool :=
  bodies.any fun body => anyWindow (Utf8.encode boundary) body

theorem collides_iff {bodies : List (List UInt8)} {boundary : Str} :
    collides bodies boundary = true ↔ ∃ body ∈ bodies, Utf8.encode boundary <:+: body := by
  simp only [collides, List.any_eq_true, anyWindow_iff]

/-- What `find_unique_boundary` finds in these bodies, and the number of turns of its loop. -/
def freshBoundary (bodies : List (List UInt8)) (stored : Boundary) : Option (Str × ℕ) :=
  countedSearch (collides bodies) stored (2 ^ 32 - 1) stored

/-- The candidates that occur in some of the bodies. -/
def occurring (bodies : List (List UInt8)) (stored : Boundary) : Set Str :=
  FirstFree.taken (candidate stored) (2 ^ 32) fun s => ∃ body ∈ bodies, Utf8.encode s <:+: body

/-- The bodies that a builder scans. -/
def MultipartBuilder.scanned (builder : MultipartBuilder) : List (List UInt8) :=
  builder.parts.map Part.body

/-- The bodies that a streaming builder scans are those of its buffered parts. -/
def StreamingMultipart.scanned (streaming : StreamingMultipart) : List (List UInt8) :=
  streaming.parts.filterMap fun
    | .buffered part => some part.body
    | .streamed _ _ => none

theorem MultipartBuilder.hasCollision_eq (builder : MultipartBuilder) :
    builder.hasCollision = collides builder.scanned := by
  funext boundary
  rw [hasCollision, collides, scanned, List.any_map]
  rfl

theorem StreamingMultipart.hasCollision_eq (streaming : StreamingMultipart) :
    streaming.hasCollision = collides streaming.scanned := by
  funext boundary
  unfold hasCollision collides scanned
  rw [List.any_filterMap]
  congr 1
  funext part
  cases part <;> rfl

/-- The search ends, after no more turns than there are candidates that occur in the bodies, and one
more; what it finds extends the stored boundary and occurs in no body.  Both copies find it. -/
theorem findUniqueBoundary_fresh {bodies : List (List UInt8)} {stored : Boundary}
    (hfew : (occurring bodies stored).ncard < 2 ^ 32) :
    (∃ found turns, freshBoundary bodies stored = some (found, turns) ∧
      turns ≤ (occurring bodies stored).ncard + 1 ∧ stored.1 <+: found ∧
      ∀ body ∈ bodies, ¬ Utf8.encode found <:+: body) ∧
    (∀ builder : MultipartBuilder, builder.boundary = stored → builder.scanned = bodies →
      builder.findUniqueBoundary = (freshBoundary bodies stored).map Prod.fst) ∧
    (∀ streaming : StreamingMultipart, streaming.boundary = stored → streaming.scanned = bodies →
      streaming.findUniqueBoundary = (freshBoundary bodies stored).map Prod.fst) := by
  refine ⟨?_, ?_, ?_⟩
  · obtain ⟨k, hlt, hle, hfree, htaken⟩ := FirstFree.exists_first (candidate_injOn stored) hfew
    have hsearch : freshBoundary bodies stored = some (candidate stored k, k - 0 + 1) := by
      refine countedSearch_eq (Nat.zero_add _) (Nat.zero_le k) hlt ?_ ?_
      · intro i _ hi
        exact collides_iff.2 (htaken i hi)
      · rw [← Bool.not_eq_true, collides_iff]
        exact hfree
    refine ⟨_, _, hsearch, Nat.succ_le_succ hle, prefix_candidate _ k, ?_⟩
    intro body hbody hinfix
    exact hfree ⟨body, hbody, hinfix⟩
  · rintro builder hboundary rfl
    rw [MultipartBuilder.findUniqueBoundary, builder.hasCollision_eq, hboundary, freshBoundary,
      countedSearch_fst]
    rfl
  · rintro streaming hboundary rfl
    rw [StreamingMultipart.findUniqueBoundary, streaming.hasCollision_eq, hboundary, freshBoundary,
      countedSearch_fst]
    rfl

/-- A boundary of one character. -/
def oneLetter : Boundary := ⟨['x'], List.cons_ne_nil _ _⟩

/-- In a body of one byte nothing longer occurs. -/
theorem occurring_oneLetter : (occurring [Utf8.encode ['x']] oneLetter).ncard < 2 ^ 32 := by
  have hsub : occurring [Utf8.encode ['x']] oneLetter ⊆ {['x']} := by
    rintro s ⟨⟨body, hbody, hinfix⟩, n, -, rfl⟩
    by_cases hn : n = 0
    · rw [hn]
      rfl
    · have hlen := length_candidate oneLetter.1 hn
      have hbytes := hinfix.length_le
      have hle := Utf8.length_le_length_encode (candidate oneLetter n)
      rw [List.mem_singleton.1 hbody] at hbytes
      have hone : (Utf8.encode ['x']).length = 1 := by decide
      omega
  refine lt_of_le_of_lt (Set.ncard_le_ncard hsub (Set.finite_singleton _)) ?_
  rw [Set.ncard_singleton]
  decide

theorem findUniqueBoundary_fresh_oneLetter :
    (∃ found turns, freshBoundary [Utf8.encode ['x']] oneLetter = some (found, turns) ∧
      turns ≤ (occurring [Utf8.encode ['x']] oneLetter).ncard + 1 ∧ ['x'] <+: found ∧
      ∀ body ∈ [Utf8.encode ['x']], ¬ Utf8.encode found <:+: body) :=
  (findUniqueBoundary_fresh occurring_oneLetter).1

end OxiHttp
