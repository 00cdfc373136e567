/-
**Gzip bodies of several members.**

The decompression sees only the first member and the last eight bytes of the body: it takes the
content of the first member for the whole when its length and checksum are those of the last one.
There is no result when a buffer that it tries is beyond `isize::MAX`.

Main definitions:

* `OxiHttp.Complete` — a result that is an error or all that the members contain.

Main results:

* `OxiHttp.boundedGzipDecompress_ends` — the result, from the first member and the last trailer;
* `OxiHttp.boundedGzipDecompress_complete_iff` — when the result is complete.
-/

import OxiHttp.DeflateBody

set_option relaxedAutoImplicit false
set_option autoImplicit false

namespace OxiHttp

open Gzip

/-- The trailer at the end of a body is the one of the last member. -/
theorem drop_trailer (front : List UInt8) (m : Member) :
    (front ++ m.trailer).drop ((front ++ m.trailer).length - 8) = m.trailer := by
  rw [List.length_append, m.length_trailer, Nat.add_sub_cancel, List.drop_left]

theorem take_trailer (m : Member) :
    UInt32.ofNat (LittleEndian.ofBytes (m.trailer.take 4)) = Crc32.crc32 m.content := by
  have hlt : (Crc32.crc32 m.content).toNat < 256 ^ 4 := UInt32.toNat_lt _
  rw [Member.trailer, List.take_left' (LittleEndian.length_toBytes 4 _),
    LittleEndian.ofBytes_toBytes, Nat.mod_eq_of_lt hlt, UInt32.ofNat_toNat]

theorem drop_four_trailer (m : Member) :
    UInt32.ofNat (LittleEndian.ofBytes (m.trailer.drop 4)) = UInt32.ofNat m.content.length := by
  rw [Member.trailer, List.drop_left' (LittleEndian.length_toBytes 4 _),
    LittleEndian.ofBytes_toBytes]
  apply UInt32.toNat_inj.1
  simp

/-- Whether the length and the checksum of the one content are those of the other. -/
def SameTrailer (c c' : List UInt8) : Prop :=
  c.length % 2 ^ 32 = c'.length % 2 ^ 32 ∧ Crc32.crc32 c = Crc32.crc32 c'

/-- The decompression of a body that begins with the first member and ends with the trailer of the
last one is the one of the content, and the comparison with that trailer. -/
theorem boundedGzipDecompress_eq (inflateInto : List UInt8 → ℕ → Except String (List UInt8))
    (first last : Member) (middle : List UInt8) (cap : ℕ) :
    boundedGzipDecompress inflateInto
        (first.header.encode ++ (first.deflate ++ (middle ++ last.trailer))) cap =
      (boundedInflate (gzipInflate inflateInto) (first.deflate ++ (middle ++ last.trailer)) cap).map
        fun decoded => decoded.bind (checkTrailer (UInt32.ofNat last.content.length)
          (Crc32.crc32 last.content)) := by
  have htrailer : (first.header.encode ++ (first.deflate ++ (middle ++ last.trailer))).drop
      ((first.header.encode ++ (first.deflate ++ (middle ++ last.trailer))).length - 8) =
        last.trailer := by
    have := drop_trailer (first.header.encode ++ first.deflate ++ middle) last
    simpa only [List.append_assoc] using this
  have hlen : ¬ (first.header.encode ++ (first.deflate ++ (middle ++ last.trailer))).length <
      first.header.encode.length + 8 := by
    simp only [List.length_append, last.length_trailer]
    omega
  rw [boundedGzipDecompress, gzipDeflatePayloadStart_encode]
  dsimp only
  rw [if_neg hlen, htrailer, take_trailer, drop_four_trailer, List.drop_left]

/-- The comparison lets a content through that has the length and the checksum of the last one. -/
theorem checkTrailer_eq_ok (c c' bs : List UInt8) :
    checkTrailer (UInt32.ofNat c'.length) (Crc32.crc32 c') c = .ok bs ↔
      bs = c ∧ SameTrailer c c' := by
  have hsize : UInt32.ofNat c.length = UInt32.ofNat c'.length ↔
      c.length % 2 ^ 32 = c'.length % 2 ^ 32 := by
    rw [← UInt32.toNat_inj, UInt32.toNat_ofNat', UInt32.toNat_ofNat']
  rw [checkTrailer, SameTrailer, ← hsize]
  split_ifs with h₁ h₂
  · exact iff_of_false (fun h => by cases h) fun h => h₁ h.2.1
  · exact iff_of_false (fun h => by cases h) fun h => h₂ h.2.2
  · rw [Except.ok.injEq, eq_comm, and_iff_left ⟨not_not.1 h₁, not_not.1 h₂⟩]

/-- It gives the first content, or an error, when the buffers can be had, and nothing otherwise. -/
theorem boundedGzipDecompress_ends {IsDeflate : List UInt8 → List UInt8 → Prop}
    {inflateInto : List UInt8 → ℕ → Except String (List UInt8)}
    (hi : Inflates IsDeflate inflateInto) (first last : Member)
    (hd : IsDeflate first.deflate first.content) (middle : List UInt8) (cap : ℕ) :
    (Affords (first.deflate ++ (middle ++ last.trailer)) cap first.content.length →
        ∃ r, boundedGzipDecompress inflateInto
            (first.header.encode ++ (first.deflate ++ (middle ++ last.trailer))) cap = .ok r ∧
          ∀ bs, r = .ok bs ↔ bs = first.content ∧ first.content.length ≤ cap ∧
            SameTrailer first.content last.content) ∧
      ∀ r, boundedGzipDecompress inflateInto
          (first.header.encode ++ (first.deflate ++ (middle ++ last.trailer))) cap = .ok r →
        Affords (first.deflate ++ (middle ++ last.trailer)) cap first.content.length := by
  obtain ⟨hafford, hpanic⟩ := boundedInflate_inflates hi hd (middle ++ last.trailer) cap
  rw [boundedGzipDecompress_eq]
  refine ⟨fun h => ?_, fun r hr => ?_⟩
  · obtain ⟨decoded, hdecoded, hfits, hexceeds⟩ := hafford h
    rw [hdecoded]
    refine ⟨_, rfl, fun bs => ?_⟩
    by_cases hcap : first.content.length ≤ cap
    · rw [hfits hcap, and_iff_right hcap]
      exact checkTrailer_eq_ok first.content last.content bs
    · obtain ⟨e, he⟩ := hexceeds hcap
      rw [he]
      exact iff_of_false (fun h => by cases h) fun h => hcap h.2.1
  · cases hdecoded : boundedInflate (gzipInflate inflateInto)
        (first.deflate ++ (middle ++ last.trailer)) cap with
    | ok decoded => exact hpanic decoded hdecoded
    | error p =>
        rw [hdecoded] at hr
        cases hr

/-- A result that is an error, or all that the members contain; a panic is none. -/
def Complete (ms : List Member) (r : Except Panic (Except OxiHttpError (List UInt8))) : Prop :=
  ∃ result, r = .ok result ∧ ∀ bs, result = .ok bs → bs = ms.flatMap Member.content

/-- Of two or more members nothing is lost exactly when the buffers that are tried for the first
content can be had, and that content exceeds the cap, or its length or checksum differs from that of
the last one, or the other members are empty. -/
theorem boundedGzipDecompress_complete_iff {IsDeflate : List UInt8 → List UInt8 → Prop}
    {inflateInto : List UInt8 → ℕ → Except String (List UInt8)}
    (hi : Inflates IsDeflate inflateInto) (first last : Member) (middle : List Member)
    (hv : ∀ m ∈ first :: middle ++ [last], IsDeflate m.deflate m.content) (cap : ℕ) :
    Complete (first :: middle ++ [last])
        (boundedGzipDecompress inflateInto
          ((first :: middle ++ [last]).flatMap Member.encode) cap) ↔
      Affords (((first :: middle ++ [last]).flatMap Member.encode).drop first.header.encode.length)
          cap first.content.length ∧
        (cap < first.content.length ∨
          first.content.length % 2 ^ 32 ≠ last.content.length % 2 ^ 32 ∨
          Crc32.crc32 first.content ≠ Crc32.crc32 last.content ∨
          ∀ m ∈ middle ++ [last], m.content = []) := by
  have hbody : (first :: middle ++ [last]).flatMap Member.encode =
      first.header.encode ++ (first.deflate ++ ((first.trailer ++ middle.flatMap Member.encode ++
        last.header.encode ++ last.deflate) ++ last.trailer)) := by
    simp [Member.encode]
  obtain ⟨hends, hpanic⟩ := boundedGzipDecompress_ends hi first last (hv first (by simp))
    (first.trailer ++ middle.flatMap Member.encode ++ last.header.encode ++ last.deflate) cap
  have hall : first.content = (first :: middle ++ [last]).flatMap Member.content ↔
      ∀ m ∈ middle ++ [last], m.content = [] := by
    rw [List.cons_append, List.flatMap_cons, List.self_eq_append_right, List.flatMap_eq_nil_iff]
  rw [hbody, Complete, List.drop_left]
  constructor
  · rintro ⟨result, hresult, h⟩
    have hafford := hpanic result hresult
    refine ⟨hafford, ?_⟩
    obtain ⟨r, hr, hiff⟩ := hends hafford
    obtain rfl : r = result := Except.ok.inj (hr.symm.trans hresult)
    -- Otherwise the first content comes back, and it is not the whole.
    by_contra hnot
    simp only [not_or, not_lt, not_not, not_forall] at hnot
    obtain ⟨hcap, hsize, hcrc, hrest⟩ := hnot
    have hok := h _ ((hiff _).2 ⟨rfl, hcap, hsize, hcrc⟩)
    obtain ⟨m, hm, hne⟩ := hrest
    exact hne (hall.1 hok m hm)
  · rintro ⟨hafford, h⟩
    obtain ⟨r, hr, hiff⟩ := hends hafford
    refine ⟨r, hr, fun bs hbs => ?_⟩
    obtain ⟨rfl, hcap, hsize, hcrc⟩ := (hiff _).1 hbs
    rcases h with h | h | h | h
    · exact absurd hcap (Nat.not_le_of_lt h)
    · exact absurd hsize h
    · exact absurd hcrc h
    · exact hall.2 h

/-! ### Two members -/

theorem inflate_of_mem_twoMembers (b b' : UInt8) (m : Member)
    (hm : m ∈ Member.stored [b] :: [] ++ [Member.stored [b']]) (rest : List UInt8) :
    Deflate.inflate (m.deflate ++ rest) = some m.content := by
  simp only [List.cons_append, List.nil_append, List.mem_cons, List.not_mem_nil, or_false] at hm
  rcases hm with rfl | rfl
  · exact Deflate.inflate_store (by simp) rest
  · exact Deflate.inflate_store (by simp) rest

/-- Of two members with different checksums nothing is lost: there is an error. -/
theorem boundedGzipDecompress_complete_twoMembers :
    Complete (Member.stored [97] :: [] ++ [Member.stored [98]])
      (boundedGzipDecompress (intoBuffer Deflate.inflate)
        ((Member.stored [97] :: [] ++ [Member.stored [98]]).flatMap Member.encode) 1024) :=
  (boundedGzipDecompress_complete_iff (inflates_of_decodesInto (intoBuffer_decodesInto _))
    (Member.stored [97]) (Member.stored [98]) []
    (fun m hm rest => inflate_of_mem_twoMembers 97 98 m hm rest) 1024).2
      ⟨.inl (by decide), .inr (.inr (.inl (by decide +kernel)))⟩

/-- Of two equal members only the first content comes back. -/
theorem not_complete_equalMembers : ¬ Complete (Member.stored [97] :: [] ++ [Member.stored [97]])
    (boundedGzipDecompress (intoBuffer Deflate.inflate)
      ((Member.stored [97] :: [] ++ [Member.stored [97]]).flatMap Member.encode) 1024) := by
  have hok : (boundedGzipDecompress (intoBuffer Deflate.inflate)
      ((Member.stored [97] :: [] ++ [Member.stored [97]]).flatMap Member.encode) 1024).toOption =
        some (.ok [97]) := by
    decide +kernel
  rintro ⟨result, hresult, h⟩
  rw [hresult] at hok
  exact absurd (h [97] (Option.some.inj hok)) (by decide)

end OxiHttp
