/-
**The gzip format.**

RFC 1952: a gzip file is a series of members, each a header with optional fields, a compressed
content, and the checksum and the length of what the content decompresses to.

Main definitions:

* `Gzip.Header`, `Gzip.Header.encode` — headers and their bytes;
* `Gzip.Member`, `Gzip.Member.encode` — members and their bytes;
* `Gzip.Member.stored` — members that store their content.
-/

import OxiHttp.Crc32
import OxiHttp.Deflate

set_option relaxedAutoImplicit false
set_option autoImplicit false

namespace Gzip

/-- The header of a member (RFC 1952 §2.3): its optional fields are there when they are given. -/
structure Header where
  text : Bool
  mtime : UInt32
  xfl : UInt8
  os : UInt8
  extra : Option (List UInt8)
  name : Option (List UInt8)
  comment : Option (List UInt8)
  /-- Whether the header ends in a checksum of itself. -/
  checked : Bool
  extra_short : ∀ e ∈ extra, e.length < 65536
  name_text : ∀ n ∈ name, (0 : UInt8) ∉ n
  comment_text : ∀ n ∈ comment, (0 : UInt8) ∉ n

namespace Header

variable (h : Header)

/-- The byte that tells which of the fields are there. -/
def flags : UInt8 :=
  (if h.text then 0x01 else 0) ||| (if h.checked then 0x02 else 0) |||
    (if h.extra.isSome then 0x04 else 0) ||| (if h.name.isSome then 0x08 else 0) |||
    (if h.comment.isSome then 0x10 else 0)

/-- The ten bytes that every header has. -/
def fixed : List UInt8 :=
  [0x1F, 0x8B, 8, h.flags] ++ LittleEndian.toBytes 4 h.mtime.toNat ++ [h.xfl, h.os]

/-- The extra field, behind its length. -/
def extraBytes : List UInt8 :=
  match h.extra with
  | some e => LittleEndian.toBytes 2 e.length ++ e
  | none => []

end Header

/-- A text, with the zero that ends it. -/
def textBytes : Option (List UInt8) → List UInt8
  | some t => t ++ [0]
  | none => []

namespace Header

variable (h : Header)

/-- The header up to its checksum. -/
def body : List UInt8 := h.fixed ++ h.extraBytes ++ textBytes h.name ++ textBytes h.comment

/-- The checksum of the header: the lower half of its CRC-32. -/
def checkBytes : List UInt8 :=
  if h.checked then LittleEndian.toBytes 2 (Crc32.crc32 h.body).toNat else []

/-- The bytes of the header. -/
def encode : List UInt8 := h.body ++ h.checkBytes

theorem length_fixed : h.fixed.length = 10 := by simp [fixed]

/-- Every bit of the flags is what it stands for. -/
theorem flags_bits :
    (h.flags &&& 0x02 ≠ 0 ↔ h.checked = true) ∧ (h.flags &&& 0x04 ≠ 0 ↔ h.extra.isSome = true) ∧
      (h.flags &&& 0x08 ≠ 0 ↔ h.name.isSome = true) ∧
      (h.flags &&& 0x10 ≠ 0 ↔ h.comment.isSome = true) := by
  unfold flags
  generalize h.text = a
  generalize h.checked = b
  generalize h.extra.isSome = c
  generalize h.name.isSome = d
  generalize h.comment.isSome = e
  revert a b c d e
  decide

end Header

/-- A member: its compressed content, and what it decompresses to. -/
structure Member where
  header : Header
  deflate : List UInt8
  content : List UInt8

namespace Member

/-- The checksum and the length of the content, modulo their widths. -/
def trailer (m : Member) : List UInt8 :=
  LittleEndian.toBytes 4 (Crc32.crc32 m.content).toNat ++ LittleEndian.toBytes 4 m.content.length

/-- The bytes of the member. -/
def encode (m : Member) : List UInt8 := m.header.encode ++ m.deflate ++ m.trailer

theorem length_trailer (m : Member) : m.trailer.length = 8 := by simp [trailer]

end Member

/-- A header without optional fields. -/
def Header.plain : Header where
  text := false
  mtime := 0
  xfl := 0
  os := 255
  extra := none
  name := none
  comment := none
  checked := false
  extra_short _ h := nomatch h
  name_text _ h := nomatch h
  comment_text _ h := nomatch h

/-- A member that stores its content. -/
def Member.stored (content : List UInt8) : Member where
  header := .plain
  deflate := Deflate.store content
  content := content

end Gzip
