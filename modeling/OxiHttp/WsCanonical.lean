/-
**Canonical frames.**

RFC 6455 §5.2 wants the length of a payload in the fewest bytes that hold it.  The two writers use
them; `read_frame` checks everything else about a header, but takes a length in any of the three
forms that can hold it.

Main definitions:

* `OxiHttp.MinimalLength` — the length in the header is in the fewest bytes;
* `OxiHttp.keyIn` — the masking key of a frame, in its bytes;
* `OxiHttp.IsCanonical` — the bytes are those that the masked writer writes.

Main results:

* `OxiHttp.readFrame_ok` — what was read, taken apart;
* `OxiHttp.extLen_of_lenCode` — a length in the fewest bytes is written as the writers do.
-/

import OxiHttp.WsFrameStream

set_option relaxedAutoImplicit false
set_option autoImplicit false

namespace OxiHttp

/-! ### Lengths -/

/-- The seven-bit length in a header. -/
def codeOf (bs : List UInt8) : ℕ := (bs.getD 1 0 &&& 0x7F).toNat

/-- The length in the header is in the fewest bytes that hold it: an extended one is used for what
does not fit the next shorter form. -/
def MinimalLength (bs : List UInt8) : Prop :=
  (codeOf bs = 126 → 125 < BigEndian.ofBytes ((bs.drop 2).take 2)) ∧
    (codeOf bs = 127 → 0xFFFF < BigEndian.ofBytes ((bs.drop 2).take 8))

instance (bs : List UInt8) : Decidable (MinimalLength bs) := inferInstanceAs (Decidable (_ ∧ _))

/-- The number of bytes of an extended length. -/
def extSize (code : ℕ) : ℕ := if code ≤ 125 then 0 else if code = 126 then 2 else 8

/-- The length that a seven-bit length and its extension stand for. -/
def lengthOf (code : ℕ) (ext : List UInt8) : ℕ :=
  if code ≤ 125 then code else BigEndian.ofBytes ext

/-- The seven-bit length is that of the writers when an extended length is one that needs to be. -/
theorem lenCode_lengthOf_iff {code : ℕ} (hcode : code < 128) {ext : List UInt8}
    (hext : ext.length = extSize code) :
    lenCode (lengthOf code ext) = code ↔
      (code = 126 → 125 < BigEndian.ofBytes ext) ∧
        (code = 127 → 0xFFFF < BigEndian.ofBytes ext) := by
  have htwo : code = 126 → BigEndian.ofBytes ext < 256 ^ 2 := by
    rintro rfl
    exact BigEndian.ofBytes_lt hext
  unfold lenCode lengthOf
  by_cases h : code ≤ 125
  · rw [if_pos h, if_pos h]
    omega
  · rw [if_neg h]
    split <;> [skip; split] <;> omega

/-- The extended length is then that of the writers, too. -/
theorem extLen_of_lenCode {code : ℕ} {ext : List UInt8} (hext : ext.length = extSize code)
    (h : lenCode (lengthOf code ext) = code) : extLen (lengthOf code ext) = ext := by
  unfold lengthOf lenCode extSize at *
  by_cases hcode : code ≤ 125
  · rw [if_pos hcode] at hext ⊢
    rw [extLen, if_pos hcode, List.length_eq_zero_iff.1 hext]
  · rw [if_neg hcode] at h hext ⊢
    unfold extLen
    split at h
    case isTrue hle => omega
    case isFalse hle =>
        rw [if_neg hle]
        split at h
        case isTrue h16 =>
            rw [if_pos h.symm] at hext
            rw [if_pos h16, BigEndian.toBytes_ofBytes hext]
        case isFalse h16 =>
            rw [if_neg (by omega)] at hext
            rw [if_neg h16, BigEndian.toBytes_ofBytes hext]

/-- The extended length of the writers has as many bytes as the seven-bit length announces, and the
two stand for the length. -/
theorem extLen_spec {len : ℕ} (h : len < 2 ^ 64) :
    (extLen len).length = extSize (lenCode len) ∧ lengthOf (lenCode len) (extLen len) = len := by
  unfold extLen lenCode extSize lengthOf
  split
  case isTrue => simp
  case isFalse h₁ =>
      split
      case isTrue h₂ => simp [BigEndian.ofBytes_toBytes (w := 2) (n := len) (by omega)]
      case isFalse h₂ => simp [BigEndian.ofBytes_toBytes (w := 8) (n := len) (by omega)]

/-! ### What was read -/

/-- The first byte of a header without reserved bits is that of the writers. -/
theorem firstByte_bits : ∀ n < 256, UInt8.ofNat n &&& 0x70 = 0 →
    ∀ opcode ∈ Opcode.fromU8 (UInt8.ofNat n &&& 0x0F),
      UInt8.ofNat n = firstByte opcode (UInt8.ofNat n &&& 0x80 != 0) := by decide +kernel

/-- The second byte of a header with a mask bit is this bit and the seven-bit length. -/
theorem maskedByte_bits : ∀ n < 256, (UInt8.ofNat n &&& 0x80 != 0) = true →
    UInt8.ofNat n = 0x80 ||| UInt8.ofNat (UInt8.ofNat n &&& 0x7F).toNat ∧
      (UInt8.ofNat n &&& 0x7F).toNat < 128 := by decide +kernel

/-- A header that passes the checks is one of the masked writer, and that of a control frame says
that it is not fragmented and short. -/
theorem parseHeader_eq_ok {b₀ b₁ : UInt8} {fin : Bool} {opcode : Opcode} {code : ℕ}
    (h : parseHeader b₀ b₁ = .ok (fin, opcode, code)) :
    b₀ = firstByte opcode fin ∧ b₁ = 0x80 ||| UInt8.ofNat code ∧ code < 128 ∧
      code = (b₁ &&& 0x7F).toNat ∧ (opcode.isControl = true → fin = true ∧ code ≤ 125) := by
  have hfirst := firstByte_bits b₀.toNat b₀.toNat_lt
  have hsecond := maskedByte_bits b₁.toNat b₁.toNat_lt
  rw [UInt8.ofNat_toNat] at hfirst hsecond
  unfold parseHeader at h
  dsimp only at h
  split at h
  case isTrue => cases h
  case isFalse hrsv =>
      split at h
      case isTrue => cases h
      case isFalse hmask =>
          split at h
          case h_1 => cases h
          case h_2 op hop =>
              split at h
              case isTrue => cases h
              case isFalse hcontrol =>
                  cases h
                  obtain ⟨heq, hlt⟩ := hsecond (by simpa using hmask)
                  refine ⟨hfirst (by simpa using hrsv) _ hop, heq, hlt, rfl, fun hc => ?_⟩
                  simpa [hc] using hcontrol

/-- A payload length that was read, and the bytes it was read from. -/
theorem readPayloadLen_ok {code n : ℕ} {s s' : ByteStream}
    (h : (readPayloadLen code).run s = (.ok n, s')) :
    ∃ ext, s.input = ext ++ s'.input ∧ ext.length = extSize code ∧ n = lengthOf code ext := by
  unfold readPayloadLen at h
  unfold extSize lengthOf
  split at h
  case isTrue hcode =>
      cases h
      exact ⟨[], rfl, by rw [if_pos hcode]; rfl, by rw [if_pos hcode]⟩
  case isFalse hcode =>
      rw [if_neg hcode]
      split at h
      case isTrue h16 =>
          obtain ⟨ext, hin, hlen, hn⟩ := readNumber_ok h
          exact ⟨ext, hin, by rw [if_pos h16, hlen], by rw [if_neg hcode, hn]⟩
      case isFalse h16 =>
          obtain ⟨ext, hin, hlen, hn⟩ := readNumber_ok h
          exact ⟨ext, hin, by rw [if_neg h16, hlen], by rw [if_neg hcode, hn]⟩

/-- A frame that was read: its header passed the checks, and the length, the key and the masked
payload follow it. -/
theorem readFrame_ok {maxPayloadLen : ℕ} {f : Frame} {s s' : ByteStream}
    (h : (readFrame maxPayloadLen).run s = (.ok f, s')) :
    ∃ b₀ b₁ code ext key masked, s.input = b₀ :: b₁ :: (ext ++ (key ++ (masked ++ s'.input))) ∧
      parseHeader b₀ b₁ = .ok (f.fin, f.opcode, code) ∧ ext.length = extSize code ∧
      key.length = 4 ∧ masked.length = lengthOf code ext ∧
      f.payload = (MaskKey.ofBytes key).apply masked := by
  obtain ⟨header, s₁, h₁, h⟩ := Attempt.bind_eq_ok.1 h
  obtain ⟨hin₁, hlen₁, -⟩ := readExact_ok h₁
  obtain ⟨b₀, b₁, rfl⟩ := List.length_eq_two.1 hlen₁
  simp only [List.getD_cons_zero, List.getD_cons_succ] at h
  split at h
  case h_1 => cases h
  case h_2 fin opcode code hheader =>
      obtain ⟨n, s₂, h₂, h⟩ := Attempt.bind_eq_ok.1 h
      obtain ⟨ext, hin₂, hext, rfl⟩ := readPayloadLen_ok h₂
      split at h
      case isTrue => cases h
      case isFalse =>
          obtain ⟨key, s₃, h₃, h⟩ := Attempt.bind_eq_ok.1 h
          obtain ⟨masked, s₄, h₄, h⟩ := Attempt.bind_eq_ok.1 h
          cases h
          obtain ⟨hin₃, hkey, -⟩ := readExact_ok h₃
          obtain ⟨hin₄, hmasked, -⟩ := readExact_ok h₄
          refine ⟨b₀, b₁, code, ext, key, masked, ?_, hheader, hext, hkey, hmasked, rfl⟩
          rw [hin₁, hin₂, hin₃, hin₄]
          rfl

/-! ### Canonical frames -/

/-- The masking key of a frame, which stands before its payload. -/
def keyIn (bs : List UInt8) (f : Frame) : MaskKey :=
  MaskKey.ofBytes (bs.drop (bs.length - f.payload.length - 4))

/-- The bytes a frame was read from are those that the masked writer writes for it under its key,
and the frame is one that a peer may send. -/
def IsCanonical (bs : List UInt8) (f : Frame) : Prop :=
  f.Legal ∧ ∀ client : ByteStream, client.room = none →
    (writeFrameMasked f.opcode f.payload f.fin (keyIn bs f)).run client
      = (.ok (), { client with output := client.output ++ bs })


section Canonical

variable {f : Frame} {b₀ b₁ : UInt8} {code : ℕ} {ext key masked : List UInt8}

/-- A key is the four bytes it was made of, whatever follows them. -/
theorem ofBytes_append (hkey : key.length = 4) (rest : List UInt8) :
    MaskKey.ofBytes (key ++ rest) = MaskKey.ofBytes key ∧ (MaskKey.ofBytes key).toBytes = key := by
  obtain ⟨k₀, k₁, k₂, k₃, rfl⟩ : ∃ k₀ k₁ k₂ k₃, key = [k₀, k₁, k₂, k₃] := by
    match key, hkey with
    | [k₀, k₁, k₂, k₃], _ => exact ⟨k₀, k₁, k₂, k₃, rfl⟩
  exact ⟨rfl, rfl⟩

/-- The key that a frame was read with is found in its bytes. -/
theorem keyIn_eq (hkey : key.length = 4) (hlen : f.payload.length = masked.length) :
    keyIn (b₀ :: b₁ :: (ext ++ (key ++ masked))) f = MaskKey.ofBytes key := by
  have hdrop : (b₀ :: b₁ :: (ext ++ (key ++ masked))).length - f.payload.length - 4
      = ext.length + 2 := by
    simp only [List.length_cons, List.length_append]
    omega
  rw [keyIn, hdrop, List.drop_succ_cons, List.drop_succ_cons, List.drop_left,
    (ofBytes_append hkey masked).1]

/-- The masked writer writes the bytes of a frame that was read exactly when the seven-bit length is
that of the writers. -/
theorem maskedFrameBytes_eq_iff (hheader : parseHeader b₀ b₁ = .ok (f.fin, f.opcode, code))
    (hext : ext.length = extSize code) (hkey : key.length = 4)
    (hmasked : masked.length = lengthOf code ext)
    (hpayload : f.payload = (MaskKey.ofBytes key).apply masked) :
    maskedFrameBytes (MaskKey.ofBytes key) f = b₀ :: b₁ :: (ext ++ (key ++ masked)) ↔
      lenCode (lengthOf code ext) = code := by
  obtain ⟨hb₀, hb₁, hcode, -, -⟩ := parseHeader_eq_ok hheader
  have hlen : f.payload.length = lengthOf code ext := by
    rw [hpayload, MaskKey.length_apply, hmasked]
  rw [maskedFrameBytes, lenField, hlen, (ofBytes_append hkey []).2, hpayload, MaskKey.apply_apply,
    ← hb₀]
  constructor
  · intro h
    have hbyte : 0x80 ||| UInt8.ofNat (lenCode (lengthOf code ext)) = b₁ := by
      simpa using (List.cons_eq_cons.1 (List.cons_eq_cons.1 h).2).1
    have hbits := (secondByte_bits _ (lenCode_lt (lengthOf code ext))).2
    rw [hbyte, hb₁, (secondByte_bits _ hcode).2] at hbits
    exact hbits.symm
  · intro h
    rw [h, ← hb₁, extLen_of_lenCode hext h]
    simp

end Canonical

/-- The length in the bytes of a header is in the fewest bytes when the writers would have it so. -/
theorem minimalLength_iff {b₀ b₁ : UInt8} {ext rest : List UInt8} {code : ℕ} (hcode : code < 128)
    (hb₁ : (b₁ &&& 0x7F).toNat = code) (hext : ext.length = extSize code) :
    MinimalLength (b₀ :: b₁ :: (ext ++ rest)) ↔ lenCode (lengthOf code ext) = code := by
  have htake : ∀ n, extSize code = n → (ext ++ rest).take n = ext := by
    rintro n rfl
    rw [← hext, List.take_left]
  rw [lenCode_lengthOf_iff hcode hext, MinimalLength]
  simp only [codeOf, List.getD_cons_succ, List.getD_cons_zero, hb₁, List.drop_succ_cons,
    List.drop_zero]
  refine and_congr (forall_congr' fun h => ?_) (forall_congr' fun h => ?_)
  · rw [htake 2 (by rw [h]; rfl)]
  · rw [htake 8 (by rw [h]; rfl)]

/-- **A frame that is read is canonical exactly when** its payload length is in the fewest bytes
that hold it. -/
theorem readFrame_canonical_iff (maxPayloadLen : ℕ) {s s' : ByteStream} {f : Frame}
    (h : (readFrame maxPayloadLen).run s = (.ok f, s')) {c : List UInt8}
    (hc : s.input = c ++ s'.input) : IsCanonical c f ↔ MinimalLength s.input := by
  obtain ⟨b₀, b₁, code, ext, key, masked, hin, hheader, hext, hkey, hmasked, hpayload⟩ :=
    readFrame_ok h
  obtain ⟨-, -, hcode, hb₁, hcontrol⟩ := parseHeader_eq_ok hheader
  have hlen : f.payload.length = masked.length := by rw [hpayload, MaskKey.length_apply]
  have hbytes : c = b₀ :: b₁ :: (ext ++ (key ++ masked)) := by
    have happend : c ++ s'.input = b₀ :: b₁ :: (ext ++ (key ++ masked)) ++ s'.input := by
      rw [← hc, hin]
      simp
    exact List.append_cancel_right happend
  have hlegal : f.Legal := by
    intro hctl
    obtain ⟨hfin, hshort⟩ := hcontrol hctl
    refine ⟨hfin, ?_⟩
    rw [hlen, hmasked, lengthOf, if_pos hshort]
    exact hshort
  have hwritten : IsCanonical c f ↔ maskedFrameBytes (MaskKey.ofBytes key) f = c := by
    have hrun : ∀ client : ByteStream, client.room = none →
        (writeFrameMasked f.opcode f.payload f.fin (MaskKey.ofBytes key)).run client
          = (.ok (), { client with
              output := client.output ++ maskedFrameBytes (MaskKey.ofBytes key) f }) := by
      intro client hroom
      obtain ⟨e, he⟩ := run_writeFrameMasked (MaskKey.ofBytes key) f client
      rw [client.push_of_room hroom] at he
      rw [he, if_neg (by simp [ByteStream.Broken, hroom])]
    rw [IsCanonical, hbytes, keyIn_eq hkey hlen, ← hbytes]
    constructor
    · rintro ⟨-, hall⟩
      have hempty := (hrun { input := [] } rfl).symm.trans (hall { input := [] } rfl)
      simpa using congrArg (fun r => r.2.output) hempty
    · rintro heq
      refine ⟨hlegal, fun client hroom => ?_⟩
      rw [hrun client hroom, heq]
  rw [hwritten, hbytes, maskedFrameBytes_eq_iff hheader hext hkey hmasked hpayload, hin,
    minimalLength_iff hcode hb₁.symm hext]

/-- A masked text of two bytes. -/
def twoByteText : ByteStream := { input := [0x81, 0x82, 1, 2, 3, 4, 0x69, 0x6B, 0x2A] }

theorem readFrame_canonical_twoByteText :
    IsCanonical [0x81, 0x82, 1, 2, 3, 4, 0x69, 0x6B] ⟨true, .text, [0x68, 0x69]⟩ :=
  (@readFrame_canonical_iff 16 twoByteText { input := [0x2A] } _ rfl _ rfl).2 (by decide)

/-- The same text with its length in sixteen bits. -/
def longFormText : ByteStream := { input := [0x81, 0xFE, 0, 2, 1, 2, 3, 4, 0x69, 0x6B] }

/-- It is read all the same. -/
theorem not_canonical_longFormText :
    (readFrame 16).run longFormText = (.ok ⟨true, .text, [0x68, 0x69]⟩, { input := [] }) ∧
      ¬ IsCanonical longFormText.input ⟨true, .text, [0x68, 0x69]⟩ := by
  refine ⟨by rfl, fun h => ?_⟩
  have := h.2 { input := [] } rfl
  revert this
  decide

end OxiHttp
