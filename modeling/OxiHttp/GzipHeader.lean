/-
**The header of a gzip body, byte by byte.**

`gzip_deflate_payload_start` indexes the body, and an index beyond its end would be a panic.  Here
every index is checked as it is in the source; no check fails.  A header is skipped whole, and a
part of one is refused: what is accepted stays accepted when more bytes follow, with the same
result.

Main definitions:

* `OxiHttp.ReadStop`, `OxiHttp.byteAt` — an index that may be out of range;
* `OxiHttp.Indexed.gzipDeflatePayloadStart` — the function with checked indices.

Main results:

* `OxiHttp.Indexed.gzipDeflatePayloadStart_eq` — no index is out of range;
* `OxiHttp.gzipDeflatePayloadStart_ok` — where the content of an accepted body may begin.
-/

import OxiHttp.GzipBody

set_option relaxedAutoImplicit false
set_option autoImplicit false

namespace OxiHttp

/-! ### Indices -/

/-- Why a function on bytes does not return a position: it returns an error, or it panics. -/
inductive ReadStop where
  | failed (e : OxiHttpError)
  | outOfRange
deriving DecidableEq

/-- `data[i]`. -/
def byteAt (data : List UInt8) (i : ℕ) : Except ReadStop UInt8 :=
  match data[i]? with
  | some b => .ok b
  | none => .error .outOfRange

theorem byteAt_of_lt {data : List UInt8} {i : ℕ} (h : i < data.length) :
    byteAt data i = .ok (data.getD i 0) := by
  rw [byteAt, List.getD_eq_getElem?_getD, List.getElem?_eq_getElem h]
  rfl

namespace Indexed

/-- `FEXTRA`. -/
def skipExtra (flg : UInt8) (data : List UInt8) (pos : ℕ) : Except ReadStop ℕ :=
  if flg &&& 0x04 ≠ 0 then
    if data.length < pos + 2 then .error (.failed (.body "gzip: truncated FEXTRA length"))
    else do
      let xlen := LittleEndian.ofBytes [← byteAt data pos, ← byteAt data (pos + 1)]
      if 2 ^ 64 ≤ pos + 2 + xlen then .error (.failed (.body "gzip: FEXTRA length overflow"))
      else if data.length < pos + 2 + xlen then
        .error (.failed (.body "gzip: truncated FEXTRA data"))
      else .ok (pos + 2 + xlen)
  else .ok pos

/-- The loop that looks for the end of a text. -/
def scanText (data : List UInt8) (pos : ℕ) : Except ReadStop ℕ :=
  if pos < data.length then do
    if (← byteAt data pos) ≠ 0 then scanText data (pos + 1) else .ok pos
  else .ok pos
termination_by data.length - pos

/-- `FNAME` and `FCOMMENT`. -/
def skipText (bit : UInt8) (field : String) (flg : UInt8) (data : List UInt8) (pos : ℕ) :
    Except ReadStop ℕ :=
  if flg &&& bit ≠ 0 then do
    let pos ← scanText data pos
    if data.length ≤ pos then .error (.failed (.body ("gzip: truncated " ++ field)))
    else .ok (pos + 1)
  else .ok pos

/-- `FHCRC`, which is not read. -/
def skipHcrc (flg : UInt8) (data : List UInt8) (pos : ℕ) : Except ReadStop ℕ :=
  (OxiHttp.skipHcrc flg data pos).mapError .failed

/-- `gzip_deflate_payload_start`. -/
def gzipDeflatePayloadStart (data : List UInt8) : Except ReadStop ℕ := do
  if data.length < 10 then .error (.failed (.body "gzip: stream too short"))
  else if (← byteAt data 0) ≠ 0x1F ∨ (← byteAt data 1) ≠ 0x8B then
    .error (.failed (.body "gzip: bad magic bytes"))
  else if (← byteAt data 2) ≠ 8 then
    .error (.failed (.body ("gzip: unsupported compression method " ++
      toString (← byteAt data 2).toNat)))
  else
    let flg ← byteAt data 3
    let pos ← skipExtra flg data 10
    let pos ← skipText 0x08 "FNAME" flg data pos
    let pos ← skipText 0x10 "FCOMMENT" flg data pos
    let pos ← skipHcrc flg data pos
    if data.length < pos then
      .error (.failed (.body "gzip: header extends past end of data"))
    else .ok pos

/-! ### No index is out of range -/

theorem skipExtra_eq (flg : UInt8) (data : List UInt8) (pos : ℕ) :
    skipExtra flg data pos = (OxiHttp.skipExtra flg data pos).mapError .failed := by
  rw [skipExtra, OxiHttp.skipExtra]
  split_ifs with hflg hlen
  · rfl
  · rw [byteAt_of_lt (by omega), byteAt_of_lt (by omega)]
    dsimp only [bind, Except.bind]
    split_ifs <;> rfl
  · rfl

theorem scanText_eq (data : List UInt8) (pos : ℕ) :
    scanText data pos = .ok (OxiHttp.scanText (data.drop pos) pos) := by
  fun_induction scanText data pos with
  | case1 pos hlt ih =>
      have hbyte : data.getD pos 0 = data[pos] := by
        rw [List.getD_eq_getElem?_getD, List.getElem?_eq_getElem hlt]
        rfl
      rw [byteAt_of_lt hlt, List.drop_eq_getElem_cons hlt, OxiHttp.scanText, hbyte]
      dsimp only [bind, Except.bind]
      split_ifs with hzero
      · exact ih
      · rfl
  | case2 pos hlt =>
      rw [List.drop_eq_nil_of_le (not_lt.1 hlt)]
      rfl

theorem skipText_eq (bit : UInt8) (field : String) (flg : UInt8) (data : List UInt8) (pos : ℕ) :
    skipText bit field flg data pos
      = (OxiHttp.skipText bit field flg data pos).mapError .failed := by
  rw [skipText, OxiHttp.skipText]
  split_ifs with hflg
  · rw [scanText_eq]
    dsimp only [bind, Except.bind]
    split_ifs <;> rfl
  · rfl

theorem mapError_bind {α β ε ε' : Type} (x : Except ε α) (f : α → Except ε β) (g : ε → ε') :
    (x >>= f).mapError g = x.mapError g >>= fun a => (f a).mapError g := by
  cases x <;> rfl

theorem bind_ok {α β ε : Type} (a : α) (f : α → Except ε β) : (Except.ok a >>= f) = f a := rfl

/-- No index is out of range. -/
theorem gzipDeflatePayloadStart_eq (data : List UInt8) :
    gzipDeflatePayloadStart data
      = (OxiHttp.gzipDeflatePayloadStart data).mapError .failed := by
  rw [gzipDeflatePayloadStart, OxiHttp.gzipDeflatePayloadStart]
  by_cases hlen : data.length < 10
  · rw [if_pos hlen, if_pos hlen]
    rfl
  rw [if_neg hlen, if_neg hlen]
  have h₀ := @byteAt_of_lt data 0 (by omega)
  have h₁ := @byteAt_of_lt data 1 (by omega)
  have h₂ := @byteAt_of_lt data 2 (by omega)
  have h₃ := @byteAt_of_lt data 3 (by omega)
  simp only [h₀, h₁, h₂, h₃, bind_ok]
  by_cases hmagic : data.getD 0 0 ≠ 0x1F ∨ data.getD 1 0 ≠ 0x8B
  · rw [if_pos hmagic, if_pos hmagic]
    rfl
  rw [if_neg hmagic, if_neg hmagic]
  by_cases hmethod : data.getD 2 0 ≠ 8
  · rw [if_pos hmethod, if_pos hmethod]
    rfl
  rw [if_neg hmethod, if_neg hmethod]
  simp only [mapError_bind, skipExtra_eq, skipName, skipComment, skipText_eq, skipHcrc]
  refine bind_congr fun pos => bind_congr fun pos => bind_congr fun pos => bind_congr fun pos => ?_
  split_ifs <;> rfl

end Indexed

/-! ### What is accepted -/

theorem bind_eq_ok {α β ε : Type} {x : Except ε α} {f : α → Except ε β} {b : β} :
    x >>= f = .ok b ↔ ∃ a, x = .ok a ∧ f a = .ok b := by
  cases x with
  | error e =>
      constructor
      · intro h
        cases h
      · rintro ⟨a, h, -⟩
        cases h
  | ok a =>
      constructor
      · intro h
        exact ⟨a, rfl, h⟩
      · rintro ⟨a, h, hf⟩
        cases h
        exact hf

section Accepted

variable {flg : UInt8} {data : List UInt8} {pos p : ℕ}

theorem skipExtra_ok (h : skipExtra flg data pos = .ok p) (hpos : pos ≤ data.length) :
    pos ≤ p ∧ p ≤ data.length ∧ ∀ rest, skipExtra flg (data ++ rest) pos = .ok p := by
  rw [skipExtra] at h
  by_cases hflg : flg &&& 0x04 ≠ 0
  case neg =>
      rw [if_neg hflg] at h
      cases h
      exact ⟨le_rfl, hpos, fun rest => by rw [skipExtra, if_neg hflg]⟩
  rw [if_pos hflg] at h
  by_cases hlen : data.length < pos + 2
  case pos =>
      rw [if_pos hlen] at h
      cases h
  rw [if_neg hlen] at h
  generalize hxlen : LittleEndian.ofBytes [data.getD pos 0, data.getD (pos + 1) 0] = xlen at h
  dsimp only at h
  split_ifs at h with hover hdata
  cases h
  refine ⟨by omega, not_lt.1 hdata, fun rest => ?_⟩
  rw [skipExtra, if_pos hflg, List.length_append, if_neg (by omega),
    List.getD_append _ _ _ _ (by omega), List.getD_append _ _ _ _ (by omega), hxlen]
  dsimp only
  rw [if_neg hover, if_neg (by omega)]

theorem scanText_le (bs : List UInt8) (pos : ℕ) :
    pos ≤ scanText bs pos ∧ scanText bs pos ≤ pos + bs.length := by
  induction bs generalizing pos with
  | nil => exact ⟨le_rfl, le_rfl⟩
  | cons b bs ih =>
      have := ih (pos + 1)
      rw [scanText, List.length_cons]
      split_ifs <;> omega

/-- A text that has ended stays as it is. -/
theorem scanText_append {bs : List UInt8} {pos : ℕ} (h : scanText bs pos < pos + bs.length)
    (rest : List UInt8) : scanText (bs ++ rest) pos = scanText bs pos := by
  induction bs generalizing pos with
  | nil => exact absurd h (by simp [scanText])
  | cons b bs ih =>
      rw [List.cons_append, scanText, scanText]
      rw [scanText, List.length_cons] at h
      split_ifs at h ⊢ with hb
      · exact ih (by omega)
      · rfl

theorem skipText_ok {bit : UInt8} {field : String} (h : skipText bit field flg data pos = .ok p)
    (hpos : pos ≤ data.length) :
    pos ≤ p ∧ p ≤ data.length ∧ ∀ rest, skipText bit field flg (data ++ rest) pos = .ok p := by
  rw [skipText] at h
  split_ifs at h with hflg
  · dsimp only at h
    split_ifs at h with hend
    cases h
    have hle := scanText_le (data.drop pos) pos
    refine ⟨by omega, by omega, fun rest => ?_⟩
    rw [skipText, if_pos hflg, List.drop_append_of_le_length hpos,
      scanText_append (by rw [List.length_drop]; omega)]
    rw [if_neg (by rw [List.length_append]; omega)]
  · cases h
    exact ⟨le_rfl, hpos, fun rest => by rw [skipText, if_neg hflg]⟩

theorem skipHcrc_ok (h : skipHcrc flg data pos = .ok p) (hpos : pos ≤ data.length) :
    pos ≤ p ∧ p ≤ data.length ∧ ∀ rest, skipHcrc flg (data ++ rest) pos = .ok p := by
  rw [skipHcrc] at h
  split_ifs at h with hflg hlen
  · cases h
    refine ⟨by omega, by omega, fun rest => ?_⟩
    rw [skipHcrc, if_pos hflg, if_neg (by rw [List.length_append]; omega)]
  · cases h
    exact ⟨le_rfl, hpos, fun rest => by rw [skipHcrc, if_neg hflg]⟩

/-- The content of an accepted body begins behind the ten bytes that every header has and not
behind the end, and it stays there when more bytes follow. -/
theorem gzipDeflatePayloadStart_ok (h : gzipDeflatePayloadStart data = .ok p) :
    10 ≤ p ∧ p ≤ data.length ∧ ∀ rest, gzipDeflatePayloadStart (data ++ rest) = .ok p := by
  rw [gzipDeflatePayloadStart] at h
  by_cases hlen : data.length < 10
  · rw [if_pos hlen] at h
    cases h
  rw [if_neg hlen] at h
  by_cases hmagic : data.getD 0 0 ≠ 0x1F ∨ data.getD 1 0 ≠ 0x8B
  · rw [if_pos hmagic] at h
    cases h
  rw [if_neg hmagic] at h
  by_cases hmethod : data.getD 2 0 ≠ 8
  · rw [if_pos hmethod] at h
    cases h
  rw [if_neg hmethod] at h
  obtain ⟨p₁, h₁, h⟩ := bind_eq_ok.1 h
  obtain ⟨p₂, h₂, h⟩ := bind_eq_ok.1 h
  obtain ⟨p₃, h₃, h⟩ := bind_eq_ok.1 h
  obtain ⟨p₄, h₄, h⟩ := bind_eq_ok.1 h
  split_ifs at h with hend
  cases h
  obtain ⟨hle₁, hend₁, happend₁⟩ := skipExtra_ok h₁ (not_lt.1 hlen)
  obtain ⟨hle₂, hend₂, happend₂⟩ := skipText_ok h₂ hend₁
  obtain ⟨hle₃, hend₃, happend₃⟩ := skipText_ok h₃ hend₂
  obtain ⟨hle₄, hend₄, happend₄⟩ := skipHcrc_ok h₄ hend₃
  refine ⟨by omega, hend₄, fun rest => ?_⟩
  have hlen' : ¬ (data ++ rest).length < 10 := by
    rw [List.length_append]
    omega
  have hget : ∀ i < 10, (data ++ rest).getD i 0 = data.getD i 0 := fun i hi =>
    List.getD_append _ _ _ _ (by omega)
  rw [gzipDeflatePayloadStart, if_neg hlen', hget 0 (by omega), hget 1 (by omega),
    hget 2 (by omega), hget 3 (by omega), if_neg hmagic, if_neg hmethod]
  refine bind_eq_ok.2 ⟨p₁, happend₁ rest, bind_eq_ok.2 ⟨p₂, happend₂ rest,
    bind_eq_ok.2 ⟨p₃, happend₃ rest, bind_eq_ok.2 ⟨p, happend₄ rest, ?_⟩⟩⟩⟩
  rw [if_neg (by rw [List.length_append]; omega)]

end Accepted

/-- **A header is skipped exactly**: no index is out of range, the content begins within the body
and not before its eleventh byte, it begins behind the header whatever follows, and a header that is
cut off is refused. -/
theorem gzipDeflatePayloadStart_exact :
    (∀ data, Indexed.gzipDeflatePayloadStart data ≠ .error .outOfRange ∧
      Indexed.gzipDeflatePayloadStart data = (gzipDeflatePayloadStart data).mapError .failed) ∧
    (∀ data p, gzipDeflatePayloadStart data = .ok p → 10 ≤ p ∧ p ≤ data.length) ∧
    (∀ (header : Gzip.Header) (payload : List UInt8),
      gzipDeflatePayloadStart (header.encode ++ payload) = .ok header.encode.length) ∧
    ∀ (header : Gzip.Header) (part : List UInt8), part <+: header.encode →
      part ≠ header.encode → ∃ e, gzipDeflatePayloadStart part = .error e := by
  refine ⟨fun data => ⟨?_, Indexed.gzipDeflatePayloadStart_eq data⟩, fun data p h => ?_,
    gzipDeflatePayloadStart_encode, fun header part hprefix hne => ?_⟩
  · rw [Indexed.gzipDeflatePayloadStart_eq]
    cases gzipDeflatePayloadStart data with
    | ok p =>
        intro h
        cases h
    | error e =>
        intro h
        cases h
  · obtain ⟨hlow, hhigh, -⟩ := gzipDeflatePayloadStart_ok h
    exact ⟨hlow, hhigh⟩
  · cases hstart : gzipDeflatePayloadStart part with
    | error e => exact ⟨e, rfl⟩
    | ok p =>
        -- what is accepted of the part is accepted of the header, which is longer
        obtain ⟨-, hle, happend⟩ := gzipDeflatePayloadStart_ok hstart
        obtain ⟨rest, hrest⟩ := hprefix
        have hwhole := gzipDeflatePayloadStart_encode header []
        rw [List.append_nil, ← hrest, happend, Except.ok.injEq, List.length_append] at hwhole
        have hnil : rest = [] := List.length_eq_zero_iff.1 (by omega)
        rw [hnil, List.append_nil] at hrest
        exact absurd hrest hne

end OxiHttp
