/-
**Basic credentials.**

`set_basic_auth` of a header map and `basic_auth` of a request builder each have their own Base64
encoder, which puts three bytes into a `u32` and takes groups of six bits out of it.  The two
encoders are the same, and so are the values that they make of a user name and a password.

Main definitions:

* `OxiHttp.base64Groups` — the encoder that both have;
* `OxiHttp.HeaderMap.setBasicAuth`, `OxiHttp.RequestBuilder.basicAuth` — the two functions.

Main results:

* `OxiHttp.base64Groups_eq` — the encoder is that of RFC 4648;
* `OxiHttp.basicAuth_faithful` — both functions set the credentials, which can be read back.
-/

import Mathlib.Data.Nat.Bitwise
import OxiHttp.Base64
import OxiHttp.RequestBuilder

set_option relaxedAutoImplicit false
set_option autoImplicit false

namespace OxiHttp

/-! ### The encoder -/

/-- `CHARS`. -/
def base64Chars : Str :=
  "ABCDEFGHIJKLMNOPQRSTUVWXYZabcdefghijklmnopqrstuvwxyz0123456789+/".toList

/-- `chunks(3)`. -/
def chunksOfThree : List UInt8 → List (List UInt8)
  | [] => []
  | [a] => [[a]]
  | [a, b] => [[a, b]]
  | a :: b :: c :: data => [a, b, c] :: chunksOfThree data

/-- The character of six bits, which are always an index of the table. -/
def base64Char (sextet : UInt32) : Char := base64Chars.getD sextet.toNat 'A'

/-- One turn of the loop. -/
def base64Chunk (chunk : List UInt8) : Str :=
  let b0 := (chunk.getD 0 0).toUInt32
  let b1 := if 1 < chunk.length then (chunk.getD 1 0).toUInt32 else 0
  let b2 := if 2 < chunk.length then (chunk.getD 2 0).toUInt32 else 0
  let triple := (b0 <<< 16) ||| (b1 <<< 8) ||| b2
  [base64Char ((triple >>> 18) &&& 0x3F), base64Char ((triple >>> 12) &&& 0x3F),
    if 1 < chunk.length then base64Char ((triple >>> 6) &&& 0x3F) else '=',
    if 2 < chunk.length then base64Char (triple &&& 0x3F) else '=']

/-- The body of both `base64_encode` functions. -/
def base64Groups (data : List UInt8) : Str := (chunksOfThree data).flatMap base64Chunk

/-- `base64_encode` of `header_ext`. -/
def HeaderMap.base64Encode (data : List UInt8) : Str := base64Groups data

/-- `base64_encode` of the client. -/
def RequestBuilder.base64Encode (data : List UInt8) : Str := base64Groups data

/-! ### The credentials -/

/-- The value of a header field that is given as text; the error of the `http` crate becomes one of
the stack. -/
def authorizationValue (text : Str) : Except OxiHttpError HeaderValue :=
  match HeaderValue.fromStr text with
  | some v => .ok v
  | none => .error (.invalidHeader "failed to parse header value")

/-- `HeaderMapExt::set_basic_auth`. -/
def HeaderMap.setBasicAuth (headers : HeaderMap) (username : Str) (password : Option Str) :
    Except OxiHttpError HeaderMap := do
  let buf := Utf8.encode (username ++ [':'])
  let buf := match password with
    | some pw => buf ++ Utf8.encode pw
    | none => buf
  let encoded := HeaderMap.base64Encode buf
  let val ← authorizationValue ("Basic ".toList ++ encoded)
  return headers.insert "authorization".toList val

/-- `RequestBuilder::basic_auth`. -/
def RequestBuilder.basicAuth (request : RequestBuilder) (username : Str) (password : Option Str) :
    Except OxiHttpError RequestBuilder := do
  let credentials := match password with
    | some pw => username ++ ':' :: pw
    | none => username ++ [':']
  let encoded := RequestBuilder.base64Encode (Utf8.encode credentials)
  let v ← authorizationValue ("Basic ".toList ++ encoded)
  return { request with headers := request.headers.insert "authorization".toList v }

/-! ### Six bits at a time -/

/-- Three bytes in one number. -/
theorem toNat_triple (a b c : UInt8) :
    ((a.toUInt32 <<< 16) ||| (b.toUInt32 <<< 8) ||| c.toUInt32).toNat
      = a.toNat * 65536 + b.toNat * 256 + c.toNat := by
  have ha := a.toNat_lt
  have hb := b.toNat_lt
  have hc := c.toNat_lt
  have hhigh : (a.toUInt32 <<< 16).toNat = a.toNat <<< 16 := by
    rw [UInt32.toNat_shiftLeft, UInt8.toNat_toUInt32]
    simp only [Nat.shiftLeft_eq, UInt32.reduceToNat, Nat.reduceMod, Nat.reducePow]
    omega
  have hmiddle : (b.toUInt32 <<< 8).toNat = b.toNat <<< 8 := by
    rw [UInt32.toNat_shiftLeft, UInt8.toNat_toUInt32]
    simp only [Nat.shiftLeft_eq, UInt32.reduceToNat, Nat.reduceMod, Nat.reducePow]
    omega
  have hlow : b.toNat <<< 8 + c.toNat < 2 ^ 16 := by
    rw [Nat.shiftLeft_eq]
    omega
  rw [UInt32.toNat_or, UInt32.toNat_or, hhigh, hmiddle, UInt8.toNat_toUInt32, Nat.or_assoc,
    ← Nat.shiftLeft_add_eq_or_of_lt hc, ← Nat.shiftLeft_add_eq_or_of_lt hlow]
  simp only [Nat.shiftLeft_eq]
  omega

/-- Six bits of a number. -/
theorem toNat_sextet (t : UInt32) {n : UInt32} (hn : n.toNat < 32) :
    ((t >>> n) &&& 0x3F).toNat = t.toNat / 2 ^ n.toNat % 64 := by
  have hmask := Nat.and_two_pow_sub_one_eq_mod (t.toNat / 2 ^ n.toNat) 6
  rw [UInt32.toNat_and, UInt32.toNat_shiftRight, Nat.mod_eq_of_lt hn, Nat.shiftRight_eq_div_pow]
  exact hmask

theorem base64Char_eq {sextet : UInt32} {n : ℕ} (h : sextet.toNat = n) :
    base64Char sextet = Base64.digit n :=
  congrArg Base64.digit h

/-- The characters of three bytes, of which the last may be missing. -/
theorem sextets_triple (a b c : UInt8) :
    let triple := (a.toUInt32 <<< 16) ||| (b.toUInt32 <<< 8) ||| c.toUInt32
    ((triple >>> 18) &&& 0x3F).toNat = a.toNat / 4 ∧
      ((triple >>> 12) &&& 0x3F).toNat = a.toNat % 4 * 16 + b.toNat / 16 ∧
      ((triple >>> 6) &&& 0x3F).toNat = b.toNat % 16 * 4 + c.toNat / 64 ∧
      (triple &&& 0x3F).toNat = c.toNat % 64 := by
  have ha := a.toNat_lt
  have hb := b.toNat_lt
  have hc := c.toNat_lt
  have htriple := toNat_triple a b c
  intro triple
  change triple.toNat = _ at htriple
  have hlast : (triple &&& 0x3F).toNat = triple.toNat % 64 := by
    rw [UInt32.toNat_and]
    exact Nat.and_two_pow_sub_one_eq_mod _ 6
  refine ⟨?_, ?_, ?_, ?_⟩
  · rw [toNat_sextet _ (by decide), htriple]
    simp only [UInt32.reduceToNat, Nat.reducePow]
    omega
  · rw [toNat_sextet _ (by decide), htriple]
    simp only [UInt32.reduceToNat, Nat.reducePow]
    omega
  · rw [toNat_sextet _ (by decide), htriple]
    simp only [UInt32.reduceToNat, Nat.reducePow]
    omega
  · rw [hlast, htriple]
    omega

/-! ### The encoder is that of the RFC -/

theorem base64Chunk_three (a b c : UInt8) :
    base64Chunk [a, b, c] = Base64.encode [a, b, c] := by
  obtain ⟨hfirst, hsecond, hthird, hlast⟩ := sextets_triple a b c
  rw [Base64.encode, ← base64Char_eq hfirst, ← base64Char_eq hsecond, ← base64Char_eq hthird,
    ← base64Char_eq hlast]
  rfl

/-- The bytes that are missing are zero. -/
theorem base64Chunk_two (a b : UInt8) : base64Chunk [a, b] = Base64.encode [a, b] := by
  obtain ⟨hfirst, hsecond, hthird, -⟩ := sextets_triple a b 0
  have hzero : b.toNat % 16 * 4 + (0 : UInt8).toNat / 64 = b.toNat % 16 * 4 := rfl
  rw [Base64.encode, ← base64Char_eq hfirst, ← base64Char_eq hsecond, ← hzero,
    ← base64Char_eq hthird]
  rfl

theorem base64Chunk_one (a : UInt8) : base64Chunk [a] = Base64.encode [a] := by
  obtain ⟨hfirst, hsecond, -, -⟩ := sextets_triple a 0 0
  have hzero : a.toNat % 4 * 16 + (0 : UInt8).toNat / 16 = a.toNat % 4 * 16 := rfl
  rw [Base64.encode, ← base64Char_eq hfirst, ← hzero, ← base64Char_eq hsecond]
  rfl

/-- By the groups of three bytes. -/
theorem base64Groups_eq (data : List UInt8) : base64Groups data = Base64.encode data := by
  fun_induction Base64.encode data with
  | case1 => rfl
  | case2 a => exact (List.append_nil _).trans (base64Chunk_one a)
  | case3 a b => exact (List.append_nil _).trans (base64Chunk_two a b)
  | case4 a b c data ih =>
      rw [base64Groups, chunksOfThree, List.flatMap_cons, base64Chunk_three, ← base64Groups, ih]
      rfl

example : HeaderMap.base64Encode (Utf8.encode "user:pass".toList) = "dXNlcjpwYXNz".toList := by
  decide

/-! ### The values -/

/-- A value that a text of visible characters is made into. -/
theorem authorizationValue_basic (data : List UInt8) :
    authorizationValue ("Basic ".toList ++ Base64.encode data)
      = .ok ⟨Utf8.encode ("Basic ".toList ++ Base64.encode data)⟩ := by
  have hvisible : HeaderValue.IsVisible ("Basic ".toList ++ Base64.encode data) :=
    isVisible_append (by decide) fun _ hc => Base64.printing_of_mem_encode hc
  rw [authorizationValue, HeaderValue.fromStr_of_isVisible hvisible]

/-- The user name, a colon and the password, which may be missing. -/
def credentials (username : Str) (password : Option Str) : Str :=
  username ++ ':' :: password.getD []

theorem setBasicAuth_eq (headers : HeaderMap) (username : Str) (password : Option Str) :
    headers.setBasicAuth username password = .ok (headers.insert "authorization".toList
      ⟨Utf8.encode ("Basic ".toList ++ Base64.encode (Utf8.encode
        (credentials username password)))⟩) := by
  have hbuf : (match password with
      | some pw => Utf8.encode (username ++ [':']) ++ Utf8.encode pw
      | none => Utf8.encode (username ++ [':'])) = Utf8.encode (credentials username password) := by
    cases password with
    | none => rfl
    | some pw =>
        dsimp only
        rw [← Utf8.encode_append, List.append_assoc]
        rfl
  unfold HeaderMap.setBasicAuth HeaderMap.base64Encode
  dsimp only
  rw [hbuf, base64Groups_eq, authorizationValue_basic]
  rfl

theorem basicAuth_eq (request : RequestBuilder) (username : Str) (password : Option Str) :
    request.basicAuth username password = .ok { request with
      headers := request.headers.insert "authorization".toList
        ⟨Utf8.encode ("Basic ".toList ++ Base64.encode (Utf8.encode
          (credentials username password)))⟩ } := by
  have hcredentials : (match password with
      | some pw => username ++ ':' :: pw
      | none => username ++ [':']) = credentials username password := by
    cases password with
    | none => rfl
    | some pw => rfl
  unfold RequestBuilder.basicAuth RequestBuilder.base64Encode
  dsimp only
  rw [hcredentials, base64Groups_eq, authorizationValue_basic]
  rfl

/-- Both encoders are that of the RFC; and both functions set one value, whose text after `Basic `
is decoded to the user name, a colon and the password. -/
theorem basicAuth_faithful :
    (∀ data, HeaderMap.base64Encode data = Base64.encode data ∧
      RequestBuilder.base64Encode data = Base64.encode data) ∧
    ∀ (headers : HeaderMap) (request : RequestBuilder) (username : Str) (password : Option Str),
      ∃ text, Base64.decode text = some (Utf8.encode (username ++ ':' :: password.getD [])) ∧
        headers.setBasicAuth username password = .ok (headers.insert "authorization".toList
          ⟨Utf8.encode ("Basic ".toList ++ text)⟩) ∧
        request.basicAuth username password = .ok { request with
          headers := request.headers.insert "authorization".toList
            ⟨Utf8.encode ("Basic ".toList ++ text)⟩ } := by
  constructor
  · intro data
    exact ⟨base64Groups_eq data, base64Groups_eq data⟩
  · intro headers request username password
    exact ⟨_, Base64.decode_encode _, setBasicAuth_eq headers username password,
      basicAuth_eq request username password⟩

end OxiHttp
