/-
**Fixed-width big-endian numbers.**

Network formats write a number in a fixed number of bytes, most significant first.  This module
has the writer and the reader for any width and the facts their users need: a number that fits
the width is read back, what is read fits the width, and it is written in the bytes it was read
from.
-/

import Mathlib.Data.List.Basic
import Mathlib.Data.Nat.Basic
import Mathlib.Tactic.Common
import Mathlib.Tactic.Ring

set_option relaxedAutoImplicit false
set_option autoImplicit false

namespace BigEndian

/-- The lowest `w` bytes of `n`, most significant first. -/
def toBytes : ℕ → ℕ → List UInt8
  | 0, _ => []
  | w + 1, n => UInt8.ofNat (n / 256 ^ w) :: toBytes w n

/-- The number whose base-256 digits are the given bytes, added to `acc` shifted by them. -/
def ofBytesFrom (acc : ℕ) : List UInt8 → ℕ
  | [] => acc
  | b :: bs => ofBytesFrom (acc * 256 + b.toNat) bs

/-- The number whose base-256 digits are the given bytes. -/
def ofBytes (bs : List UInt8) : ℕ := ofBytesFrom 0 bs

@[simp] theorem length_toBytes (w n : ℕ) : (toBytes w n).length = w := by
  induction w with
  | zero => rfl
  | succ w ih => simp [toBytes, ih]

theorem ofBytesFrom_toBytes (w acc n : ℕ) :
    ofBytesFrom acc (toBytes w n) = acc * 256 ^ w + n % 256 ^ w := by
  induction w generalizing acc with
  | zero => simp [toBytes, ofBytesFrom, Nat.mod_one]
  | succ w ih =>
      have hdigit : n % 256 ^ (w + 1) = (n / 256 ^ w % 256) * 256 ^ w + n % 256 ^ w := by
        rw [pow_succ, Nat.mod_mul]
        ring
      rw [toBytes, ofBytesFrom, ih, hdigit, UInt8.toNat_ofNat']
      ring

/-- A number that fits the width is read back. -/
theorem ofBytes_toBytes {w n : ℕ} (h : n < 256 ^ w) : ofBytes (toBytes w n) = n := by
  rw [ofBytes, ofBytesFrom_toBytes, Nat.mod_eq_of_lt h]
  simp

theorem ofBytesFrom_lt (acc : ℕ) (bs : List UInt8) :
    ofBytesFrom acc bs < (acc + 1) * 256 ^ bs.length := by
  induction bs generalizing acc with
  | nil => simp [ofBytesFrom]
  | cons b bs ih =>
      have hb : acc * 256 + b.toNat + 1 ≤ (acc + 1) * 256 := by
        have := b.toNat_lt
        omega
      calc ofBytesFrom acc (b :: bs)
          < (acc * 256 + b.toNat + 1) * 256 ^ bs.length := ih _
        _ ≤ (acc + 1) * 256 * 256 ^ bs.length := Nat.mul_le_mul_right _ hb
        _ = (acc + 1) * 256 ^ (b :: bs).length := by rw [List.length_cons, pow_succ]; ring

/-- A number read from `w` bytes fits the width. -/
theorem ofBytes_lt {bs : List UInt8} {w : ℕ} (h : bs.length = w) : ofBytes bs < 256 ^ w := by
  have := ofBytesFrom_lt 0 bs
  simpa [ofBytes, h] using this

theorem ofBytesFrom_eq (acc : ℕ) (bs : List UInt8) :
    ofBytesFrom acc bs = acc * 256 ^ bs.length + ofBytes bs := by
  rw [ofBytes]
  induction bs generalizing acc with
  | nil => simp [ofBytesFrom]
  | cons b bs ih =>
      rw [ofBytesFrom, ofBytesFrom, ih, ih (0 * 256 + b.toNat), List.length_cons, pow_succ]
      ring

/-- The bytes a number was read from are written for it, in as many places. -/
theorem toBytes_ofBytesFrom (acc : ℕ) (bs : List UInt8) :
    toBytes bs.length (ofBytesFrom acc bs) = bs := by
  induction bs generalizing acc with
  | nil => rfl
  | cons b bs ih =>
      have hlt : ofBytes bs < 256 ^ bs.length := ofBytes_lt rfl
      have hdiv : ofBytesFrom (acc * 256 + b.toNat) bs / 256 ^ bs.length = acc * 256 + b.toNat := by
        rw [ofBytesFrom_eq, Nat.mul_comm, Nat.mul_add_div (Nat.pow_pos (by decide)),
          Nat.div_eq_of_lt hlt, Nat.add_zero]
      have hbyte : UInt8.ofNat (acc * 256 + b.toNat) = b := by
        rw [← UInt8.toNat_inj, UInt8.toNat_ofNat']
        have := b.toNat_lt
        omega
      rw [List.length_cons, toBytes, ofBytesFrom, hdiv, hbyte, ih]

theorem toBytes_ofBytes {w : ℕ} {bs : List UInt8} (h : bs.length = w) :
    toBytes w (ofBytes bs) = bs := by
  subst h
  exact toBytes_ofBytesFrom 0 bs

end BigEndian
