import Mathlib.Data.Nat.Basic
import Mathlib.Tactic.Ring
/-!
# Numbers as bytes, the most significant first

A number is written in a fixed count of bytes, which keeps what fits into them. The number that
such bytes stand for is read back, and bytes are the writing of the number they stand for.
-/
namespace BigEndian

/-- The last bytes of a number, so many of them. -/
def encode : Nat → Nat → List UInt8
  | 0, _ => []
  | width + 1, n => UInt8.ofNat (n / 256 ^ width) :: encode width n

/-- The number that the bytes stand for. -/
def decode : List UInt8 → Nat
  | [] => 0
  | byte :: rest => byte.toNat * 256 ^ rest.length + decode rest

variable (width n : Nat)

theorem encode_length : (encode width n).length = width := by
  induction width with
  | zero => rfl
  | succ width ih => rw [encode, List.length_cons, ih]

/-- The value of so many bytes fits them. -/
theorem decode_lt (bytes : List UInt8) : decode bytes < 256 ^ bytes.length := by
  induction bytes with
  | nil => exact Nat.one_pos
  | cons byte rest ih =>
    have small : byte.toNat < 256 := byte.toNat_lt
    calc decode (byte :: rest)
        < byte.toNat * 256 ^ rest.length + 256 ^ rest.length := Nat.add_lt_add_left ih _
      _ = (byte.toNat + 1) * 256 ^ rest.length := by ring
      _ ≤ 256 * 256 ^ rest.length := Nat.mul_le_mul_right _ small
      _ = 256 ^ (byte :: rest).length := by rw [List.length_cons, Nat.pow_succ, Nat.mul_comm]

/-- What does not fit is not written. -/
theorem encode_add_mul (high : Nat) : encode width (high * 256 ^ width + n) = encode width n := by
  induction width generalizing high with
  | zero => rfl
  | succ width ih =>
    have shift : high * 256 ^ (width + 1) + n = (high * 256) * 256 ^ width + n := by
      rw [Nat.pow_succ]
      ring
    rw [encode, encode, shift, ih]
    have quotient : ((high * 256) * 256 ^ width + n) / 256 ^ width =
        high * 256 + n / 256 ^ width := by
      rw [Nat.add_comm, Nat.add_mul_div_right n _ (Nat.pow_pos (by decide)), Nat.add_comm]
    rw [quotient]
    congr 1
    apply UInt8.toNat_inj.mp
    rw [UInt8.toNat_ofNat', UInt8.toNat_ofNat', Nat.add_comm, Nat.add_mul_mod_self_right]

/-- An encoded number is read back up to what the bytes can hold. -/
theorem decode_encode : decode (encode width n) = n % 256 ^ width := by
  induction width with
  | zero => rw [Nat.pow_zero, Nat.mod_one]; rfl
  | succ width ih =>
    have split : n % (256 ^ width * 256) = n % 256 ^ width +
      256 ^ width * (n / 256 ^ width % 256) :=
      Nat.mod_mul
    have byte : (UInt8.ofNat (n / 256 ^ width)).toNat = n / 256 ^ width % 256 :=
      UInt8.toNat_ofNat'
    rw [encode, decode, encode_length, ih, byte, Nat.pow_succ, split, Nat.mul_comm, Nat.add_comm]

/-- Bytes are the encoding of their value. -/
theorem encode_decode (bytes : List UInt8) : encode bytes.length (decode bytes) = bytes := by
  induction bytes with
  | nil => rfl
  | cons byte rest ih =>
    have below : decode rest < 256 ^ rest.length := decode_lt rest
    rw [List.length_cons, encode, decode, encode_add_mul, ih, Nat.add_comm,
      Nat.add_mul_div_right _ _ (Nat.pow_pos (by decide)), Nat.div_eq_of_lt below, Nat.zero_add,
      UInt8.ofNat_toNat]

end BigEndian
