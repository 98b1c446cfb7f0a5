import Mathlib.Algebra.Ring.Nat
import Mathlib.Data.List.Induction

namespace BigEndian

/-- The number whose bytes, most significant first, are `bytes`. -/
def decode (bytes : List UInt8) : Nat :=
  bytes.foldl (fun value byte => (value <<< 8) ||| byte.toNat) 0

/-- The low `count` bytes of `value`, most significant first. -/
def encode (value : Nat) : Nat → List UInt8
  | 0 => []
  | count + 1 => UInt8.ofNat ((value >>> (8 * count)) &&& 0xff) :: encode value count

@[simp] theorem length_encode (value count : Nat) : (encode value count).length = count := by
  induction count with
  | zero => rfl
  | succ count ih => simp [encode, ih]

theorem push_byte (value : Nat) (byte : UInt8) : (value <<< 8) ||| byte.toNat = value * 2 ^ 8 + byte.toNat := by
  have small : byte.toNat < 2 ^ 8 := byte.toNat_lt
  rw [← Nat.shiftLeft_add_eq_or_of_lt small, Nat.shiftLeft_eq]

theorem encode_head (value count : Nat) :
    (UInt8.ofNat ((value >>> (8 * count)) &&& 0xff)).toNat = value / 2 ^ (8 * count) % 2 ^ 8 := by
  have mask : (value >>> (8 * count)) &&& 0xff = value / 2 ^ (8 * count) % 2 ^ 8 := by
    rw [Nat.shiftRight_eq_div_pow]
    exact Nat.and_two_pow_sub_one_eq_mod _ 8
  rw [mask, UInt8.toNat_ofNat']
  exact Nat.mod_mod _ _

theorem encode_mod (value : Nat) {count bits : Nat} (enough : 8 * count ≤ bits) :
    encode (value % 2 ^ bits) count = encode value count := by
  induction count with
  | zero => rfl
  | succ count ih =>
    have split : 2 ^ bits = 2 ^ (8 * count) * 2 ^ (bits - 8 * count) := by
      rw [← Nat.pow_add]
      congr 1
      omega
    have byte : 2 ^ 8 ∣ 2 ^ (bits - 8 * count) := Nat.pow_dvd_pow 2 (by omega)
    rw [encode, encode, ih (by omega)]
    congr 1
    apply UInt8.toNat_inj.mp
    rw [encode_head, encode_head, split, Nat.mod_mul_right_div_self, Nat.mod_mod_of_dvd _ byte]

theorem foldl_encode (value count start : Nat) :
    (encode value count).foldl (fun value byte => (value <<< 8) ||| byte.toNat) start =
      start * 2 ^ (8 * count) + value % 2 ^ (8 * count) := by
  induction count generalizing start with
  | zero => simp [encode, Nat.mod_one]
  | succ count ih =>
    have split : value % 2 ^ (8 * (count + 1)) =
        value / 2 ^ (8 * count) % 2 ^ 8 * 2 ^ (8 * count) + value % 2 ^ (8 * count) := by
      rw [Nat.mul_add, Nat.pow_add, Nat.mod_mul, Nat.mul_comm (_ % _), Nat.add_comm]
    rw [encode, List.foldl_cons, ih, push_byte, encode_head, split, Nat.add_mul, Nat.mul_add,
      Nat.pow_add, Nat.mul_assoc, Nat.mul_comm (2 ^ 8), Nat.add_assoc]

theorem decode_encode (value count : Nat) (fits : value < 2 ^ (8 * count)) :
    decode (encode value count) = value := by
  rw [decode, foldl_encode, Nat.zero_mul, Nat.zero_add, Nat.mod_eq_of_lt fits]

theorem decode_lt (bytes : List UInt8) : decode bytes < 2 ^ (8 * bytes.length) := by
  induction bytes using List.reverseRecOn with
  | nil => simp [decode]
  | append_singleton bytes byte ih =>
    have small : byte.toNat < 2 ^ 8 := byte.toNat_lt
    have pushed : decode (bytes ++ [byte]) = decode bytes * 2 ^ 8 + byte.toNat := by
      simp only [decode, List.foldl_append, List.foldl_cons, List.foldl_nil, push_byte]
    rw [pushed, List.length_append, List.length_singleton, Nat.mul_add, Nat.pow_add]
    omega

end BigEndian
